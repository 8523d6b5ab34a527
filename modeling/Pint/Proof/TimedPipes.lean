import Pint.Program.CommandLine
import Pint.Proof.Period

/-!
# The timed pipes and the watchdog

Which pipes are timed is recorded with each pipe, but the running voter asks two global indices
instead. `parseArgs` sets each of them to the last timed pipe of its kind, and where there is
none it leaves it at 0, which is the index of some other pipe.

`follows_flags_iff` says for which pipes the indices stand for the flags. What it means to follow
the flags is `FollowsFlags`, over all states and all runs: data from an input starts the timer if
and only if the input is timed, data to an output stops it if and only if the output is, and a
component without timed pipes has no watchdog. For which pipes that is so is `FlagsFit`, a
condition on the flags alone: at most one pipe of a kind is timed, and if none is, then pipe 0 is
not of that kind.

In between stands a fact about one index: the last number with a property is the only one with it,
or a default that does no harm (`lastWhere_iff`). A voter with a priority below 5 arms the timer
for another reason, see `Proof.Wedge`, and is not meant here.
-/

namespace Pint

open Prog

/-! ## The last index with a property -/

section Last

variable {n : Nat} {p q : Nat → Prop} [DecidablePred p]

/-- The last of the first `n` numbers with `p`, and 0 if there is none. -/
def lastWhere (p : Nat → Prop) [DecidablePred p] (n : Nat) : Nat :=
  (List.range n).foldl (fun acc i => if p i then i else acc) 0

theorem lastWhere_succ (n : Nat) :
    lastWhere p (n + 1) = if p n then n else lastWhere p n := by
  unfold lastWhere
  rw [List.range_succ, List.foldl_append, List.foldl_cons, List.foldl_nil]

theorem lastWhere_spec (n : Nat) : ((∀ i < n, ¬ p i) ∧ lastWhere p n = 0) ∨
    (lastWhere p n < n ∧ p (lastWhere p n)) := by
  induction n with
  | zero => exact Or.inl ⟨fun i hi => absurd hi (Nat.not_lt_zero i), rfl⟩
  | succ n ih =>
    rw [lastWhere_succ]
    by_cases hn : p n
    · rw [if_pos hn]
      exact Or.inr ⟨Nat.lt_succ_self n, hn⟩
    · rw [if_neg hn]
      rcases ih with ⟨hnone, hzero⟩ | ⟨hlt, hp⟩
      · refine Or.inl ⟨fun i hi => ?_, hzero⟩
        rcases Nat.lt_succ_iff_lt_or_eq.mp hi with hlt | rfl
        · exact hnone i hlt
        · exact hn
      · exact Or.inr ⟨Nat.lt_succ_of_lt hlt, hp⟩

/-- At most one of the first `n` numbers has `p`, and if none has it, then 0 is not one of those
that matter. -/
structure Indexed (p q : Nat → Prop) (n : Nat) : Prop where
  unique : ∀ i < n, ∀ j < n, p i → p j → i = j
  default : (∀ i < n, ¬ p i) → 0 < n → ¬ q 0

omit [DecidablePred p] in
theorem Indexed.of_only {k : Nat} (hk : k < n) (hp : p k) (h : ∀ i < n, p i → i = k) :
    Indexed p q n :=
  ⟨fun i hi j hj hpi hpj => (h i hi hpi).trans (h j hj hpj).symm,
    fun hnone _ => absurd hp (hnone k hk)⟩

/-- **When an index stands for a flag**, among the numbers with `q`. -/
theorem lastWhere_iff (hpq : ∀ i, p i → q i) :
    (∀ i < n, q i → (i = lastWhere p n ↔ p i)) ↔ Indexed p q n := by
  constructor
  · intro hall
    refine ⟨fun i hi j hj hpi hpj => ?_, fun hnone hpos hq => ?_⟩
    · exact ((hall i hi (hpq i hpi)).mpr hpi).trans ((hall j hj (hpq j hpj)).mpr hpj).symm
    · rcases lastWhere_spec (p := p) n with ⟨-, hzero⟩ | ⟨hlt, hp⟩
      · exact hnone 0 hpos ((hall 0 hpos hq).mp hzero.symm)
      · exact hnone _ hlt hp
  · rintro ⟨hunique, hdefault⟩ i hi hq
    rcases lastWhere_spec (p := p) n with ⟨hnone, hzero⟩ | ⟨hlt, hp⟩
    · refine ⟨fun heq => ?_, fun hpi => absurd hpi (hnone i hi)⟩
      rw [heq, hzero] at hq
      exact absurd hq (hdefault hnone (by omega))
    · constructor
      · intro heq
        rw [heq]
        exact hp
      · intro hpi
        exact hunique i hi _ hlt hpi hp

end Last

/-! ## The flags -/

/-- A pipe that is timed and brings data in. -/
def TimedInput (ext : Nat → VotePipe) (i : Nat) : Prop := (ext i).timed = true ∧ (ext i).fdIn ≠ 0

/-- A pipe that is timed and takes data out. -/
def TimedOutput (ext : Nat → VotePipe) (i : Nat) : Prop := (ext i).timed = true ∧ (ext i).fdIn = 0

instance (ext : Nat → VotePipe) : DecidablePred (TimedInput ext) := fun _ =>
  inferInstanceAs (Decidable (_ ∧ _))

instance (ext : Nat → VotePipe) : DecidablePred (TimedOutput ext) := fun _ =>
  inferInstanceAs (Decidable (_ ∧ _))

theorem timerIndexes_eq (n : Nat) (ext : Nat → VotePipe) :
    timerIndexes n ext = (lastWhere (TimedInput ext) n, lastWhere (TimedOutput ext) n) := by
  induction n with
  | zero => rfl
  | succ n ih =>
    have hstep : timerIndexes (n + 1) ext = if (ext n).timed then
        if (ext n).fdIn ≠ 0 then (n, (timerIndexes n ext).2) else ((timerIndexes n ext).1, n)
        else timerIndexes n ext := by
      unfold timerIndexes
      rw [List.range_succ, List.foldl_append, List.foldl_cons, List.foldl_nil]
    rw [hstep, ih, lastWhere_succ, lastWhere_succ]
    unfold TimedInput TimedOutput
    by_cases ht : (ext n).timed = true
    · by_cases hin : (ext n).fdIn = 0
      · simp [ht, hin]
      · simp [ht, hin]
    · simp [ht]

/-- **The flags that the indices can stand for.** At most one input is timed, and if none is,
pipe 0 is not an input; and if a timer can run at all, the same is true of the outputs. -/
structure FlagsFit (ext : Nat → VotePipe) (n : Nat) : Prop where
  inputs : Indexed (TimedInput ext) (fun i => (ext i).fdIn ≠ 0) n
  outputs : (∃ i < n, TimedInput ext i) → Indexed (TimedOutput ext) (fun i => (ext i).fdIn = 0) n

/-! ## What the voter does with the timer -/

section Calls

variable {cfg : Config} {env : Env} {v v' : Voter} {E : Stop → Prop} {i r : Nat}

/-- `processData` starts a timer that does not run exactly on the pipe `timer_start_index`. -/
theorem processData_timer (hoff : v.timerStarted = false) :
    wp (processData cfg env i)
      (fun _ v' => v'.timerStarted = true ↔ i = cfg.timerStartIndex) E v := by
  refine (processData_still i).imp fun _ v' hv' => ?_
  rw [hv'.1.timerStarted]
  unfold Voter.arm
  by_cases hi : i = cfg.timerStartIndex
  · rw [if_pos ⟨hi, hoff⟩]
    exact iff_of_true rfl hi
  · rw [if_neg fun hc => hi hc.1]
    simp [hoff, hi]

/-- One turn of the loop of `sendPipe` has nothing to do with the timer. -/
theorem sendTurn_timer (bytesAvail : Int) (k : Nat) :
    wp (sendTurn i r bytesAvail k) (fun _ v' => v'.timerStarted = v.timerStarted)
      (fun _ => True) v := by
  unfold sendTurn
  rw [wp_bind, wp_get, wp_ite]
  split
  · rw [wp_bind]
    refine wp_lift (fun sent _ => ?_) fun _ _ => trivial
    obtain ⟨ret, pipe, bytes, said⟩ := sent
    dsimp only
    rw [wp_bind, wp_say, wp_ite]
    split
    · rw [wp_bind, wp_discard]
      refine (write_spec _ _).imp fun _ u hu => ?_
      obtain ⟨-, unread, rfl⟩ := hu
      exact rfl
    · exact rfl
  · exact rfl

/-- `sendPipe` stops a timer that runs exactly on the pipe `timer_stop_index`, if it sends. -/
theorem sendPipe_timer (hon : v.timerStarted = true)
    (hbytes : bytesReady v.replicas cfg.repCount i ≠ 0) :
    wp (sendPipe cfg i r) (fun _ v' => v'.timerStarted = false ↔ i = cfg.timerStopIndex)
      (fun _ => True) v := by
  have hloop : ∀ w : Voter, wp (loop cfg.repCount (sendTurn i r
      (bytesReady v.replicas cfg.repCount i))) (fun _ v' => v'.timerStarted = w.timerStarted)
      (fun _ => True) w := by
    intro w
    refine wp_loop_const (fun u : Voter => u.timerStarted = w.timerStarted) rfl ?_
    intro k u _ hu
    exact (sendTurn_timer _ k).imp fun _ u' hu' => hu'.trans hu
  unfold sendPipe
  rw [wp_bind, wp_get]
  dsimp only
  rw [wp_ite, if_neg hbytes, wp_ite]
  split
  · rename_i hi
    rw [wp_bind, wp_modify]
    refine (hloop _).imp fun _ v' hv' => ?_
    rw [hv']
    exact iff_of_true rfl hi
  · rename_i hi
    refine (hloop _).imp fun _ v' hv' => ?_
    rw [hv', hon]
    simp [hi]

end Calls

/-! ## A timer that is never started -/

/-- No timer runs, the watchdog has not called the handler, and the index of the pipe that starts
the timer is not that of an input. -/
structure Idle (cfg : Config) (v : Voter) : Prop where
  off : v.timerStarted = false
  quiet : ∀ t, .expired t ∉ v.log.calls
  start : cfg.timerStartIndex < cfg.pipeCount → (v.extPipes cfg.timerStartIndex).fdIn = 0

section Idle

variable {cfg : Config} {env : Env} {plan : Plan} {id : Nat → Nat → Nat} {v v' : Voter}
  {E : Stop → Prop}

theorem Idle.of_same (h : Idle cfg v) (hoff : v'.timerStarted = false)
    (hcalls : ∀ t, .expired t ∈ v'.log.calls → .expired t ∈ v.log.calls)
    (hext : ∀ p, (v'.extPipes p).fdIn = (v.extPipes p).fdIn) : Idle cfg v' := by
  refine ⟨hoff, fun t hmem => h.quiet t (hcalls t hmem), fun hlt => ?_⟩
  rw [hext]
  exact h.start hlt

theorem Idle.still (h : Idle cfg v) (hs : Still v v') : Idle cfg v' :=
  h.of_same (hs.timerStarted.trans h.off) (fun _ hmem => hs.calls ▸ hmem) fun p => (hs.ext p).1

/-- An input is not the pipe that starts the timer. -/
theorem Idle.processData (h : Idle cfg v) {p : Nat} (hp : p < cfg.pipeCount)
    (hin : (v.extPipes p).fdIn ≠ 0) :
    wp (processData cfg env p) (fun _ v' => Idle cfg v') E v := by
  refine (processData_still p).imp fun _ v' hv' => ?_
  have harm : v.arm cfg env p = v := by
    unfold Voter.arm
    refine if_neg ?_
    rintro ⟨rfl, -⟩
    exact hin (h.start hp)
  rw [harm] at hv'
  exact h.still hv'.1

/-- The loop over the external pipes starts no timer. -/
theorem Idle.serveExternal (h : Idle cfg v) (hw : Wired cfg plan id v) {ready : List Int} {p : Nat}
    (hp : p < cfg.pipeCount) :
    wp (serveExternal cfg env ready p) (fun _ v' => Idle cfg v') (fun _ => True) v := by
  unfold Pint.serveExternal
  rw [wp_bind, wp_get]
  dsimp only
  rw [wp_ite]
  split
  · rename_i hready
    rw [wp_bind]
    refine (read_ext_spec hw hp).mono (fun got u hu => ?_) fun _ _ => trivial
    have hfds : ∀ q, ((u.setExt p ((u.extPipes p).received got)).extPipes q).fdIn
        = (u.extPipes q).fdIn := by
      intro q
      unfold Voter.setExt
      by_cases hq : q = p
      · rw [hq]
        dsimp only
        rw [Function.update_self]
        exact (received_fds _ got).1
      · dsimp only
        rw [Function.update_of_ne hq]
    have hset : Idle cfg (u.setExt p ((u.extPipes p).received got)) :=
      (h.still hu.1).of_same (h.still hu.1).off (fun _ hmem => hmem) hfds
    rw [wp_bind, wp_modify, wp_ite]
    split
    · refine hset.processData hp ?_
      rw [hfds, (hu.1.ext p).1]
      exact hready.1
    · rw [wp_ite]
      split
      · exact hset.still (still_say _ (by simp [Message.alarm]))
      · exact hset.still (still_say _ (by simp [Message.alarm]))
  · exact h

/-- Nor does an update, with a priority of 5 and more. -/
theorem Idle.beforeSelect (h : Idle cfg v) (hs : Sound cfg plan id v)
    (hprio : 5 ≤ cfg.voterPriority) :
    wp (beforeSelect cfg env) (fun _ v' => Idle cfg v' ∧ ∃ id', Sound cfg plan id' v') E v := by
  unfold Pint.beforeSelect
  rw [wp_bind]
  refine (reapExit_spec hs).imp fun _ u hu => ?_
  -- In SMR an exit may be found here, and the handler called for it. That is not the watchdog.
  have hidle : Idle cfg u := by
    cases hu with
    | passed _ hv => exact hv ▸ h
    | alive _ _ hv =>
      obtain ⟨-, hext, -, -, hoff, -, -, hlog⟩ := v.reap_same env
      rw [hv]
      refine h.of_same (hoff.trans h.off) (fun t hmem => ?_) fun p => by rw [hext]
      rw [hlog] at hmem
      exact hmem
    | exited _ _ w hw hv =>
      rw [hv]
      obtain ⟨t', -, -, hlog⟩ := hw.log
      obtain ⟨-, hext, -, -, -, -, -, hreap⟩ := v.reap_same env
      refine h.of_same rfl (fun t hmem => ?_) fun p => ?_
      · have hmem' : Call.expired t ∈ w.log.calls := hmem
        rw [hlog] at hmem'
        simpa [Voter.note, hreap] using hmem'
      · have hw := (hw.ext p).1
        rw [show ((v.reap env).note (.exited (env.waitpid v.tick) (v.replicas 0).pid)).extPipes
          = v.extPipes from hext] at hw
        exact hw
  have hsound := hu.sound hs
  unfold checkWatchdog watchSet
  rw [wp_bind, wp_bind, wp_get, wp_ite, if_neg (by rw [hidle.off]; simp), wp_pure, wp_bind, wp_get]
  dsimp only
  rw [wp_ite, if_neg (by omega)]
  exact ⟨hidle, hsound⟩

/-- **One move** of a voter whose timer does not run. Only `processData` on the pipe
`timer_start_index` starts it, and that pipe is not an input. -/
theorem Idle.step {m m' : Machine} {mv : Move} (h : Idle cfg m.v) (hrun : Running cfg plan m)
    (hprio : 5 ≤ cfg.voterPriority) (hstep : m.step cfg env mv = .ok m') :
    Idle cfg m'.v ∧ Running cfg plan m' := by
  obtain ⟨⟨id, hs⟩, hpc⟩ := hrun
  cases mv with
  | deliver k bytes =>
    obtain rfl := Except.ok.inj hstep
    have hstill := still_deliver m.v k bytes
    exact ⟨h.still hstill, ⟨id, hs.still hstill⟩, hpc⟩
  | go =>
    cases Machine.turn hstep with
    | beforeSelect hbefore =>
      obtain ⟨hidle, hsound⟩ := (Idle.beforeSelect (E := fun _ => True) h hs hprio).of_run hbefore
      exact ⟨hidle, hsound, trivial⟩
    | selected _ => exact ⟨h, ⟨id, hs⟩, fun p hp => List.mem_range.mp hp⟩
    | woken => exact ⟨h, ⟨id, hs⟩, trivial⟩
    | @external v v' ready p rest hserve =>
      have hp := hpc p List.mem_cons_self
      have harmed := (exec_spec (serveExternal_spec hs.wired hp)).1 v' hserve
      refine ⟨(exec_spec (h.serveExternal hs.wired hp)).1 v' hserve, ⟨id, hs.armed harmed.1⟩, ?_⟩
      exact fun q hq => hpc q (List.mem_cons_of_mem p hq)
    | externalsDone => exact ⟨h, ⟨id, hs⟩, List.suffix_rfl⟩
    | @replica v v' ready p r rest hserve =>
      have hslot : cfg.Slot r p := mem_slots.mp (hpc.subset List.mem_cons_self)
      have hrest : rest <:+ slots cfg := (List.suffix_cons _ _).trans hpc
      rcases (exec_spec (serveReplica_spec hs hslot)).1 v' hserve with rfl | ⟨hout, -, hp⟩
      · exact ⟨h, ⟨id, hs⟩, hrest⟩
      · refine ⟨h.of_same ?_ (fun t hmem => ?_) fun q => by rw [hp.grown.extPipes],
          hs.processed hslot hout hp, hrest⟩
        · -- A vote can only stop a timer.
          by_contra hon
          have := (hp.timer (by simpa using hon)).1
          exact absurd (h.off.symm.trans this) (by simp)
        · rw [hp.grown.calls] at hmem
          exact hmem
    | replicasDone => exact ⟨h, ⟨id, hs⟩, trivial⟩

/-- **A run** of a voter whose timer is not started by any input. -/
theorem Idle.run {b v₀ : Voter} {moves : List Move} {m : Machine} (hb : Boot cfg b)
    (hinit : (initVoterD cfg env).run b = .ok ((), v₀)) (hprio : 5 ≤ cfg.voterPriority)
    (hstart : cfg.timerStartIndex < cfg.pipeCount → (b.extPipes cfg.timerStartIndex).fdIn = 0)
    (hrun : runAll (Machine.step cfg env) moves ⟨.top, v₀⟩ = .ok m) : Idle cfg m.v := by
  obtain ⟨hfresh, hext⟩ := (initVoterD_spec (E := fun _ => True) hb).of_run hinit
  obtain ⟨plan, hrunning⟩ := Started.running ⟨b, hb, hinit⟩
  have hidle : Idle cfg v₀ := by
    refine ⟨hfresh.timerStarted, fun t hmem => ?_, fun hlt => ?_⟩
    · rw [hfresh.log] at hmem
      cases hmem
    · rw [hext]
      exact hstart hlt
  have hm := runAll.invariant (I := fun u : Machine => Idle cfg u.v ∧ Running cfg plan u)
    (fun mv u u' hu hstep => hu.1.step hu.2 hprio hstep) ⟨hidle, hrunning⟩ hrun
  exact hm.1

end Idle

/-! ## Flags and indices -/

/-- Some input starts the timer. -/
def Startable (cfg : Config) (ext : Nat → VotePipe) : Prop :=
  ∃ i < cfg.pipeCount, (ext i).fdIn ≠ 0 ∧ ∃ (env : Env) (v v' : Voter), v.timerStarted = false ∧
    (processData cfg env i).run v = .ok ((), v') ∧ v'.timerStarted = true

/-- The main loop gets from these pipes to this state. -/
def Reaches (cfg : Config) (ext : Nat → VotePipe) (m : Machine) : Prop :=
  ∃ (env : Env) (b v₀ : Voter) (moves : List Move), Boot cfg b ∧ b.extPipes = ext ∧
    (initVoterD cfg env).run b = .ok ((), v₀) ∧
    runAll (Machine.step cfg env) moves ⟨.top, v₀⟩ = .ok m

/-- **The watchdog follows the timed flags.** -/
structure FollowsFlags (cfg : Config) (ext : Nat → VotePipe) : Prop where
  /-- Data from an input starts the timer exactly if the input is timed. -/
  starts : ∀ i < cfg.pipeCount, (ext i).fdIn ≠ 0 → ∀ (env : Env) (v v' : Voter),
    v.timerStarted = false → (processData cfg env i).run v = .ok ((), v') →
    (v'.timerStarted = true ↔ (ext i).timed = true)
  /-- Data sent to an output stops it exactly if the output is timed, if it can run at all. -/
  stops : Startable cfg ext → ∀ i < cfg.pipeCount, (ext i).fdIn = 0 →
    ∀ (r : Nat) (v v' : Voter), v.timerStarted = true →
      bytesReady v.replicas cfg.repCount i ≠ 0 → (sendPipe cfg i r).run v = .ok ((), v') →
      (v'.timerStarted = false ↔ (ext i).timed = true)
  /-- It cannot, if no input starts it. -/
  idle : ¬ Startable cfg ext → ∀ m, Reaches cfg ext m → m.v.timerStarted = false
  /-- Without timed pipes the watchdog does not call the handler. -/
  quiet : (∀ i < cfg.pipeCount, (ext i).timed = false) → ∀ m, Reaches cfg ext m →
    ∀ t, .expired t ∉ m.v.log.calls

section Follows

variable {cfg : Config} {ext : Nat → VotePipe}

/-- `processData` always returns. -/
theorem exists_processData (cfg : Config) (env : Env) (i : Nat) (v : Voter) :
    ∃ v', (processData cfg env i).run v = .ok ((), v') := by
  obtain ⟨_, v', hrun, -⟩ :=
    (processData_still (E := fun _ => False) i : wp (processData cfg env i) _ _ v).exists_run
  exact ⟨v', hrun⟩

/-- A voter whose timer runs, and for which every replica has sent one byte on every pipe. In it
`sendPipe` has something to send on any output, so whatever holds of all states can be asked
there. -/
def oneByteEach : Voter where
  timerStarted := true
  replicas _ := { votPipes := fun _ => { buffCount := 1 } }

theorem oneByteEach_inStep (n i : Nat) : InStep (· < n) oneByteEach i := by
  refine ⟨fun _ _ => ?_, fun _ _ _ _ => rfl⟩
  constructor <;> simp [Voter.vot, oneByteEach, maxVotePipeBuff]

theorem bytesReady_oneByteEach (n i : Nat) : 0 < bytesReady oneByteEach.replicas n i := by
  unfold bytesReady
  induction n with
  | zero => exact Int.natCast_pos.mpr maxVotePipeBuff_pos
  | succ n ih =>
    rw [List.range_succ, List.foldl_append, List.foldl_cons, List.foldl_nil]
    split
    · exact Int.one_pos
    · exact ih

/-- In such a state `sendPipe` sends, and returns. -/
theorem exists_sendPipe (cfg : Config) (i : Nat) :
    ∃ v', (sendPipe cfg i 0).run oneByteEach = .ok ((), v') := by
  have hsend : wp (sendPipe cfg i 0) (fun _ _ => True) (fun _ => False) oneByteEach := by
    rcases Nat.eq_zero_or_pos cfg.repCount with h0 | hpos
    · have hready := bytesReady_oneByteEach cfg.repCount i
      unfold sendPipe
      rw [wp_bind, wp_get]
      dsimp only
      rw [wp_ite, if_neg (by omega), h0, wp_ite]
      split <;> trivial
    · exact (sendPipe_spec (oneByteEach_inStep _ i) hpos).imp fun _ _ _ => trivial
  obtain ⟨_, v', hrun, -⟩ := hsend.exists_run
  exact ⟨v', hrun⟩

theorem startable_iff : Startable cfg ext ↔
    cfg.timerStartIndex < cfg.pipeCount ∧ (ext cfg.timerStartIndex).fdIn ≠ 0 := by
  constructor
  · rintro ⟨i, hi, hin, env, v, v', hoff, hrun, hon⟩
    obtain rfl := ((processData_timer (E := fun _ => False) hoff).of_run hrun).mp hon
    exact ⟨hi, hin⟩
  · rintro ⟨hlt, hin⟩
    obtain ⟨v', hrun⟩ := exists_processData cfg .steady cfg.timerStartIndex {}
    exact ⟨_, hlt, hin, .steady, {}, v', rfl, hrun,
      ((processData_timer (E := fun _ => False) rfl).of_run hrun).mpr rfl⟩

theorem starts_iff : (∀ i < cfg.pipeCount, (ext i).fdIn ≠ 0 → ∀ (env : Env) (v v' : Voter),
      v.timerStarted = false → (processData cfg env i).run v = .ok ((), v') →
      (v'.timerStarted = true ↔ (ext i).timed = true)) ↔
    ∀ i < cfg.pipeCount, (ext i).fdIn ≠ 0 → (i = cfg.timerStartIndex ↔ (ext i).timed = true) := by
  constructor
  · intro h i hi hin
    obtain ⟨v', hrun⟩ := exists_processData cfg .steady i {}
    rw [← h i hi hin .steady {} v' rfl hrun]
    exact ((processData_timer (E := fun _ => False) rfl).of_run hrun).symm
  · intro h i hi hin env v v' hoff hrun
    rw [← h i hi hin]
    exact (processData_timer (E := fun _ => False) hoff).of_run hrun

theorem stops_iff : (∀ i < cfg.pipeCount, (ext i).fdIn = 0 → ∀ (r : Nat) (v v' : Voter),
      v.timerStarted = true → bytesReady v.replicas cfg.repCount i ≠ 0 →
      (sendPipe cfg i r).run v = .ok ((), v') →
      (v'.timerStarted = false ↔ (ext i).timed = true)) ↔
    ∀ i < cfg.pipeCount, (ext i).fdIn = 0 → (i = cfg.timerStopIndex ↔ (ext i).timed = true) := by
  constructor
  · intro h i hi hout
    obtain ⟨v', hrun⟩ := exists_sendPipe cfg i
    have hready := Int.ne_of_gt (bytesReady_oneByteEach cfg.repCount i)
    rw [← h i hi hout 0 oneByteEach v' rfl hready hrun]
    exact ((sendPipe_timer rfl hready).of_run hrun).symm
  · intro h i hi hout r v v' hon hbytes hrun
    rw [← h i hi hout]
    exact (sendPipe_timer hon hbytes).of_run hrun

/-- What `parseArgs` makes of the flags. -/
theorem parseArgs_timers {argv : List Scan.Text}
    (h : parseArgs argv = .ok (cfg, ext)) :
    cfg.timerStartIndex = lastWhere (TimedInput ext) cfg.pipeCount ∧
      cfg.timerStopIndex = lastWhere (TimedOutput ext) cfg.pipeCount := by
  unfold parseArgs at h
  split at h
  · obtain ⟨pipes, -, h⟩ := bind_ok h
    obtain ⟨rfl, rfl⟩ := Prod.mk.inj (Except.ok.inj h)
    rw [timerIndexes_eq]
    exact ⟨rfl, rfl⟩
  · cases h

/-- **The watchdog follows the flags exactly if the indices can stand for them**, whatever the
command line of the voter. Both sides are about the flags that `parseArgs` found there: the left
one about all that the voter then does in any state and any run, the right one about their
places. -/
theorem follows_flags_iff {argv : List Scan.Text} (hargs : parseArgs argv = .ok (cfg, ext))
    (hprio : 5 ≤ cfg.voterPriority) : FollowsFlags cfg ext ↔ FlagsFit ext cfg.pipeCount := by
  obtain ⟨hstart, hstop⟩ := parseArgs_timers hargs
  have hin : (∀ i < cfg.pipeCount, (ext i).fdIn ≠ 0 →
      (i = cfg.timerStartIndex ↔ (ext i).timed = true)) ↔
      Indexed (TimedInput ext) (fun i => (ext i).fdIn ≠ 0) cfg.pipeCount := by
    rw [← lastWhere_iff fun i hi => hi.2, hstart]
    exact forall₃_congr fun i _ hi => iff_congr Iff.rfl (and_iff_left hi).symm
  have hout : (∀ i < cfg.pipeCount, (ext i).fdIn = 0 →
      (i = cfg.timerStopIndex ↔ (ext i).timed = true)) ↔
      Indexed (TimedOutput ext) (fun i => (ext i).fdIn = 0) cfg.pipeCount := by
    rw [← lastWhere_iff fun i hi => hi.2, hstop]
    exact forall₃_congr fun i _ hi => iff_congr Iff.rfl (and_iff_left hi).symm
  constructor
  · intro h
    have hinputs := hin.mp (starts_iff.mp h.starts)
    refine ⟨hinputs, fun ⟨i, hi, htimed⟩ => ?_⟩
    have hstarts := ((hin.mpr hinputs) i hi htimed.2).mpr htimed.1
    have hstartable : Startable cfg ext :=
      startable_iff.mpr ⟨hstarts ▸ hi, hstarts ▸ htimed.2⟩
    exact hout.mp (stops_iff.mp (h.stops hstartable))
  · rintro ⟨hinputs, houtputs⟩
    -- A timer that can be started is started by the timed input.
    have htimed : Startable cfg ext → ∃ i < cfg.pipeCount, TimedInput ext i := by
      intro hstartable
      obtain ⟨hlt, hfd⟩ := startable_iff.mp hstartable
      exact ⟨_, hlt, ((hin.mpr hinputs) _ hlt hfd).mp rfl, hfd⟩
    have hidle : ¬ Startable cfg ext → ∀ m, Reaches cfg ext m → Idle cfg m.v := by
      rintro hnot m ⟨env, b, v₀, moves, hb, hext, hinit, hrun⟩
      refine Idle.run hb hinit hprio (fun hlt => ?_) hrun
      by_contra hfd
      rw [hext] at hfd
      exact hnot (startable_iff.mpr ⟨hlt, hfd⟩)
    refine ⟨starts_iff.mpr (hin.mpr hinputs), fun hstartable => ?_, fun hnot m hm => ?_,
      fun hnone m hm => ?_⟩
    · exact stops_iff.mpr (hout.mpr (houtputs (htimed hstartable)))
    · exact (hidle hnot m hm).off
    · refine (hidle (fun hstartable => ?_) m hm).quiet
      obtain ⟨i, hi, hflag, -⟩ := htimed hstartable
      rw [hnone i hi] at hflag
      cases hflag

end Follows

/-! ## A component without timed pipes -/

/-- The command line of a voter for a filter with one timed input and one timed output. -/
def filterArgs : List Scan.Text :=
  ["VoterD", "Filter", "TMR", "1500", "80", "RANGE_POSE_DATA:3:0:1", "RANGE_POSE_DATA:0:4:1"].map
    String.toList

/-- The timer is started by the input and stopped by the output. -/
theorem follows_flags_iff_filter : ∃ cfg ext, parseArgs filterArgs = .ok (cfg, ext) ∧
    TimedInput ext 0 ∧ TimedOutput ext 1 ∧ FollowsFlags cfg ext := by
  have hparsed : (parseArgs filterArgs).map (fun r => ((r.1.pipeCount, r.1.voterPriority),
      (decide (TimedInput r.2 0), decide (TimedOutput r.2 0)),
      decide (TimedInput r.2 1), decide (TimedOutput r.2 1)))
      = .ok ((2, 80), (true, false), false, true) := by decide +kernel
  cases h : parseArgs filterArgs with
  | error e =>
    rw [h] at hparsed
    cases hparsed
  | ok r =>
    rw [h] at hparsed
    simp only [Except.map, Except.ok.injEq, Prod.mk.injEq, decide_eq_true_eq,
      decide_eq_false_iff_not] at hparsed
    obtain ⟨⟨hcount, hprio⟩, ⟨hin, hnotOut⟩, hnotIn, hout⟩ := hparsed
    have hfit : FlagsFit r.2 r.1.pipeCount := by
      rw [hcount]
      refine ⟨.of_only (by decide) hin fun i hi hi' => ?_,
        fun _ => .of_only (by decide) hout fun i hi hi' => ?_⟩
      · have hne : i ≠ 1 := fun h1 => hnotIn (h1 ▸ hi')
        omega
      · have hne : i ≠ 0 := fun h0 => hnotOut (h0 ▸ hi')
        omega
    exact ⟨r.1, r.2, rfl, hin, hout, (follows_flags_iff h (by omega)).mpr hfit⟩

/-- A run of a launched component. -/
theorem Pipes.reaches (pipes : Pipes) {repType : Replication} {timeout priority : Int} {env : Env}
    {moves : List Move} {m : Machine}
    (hrun : runAll (Machine.step (pipes.config repType timeout priority) env) moves
      ⟨.top, pipes.start (pipes.config repType timeout priority) env⟩ = .ok m) :
    Reaches (pipes.config repType timeout priority) pipes.ext m := by
  have hboot := pipes.boot repType timeout priority
  obtain ⟨_, v₀, hinit, -⟩ := (initVoterD_spec hboot :
    wp (initVoterD (pipes.config repType timeout priority) env) _ _ pipes.launch).exists_run
  have hstart : pipes.start (pipes.config repType timeout priority) env = v₀ := by
    unfold Pipes.start afterInit
    rw [hinit]
  rw [hstart] at hrun
  exact ⟨env, pipes.launch, v₀, moves, hboot, rfl, hinit, hrun⟩

/-- An input and an output, neither of them timed. -/
def untimedPipes : Pipes := [(true, false), (false, false)]

/-- **Its watchdog calls the handler**: the input is pipe 0, and index 0 stands for it. -/
theorem untimed_watchdog_calls :
    ∃ m, Reaches (untimedPipes.config .smr 3 80) untimedPipes.ext m ∧
      (∀ i, (untimedPipes.ext i).timed = false) ∧ .expired 6 ∈ m.v.log.calls ∧
      ¬ FollowsFlags (untimedPipes.config .smr 3 80) untimedPipes.ext := by
  have hrun := eq_ended (d := ⟨.top, {}⟩)
    (r := runAll (Machine.step (untimedPipes.config .smr 3 80) .steady)
      (gos 1 ++ .deliver 0 [1] :: gos 10)
      ⟨.top, untimedPipes.start (untimedPipes.config .smr 3 80) .steady⟩) (by decide +kernel)
  have huntimed : ∀ i, (untimedPipes.ext i).timed = false := by
    intro i
    match i with
    | 0 => rfl
    | 1 => rfl
    | i + 2 => rfl
  have hreaches := untimedPipes.reaches hrun
  have hcalls : Call.expired 6 ∈ (ended (runAll
      (Machine.step (untimedPipes.config .smr 3 80) .steady) (gos 1 ++ .deliver 0 [1] :: gos 10)
      ⟨.top, untimedPipes.start (untimedPipes.config .smr 3 80) .steady⟩)
      ⟨.top, {}⟩).v.log.calls := by
    decide +kernel
  refine ⟨_, hreaches, huntimed, hcalls, fun h => ?_⟩
  exact h.quiet (fun i _ => huntimed i) _ hreaches 6 hcalls

end Pint
