import Pint.Proof.Runs

/-!
# One move of the main loop

Each piece of `doOneUpdate` has its specification here, and `Stepped` collects what one move
of the machine can do: it is the step lemma of every argument about runs of the main loop,
as `Performed` is for calls in any order. The handler is called in two places, `Reaped.exited`
and `Checked.expired`, and nowhere else.

A constructor of `Stepped` says what the move does and what led to it, guards included: that a
descriptor was in the set that `select` returned, that the watchdog was due. So an invariant is
shown by cases on `Stepped` and never by unfolding `doOneUpdate`. `Turn` stands between the two:
it is the machine's `go` by cases, with the pieces as programs, and `Machine.step_spec` puts the
specification of each piece in place of the program.

`Running` holds in all states of a run: the voter is sound for some numbering of its kernel pipes,
and the loops have only pipes and replicas ahead of them that there are. The numbering changes
with every restart, and the plan of its descriptors does not.
-/

namespace Pint

open Prog Voting

/-- The modes that have replicas. -/
def Config.Voting (cfg : Config) : Prop := cfg.repType = .smr ∨ cfg.Replicated

section Pieces

variable {cfg : Config} {env : Env} {plan : Plan} {id : Nat → Nat → Nat} {v v' : Voter}
  {p r : Nat} {E : Stop → Prop}

/-! ## The handler, in any mode -/

/-- `voterRestartHandler` returned. -/
inductive Recovered (cfg : Config) (env : Env) (plan : Plan) (id : Nat → Nat → Nat)
    (v v' : Voter) : Prop where
  | cold (hmode : cfg.repType = .smr) (h : ColdStarted cfg env plan id v v')
  | cloned (hmode : cfg.Replicated) (h : Handled cfg env plan id v v')

theorem voterRestartHandler_total (h : Sound cfg plan id v) (hmode : cfg.Voting) :
    wp (voterRestartHandler cfg env) (fun _ v' => Recovered cfg env plan id v v') E v := by
  rcases hmode with hmode | hmode
  · exact (voterRestartHandler_smr h hmode).imp fun _ _ hv => .cold hmode hv
  · exact (voterRestartHandler_spec h hmode).mono (fun _ _ hv => .cloned hmode hv)
      fun _ hc => hc.elim

theorem Recovered.sound (h : Recovered cfg env plan id v v') : ∃ id', Sound cfg plan id' v' := by
  cases h with
  | cold _ h => exact ⟨_, h.sound⟩
  | cloned _ h => exact h.sound

/-! ## `reapExit` -/

/-- After `waitpid`. -/
def Voter.reap (v : Voter) (env : Env) : Voter :=
  if env.waitpid v.tick ∈ v.children then
    { v with tick := v.tick + 1, children := v.children.filter (· ≠ env.waitpid v.tick) }
  else { v with tick := v.tick + 1 }

/-- A child is reaped that is not the one last replaced. -/
def Voter.exitDue (v : Voter) (env : Env) : Prop :=
  env.waitpid v.tick ∈ v.children ∧ 0 < env.waitpid v.tick ∧ env.waitpid v.tick ≠ v.lastDead

instance (v : Voter) (env : Env) : Decidable (v.exitDue env) :=
  inferInstanceAs (Decidable (_ ∧ _ ∧ _))

/-- What the first part of `doOneUpdate` does. -/
inductive Reaped (cfg : Config) (env : Env) (plan : Plan) (id : Nat → Nat → Nat)
    (v v' : Voter) : Prop where
  | passed (hmode : cfg.repType ≠ .smr) (hv : v' = v)
  | alive (hmode : cfg.repType = .smr) (hdue : ¬ v.exitDue env) (hv : v' = v.reap env)
  | exited (hmode : cfg.repType = .smr) (hdue : v.exitDue env) (w : Voter)
    (hw : ColdStarted cfg env plan id
      ((v.reap env).note (.exited (env.waitpid v.tick) (v.replicas 0).pid)) w)
    (hv : v' = { w with timerStarted := false })

theorem wp_waitpid {Q : Int → Voter → Prop} :
    wp (waitpid env) Q E v ↔
      Q (if env.waitpid v.tick ∈ v.children then env.waitpid v.tick else 0) (v.reap env) := by
  unfold waitpid nextTick Voter.reap
  simp only [wp_bind, wp_get, wp_set, wp_pure, wp_ite]
  split <;> rfl

theorem Voter.reap_same (v : Voter) (env : Env) :
    (v.reap env).kernel = v.kernel ∧ (v.reap env).extPipes = v.extPipes ∧
      (v.reap env).replicas = v.replicas ∧ (v.reap env).lastDead = v.lastDead ∧
      (v.reap env).timerStarted = v.timerStarted ∧ (v.reap env).watchdog = v.watchdog ∧
      (v.reap env).tick = v.tick + 1 ∧ (v.reap env).log = v.log := by
  unfold Voter.reap
  split <;> exact ⟨rfl, rfl, rfl, rfl, rfl, rfl, rfl, rfl⟩

theorem Sound.reap (h : Sound cfg plan id v) (env : Env) : Sound cfg plan id (v.reap env) := by
  obtain ⟨hk, he, hr, -⟩ := v.reap_same env
  exact h.of_same hk he hr

theorem reapExit_spec (h : Sound cfg plan id v) :
    wp (reapExit cfg env) (fun _ v' => Reaped cfg env plan id v v') E v := by
  unfold reapExit
  rw [wp_ite]
  split
  · rename_i hmode
    rw [wp_bind, wp_waitpid, wp_bind, wp_get, wp_ite, v.reap_same env |>.2.2.2.1,
      v.reap_same env |>.2.2.1]
    by_cases hmem : env.waitpid v.tick ∈ v.children
    · rw [if_pos hmem]
      split
      · rename_i hdue
        rw [wp_bind, wp_note, wp_bind]
        refine (voterRestartHandler_smr ((h.reap env).note _) hmode).imp fun _ w hw => ?_
        rw [wp_modify]
        exact .exited hmode ⟨hmem, hdue⟩ w hw rfl
      · rename_i hdue
        exact .alive hmode (fun hc => hdue hc.2) rfl
    · rw [if_neg hmem, if_neg (fun hc => absurd hc.1 (by simp))]
      exact .alive hmode (fun hc => hmem hc.1) rfl
  · rename_i hmode
    exact .passed hmode rfl

theorem Reaped.sound (h : Sound cfg plan id v) (hr : Reaped cfg env plan id v v') :
    ∃ id', Sound cfg plan id' v' := by
  cases hr with
  | passed _ hv => exact ⟨id, hv ▸ h⟩
  | alive _ _ hv => exact ⟨id, hv ▸ h.reap env⟩
  | exited _ _ w hw hv =>
    rw [hv]
    exact ⟨_, hw.sound.of_same rfl rfl rfl⟩

/-! ## `checkWatchdog` -/

/-- The watchdog runs out at the next reading of the clock. -/
def Voter.watchdogDue (v : Voter) (cfg : Config) (env : Env) : Prop :=
  v.timerStarted = true ∧ cfg.votingTimeout ≤ diffTime (env.clock v.tick) v.watchdog

instance (v : Voter) (cfg : Config) (env : Env) : Decidable (v.watchdogDue cfg env) :=
  inferInstanceAs (Decidable (_ ∧ _))

/-- The call of the handler that `c` announces is about to be made. -/
def Voter.read (v : Voter) (c : Call) : Voter := ({ v with tick := v.tick + 1 } : Voter).note c

/-- What the second part of `doOneUpdate` does. -/
inductive Checked (cfg : Config) (env : Env) (plan : Plan) (id : Nat → Nat → Nat)
    (v v' : Voter) : Prop where
  | quiet (hdue : ¬ v.watchdogDue cfg env) (hs : Still v v')
  | expired (hdue : v.watchdogDue cfg env)
    (h : Recovered cfg env plan id (v.read (.expired (env.clock v.tick))) v')

theorem checkWatchdog_spec (h : Sound cfg plan id v) (hmode : cfg.Voting) :
    wp (checkWatchdog cfg env) (fun _ v' => Checked cfg env plan id v v') E v := by
  unfold checkWatchdog
  rw [wp_bind, wp_get, wp_ite]
  split
  · rename_i ht
    rw [wp_bind, wp_generateTimestamp]
    dsimp only
    rw [wp_ite]
    split
    · rename_i hleft
      exact .quiet (fun hc => absurd hc.2 (by omega)) (still_tick v)
    · rename_i hleft
      rw [wp_bind, wp_note]
      exact (voterRestartHandler_total (h.tick.note _) hmode).imp fun _ _ hv =>
        .expired ⟨ht, by omega⟩ hv
  · rename_i ht
    exact .quiet (fun hc => ht hc.1) (Still.refl v)

theorem Checked.sound (h : Sound cfg plan id v) (hc : Checked cfg env plan id v v') :
    ∃ id', Sound cfg plan id' v' := by
  cases hc with
  | quiet _ hs => exact ⟨id, h.still hs⟩
  | expired _ hr => exact hr.sound

/-! ## `watchSet` -/

/-- Out of step, and not a real-time component: the timer is running when the voter selects. -/
theorem watchSet_spec : wp (watchSet cfg env) (fun _ v' => Armed env v v' ∧ SameKernel v v' ∧
    (checkSync cfg v' = false → cfg.voterPriority < 5 → v'.timerStarted = true)) E v := by
  unfold watchSet
  rw [wp_bind, wp_get]
  dsimp only
  rw [wp_ite]
  split
  · rename_i harm
    rw [wp_bind, wp_generateTimestamp, wp_bind, wp_modify, wp_pure]
    exact ⟨⟨{ Kept.refl v with tick := Nat.le_succ _ }, fun _ _ => rfl, rfl, fun _ _ hm => hm,
      Or.inr ⟨harm.2.2, rfl, v.tick, Nat.le_refl _, Nat.lt_succ_self _, rfl⟩⟩, rfl,
      fun _ _ => rfl⟩
  · rename_i harm
    refine ⟨Armed.refl v, rfl, fun hsync hprio => ?_⟩
    by_contra hoff
    exact harm ⟨hsync, hprio, by simpa using hoff⟩

/-- The whole of `doOneUpdate` before its `select`. -/
structure Updated (cfg : Config) (env : Env) (plan : Plan) (id : Nat → Nat → Nat)
    (v v' : Voter) : Prop where
  parts : ∃ u w id', Reaped cfg env plan id v u ∧ Sound cfg plan id' u ∧
    Checked cfg env plan id' u w ∧ Armed env w v' ∧ SameKernel w v'
  sync : checkSync cfg v' = false → cfg.voterPriority < 5 → v'.timerStarted = true

theorem beforeSelect_spec (h : Sound cfg plan id v) (hmode : cfg.Voting) :
    wp (beforeSelect cfg env) (fun _ v' => Updated cfg env plan id v v') E v := by
  unfold beforeSelect
  rw [wp_bind]
  refine (reapExit_spec h).imp fun _ u hu => ?_
  obtain ⟨id', hu'⟩ := hu.sound h
  rw [wp_bind]
  refine (checkWatchdog_spec hu' hmode).imp fun _ w hw => ?_
  exact watchSet_spec.imp fun _ v' hv => ⟨⟨u, w, id', hu, hu', hw, hv.1, hv.2.1⟩, hv.2.2⟩

theorem Updated.sound (h : Updated cfg env plan id v v') : ∃ id', Sound cfg plan id' v' := by
  obtain ⟨u, w, id', -, hu, hw, hv, -⟩ := h.parts
  obtain ⟨id'', hsw⟩ := hw.sound hu
  exact ⟨id'', hsw.armed hv⟩

/-! ## `serveExternal` -/

/-- A `read` from an external pipe, if it does not block. -/
theorem read_ext_spec (h : Wired cfg plan id v) (hp : p < cfg.pipeCount) :
    wp (read env (v.extPipes p).fdIn maxVotePipeBuff)
      (fun got v' => Still v v' ∧ SameFlight cfg id v v' ∧
        (v.kernel.waiting (v.extPipes p).fdIn ≠ [] → 0 < got.count))
      (fun stop => stop = .blocked) v := by
  obtain ⟨⟨e, he, hold⟩, -⟩ := h.ext p hp
  have hwait : v.kernel.waiting (v.extPipes p).fdIn ≠ [] → ∃ k, e = .readEnd k := by
    intro hne
    obtain ⟨k, hk, -⟩ := Kernel.waiting_ne_nil.mp hne
    exact ⟨k, Option.some.inj (he.symm.trans hk)⟩
  have hfailed : (∀ k, e ≠ .readEnd k) → Still v v ∧ SameFlight cfg id v v ∧
      (v.kernel.waiting (v.extPipes p).fdIn ≠ [] → 0 < ReadResult.failed.count) := by
    intro hend
    refine ⟨Still.refl v, SameFlight.refl, fun hne => ?_⟩
    obtain ⟨k, hk⟩ := hwait hne
    exact absurd hk (hend k)
  cases e with
  | readEnd k =>
    refine read_spec he (fun _ => rfl) fun hsome => ?_
    refine ⟨still_drained v k _, fun i q hs _ => Function.update_of_ne ?_ _ _, fun _ => ?_⟩
    · rintro rfl
      exact absurd hold (Nat.not_lt.mpr (h.id_ge i q hs))
    · exact Int.ofNat_lt.mpr (env.take_taken_pos v.tick maxVotePipeBuff_pos hsome)
  | writeEnd k => exact read_failed he (by simp) (hfailed (by simp))
  | other => exact read_failed he (by simp) (hfailed (by simp))

/-- What is read into an external pipe's buffer changes nothing else. -/
theorem armed_setExt {pipe : VotePipe} (hin : pipe.fdIn = (v.extPipes p).fdIn)
    (hout : pipe.fdOut = (v.extPipes p).fdOut) : Armed env v (v.setExt p pipe) := by
  refine { Armed.refl v with kept := { Kept.refl v with ext := fun q => ?_ } }
  show (Function.update v.extPipes p pipe q).fdIn = _ ∧
    (Function.update v.extPipes p pipe q).fdOut = _
  by_cases hq : q = p
  · rw [hq, Function.update_self]
    exact ⟨hin, hout⟩
  · rw [Function.update_of_ne hq]
    exact ⟨rfl, rfl⟩

theorem received_fds (pipe : VotePipe) (got : ReadResult) :
    (pipe.received got).fdIn = pipe.fdIn ∧ (pipe.received got).fdOut = pipe.fdOut := by
  cases got <;> exact ⟨rfl, rfl⟩

/-- The loop over the external pipes has data to pass on when it comes to pipe `p`. -/
def Voter.inputDue (v : Voter) (ready : List Int) (p : Nat) : Prop :=
  (v.extPipes p).fdIn ≠ 0 ∧ (v.extPipes p).fdIn ∈ ready ∧
    v.kernel.waiting (v.extPipes p).fdIn ≠ []

theorem serveExternal_spec {ready : List Int} (h : Wired cfg plan id v)
    (hp : p < cfg.pipeCount) :
    wp (serveExternal cfg env ready p)
      (fun _ v' => Armed env v v' ∧ SameFlight cfg id v v' ∧
        (p = cfg.timerStartIndex → v.inputDue ready p → v'.timerStarted = true))
      (fun stop => stop = .blocked) v := by
  unfold serveExternal
  rw [wp_bind, wp_get]
  dsimp only
  rw [wp_ite]
  split
  · rw [wp_bind]
    refine (read_ext_spec h hp).imp fun got u hu => ?_
    rw [wp_bind, wp_modify]
    obtain ⟨hin, hout⟩ := received_fds (u.extPipes p) got
    have hset : Armed env u (u.setExt p ((u.extPipes p).received got)) := armed_setExt hin hout
    have hau : Armed env v (u.setExt p ((u.extPipes p).received got)) := hu.1.armed.trans hset
    have hfu : SameFlight cfg id v (u.setExt p ((u.extPipes p).received got)) := hu.2.1
    rw [wp_ite]
    split
    · exact (processData_spec (h.kept hau.kept) p hp).imp fun _ v' hv =>
        ⟨hau.trans hv.1, hfu.trans hau.kept hv.2.1, fun hts _ => hv.2.2 hts⟩
    · rename_i hcount
      -- Nothing was read, so there is nothing to pass on and the timer is not armed; if the pipe
      -- is due, the `read` has answered something.
      have hquiet : ∀ m : Message, m.alarm = false →
          Armed env v ((u.setExt p ((u.extPipes p).received got)).say [m]) ∧
            SameFlight cfg id v ((u.setExt p ((u.extPipes p).received got)).say [m]) ∧
            (p = cfg.timerStartIndex → v.inputDue ready p →
              ((u.setExt p ((u.extPipes p).received got)).say [m]).timerStarted = true) :=
        fun m hm => ⟨hau.trans (still_say _ (by simpa using hm)).armed, hfu,
          fun _ hdue => absurd (hu.2.2 hdue.2.2) hcount⟩
      rw [wp_ite]
      split
      · rw [wp_say]
        exact hquiet _ rfl
      · rw [wp_say]
        exact hquiet _ rfl
  · rename_i hc
    exact ⟨Armed.refl v, SameFlight.refl, fun _ hdue => absurd ⟨hdue.1, hdue.2.1⟩ hc⟩

/-! ## `serveReplica` -/

/-- It blocks only on a marked descriptor behind which there is nothing. -/
theorem serveReplica_spec {ready : List Int} (h : Sound cfg plan id v) (hs : cfg.Slot r p) :
    wp (serveReplica cfg env ready p r)
      (fun _ v' => v' = v ∨
        (¬ v.IsInput p ∧ (v.vot r p).fdIn ∈ ready ∧ Processed cfg env plan id r p v v'))
      (fun stop => stop = .blocked ∧ ¬ v.IsInput p ∧ (v.vot r p).fdIn ∈ ready ∧
        v.kernel.unread (id r p) = []) v := by
  unfold serveReplica
  rw [wp_bind, wp_get]
  dsimp only
  rw [wp_ite]
  split
  · rename_i hready
    have hout := (h.wired.fdIn_ne_zero hs).mp hready.1
    exact (processFromRep_spec h.wired h.lockstep hs hout).mono
      (fun _ v' hv => Or.inr ⟨hout, hready.2, hv⟩) fun _ he => ⟨he.1, hout, hready.2, he.2⟩
  · exact Or.inl rfl

/-! ## The machine -/

/-- What the loops still have to do is part of what they do. -/
def Pc.Within (cfg : Config) : Pc → Prop
  | .top | .atSelect _ => True
  | .externals _ rest => ∀ p ∈ rest, p < cfg.pipeCount
  | .replicas _ rest => rest <:+ slots cfg

theorem mem_slots {p r : Nat} : (p, r) ∈ slots cfg ↔ cfg.Slot r p := by
  unfold slots Config.Slot
  simp only [List.mem_flatMap, List.mem_range, List.mem_map, Prod.mk.injEq]
  constructor
  · rintro ⟨q, hq, i, hi, rfl, rfl⟩
    exact ⟨hi, hq⟩
  · rintro ⟨hr, hp⟩
    exact ⟨p, hp, r, hr, rfl, rfl⟩

/-- The piece of the loop that one `go` ran, and what it left. -/
inductive Turn (cfg : Config) (env : Env) : Machine → Machine → Prop where
  | beforeSelect {v v' : Voter} {watched : List Int}
    (h : (Pint.beforeSelect cfg env).run v = .ok (watched, v')) :
    Turn cfg env ⟨.top, v⟩ ⟨.atSelect watched, v'⟩
  | selected {v : Voter} {watched ready : List Int}
    (hready : ready = watched.filter fun fd => v.kernel.waiting fd ≠ []) :
    Turn cfg env ⟨.atSelect watched, v⟩ ⟨.externals ready (List.range cfg.pipeCount), v⟩
  | woken {v : Voter} {watched : List Int} : Turn cfg env ⟨.atSelect watched, v⟩ ⟨.top, v⟩
  | external {v v' : Voter} {ready : List Int} {p : Nat} {rest : List Nat}
    (h : exec (serveExternal cfg env ready p) v = .ok v') :
    Turn cfg env ⟨.externals ready (p :: rest), v⟩ ⟨.externals ready rest, v'⟩
  | externalsDone {v : Voter} {ready : List Int} :
    Turn cfg env ⟨.externals ready [], v⟩ ⟨.replicas ready (slots cfg), v⟩
  | replica {v v' : Voter} {ready : List Int} {p r : Nat} {rest : List (Nat × Nat)}
    (h : exec (serveReplica cfg env ready p r) v = .ok v') :
    Turn cfg env ⟨.replicas ready ((p, r) :: rest), v⟩ ⟨.replicas ready rest, v'⟩
  | replicasDone {v : Voter} {ready : List Int} :
    Turn cfg env ⟨.replicas ready [], v⟩ ⟨.top, v⟩

/-- A `go` that answered ran one of the pieces. -/
theorem Machine.turn {m m' : Machine} (hgo : m.go cfg env = .ok m') : Turn cfg env m m' := by
  obtain ⟨pc, v⟩ := m
  unfold Machine.go at hgo
  match pc with
  | .top =>
    dsimp only at hgo
    split at hgo
    · rename_i watched v' hrun
      obtain rfl := Except.ok.inj hgo
      exact .beforeSelect hrun
    · cases hgo
  | .atSelect watched =>
    dsimp only at hgo
    split at hgo
    · obtain rfl := Except.ok.inj hgo
      exact .selected rfl
    · obtain rfl := Except.ok.inj hgo
      exact .woken
  | .externals ready (p :: rest) =>
    dsimp only at hgo
    split at hgo
    · rename_i v' hrun
      obtain rfl := Except.ok.inj hgo
      exact .external hrun
    · cases hgo
  | .externals ready [] =>
    obtain rfl := Except.ok.inj hgo
    exact .externalsDone
  | .replicas ready ((p, r) :: rest) =>
    dsimp only at hgo
    split at hgo
    · rename_i v' hrun
      obtain rfl := Except.ok.inj hgo
      exact .replica hrun
    · cases hgo
  | .replicas ready [] =>
    obtain rfl := Except.ok.inj hgo
    exact .replicasDone

/-- What one move does. -/
inductive Stepped (cfg : Config) (env : Env) (plan : Plan) (id : Nat → Nat → Nat) :
    Machine → Move → Machine → Prop where
  | deliver {pc : Pc} {v : Voter} {k : Nat} {bytes : List Byte} :
    Stepped cfg env plan id ⟨pc, v⟩ (.deliver k bytes)
      ⟨pc, { v with kernel := v.kernel.deliver k bytes }⟩
  | updated {v v' : Voter} {watched : List Int} (h : Updated cfg env plan id v v') :
    Stepped cfg env plan id ⟨.top, v⟩ .go ⟨.atSelect watched, v'⟩
  | selected {v : Voter} {watched ready : List Int}
    (hready : ready = watched.filter fun fd => v.kernel.waiting fd ≠ []) :
    Stepped cfg env plan id ⟨.atSelect watched, v⟩ .go
      ⟨.externals ready (List.range cfg.pipeCount), v⟩
  | woken {v : Voter} {watched : List Int} :
    Stepped cfg env plan id ⟨.atSelect watched, v⟩ .go ⟨.top, v⟩
  | external {v v' : Voter} {ready : List Int} {p : Nat} {rest : List Nat}
    (ha : Armed env v v') (hf : SameFlight cfg id v v')
    (htimer : p = cfg.timerStartIndex → v.inputDue ready p → v'.timerStarted = true) :
    Stepped cfg env plan id ⟨.externals ready (p :: rest), v⟩ .go ⟨.externals ready rest, v'⟩
  | externalsDone {v : Voter} {ready : List Int} :
    Stepped cfg env plan id ⟨.externals ready [], v⟩ .go ⟨.replicas ready (slots cfg), v⟩
  | skipped {v : Voter} {ready : List Int} {p r : Nat} {rest : List (Nat × Nat)} :
    Stepped cfg env plan id ⟨.replicas ready ((p, r) :: rest), v⟩ .go ⟨.replicas ready rest, v⟩
  | served {v v' : Voter} {ready : List Int} {p r : Nat} {rest : List (Nat × Nat)}
    (hs : cfg.Slot r p) (hout : ¬ v.IsInput p) (hmem : (v.vot r p).fdIn ∈ ready)
    (hp : Processed cfg env plan id r p v v') :
    Stepped cfg env plan id ⟨.replicas ready ((p, r) :: rest), v⟩ .go ⟨.replicas ready rest, v'⟩
  | replicasDone {v : Voter} {ready : List Int} :
    Stepped cfg env plan id ⟨.replicas ready [], v⟩ .go ⟨.top, v⟩

/-- **The step lemma of the machine.** -/
theorem Machine.step_spec {m m' : Machine} {mv : Move} (h : Sound cfg plan id m.v)
    (hpc : m.pc.Within cfg) (hmode : cfg.Voting) (hstep : m.step cfg env mv = .ok m') :
    Stepped cfg env plan id m mv m' := by
  cases mv with
  | deliver k bytes =>
    obtain rfl := Except.ok.inj hstep
    exact .deliver
  | go =>
    cases Machine.turn hstep with
    | beforeSelect hrun =>
      exact .updated ((beforeSelect_spec (E := fun _ => True) h hmode).of_run hrun)
    | selected hready => exact .selected hready
    | woken => exact .woken
    | external hrun =>
      have hv := (exec_spec (serveExternal_spec h.wired (hpc _ List.mem_cons_self))).1 _ hrun
      exact .external hv.1 hv.2.1 hv.2.2
    | externalsDone => exact .externalsDone
    | replica hrun =>
      have hs := mem_slots.mp (hpc.subset List.mem_cons_self)
      rcases (exec_spec (serveReplica_spec h hs)).1 _ hrun with rfl | ⟨hout, hmem, hp⟩
      · exact .skipped
      · exact .served hs hout hmem hp
    | replicasDone => exact .replicasDone

/-- Why a turn of the loops over the replicas stops, if it does. -/
theorem Machine.go_replicas_error {ready : List Int} {rest : List (Nat × Nat)} {stop : Stop}
    (h : Sound cfg plan id v) (hs : cfg.Slot r p)
    (hgo : Machine.go cfg env ⟨.replicas ready ((p, r) :: rest), v⟩ = .error stop) :
    stop = .blocked ∧ ¬ v.IsInput p ∧ (v.vot r p).fdIn ∈ ready ∧
      v.kernel.unread (id r p) = [] := by
  unfold Machine.go at hgo
  dsimp only at hgo
  split at hgo
  · exact absurd hgo (by simp)
  · rename_i e hrun
    obtain rfl := Except.error.inj hgo
    exact (exec_spec (serveReplica_spec h hs :
      wp (serveReplica cfg env ready p r) _ _ v)).2 e hrun

theorem Stepped.sound {m m' : Machine} {mv : Move} (h : Sound cfg plan id m.v)
    (hs : Stepped cfg env plan id m mv m') : ∃ id', Sound cfg plan id' m'.v := by
  cases hs with
  | deliver => exact ⟨id, h.still (still_deliver _ _ _)⟩
  | updated hu => exact hu.sound
  | selected _ => exact ⟨id, h⟩
  | woken => exact ⟨id, h⟩
  | external ha _ _ => exact ⟨id, h.armed ha⟩
  | externalsDone => exact ⟨id, h⟩
  | skipped => exact ⟨id, h⟩
  | served hs hout _ hp => exact h.processed hs hout hp
  | replicasDone => exact ⟨id, h⟩

theorem Stepped.within {m m' : Machine} {mv : Move} (h : m.pc.Within cfg)
    (hs : Stepped cfg env plan id m mv m') : m'.pc.Within cfg := by
  cases hs with
  | deliver => exact h
  | updated _ => trivial
  | selected _ => exact fun p hp => List.mem_range.mp hp
  | woken => trivial
  | external _ _ _ => exact fun p hp => h p (List.mem_cons_of_mem _ hp)
  | externalsDone => exact List.suffix_rfl
  | skipped => exact (List.suffix_cons _ _).trans h
  | served _ _ _ _ => exact (List.suffix_cons _ _).trans h
  | replicasDone => trivial

/-- Moves of the voter, with nothing happening in between. -/
def gos (n : Nat) : List Move := List.replicate n .go

/-- What every state of the machine satisfies. -/
structure Running (cfg : Config) (plan : Plan) (m : Machine) : Prop where
  sound : ∃ id, Sound cfg plan id m.v
  within : m.pc.Within cfg

theorem Running.stepped {m m' : Machine} {mv : Move} (h : Running cfg plan m)
    (hmode : cfg.Voting) (hstep : m.step cfg env mv = .ok m') :
    ∃ id, Sound cfg plan id m.v ∧ Stepped cfg env plan id m mv m' ∧ Running cfg plan m' := by
  obtain ⟨id, hs⟩ := h.sound
  have hst := Machine.step_spec hs h.within hmode hstep
  exact ⟨id, hs, hst, hst.sound hs, hst.within h.within⟩

theorem Started.running {v₀ : Voter} (h : Started cfg env v₀) :
    ∃ plan, Running cfg plan ⟨.top, v₀⟩ := by
  obtain ⟨plan, id, hs⟩ := h.fresh.sound
  exact ⟨plan, ⟨id, hs⟩, trivial⟩

end Pieces

end Pint
