import Pint.Proof.Poll
import Pint.Proof.Start

/-!
# The pieces of the main loop, one lemma each

What `voterRestartHandler` and each piece of `doOneUpdate` does to a voter whose pipes are
connected and whose replicas are in step. `Sound` is that requirement; every piece hands it
on, so it holds for ever after `initVoterD`.

A piece is described by a structure that says all that it did: `Armed` for what may only arm the
timer, `Handled` for the handler with more than one replica, `ColdStarted` for the handler with
one. Each invariant over runs is then shown from these, and the code is not looked at again.

The plan and the numbers `id` are part of what a piece hands on, because a restart makes new
pipes: behind it the plan is the same, and the numbers of the restartee are new.
-/

namespace Pint

open Prog Voting

/-- Connected, and in step. -/
structure Sound (cfg : Config) (plan : Plan) (id : Nat → Nat → Nat) (v : Voter) : Prop where
  wired : Wired cfg plan id v
  lockstep : Lockstep cfg v

section Quiet

variable {cfg : Config} {env : Env} {plan : Plan} {id : Nat → Nat → Nat} {v v' : Voter}
  {p r : Nat} {E : Stop → Prop}

theorem Sound.still (h : Sound cfg plan id v) (hs : Still v v') : Sound cfg plan id v' :=
  ⟨h.wired.kept hs.toKept, h.lockstep.still hs⟩

/-- The same replicas, pipes and descriptors, whatever else changed. -/
theorem Sound.of_same (h : Sound cfg plan id v) (hk : v'.kernel = v.kernel)
    (he : v'.extPipes = v.extPipes) (hr : v'.replicas = v.replicas) : Sound cfg plan id v' := by
  refine ⟨h.wired.samePipes hk ?_ ?_, h.lockstep.of_same he hr⟩
  · intro p
    rw [he]
    exact ⟨rfl, rfl⟩
  · intro i
    rw [hr]
    exact ⟨rfl, rfl, rfl, rfl⟩

theorem Sound.sent (h : Sound cfg plan id v) (hp : p < cfg.pipeCount) (hout : ¬ v.IsInput p)
    (hs : Sent cfg p r v v') : Sound cfg plan id v' := by
  refine ⟨h.wired.kept hs.kept, fun q hq => ?_, fun i q hiq hin => ?_⟩
  · by_cases hqp : q = p
    · rw [hqp]
      exact hs.inStep
    · exact (h.lockstep.inStep q hq).congr fun i _ => hs.vot_ne i q hqp
  · have hinv := (hs.kept.isInput q).mp hin
    have hqp : q ≠ p := by
      rintro rfl
      exact hout hinv
    rw [hs.vot_ne i q hqp]
    exact h.lockstep.input i q hiq hinv

/-- After a vote the voter is sound, perhaps with new pipes. -/
theorem Sound.voted (h : Sound cfg plan id v) (hp : p < cfg.pipeCount) (hout : ¬ v.IsInput p)
    (hv : Voted cfg plan id p v v') : ∃ id', Sound cfg plan id' v' := by
  cases hv with
  | nothing _ hv => exact ⟨id, hv ▸ h⟩
  | alone _ hs => exact ⟨id, h.sent hp hout hs⟩
  | pair _ w hw hs =>
    have hstill : Still v w := by
      rcases hw with rfl | rfl
      · exact Still.refl _
      · exact still_say v (by simp [Message.alarm])
    exact ⟨id, (h.still hstill).sent hp (fun hc => hout ((hstill.isInput p).mp hc)) hs⟩
  | three _ _ hd =>
    generalize v.verdict cfg p = verdict at hd
    cases hd with
    | noTwo hv =>
      rw [hv]
      exact ⟨id, h.still (still_say v (by simp [Message.alarm]))⟩
    | unanimous hs => exact ⟨id, h.sent hp hout hs⟩
    | outvoted hr => exact ⟨_, hr.wired, hr.lockstep⟩

theorem Sound.processed (h : Sound cfg plan id v) (hs : cfg.Slot r p) (hout : ¬ v.IsInput p)
    (hp : Processed cfg env plan id r p v v') : ∃ id', Sound cfg plan id' v' := by
  cases hp with
  | refused _ hstill _ => exact ⟨id, h.still hstill⟩
  | voted _ w hw hv =>
    have hsw : Sound cfg plan id w := ⟨h.wired.kept hw.kept, hw.lockstep⟩
    exact hsw.voted hs.2 (fun hc => hout ((hw.kept.isInput p).mp hc)) hv

/-- Whatever a vote does: what was accepted stays accepted, and the handler is not called. -/
structure Grown (v v' : Voter) : Prop where
  accepted : ∀ i p, v.log.accepted i p <+: v'.log.accepted i p
  extPipes : v'.extPipes = v.extPipes
  calls : v'.log.calls = v.log.calls
  lastDead : v'.lastDead = v.lastDead
  children : v'.children = v.children
  tick : v.tick ≤ v'.tick

theorem Grown.trans {v'' : Voter} (h : Grown v v') (h' : Grown v' v'') : Grown v v'' where
  accepted i p := (h.accepted i p).trans (h'.accepted i p)
  extPipes := h'.extPipes.trans h.extPipes
  calls := h'.calls.trans h.calls
  lastDead := h'.lastDead.trans h.lastDead
  children := h'.children.trans h.children
  tick := Nat.le_trans h.tick h'.tick

theorem Still.grown (h : Still v v') : Grown v v' where
  accepted i p := by simp only [h.accepted, List.prefix_rfl]
  extPipes := h.extPipes
  calls := h.calls
  lastDead := h.lastDead
  children := h.children
  tick := h.tick

theorem Sent.grown (h : Sent cfg p r v v') : Grown v v' where
  accepted i q := by simp only [h.log, List.prefix_rfl]
  extPipes := h.extPipes
  calls := by rw [h.log]
  lastDead := h.kept.lastDead
  children := h.kept.children
  tick := h.kept.tick

theorem Restarted.grown {e : Nat} (h : Restarted cfg plan id e r v v') : Grown v v' where
  accepted i q := by simp only [h.accepted, List.prefix_rfl]
  extPipes := h.extPipes
  calls := h.calls
  lastDead := h.lastDead
  children := h.children
  tick := h.tick

theorem Accepted.grown {bytes : List Byte} (h : Accepted cfg id r p bytes v v') :
    Grown v v' where
  accepted i q := by
    rw [h.accepted]
    split
    · rename_i hiq
      rw [hiq.1, hiq.2]
      exact List.prefix_append _ _
    · exact List.prefix_rfl
  extPipes := h.extPipes
  calls := by
    rw [h.log]
    rfl
  lastDead := h.kept.lastDead
  children := h.kept.children
  tick := h.kept.tick

theorem Voted.grown (hv : Voted cfg plan id p v v') : Grown v v' := by
  cases hv with
  | nothing _ hv => exact hv ▸ (Still.refl v).grown
  | alone _ hs => exact hs.grown
  | pair _ w hw hs =>
    rcases hw with rfl | rfl
    · exact hs.grown
    · exact (still_say v (by simp [Message.alarm])).grown.trans hs.grown
  | three _ _ hd =>
    generalize v.verdict cfg p = verdict at hd
    cases hd with
    | noTwo hv => exact hv ▸ (still_say v (by simp [Message.alarm])).grown
    | unanimous hs => exact hs.grown
    | outvoted hr => exact hr.grown

theorem Processed.grown (hp : Processed cfg env plan id r p v v') : Grown v v' := by
  cases hp with
  | refused _ hstill _ => exact hstill.grown
  | voted _ w hw hv => exact hw.grown.trans hv.grown

/-- `processFromRep`, behind its test. -/
theorem tryProcessFromRep_spec (h : Sound cfg plan id v) :
    wp (tryProcessFromRep cfg env r p)
      (fun _ v' => v' = v ∨ (cfg.Slot r p ∧ ¬ v.IsInput p ∧ Processed cfg env plan id r p v v'))
      (fun stop => stop = .blocked) v := by
  unfold tryProcessFromRep
  rw [wp_bind, wp_get, wp_ite]
  split
  · rename_i hc
    have hs : cfg.Slot r p := ⟨hc.1, hc.2.1⟩
    have hout := (h.wired.fdIn_ne_zero hs).mp hc.2.2
    exact (processFromRep_spec h.wired h.lockstep hs hout).mono
      (fun _ v' hv => Or.inr ⟨hs, hout, hv⟩) fun _ he => he.1
  · exact Or.inl rfl

end Quiet

/-! ## Arming the timer -/

/-- Quiet, except that the timer may have been armed. If it was, the clock was read on the way,
and `watchdog` is what it said. -/
structure Armed (env : Env) (v v' : Voter) : Prop where
  kept : Kept v v'
  vot : ∀ i p, v'.vot i p = v.vot i p
  log : v'.log = { v.log with said := v'.log.said, signals := v'.log.signals }
  alarms : ∀ m : Message, m.alarm = true → m ∈ v'.log.said → m ∈ v.log.said
  timer : (v'.timerStarted = v.timerStarted ∧ v'.watchdog = v.watchdog) ∨
    (v.timerStarted = false ∧ v'.timerStarted = true ∧
      ∃ t, v.tick ≤ t ∧ t < v'.tick ∧ v'.watchdog = env.clock t)

section Armed

variable {cfg : Config} {env : Env} {plan : Plan} {id : Nat → Nat → Nat} {v v' v'' : Voter}
  {E : Stop → Prop}

theorem Armed.refl (v : Voter) : Armed env v v :=
  ⟨Kept.refl v, fun _ _ => rfl, rfl, fun _ _ h => h, Or.inl ⟨rfl, rfl⟩⟩

theorem Still.armed (h : Still v v') : Armed env v v' :=
  ⟨h.toKept, h.vot, h.log, h.alarms, Or.inl ⟨h.timerStarted, h.watchdog⟩⟩

theorem Armed.trans (h : Armed env v v') (h' : Armed env v' v'') : Armed env v v'' where
  kept := h.kept.trans h'.kept
  vot i p := (h'.vot i p).trans (h.vot i p)
  log := by rw [h'.log, h.log]
  alarms m hm hmem := h.alarms m hm (h'.alarms m hm hmem)
  timer := by
    have ht := h.kept.tick
    have ht' := h'.kept.tick
    rcases h.timer with ⟨h1, h2⟩ | ⟨h1, h2, t, h3, h4, h5⟩
    · rcases h'.timer with ⟨g1, g2⟩ | ⟨g1, g2, t, g3, g4, g5⟩
      · exact Or.inl ⟨g1.trans h1, g2.trans h2⟩
      · exact Or.inr ⟨h1 ▸ g1, g2, t, by omega, g4, g5⟩
    · rcases h'.timer with ⟨g1, g2⟩ | ⟨g1, -⟩
      · exact Or.inr ⟨h1, g1.trans h2, t, h3, by omega, g2.trans h5⟩
      · exact absurd (h2.symm.trans g1) (by simp)

theorem armed_arm (p : Nat) : Armed env v (v.arm cfg env p) := by
  unfold Voter.arm
  split
  · rename_i h
    exact ⟨{ Kept.refl v with tick := Nat.le_succ _ }, fun _ _ => rfl, rfl, fun _ _ hm => hm,
      Or.inr ⟨h.2, rfl, v.tick, Nat.le_refl _, Nat.lt_succ_self _, rfl⟩⟩
  · exact Armed.refl v

/-- Quiet calls keep the voter sound. -/
theorem Sound.armed (h : Sound cfg plan id v) (ha : Armed env v v') : Sound cfg plan id v' :=
  ⟨h.wired.kept ha.kept, fun p hp => (h.lockstep.inStep p hp).congr fun i _ => ha.vot i p,
    fun i p hs hin => by
      rw [ha.vot]
      exact h.lockstep.input i p hs ((ha.kept.isInput p).mp hin)⟩

theorem Armed.queue (ha : Armed env v v') (i p : Nat) : v'.queue i p = v.queue i p := by
  unfold Voter.queue
  rw [ha.vot]

/-- The timer runs once the timed input is passed on. -/
theorem arm_timer (v : Voter) : (v.arm cfg env cfg.timerStartIndex).timerStarted = true := by
  unfold Voter.arm
  split
  · rfl
  · rename_i h
    simpa using h

theorem processData_spec (h : Wired cfg plan id v) (p : Nat) (hp : p < cfg.pipeCount) :
    wp (processData cfg env p) (fun _ v' => Armed env v v' ∧ SameFlight cfg id v v' ∧
      (p = cfg.timerStartIndex → v'.timerStarted = true)) E v := by
  refine (processData_still p).imp fun _ v' hv => ⟨(armed_arm p).trans hv.1.armed, ?_, ?_⟩
  · refine h.sameFlight hv.2 ?_
    rintro fd ⟨r, hr, rfl⟩
    exact Or.inl ⟨r, p, ⟨hr, hp⟩, rfl⟩
  · rintro rfl
    exact hv.1.timerStarted.trans (arm_timer v)

end Armed

/-! ## `voterRestartHandler`, DMR and TMR -/

section Handler

variable {cfg : Config} {env : Env} {plan : Plan} {id : Nat → Nat → Nat} {v v' : Voter}
  {E : Stop → Prop}

/-- The replica that the handler restarts. -/
def Voter.restartee (v : Voter) (cfg : Config) : Nat :=
  behindRep v.replicas cfg.repCount cfg.timerStopIndex

/-- The replica it is cloned from. -/
def Config.restarter (cfg : Config) (restartee : Nat) : Nat :=
  (restartee + (cfg.repCount - 1)) % cfg.repCount

/-- The modes in which a replica is restarted from another one. -/
def Config.Replicated (cfg : Config) : Prop := cfg.repType = .dmr ∨ cfg.repType = .tmr

theorem Config.Replicated.repCount (h : cfg.Replicated) :
    cfg.repCount = 2 ∨ cfg.repCount = 3 := by
  rcases h with h | h
  · exact Or.inl (by rw [cfg.repCount_eq, h]; rfl)
  · exact Or.inr (by rw [cfg.repCount_eq, h]; rfl)

theorem behindRep_lt {reps : Nat → Replica} {num p : Nat} (hn : 0 < num) :
    behindRep reps num p < num := by
  have hfold : ∀ (l : List Nat) (a : Nat), a < num → (∀ x ∈ l, x < num) →
      l.foldl (behindStep reps p) a < num := by
    intro l
    induction l with
    | nil => exact fun a ha _ => ha
    | cons x l ih =>
      intro a ha hl
      have hx : x < num := hl x List.mem_cons_self
      refine ih _ ?_ fun y hy => hl y (List.mem_cons_of_mem _ hy)
      unfold behindStep
      split
      · exact hx
      · split
        · split <;> assumption
        · exact ha
  refine hfold _ 0 hn fun x hx => ?_
  rw [List.mem_range'_1] at hx
  omega

/-- The two replicas of a restart are different replicas. -/
theorem restarter_ne (h : cfg.Replicated) (e : Nat) :
    cfg.restarter e < cfg.repCount ∧ cfg.restarter e ≠ e := by
  unfold Config.restarter
  rcases h.repCount with hn | hn
  · rw [hn]
    omega
  · rw [hn]
    omega

/-- The handler restarted `v.restartee` and read the clock. The two calls that it notes in the log
are for the results about it, and the program sees neither. -/
structure Handled (cfg : Config) (env : Env) (plan : Plan) (id : Nat → Nat → Nat)
    (v v' : Voter) : Prop where
  state : ∃ w, Restarted cfg plan id (v.restartee cfg) (cfg.restarter (v.restartee cfg))
      (v.note (.picked (v.restartee cfg) (cfg.restarter (v.restartee cfg)))) w ∧
    v' = ({ w with tick := w.tick + 1 } : Voter).note (.returned (env.clock w.tick))

theorem Sound.note (h : Sound cfg plan id v) (c : Call) : Sound cfg plan id (v.note c) :=
  h.of_same rfl rfl rfl

theorem Sound.tick (h : Sound cfg plan id v) : Sound cfg plan id { v with tick := v.tick + 1 } :=
  h.still (still_tick v)

/-- **`voterRestartHandler` in DMR and TMR.** It does not stop. -/
theorem voterRestartHandler_spec (h : Sound cfg plan id v) (hmode : cfg.Replicated) :
    wp (voterRestartHandler cfg env) (fun _ v' => Handled cfg env plan id v v')
      (fun _ => False) v := by
  have hn : 0 < cfg.repCount := by
    rcases hmode.repCount with hn | hn <;> omega
  obtain ⟨hr, hne⟩ := restarter_ne hmode (v.restartee cfg)
  have hbody : wp (do
      let v ← get
      let restartee := behindRep v.replicas cfg.repCount cfg.timerStopIndex
      let restarter := (restartee + (cfg.repCount - 1)) % cfg.repCount
      note (.picked restartee restarter)
      restartPrep cfg env restartee restarter
      let now ← generateTimestamp env
      note (.returned now) : M Unit) (fun _ v' => Handled cfg env plan id v v')
      (fun _ => False) v := by
    rw [wp_bind, wp_get]
    dsimp only
    rw [wp_bind, wp_note, wp_bind]
    have hnote := h.note (.picked (v.restartee cfg) (cfg.restarter (v.restartee cfg)))
    refine (restartPrep_spec hnote.wired hnote.lockstep (behindRep_lt hn) hr hne).imp
      fun _ w hw => ?_
    rw [wp_bind, wp_generateTimestamp, wp_note]
    exact ⟨w, hw, rfl⟩
  unfold voterRestartHandler
  rcases hmode with hm | hm
  · rw [hm]
    exact hbody
  · rw [hm]
    exact hbody

theorem Handled.sound (h : Handled cfg env plan id v v') : ∃ id', Sound cfg plan id' v' := by
  obtain ⟨w, hw, rfl⟩ := h.state
  exact ⟨_, (Sound.tick ⟨hw.wired, hw.lockstep⟩).note _⟩

end Handler

/-! ## `voterRestartHandler`, SMR -/

section ColdStart

variable {cfg : Config} {env : Env} {plan : Plan} {id : Nat → Nat → Nat} {v v' : Voter}
  {E : Stop → Prop}

/-- The only replica was replaced by a new process, and was given the last input again. -/
structure ColdStarted (cfg : Config) (env : Env) (plan : Plan) (id : Nat → Nat → Nat)
    (v v' : Voter) : Prop where
  sound : Sound cfg plan (refilled id 0 v.kernel.pipes) v'
  lastDead : v'.lastDead = (v.replicas 0).pid
  children : ∀ c, c ∈ v'.children ↔ c ∈ v.children ∨ c = (v'.replicas 0).pid
  fresh : (v'.replicas 0).pid ∉ v.children ∧ 0 < (v'.replicas 0).pid
  ext : ∀ p, (v'.extPipes p).fdIn = (v.extPipes p).fdIn ∧
    (v'.extPipes p).fdOut = (v.extPipes p).fdOut
  noVotes : ∀ p, p < cfg.pipeCount → v'.queue 0 p = []
  timer : (v'.timerStarted = v.timerStarted ∧ v'.watchdog = v.watchdog) ∨
    (v.timerStarted = false ∧ v'.timerStarted = true ∧
      ∃ t, v.tick ≤ t ∧ t < v'.tick ∧ v'.watchdog = env.clock t)
  log : ∃ t, v.tick ≤ t ∧ t < v'.tick ∧ v'.log = { v.log with
    said := v'.log.said
    signals := v'.log.signals
    calls := v.log.calls ++ [.returned (env.clock t)] }
  alarms : ∀ m : Message, m.alarm = true → m ∈ v'.log.said → m ∈ v.log.said

theorem resend_spec (h : Wired cfg plan id v) :
    wp (loop cfg.pipeCount fun p => do
      let v ← get
      if (v.extPipes p).fdIn ≠ 0 then processData cfg env p)
      (fun _ v' => Armed env v v') E v := by
  refine wp_loop_const (fun v' => Armed env v v') (Armed.refl v) fun p u hp hu => ?_
  rw [wp_bind, wp_get, wp_ite]
  split
  · exact (processData_spec (h.kept hu.kept) p hp).imp fun _ w hw => hu.trans hw.1
  · exact hu

/-- The pipes of the only replica are made again, for a new process. -/
theorem coldStart_spec (name : String) (priority : Int) (h : Sound cfg plan id v)
    (hn : cfg.repCount = 1) :
    wp (do
      cleanupReplica 0
      startReplicas env cfg.repCount name cfg.pipeCount priority) (fun _ v' =>
        ∃ u, Remade cfg plan id 0 v u ∧ u.children = v.children ∧ Forked 1 u v') E v := by
  have h0 : 0 < cfg.repCount := by omega
  rw [wp_bind]
  refine (cleanupReplica_spec h.wired h0).imp fun _ t ht => ?_
  obtain ⟨k', signals, rfl, hk⟩ := ht
  have hs : Still { v with kernel := k' }
      { v with kernel := k', log := { v.log with signals } } :=
    still_signal { v with kernel := k' } signals
  unfold startReplicas
  have hremake := remake_spec name priority (E := E)
    (Q := fun _ u => wp (forkReplicas env cfg.repCount) (fun _ v' =>
        ∃ u, Remade cfg plan id 0 v u ∧ u.children = v.children ∧ Forked 1 u v') E u)
    h.wired h0 hk hs rfl (fun _ => cfg.pipeCount) (fun _ _ => rfl) fun u hu hch => ?_
  · rw [wp_bind]
    rw [hn] at hremake ⊢
    refine hremake.imp fun _ u hu => ?_
    rw [wp_bind]
    exact hu
  · rw [hn]
    exact (forkReplicas_spec 1).imp fun _ v' hf => ⟨u, hu, hch, hf⟩

/-- A voter with one replica, which has no votes. -/
theorem lockstep_of_noVotes (hn : cfg.repCount = 1) (h : ∀ p, p < cfg.pipeCount →
    (v.vot 0 p).buffCount = 0 ∧ (v.vot 0 p).buffIndex = 0) : Lockstep cfg v := by
  have hone : ∀ i, i < cfg.repCount → i = 0 := fun i hi => by omega
  refine ⟨?_, ?_⟩
  · intro p hp
    apply InStep.of_zero
    intro i hi
    rw [hone i hi]
    exact h p hp
  · intro i p hip _
    rw [hone i hip.1]
    exact h p hip.2

/-- The new process has its pipes, and no votes. -/
theorem Forked.renewed {u w : Voter} (hf : Forked 1 u w) (hrem : Remade cfg plan id 0 v u) :
    Wired cfg plan (refilled id 0 v.kernel.pipes) w ∧ ∀ p, p < cfg.pipeCount →
      (w.vot 0 p).buffCount = 0 ∧ (w.vot 0 p).buffIndex = 0 := by
  refine ⟨hrem.wired.samePipes hf.kernel (fun p => by rw [hf.outside.extPipes]; exact ⟨rfl, rfl⟩)
    hf.same, ?_⟩
  intro p hp
  unfold Voter.vot
  rw [(hf.same 0).votPipes]
  exact hrem.empty p hp

/-- **The end of `voterRestartHandler` in SMR.** The replica was made anew, a process forked for
it, and the last input sent again. -/
theorem Forked.coldStarted {u w x : Voter} (hf : Forked 1 u w) (hn : cfg.repCount = 1)
    (hrem : Remade cfg plan id 0 { v with lastDead := (v.replicas 0).pid } u)
    (hch : u.children = v.children) (hx : Armed env w x) :
    ColdStarted cfg env plan id v
      (({ x with tick := x.tick + 1 } : Voter).note (.returned (env.clock x.tick))) := by
  obtain ⟨hwired, hvotes⟩ := hf.renewed hrem
  have hout : Outside { v with lastDead := (v.replicas 0).pid } w := hrem.outside.trans hf.outside
  have htick : v.tick ≤ w.tick := hout.tick
  have hxtick : w.tick ≤ x.tick := hx.kept.tick
  have hsound : Sound cfg plan (refilled id 0 v.kernel.pipes) x :=
    Sound.armed ⟨hwired, lockstep_of_noVotes hn hvotes⟩ hx
  refine
    { sound := hsound.tick.note _
      lastDead := hx.kept.lastDead.trans hout.lastDead
      children := ?_
      fresh := ?_
      ext := ?_
      noVotes := ?_
      timer := ?_
      log := ⟨x.tick, Nat.le_trans htick hxtick, Nat.lt_succ_self _, ?_⟩
      alarms := fun m hm hmem => hout.alarms m hm (hx.alarms m hm hmem) }
  · intro c
    show c ∈ x.children ↔ c ∈ v.children ∨ c = (x.replicas 0).pid
    rw [hx.kept.children, hf.children, hch, hx.kept.pid]
    constructor
    · rintro (hc | ⟨i, hi, rfl⟩)
      · exact Or.inl hc
      · obtain rfl : i = 0 := by omega
        exact Or.inr rfl
    · rintro (hc | hc)
      · exact Or.inl hc
      · exact Or.inr ⟨0, by omega, hc⟩
  · show (x.replicas 0).pid ∉ v.children ∧ 0 < (x.replicas 0).pid
    rw [hx.kept.pid, ← hch]
    exact hf.fresh 0 (by omega)
  · intro p
    have hext := hx.kept.ext p
    rw [hout.extPipes] at hext
    exact hext
  · intro p hp
    show x.queue 0 p = []
    rw [hx.queue]
    exact VotePipe.content_of_zero (hvotes p hp).1
  · have hstarted : w.timerStarted = v.timerStarted := hout.timerStarted
    have hwatchdog : w.watchdog = v.watchdog := hout.watchdog
    rcases hx.timer with ⟨h1, h2⟩ | ⟨h1, h2, t, h3, h4, h5⟩
    · exact Or.inl ⟨h1.trans hstarted, h2.trans hwatchdog⟩
    · exact Or.inr ⟨hstarted ▸ h1, h2, t, Nat.le_trans htick h3, Nat.lt_succ_of_lt h4, h5⟩
  · show ({ x.log with calls := x.log.calls ++ [.returned (env.clock x.tick)] } : Log) = _
    rw [hx.log, hout.log]
    rfl

/-- **`voterRestartHandler` in SMR.** It does not stop. -/
theorem voterRestartHandler_smr (h : Sound cfg plan id v) (hmode : cfg.repType = .smr) :
    wp (voterRestartHandler cfg env) (fun _ v' => ColdStarted cfg env plan id v v') E v := by
  have hn : cfg.repCount = 1 := by
    rw [cfg.repCount_eq, hmode]
    rfl
  have hsound : Sound cfg plan id { v with lastDead := (v.replicas 0).pid } := h.of_same rfl rfl rfl
  have hcold : wp (do
      cleanupReplica 0
      startReplicas env cfg.repCount cfg.controllerName cfg.pipeCount cfg.replicaPriority) _ E _ :=
    coldStart_spec cfg.controllerName cfg.replicaPriority hsound hn
  unfold voterRestartHandler
  rw [hmode]
  dsimp only
  rw [wp_bind, wp_get, wp_bind, wp_modify]
  rw [wp_bind] at hcold ⊢
  refine hcold.imp fun _ t ht => ?_
  rw [wp_bind]
  refine ht.imp fun _ w hw => ?_
  obtain ⟨u, hrem, hch, hf⟩ := hw
  rw [wp_bind]
  refine (resend_spec (hf.renewed hrem).1).imp fun _ x hx => ?_
  rw [wp_bind, wp_generateTimestamp, wp_note]
  exact hf.coldStarted hn hrem hch hx

end ColdStart

end Pint
