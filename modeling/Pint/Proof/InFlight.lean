import Pint.Proof.Runs

/-!
# What a clone misses

The process that `restart_prep` makes is forked from the restarter, and has written whatever
the restarter has written. What the voter had read of that is copied to the clone's buffers.
What it had not read is in the restarter's pipes, and the clone's pipes are new and empty. So the
voter will read those bytes of the restarter and never of the clone, and from then on the clone is
behind by that much in each output.

The restarter is forked when the signal reaches it, and it is at work until then: `stealPipes`
takes the input away that it has not read, but not what it is working on. So the voter is
followed through `restartPrepWhile`, where the restarter writes before the signal. Those writes
go to pipes that the voter does not touch on the way, so the restart ends as it would if they
had been there at the call (`restartPrepWhile_spec`), and then `Restarted` says what is where.
`restartPrep_level` says that what was in flight, or came to be, is the only difference.

`Level` compares both replicas by what the voter holds of them and what it is about to read. It is a
statement about the state after the restart, in the voter and the kernel alone; that the clone
believes it has written the missing bytes is in `Proof.Transparency`.
-/

namespace Pint

open Prog Voting

/-- The bytes in flight from replica `i` on output pipe `p`. -/
def Voter.inFlight (v : Voter) (i p : Nat) : List Byte :=
  v.kernel.waiting (v.vot i p).fdIn

/-- On every output pipe the voter has, or is about to read, the same of both replicas. -/
def Level (cfg : Config) (v : Voter) (e r : Nat) : Prop :=
  ∀ p, p < cfg.pipeCount → (v.extPipes p).fdIn = 0 →
    v.queue e p ++ v.inFlight e p = v.queue r p ++ v.inFlight r p

instance (cfg : Config) (v : Voter) (e r : Nat) : Decidable (Level cfg v e r) :=
  inferInstanceAs (Decidable (∀ p, p < cfg.pipeCount → _))

section InFlight

variable {cfg : Config} {env : Env} {plan : Plan} {id : Nat → Nat → Nat} {v v' : Voter}
  {e r : Nat}

/-- What is in flight is what the kernel holds of the pipe. -/
theorem Sound.inFlight_eq (h : Sound cfg plan id v) {i p : Nat} (hs : cfg.Slot i p)
    (hout : ¬ v.IsInput p) : v.inFlight i p = v.kernel.unread (id i p) :=
  h.wired.waiting_eq hs hout

/-- Both have what the voter held of the restarter; the restarter has its bytes in flight
besides. -/
theorem Restarted.level_iff (h : Sound cfg plan id v) (he : e < cfg.repCount)
    (hr : r < cfg.repCount) (hne : r ≠ e) (hs : Restarted cfg plan id e r v v') :
    Level cfg v' e r ↔
      ∀ p, p < cfg.pipeCount → (v.extPipes p).fdIn = 0 → v.inFlight r p = [] := by
  have hsound : Sound cfg plan (refilled id e v.kernel.pipes) v' := ⟨hs.wired, hs.lockstep⟩
  -- The queues are equal and the clone's pipe is empty, so the rest is what was in flight.
  have hpipe : ∀ p, p < cfg.pipeCount → (v.extPipes p).fdIn = 0 →
      v'.queue e p = v'.queue r p ∧ v'.inFlight e p = [] ∧
        v'.inFlight r p = v.inFlight r p := by
    intro p hp hout
    have hout₀ : ¬ v.IsInput p := not_not.mpr hout
    have hout' : ¬ v'.IsInput p := by
      unfold Voter.IsInput
      rw [hs.extPipes]
      exact hout₀
    refine ⟨?_, ?_, ?_⟩
    · rw [hs.queue e p ⟨he, hp⟩ hout₀, hs.queue r p ⟨hr, hp⟩ hout₀, handed_self,
        handed_of_ne hne]
    · rw [hsound.inFlight_eq ⟨he, hp⟩ hout', refilled_self]
      exact hs.fresh p hp hout₀
    · rw [hsound.inFlight_eq ⟨hr, hp⟩ hout', h.inFlight_eq ⟨hr, hp⟩ hout₀, refilled_of_ne hne]
      exact hs.flight r p ⟨hr, hp⟩ hne hout₀
  unfold Level
  rw [hs.extPipes]
  constructor
  · intro hl p hp hout
    obtain ⟨hq, hfe, hfr⟩ := hpipe p hp hout
    have := hl p hp hout
    rw [hq, hfe, hfr] at this
    exact (List.append_cancel_left this).symm
  · intro hnone p hp hout
    obtain ⟨hq, hfe, hfr⟩ := hpipe p hp hout
    rw [hq, hfe, hfr, hnone p hp hout]

/-! ## A restarter at work -/

/-- With nothing to do meanwhile it is `restartReplica`. -/
theorem restartReplicaWhile_idle (num : Nat) (defaultPriority : Int) :
    restartReplicaWhile env num r e defaultPriority (pure ())
      = restartReplica env num r e defaultPriority := by
  unfold restartReplicaWhile restartReplica
  simp only [pure_bind]

/-- And `restart_prep`. -/
theorem restartPrepWhile_idle :
    restartPrepWhile cfg env e r (pure ()) = restartPrep cfg env e r := by
  unfold restartPrepWhile restartPrep
  simp only [restartReplicaWhile_idle]

/-- The voter with these bytes in its kernel pipes. -/
def Voter.withUnread (v : Voter) (unread : Nat → List Byte) : Voter :=
  { v with kernel := { v.kernel with unread } }

/-- Replica `r` has written `late p` to each output pipe `p` below `n`. -/
structure Wrote (cfg : Config) (id : Nat → Nat → Nat) (r : Nat) (late : Nat → List Byte)
    (v : Voter) (n : Nat) (v' : Voter) : Prop where
  still : Still v v'
  put : ∀ p, p < n → ¬ v.IsInput p →
    v'.kernel.unread (id r p) = v.kernel.unread (id r p) ++ late p
  later : ∀ p, n ≤ p → p < cfg.pipeCount → v'.kernel.unread (id r p) = v.kernel.unread (id r p)

/-- A write to the next output pipe. -/
theorem Wrote.next {D : Nat → Nat → Prop} {late : Nat → List Byte} {n : Nat} {u : Voter}
    (h : Wrote cfg id r late v n u) (hp : Plumbed D cfg.pipeCount plan id v)
    (hD : ∀ p, p < cfg.pipeCount → D r p) (hn : n < cfg.pipeCount) :
    Wrote cfg id r late v (n + 1)
      { u with kernel := u.kernel.deliver (id r n) (late n) } := by
  have hother : ∀ q, q < cfg.pipeCount → q ≠ n →
      (u.kernel.deliver (id r n) (late n)).unread (id r q) = u.kernel.unread (id r q) := by
    intro q hq hne
    refine Function.update_of_ne (fun heq => ?_) _ _
    exact hne (hp.id_inj r q r n (hD q hq) (hD n hn) heq).2
  have hself : (u.kernel.deliver (id r n) (late n)).unread (id r n)
      = u.kernel.unread (id r n) ++ late n := Function.update_self _ _ _
  refine ⟨h.still.trans (still_unread u _), fun q hq hout => ?_, fun q hq hqm => ?_⟩
  · rcases Nat.lt_succ_iff_lt_or_eq.mp hq with hlt | rfl
    · exact (hother q (Nat.lt_trans hlt hn) (Nat.ne_of_lt hlt)).trans (h.put q hlt hout)
    · rw [← h.later q (Nat.le_refl q) hn]
      exact hself
  · exact (hother q hqm (Nat.ne_of_gt hq)).trans (h.later q (Nat.le_of_succ_le hq) hqm)

/-- **What the restarter writes** goes to its own output pipes. The descriptors of the replica
that is restarted may be closed by then, so of the slots only its own have to be connected. -/
theorem replicaWrites_spec {D : Nat → Nat → Prop} {E : Stop → Prop} (late : Nat → List Byte)
    (hp : Plumbed D cfg.pipeCount plan id v) (hD : ∀ p, p < cfg.pipeCount → D r p)
    (hcount : (v.replicas r).pipeCount = cfg.pipeCount) :
    wp (replicaWrites r late) (fun _ v' => Wrote cfg id r late v cfg.pipeCount v') E v := by
  unfold replicaWrites
  rw [wp_bind, wp_get, hcount]
  refine wp_loop (Wrote cfg id r late v)
    { still := Still.refl v
      put := fun q hq => absurd hq (Nat.not_lt_zero q)
      later := fun _ _ _ => rfl } fun n u hn hu => ?_
  have hjoin := hp.joined r n (hD n hn)
  by_cases hin : v.IsInput n
  · -- the replica only reads this pipe
    rw [wp_ite, if_neg (not_not.mpr (hjoin.inward hin).2.2.2.1)]
    refine ⟨hu.still, fun q hq hout => ?_, fun q hq => hu.later q (Nat.le_of_succ_le hq)⟩
    rcases Nat.lt_succ_iff_lt_or_eq.mp hq with hlt | rfl
    · exact hu.put q hlt hout
    · exact absurd hin hout
  · have hfd := (hjoin.outward hin).2.2.2.1
    have hne : ((v.replicas r).repPipes n).fdOut ≠ 0 := by
      have hwr := hp.wr_ne_zero (hD n hn)
      rw [hfd]
      omega
    have hlook : u.kernel.lookup ((v.replicas r).repPipes n).fdOut
        = some (.writeEnd (id r n)) := by
      rw [hfd, hu.still.toKept.lookup]
      exact hp.wr r n (hD n hn)
    rw [wp_ite, if_pos hne, wp_discard]
    unfold write
    rw [wp_bind, wp_get]
    simp only [hlook, wp_bind, wp_set, wp_pure]
    exact hu.next hp hD hn

/-- **The restarter writes, and is forked.** The restart ends as if all of that had been in its
pipes before. -/
theorem restartReplicaWhile_spec {E : Stop → Prop} (hw : Wired cfg plan id v)
    (he : e < cfg.repCount) (hr : r < cfg.repCount) (hne : r ≠ e) (num : Nat)
    (defaultPriority : Int) (late : Nat → List Byte) :
    wp (restartReplicaWhile env num r e defaultPriority (replicaWrites r late))
      (fun _ v' => ∃ unread, (∀ p, p < cfg.pipeCount → ¬ v.IsInput p →
          unread (id r p) = v.kernel.unread (id r p) ++ late p) ∧
        Remade cfg plan id e (v.withUnread unread) v' ∧ v'.children = v.children) E v := by
  unfold restartReplicaWhile
  rw [wp_bind]
  refine (cleanupReplica_spec hw he).imp fun _ t₀ ht₀ => ?_
  obtain ⟨k', signals, rfl, hk⟩ := ht₀
  have hs₀ : Still { v with kernel := k' } { v with kernel := k', log := { v.log with signals } } :=
    still_signal { v with kernel := k' } signals
  rw [wp_bind]
  refine (favour_still _ _ _ _).imp fun _ t ht => ?_
  have hs := hs₀.trans ht.1
  have hpipes := (hw.closing he hk).kept hs.toKept
  have hcount : (t.replicas r).pipeCount = cfg.pipeCount :=
    (hs.pipeCount r).trans (hw.count r hr)
  rw [wp_bind]
  refine (replicaWrites_spec late hpipes (fun p hp => ⟨⟨hr, hp⟩, hne⟩) hcount).imp fun _ u hu => ?_
  rw [wp_bind, wp_get, wp_bind, wp_kill]
  -- from here on it is a restart of the voter that holds what is in the pipes now
  have hlookup : ∀ fd, u.kernel.lookup fd = k'.lookup fd := fun fd => by
    rw [hu.still.toKept.lookup, ht.2]
  have hk' : Closing plan cfg.pipeCount e (plan.Mine cfg.pipeCount e)
      (v.withUnread u.kernel.unread).kernel u.kernel :=
    { unread := rfl
      pipes := by
        rw [hu.still.pipes, ht.2]
        exact hk.pipes
      same := fun x hx => (hlookup x).trans (hk.same x hx)
      shut := fun x hx => (hlookup x).trans (hk.shut x hx) }
  have hstill : Still { v.withUnread u.kernel.unread with kernel := u.kernel } u :=
    { hs.trans hu.still with
      fds := rfl
      pipes := rfl }
  have hsignal := hstill.trans (still_signal u (u.log.signals ++
    [((u.replicas r).pid, .RESTART_SIGNAL)]))
  refine (remade_spec (u.replicas r).name num defaultPriority
    (hw.kept (still_unread v _).toKept) he hr hne hk' hsignal rfl).imp
    fun _ v' hv' => ⟨u.kernel.unread, ?_, hv'⟩
  intro p hp hout
  rw [hu.put p hp fun hin => hout ((hs.toKept.isInput p).mp hin), ht.2, hk.unread]

/-- **`restart_prep` of a restarter at work** ends as `restart_prep` does that finds `late p`
behind what was in flight from the restarter on output pipe `p`. -/
theorem restartPrepWhile_spec (h : Sound cfg plan id v) (he : e < cfg.repCount)
    (hr : r < cfg.repCount) (hne : r ≠ e) (late : Nat → List Byte) :
    wp (restartPrepWhile cfg env e r (replicaWrites r late))
      (fun _ v' => ∃ unread, (∀ p, p < cfg.pipeCount → ¬ v.IsInput p →
          unread (id r p) = v.kernel.unread (id r p) ++ late p) ∧
        Restarted cfg plan id e r (v.withUnread unread) v') (fun _ => False) v := by
  have hw := h.wired
  unfold restartPrepWhile
  rw [wp_bind, wp_modify, wp_bind]
  obtain ⟨v₁, hv₁⟩ : ∃ v₁ : Voter, v₁ = { v with
    log := { v.log with restarts := v.log.restarts ++ [(e, r)] } } := ⟨_, rfl⟩
  rw [← hv₁]
  have hk₁ : Kept v v₁ := by
    rw [hv₁]
    exact { Kept.refl v with }
  refine (stealPipes_spec (hw.kept hk₁) hr).imp fun buffer v₂ h₂ => ?_
  rw [wp_bind, wp_modify, wp_bind]
  have hstolen : Stolen cfg id e r v { v₂ with timerStarted := false } := by
    rw [hv₁] at h₂
    exact h₂.stolen
  refine (restartReplicaWhile_spec (hw.kept hstolen.kept) he hr hne cfg.repCount
    cfg.replicaPriority late).imp fun _ v₄ h₄ => ?_
  obtain ⟨unread, hput, hremade, hch⟩ := h₄
  -- From here on it is as if the late bytes had been in the pipes before the call.
  have hstolen' : Stolen cfg id e r (v.withUnread unread)
      (({ v₂ with timerStarted := false } : Voter).withUnread unread) :=
    { hstolen with
      kept := { hstolen.kept with }
      flight := fun _ _ _ _ => rfl }
  have hw' : Wired cfg plan id (v.withUnread unread) := hw.kept (still_unread v _).toKept
  have hl' : Lockstep cfg (v.withUnread unread) := (h.still (still_unread v unread)).lockstep
  have hprep := hstolen'.prepared hw' hremade hch
  rw [wp_bind, wp_modify, wp_bind, wp_get, wp_bind]
  obtain ⟨w, hwdef⟩ : ∃ w : Voter, w = { v₄ with log := { v₄.log with
    stream := Function.update v₄.log.stream e (v₄.log.stream r) } } := ⟨_, rfl⟩
  rw [← hwdef] at hprep ⊢
  rw [hprep.wired.count r hr]
  refine (hprep.handOver hl' hr hne).imp fun _ u hu => ?_
  have hwu := hprep.wired.kept hu.1.kept
  rw [wp_bind]
  refine (returnPipes_spec hwu he buffer).imp fun _ u' hu' => ?_
  refine (returnPipes_spec (hwu.kept hu'.still.toKept) hr buffer).imp fun _ v' hv' => ?_
  refine ⟨unread, fun p hp hout => ?_, hprep.restarted hl' hne hu.1 (hu'.still.trans hv'.still)
    (hu'.flight.trans hu'.still.toKept hv'.flight) he⟩
  rw [hput p hp fun hin => hout ((hstolen.kept.isInput p).mp hin)]
  exact congrArg (· ++ late p) (hstolen.flight r p ⟨hr, hp⟩ hout)

/-- **When a restart leaves clone and source level.** `restart_prep` returns, whatever the
restarter writes until it is forked. Afterwards the voter has, or is about to read, the same of
both replicas exactly when nothing was in flight from the restarter, and it wrote nothing
until then. -/
theorem restartPrep_level (h : Sound cfg plan id v) (he : e < cfg.repCount)
    (hr : r < cfg.repCount) (hne : r ≠ e) (late : Nat → List Byte) :
    ∃ v', exec (restartPrepWhile cfg env e r (replicaWrites r late)) v = .ok v' ∧
      (Level cfg v' e r ↔ ∀ p, p < cfg.pipeCount → (v.extPipes p).fdIn = 0 →
        v.inFlight r p = [] ∧ late p = []) := by
  obtain ⟨_, v', hrun, unread, hput, hs⟩ := (restartPrepWhile_spec h he hr hne late :
    wp (restartPrepWhile cfg env e r (replicaWrites r late)) _ _ v).exists_run
  have h' : Sound cfg plan id (v.withUnread unread) := h.still (still_unread v unread)
  refine ⟨v', exec_of_run hrun, (hs.level_iff h' he hr hne).trans ?_⟩
  refine forall_congr' fun p => imp_congr_right fun hp => imp_congr_right fun hout => ?_
  have hout' : ¬ v.IsInput p := not_not.mpr hout
  rw [h'.inFlight_eq ⟨hr, hp⟩ hout', h.inFlight_eq ⟨hr, hp⟩ hout']
  show unread (id r p) = [] ↔ _
  rw [hput p hp hout', List.append_eq_nil_iff]

/-- Calls in any order leave a sound voter. -/
theorem Sound.run {ms : List Action} (h : Sound cfg plan id v) (hmode : cfg.Replicated)
    (hrun : runAll (perform cfg env) ms v = .ok v') : ∃ id', Sound cfg plan id' v' :=
  runAll.invariant (I := fun u => ∃ id', Sound cfg plan id' u)
    (fun a _ _ hu hstep => by
      obtain ⟨id', hu⟩ := hu
      exact ((perform_spec hu hmode a).1 _ hstep).sound hu) ⟨id, h⟩ hrun

/-- The third replica of `Filter` has delivered a byte, and is at rest while the first is made
anew from it: what the voter holds of it is copied. -/
theorem restartPrep_level_filter :
    ∃ v v', runAll (perform (filterPipes.config .tmr 400 80) .steady)
        [.deliver 10 [7], .processFromRep 2 1]
        (filterPipes.start (filterPipes.config .tmr 400 80) .steady) = .ok v ∧
      v.queue 2 1 = [7] ∧ v.queue 0 1 = [] ∧
      exec (restartPrepWhile (filterPipes.config .tmr 400 80) .steady 0 2
        (replicaWrites 2 fun _ => [])) v = .ok v' ∧
      Level (filterPipes.config .tmr 400 80) v' 0 2 := by
  have hrun := eq_ended (d := {})
    (r := runAll (perform (filterPipes.config .tmr 400 80) .steady)
      [.deliver 10 [7], .processFromRep 2 1]
      (filterPipes.start (filterPipes.config .tmr 400 80) .steady)) (by decide +kernel)
  obtain ⟨v, hv⟩ : ∃ v, v = ended (runAll (perform (filterPipes.config .tmr 400 80) .steady)
      [.deliver 10 [7], .processFromRep 2 1]
      (filterPipes.start (filterPipes.config .tmr 400 80) .steady)) {} := ⟨_, rfl⟩
  rw [← hv] at hrun
  obtain ⟨plan, id₀, h₀⟩ := (filterPipes.started : Started (filterPipes.config .tmr 400 80)
    .steady _).fresh.sound
  obtain ⟨id, h⟩ := h₀.run (Or.inr rfl) hrun
  obtain ⟨v', hexec, hiff⟩ : ∃ v', exec (restartPrepWhile _ .steady 0 2 _) v = .ok v' ∧ _ :=
    restartPrep_level h (by decide) (by decide) (by decide) fun _ => []
  refine ⟨v, v', hrun, ?_, ?_, hexec, hiff.mpr fun p hp _ => ⟨?_, rfl⟩⟩
  · rw [hv]
    decide +kernel
  · rw [hv]
    decide +kernel
  · rw [hv]
    exact (show ∀ p < 3, (ended (runAll (perform (filterPipes.config .tmr 400 80) .steady)
      [.deliver 10 [7], .processFromRep 2 1]
      (filterPipes.start (filterPipes.config .tmr 400 80) .steady)) {}).inFlight 2 p = []
      by decide +kernel) p hp

/-- The third replica of `Filter` has written a byte that the voter has not read when the
watchdog runs out. The first is cloned from it, and never delivers that byte. -/
theorem restart_misses_bytes_in_flight :
    ∃ v, runAll (perform (filterPipes.config .tmr 400 80) .steady)
        [.deliver 10 [7], .watchdog]
        (filterPipes.start (filterPipes.config .tmr 400 80) .steady) = .ok v ∧
      v.log.restarts = [(0, 2)] ∧ v.queue 0 1 ++ v.inFlight 0 1 = [] ∧
      v.queue 2 1 ++ v.inFlight 2 1 = [7] ∧
      ¬ Level (filterPipes.config .tmr 400 80) v 0 2 := by
  have hrun := eq_ended (d := {})
    (r := runAll (perform (filterPipes.config .tmr 400 80) .steady) [.deliver 10 [7], .watchdog]
      (filterPipes.start (filterPipes.config .tmr 400 80) .steady)) (by decide +kernel)
  exact ⟨_, hrun, by decide +kernel, by decide +kernel, by decide +kernel, by decide +kernel⟩

end InFlight

end Pint
