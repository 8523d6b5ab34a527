import Pint.Proof.Votes

/-!
# What a restart does

`restart_prep` makes the replica anew, and then gives it what the voter still holds of its
restarter, pipe by pipe; on each pipe it also forwards what all replicas have. `Restarted`
is the whole of that, and the only thing said about it elsewhere.

Two facts about it carry the arguments that follow. The queues afterwards are those of
`Voter.handed`: the restarted replica has the queue of its restarter, *as the voter holds
it*. And the pipe of the restarted replica is empty afterwards, whatever was on the way from
the restarter.

The proof goes through the phases of the function: the input is stolen (`Stolen`), the replica is
made anew (`Prepared`), the output pipes are handed over one by one (`Handing`), and the stolen
input is given back. A phase is described by what it changes, field by field, and the next one
starts from that. On each pipe that is handed over the buffers are brought in step before the
vote on it, which is why the flush can use `sendPipe` at all.

The flush forwards the restarter's bytes without a vote. As far as two replicas agreed when the
restart was called, that is harmless; `Proof.TwoVotes` is about where it is not.

What becomes of the input of the two replicas is `Refed`, which is about other pipes and is
kept apart.
-/

namespace Pint

open Prog Voting

/-- The queues of pipe `p` once replica `e` was given that of replica `r`. -/
def Voter.handed (v : Voter) (e r p : Nat) : Nat → List Byte :=
  Function.update (fun i => v.queue i p) e (v.queue r p)

/-- How much all replicas have then. -/
def Voter.handedReady (v : Voter) (cfg : Config) (e r p : Nat) : Nat :=
  Voting.ready maxVotePipeBuff cfg.repCount (v.handed e r p)

/-! ## One pipe -/

section HandOver

variable {cfg : Config} {v v' : Voter} {e r p : Nat} {E : Stop → Prop}

theorem handed_self : v.handed e r p e = v.queue r p := Function.update_self _ _ _

theorem handed_of_ne {i : Nat} (h : i ≠ e) : v.handed e r p i = v.queue i p :=
  Function.update_of_ne h _ _

/-- One output pipe was handed over to replica `e` and voted on. -/
structure HandedOver (cfg : Config) (e r p : Nat) (v v' : Voter) : Prop where
  kept : Kept v v'
  watchdog : v'.watchdog = v.watchdog
  extPipes : v'.extPipes = v.extPipes
  timerStarted : v.timerStarted = false → v'.timerStarted = false
  inStep : InStep (· < cfg.repCount) v' p
  queue : ∀ i, i < cfg.repCount →
    v'.queue i p = (v.handed e r p i).drop (v.handedReady cfg e r p)
  vot_ne : ∀ i q, q ≠ p → v'.vot i q = v.vot i q
  log : v'.log = { v.log with
    sent := Function.update v.log.sent p
      (v.log.sent p ++ (v.queue r p).take (v.handedReady cfg e r p)) }
  wrote : OnlyWrote (· = (v.extPipes p).fdOut) v v'

/-- The queues of pipe `p` once replica `e` has a copy of that of replica `r`. -/
theorem queue_copied {buffer : Nat → Byte}
    (hcontent : ((v.vot e p).copied (v.vot r p) buffer).content = (v.vot r p).content) (i : Nat) :
    (v.setVot e p ((v.vot e p).copied (v.vot r p) buffer)).queue i p = v.handed e r p i := by
  unfold Voter.queue
  rw [setVot_vot_eq]
  by_cases hi : i = e
  · rw [if_pos ⟨hi, rfl⟩, hi, handed_self, hcontent]
    rfl
  · rw [if_neg (fun hc => hi hc.1), handed_of_ne hi]
    rfl

/-- The copy is in step with the others. -/
theorem InStep.copied (h : InStep (fun i => i < cfg.repCount ∧ i ≠ e) v p)
    (hr : r < cfg.repCount) (hne : r ≠ e) (buffer : Nat → Byte) :
    InStep (· < cfg.repCount) (v.setVot e p ((v.vot e p).copied (v.vot r p) buffer)) p := by
  have hpipe : ∀ i, i < cfg.repCount →
      ((v.setVot e p ((v.vot e p).copied (v.vot r p) buffer)).vot i p).Wf ∧
      ((v.setVot e p ((v.vot e p).copied (v.vot r p) buffer)).vot i p).buffIndex
        = (v.vot r p).buffIndex := by
    intro i hi
    rw [setVot_vot_eq]
    by_cases hie : i = e
    · rw [if_pos ⟨hie, rfl⟩]
      exact ⟨(h.wf r ⟨hr, hne⟩).copied, rfl⟩
    · rw [if_neg (fun hc => hie hc.1)]
      exact ⟨h.wf i ⟨hi, hie⟩, h.index i r ⟨hi, hie⟩ ⟨hr, hne⟩⟩
  exact ⟨fun i hi => (hpipe i hi).1, fun i j hi hj => (hpipe i hi).2.trans (hpipe j hj).2.symm⟩

theorem handOver_spec (h : InStep (fun i => i < cfg.repCount ∧ i ≠ e) v p) (hr : r < cfg.repCount)
    (hne : r ≠ e) (hin : (v.vot r p).fdIn ≠ 0) :
    wp (handOver cfg e r p) (fun _ v' => HandedOver cfg e r p v v') E v := by
  obtain ⟨buffer, hcopy, hcontent⟩ := copyPipe_eq (h.wf r ⟨hr, hne⟩) (v.vot e p)
  unfold handOver
  rw [wp_bind, wp_get, wp_ite, if_pos hin, wp_bind, wp_lift_ok hcopy, wp_bind, wp_modify]
  -- `w` is the state between the copy and the send.
  obtain ⟨w, hw⟩ : ∃ w, w = v.setVot e p ((v.vot e p).copied (v.vot r p) buffer) := ⟨_, rfl⟩
  have hqueue : ∀ i, w.queue i p = v.handed e r p i := hw ▸ queue_copied hcontent
  have hready : w.ready cfg p = v.handedReady cfg e r p :=
    ready_congr fun i _ => by rw [hqueue]
  have hstep : InStep (· < cfg.repCount) w p := hw ▸ h.copied hr hne buffer
  have hkept : Kept v w := by
    rw [hw]
    exact kept_setVot rfl rfl
  have hlog : w.log = v.log := by
    rw [hw]
    rfl
  have hext : w.extPipes = v.extPipes := by
    rw [hw]
    rfl
  have hwrote : OnlyWrote (· = (v.extPipes p).fdOut) v w := by
    intro id _
    rw [hw]
    rfl
  rw [← hw]
  refine (sendPipe_spec hstep hr).imp fun _ v' hs => ?_
  refine
    { kept := hkept.trans hs.kept
      watchdog := hs.watchdog.trans (by rw [hw]; rfl)
      extPipes := hs.extPipes.trans hext
      timerStarted := fun ht => hs.outside_of (by rw [hw]; exact ht)
      inStep := hs.inStep
      queue := fun i hi => by rw [hs.queue i hi, hqueue, hready]
      vot_ne := fun i q hq => by
        rw [hs.vot_ne i q hq, hw, setVot_vot_eq, if_neg (fun hc => hq hc.2)]
      log := by rw [hs.log, hlog, hready, hqueue, handed_of_ne hne]
      wrote := ?_ }
  have hws := hs.wrote
  rw [hext] at hws
  exact hwrote.trans hkept hws

end HandOver

/-! ## All pipes -/

section Restart

variable {cfg : Config} {env : Env} {plan : Plan} {id : Nat → Nat → Nat} {v v' : Voter}
  {e r : Nat}

/-- After `n` turns of the loop of `restart_prep`, which started at `w`. -/
structure Handing (cfg : Config) (id : Nat → Nat → Nat) (e r : Nat) (w : Voter) (n : Nat)
    (u : Voter) : Prop where
  kept : Kept w u
  watchdog : u.watchdog = w.watchdog
  extPipes : u.extPipes = w.extPipes
  timerStarted : u.timerStarted = false
  /-- The pipes whose turn has not come, and the input pipes, which are passed over. -/
  vot : ∀ q, n ≤ q ∨ w.IsInput q → ∀ i, u.vot i q = w.vot i q
  sent : ∀ q, n ≤ q ∨ w.IsInput q → u.log.sent q = w.log.sent q
  inStep : ∀ q, q < n → ¬ w.IsInput q → InStep (· < cfg.repCount) u q
  queue : ∀ q, q < n → ¬ w.IsInput q → ∀ i, i < cfg.repCount →
    u.queue i q = (w.handed e r q i).drop (w.handedReady cfg e r q)
  sentDone : ∀ q, q < n → ¬ w.IsInput q →
    u.log.sent q = w.log.sent q ++ (w.queue r q).take (w.handedReady cfg e r q)
  log : u.log = { w.log with sent := u.log.sent }
  flight : SameFlight cfg id w u

theorem Handing.start {w : Voter} (ht : w.timerStarted = false) : Handing cfg id e r w 0 w where
  kept := Kept.refl w
  watchdog := rfl
  extPipes := rfl
  timerStarted := ht
  vot _ _ _ := rfl
  sent _ _ := rfl
  inStep q hq := absurd hq (Nat.not_lt_zero q)
  queue q hq := absurd hq (Nat.not_lt_zero q)
  sentDone q hq := absurd hq (Nat.not_lt_zero q)
  log := rfl
  flight := SameFlight.refl

/-- An input pipe is passed over. -/
theorem Handing.skip {w u : Voter} {n : Nat} (h : Handing cfg id e r w n u) (hin : w.IsInput n) :
    Handing cfg id e r w (n + 1) u := by
  have hlt : ∀ q, q < n + 1 → ¬ w.IsInput q → q < n := by
    intro q hqn hout
    rcases Nat.lt_succ_iff_lt_or_eq.mp hqn with hlt | rfl
    · exact hlt
    · exact absurd hin hout
  exact
    { h with
      vot := fun q hc => h.vot q (hc.imp_left Nat.le_of_succ_le)
      sent := fun q hc => h.sent q (hc.imp_left Nat.le_of_succ_le)
      inStep := fun q hqn hout => h.inStep q (hlt q hqn hout) hout
      queue := fun q hqn hout => h.queue q (hlt q hqn hout) hout
      sentDone := fun q hqn hout => h.sentDone q (hlt q hqn hout) hout }

/-- Another pipe is handed over. -/
theorem Handing.handed {w u u' : Voter} {n : Nat} (hw : Wired cfg plan id w)
    (hn : n < cfg.pipeCount) (h : Handing cfg id e r w n u) (hin : ¬ w.IsInput n)
    (hs : HandedOver cfg e r n u u') : Handing cfg id e r w (n + 1) u' := by
  -- Pipe `n` is as it was in `w`: the turns before this one were about other pipes.
  have hq : ∀ i, u.queue i n = w.queue i n := fun i => by
    unfold Voter.queue
    rw [h.vot n (Or.inl (Nat.le_refl n))]
  have hhanded : u.handed e r n = w.handed e r n := by
    unfold Voter.handed
    rw [hq, funext hq]
  have hready : u.handedReady cfg e r n = w.handedReady cfg e r n := by
    unfold Voter.handedReady
    rw [hhanded]
  have hne' : ∀ q, n + 1 ≤ q ∨ w.IsInput q → q ≠ n := by
    intro q hc hqn
    rw [hqn] at hc
    exact hc.elim (fun hle => absurd hle (Nat.not_succ_le_self n)) hin
  have hsent : ∀ q, q ≠ n → u'.log.sent q = u.log.sent q := by
    intro q hqn
    rw [hs.log]
    exact Function.update_of_ne hqn _ _
  have hwired := hw.kept h.kept
  refine
    { kept := h.kept.trans hs.kept
      watchdog := hs.watchdog.trans h.watchdog
      extPipes := hs.extPipes.trans h.extPipes
      timerStarted := hs.timerStarted h.timerStarted
      vot := fun q hc i => (hs.vot_ne i q (hne' q hc)).trans
        (h.vot q (hc.imp_left Nat.le_of_succ_le) i)
      sent := fun q hc => (hsent q (hne' q hc)).trans
        (h.sent q (hc.imp_left Nat.le_of_succ_le))
      inStep := fun q hqn hout => ?_
      queue := fun q hqn hout i hi => ?_
      sentDone := fun q hqn hout => ?_
      log := by
        rw [hs.log, h.log]
      flight := h.flight.trans h.kept (hwired.sameFlight hs.wrote fun fd hfd =>
        Or.inr ⟨n, hn, hfd⟩) }
  · by_cases hqn' : q = n
    · rw [hqn']
      exact hs.inStep
    · exact (h.inStep q (by omega) hout).congr fun i _ => hs.vot_ne i q hqn'
  · by_cases hqn' : q = n
    · rw [hqn', hs.queue i hi, hhanded, hready]
    · have := h.queue q (by omega) hout i hi
      unfold Voter.queue at this ⊢
      rw [hs.vot_ne i q hqn', this]
  · by_cases hqn' : q = n
    · rw [hqn', hs.log]
      show Function.update _ n _ n = _
      rw [Function.update_self, hready, hq, h.sent n (Or.inl (Nat.le_refl n))]
    · rw [hsent q hqn']
      exact h.sentDone q (by omega) hout

theorem Handing.step {w u : Voter} {n : Nat} {E : Stop → Prop} (hw : Wired cfg plan id w)
    (he : InStep (fun i => i < cfg.repCount ∧ i ≠ e) w n) (hr : r < cfg.repCount) (hne : r ≠ e)
    (hn : n < cfg.pipeCount) (h : Handing cfg id e r w n u) :
    wp (handOver cfg e r n) (fun _ => Handing cfg id e r w (n + 1)) E u := by
  have hvot : ∀ i, u.vot i n = w.vot i n := h.vot n (Or.inl (Nat.le_refl n))
  have hfd : (u.vot r n).fdIn ≠ 0 ↔ ¬ w.IsInput n := by
    rw [hvot]
    exact hw.fdIn_ne_zero (i := r) (p := n) ⟨hr, hn⟩
  by_cases hin : w.IsInput n
  · unfold handOver
    rw [wp_bind, wp_get, wp_ite, if_neg fun hc => hfd.mp hc hin, wp_pure]
    exact h.skip hin
  · exact (handOver_spec (he.congr fun i _ => hvot i) hr hne (hfd.mpr hin)).imp fun _ _ hs =>
      h.handed hw hn hin hs

/-- No pipe between the voter and a replica was touched. -/
def SameBytes (cfg : Config) (id : Nat → Nat → Nat) (v v' : Voter) : Prop :=
  ∀ i p, cfg.Slot i p → v'.kernel.unread (id i p) = v.kernel.unread (id i p)

theorem SameBytes.trans {v'' : Voter} (h : SameBytes cfg id v v') (h' : SameBytes cfg id v' v'') :
    SameBytes cfg id v v'' := fun i p hs => (h' i p hs).trans (h i p hs)

/-- What is written to the outside is written to no replica. -/
theorem Wired.sameBytes (hw : Wired cfg plan id v) {q : Nat} (hq : q < cfg.pipeCount)
    (h : OnlyWrote (· = (v.extPipes q).fdOut) v v') : SameBytes cfg id v v' := by
  intro i p hs
  refine h _ ?_
  rintro fd rfl
  exact hw.ext_fdOut_ne hs hq

theorem handOver_bytes {p : Nat} {E : Stop → Prop} (hw : Wired cfg plan id v)
    (h : InStep (fun i => i < cfg.repCount ∧ i ≠ e) v p) (hr : r < cfg.repCount) (hne : r ≠ e)
    (hp : p < cfg.pipeCount) :
    wp (handOver cfg e r p) (fun _ v' => SameBytes cfg id v v') E v := by
  by_cases hin : (v.vot r p).fdIn = 0
  · unfold handOver
    rw [wp_bind, wp_get, wp_ite, if_neg (not_not.mpr hin), wp_pure]
    exact fun _ _ _ => rfl
  · exact (handOver_spec h hr hne hin).imp fun _ _ hs => hw.sameBytes hp hs.wrote

/-- The input of the two replicas after `restart_prep e r`: each has what was stolen, and in
the restarter's pipes this comes after what was not. -/
structure Refed (cfg : Config) (env : Env) (id : Nat → Nat → Nat) (e r : Nat)
    (v v' : Voter) : Prop where
  restarter : ∀ p, p < cfg.pipeCount → v.IsInput p → v'.kernel.unread (id r p)
    = (v.backlog r p).drop (v.stolen env r p) ++ (v.backlog r p).take (v.stolen env r p)
  restartee : ∀ p, p < cfg.pipeCount → v.IsInput p →
    v'.kernel.unread (v.kernel.pipes + p) = (v.backlog r p).take (v.stolen env r p)

/-- The input pipes through the phases of `restart_prep`: steal, make anew (`w`), hand over
(`u`), give back (`u'`, then `v'`). -/
theorem Stealing.refed {buffer : Nat → List Byte} {v₂ w u u' : Voter}
    (h : Stealing cfg env id r v cfg.pipeCount buffer v₂) (hw : Wired cfg plan id v)
    (hr : r < cfg.repCount) (he : e < cfg.repCount) (hne : r ≠ e)
    (hold : ∀ x, x < v.kernel.pipes → w.kernel.unread x = v₂.kernel.unread x)
    (hfresh : ∀ p, p < cfg.pipeCount → w.kernel.unread (v.kernel.pipes + p) = [])
    (hin : ∀ p, u.IsInput p ↔ v.IsInput p)
    (hb : SameBytes cfg (refilled id e v.kernel.pipes) w u)
    (he' : Returning cfg (refilled id e v.kernel.pipes) e buffer u cfg.pipeCount u')
    (hr' : Returning cfg (refilled id e v.kernel.pipes) r buffer u' cfg.pipeCount v') :
    Refed cfg env id e r v v' := by
  have hidr : ∀ p, refilled id e v.kernel.pipes r p = id r p := fun p =>
    refilled_of_ne hne
  have hide : ∀ p, refilled id e v.kernel.pipes e p = v.kernel.pipes + p := fun p =>
    refilled_self
  have hin' : ∀ p, u'.IsInput p ↔ v.IsInput p := fun p =>
    (he'.still.toKept.isInput p).trans (hin p)
  constructor
  · -- The restarter: what one `read` left, and behind it what was given back.
    intro p hp hinp
    have hs : cfg.Slot r p := ⟨hr, hp⟩
    have h1 := hr'.back p hp ((hin' p).mpr hinp)
    have h2 := he'.same r p hs ((hin p).mpr hinp) fun hre => absurd hre hne
    have h3 := hb r p hs
    rw [hidr] at h1 h2 h3
    rw [h1, h2, h3, hold _ (hw.id_lt r p hs), h.left p hp hinp, h.got p hp hinp]
  · intro p hp hinp
    have hs : cfg.Slot e p := ⟨he, hp⟩
    have h1 := hr'.same e p hs ((hin' p).mpr hinp) fun her => absurd her.symm hne
    have h2 := he'.back p hp ((hin p).mpr hinp)
    have h3 := hb e p hs
    rw [hide] at h1 h2 h3
    rw [h1, h2, h3, hfresh p hp, List.nil_append, h.got p hp hinp]

/-- `restart_prep e r`, seen from outside. -/
structure Restarted (cfg : Config) (plan : Plan) (id : Nat → Nat → Nat) (e r : Nat)
    (v v' : Voter) : Prop where
  watchdog : v'.watchdog = v.watchdog
  timerStarted : v'.timerStarted = false
  lastDead : v'.lastDead = v.lastDead
  children : v'.children = v.children
  extPipes : v'.extPipes = v.extPipes
  tick : v.tick ≤ v'.tick
  wired : Wired cfg plan (refilled id e v.kernel.pipes) v'
  lockstep : Lockstep cfg v'
  pid_ne : ∀ j, j ≠ e → (v'.replicas j).pid = (v.replicas j).pid
  queue : ∀ i p, cfg.Slot i p → ¬ v.IsInput p →
    v'.queue i p = (v.handed e r p i).drop (v.handedReady cfg e r p)
  sent : ∀ p, p < cfg.pipeCount → ¬ v.IsInput p →
    v'.log.sent p = v.log.sent p ++ (v.queue r p).take (v.handedReady cfg e r p)
  sent_ne : ∀ p, cfg.pipeCount ≤ p ∨ v.IsInput p → v'.log.sent p = v.log.sent p
  accepted : v'.log.accepted = v.log.accepted
  stream : v'.log.stream = Function.update v.log.stream e (v.log.stream r)
  restarts : v'.log.restarts = v.log.restarts ++ [(e, r)]
  calls : v'.log.calls = v.log.calls
  alarms : ∀ m : Message, m.alarm = true → m ∈ v'.log.said → m ∈ v.log.said
  /-- What was on the way from the other replicas still is. -/
  flight : ∀ j p, cfg.Slot j p → j ≠ e → ¬ v.IsInput p →
    v'.kernel.unread (id j p) = v.kernel.unread (id j p)
  /-- Nothing is on the way from the restarted one. -/
  fresh : ∀ p, p < cfg.pipeCount → ¬ v.IsInput p →
    v'.kernel.unread (v.kernel.pipes + p) = []

/-- `restart_prep` up to its loop: replica `e` was made anew, and the log says so. -/
structure Prepared (cfg : Config) (plan : Plan) (id : Nat → Nat → Nat) (e r : Nat)
    (v w : Voter) : Prop where
  watchdog : w.watchdog = v.watchdog
  timerStarted : w.timerStarted = false
  lastDead : w.lastDead = v.lastDead
  children : w.children = v.children
  extPipes : w.extPipes = v.extPipes
  tick : v.tick ≤ w.tick
  wired : Wired cfg plan (refilled id e v.kernel.pipes) w
  pid_ne : ∀ j, j ≠ e → (w.replicas j).pid = (v.replicas j).pid
  vot_ne : ∀ j, j ≠ e → ∀ q, w.vot j q = v.vot j q
  empty : ∀ q, q < cfg.pipeCount → (w.vot e q).buffCount = 0 ∧ (w.vot e q).buffIndex = 0
  log : w.log = { v.log with
    said := w.log.said
    signals := w.log.signals
    restarts := v.log.restarts ++ [(e, r)]
    stream := Function.update v.log.stream e (v.log.stream r) }
  alarms : ∀ m : Message, m.alarm = true → m ∈ w.log.said → m ∈ v.log.said
  flight : ∀ j p, cfg.Slot j p → j ≠ e → ¬ v.IsInput p →
    w.kernel.unread (id j p) = v.kernel.unread (id j p)
  fresh : ∀ p, p < cfg.pipeCount → w.kernel.unread (v.kernel.pipes + p) = []

/-- The state after stealing, with the timer reset. -/
structure Stolen (cfg : Config) (id : Nat → Nat → Nat) (e r : Nat) (v w : Voter) : Prop where
  kept : Kept v w
  watchdog : w.watchdog = v.watchdog
  timerStarted : w.timerStarted = false
  extPipes : w.extPipes = v.extPipes
  vot : ∀ i q, w.vot i q = v.vot i q
  log : w.log = { v.log with
    said := w.log.said
    signals := w.log.signals
    restarts := v.log.restarts ++ [(e, r)] }
  alarms : ∀ m : Message, m.alarm = true → m ∈ w.log.said → m ∈ v.log.said
  flight : SameFlight cfg id v w

theorem Stealing.stolen {buffer : Nat → List Byte} {w : Voter}
    (h : Stealing cfg env id r { v with
      log := { v.log with restarts := v.log.restarts ++ [(e, r)] } } cfg.pipeCount buffer w) :
    Stolen cfg id e r v { w with timerStarted := false } where
  kept := { h.still.toKept with }
  watchdog := h.still.watchdog
  timerStarted := rfl
  extPipes := h.still.extPipes
  vot := h.still.vot
  log := h.still.log
  alarms := h.still.alarms
  flight j p hjp hout := h.flight j p hjp hout

theorem Stolen.prepared {w u : Voter} (hw : Wired cfg plan id v) (hs : Stolen cfg id e r v w)
    (h : Remade cfg plan id e w u) (hch : u.children = w.children) :
    Prepared cfg plan id e r v { u with log := { u.log with
      stream := Function.update u.log.stream e (u.log.stream r) } } where
  watchdog := h.outside.watchdog.trans hs.watchdog
  timerStarted := h.outside.timerStarted.trans hs.timerStarted
  lastDead := h.outside.lastDead.trans hs.kept.lastDead
  children := hch.trans hs.kept.children
  extPipes := h.outside.extPipes.trans hs.extPipes
  tick := Nat.le_trans hs.kept.tick h.outside.tick
  wired := by
    have hwu := h.wired
    rw [hs.kept.pipes] at hwu
    exact hwu.kept { Kept.refl u with }
  pid_ne j hj := (h.pid_ne j hj).trans (hs.kept.pid j)
  vot_ne j hj q := (h.vot_ne j hj q).trans (hs.vot j q)
  empty := h.empty
  log := by
    show ({ u.log with stream := Function.update u.log.stream e (u.log.stream r) } : Log) = _
    rw [h.outside.log, hs.log]
  alarms m hm hmem := hs.alarms m hm (h.outside.alarms m hm hmem)
  flight j p hjp _ hout := by
    show u.kernel.unread (id j p) = v.kernel.unread (id j p)
    rw [h.unread _ (by rw [hs.kept.pipes]; exact hw.id_lt j p hjp), hs.flight j p hjp hout]
  fresh p hp := by
    have := h.fresh p hp
    rwa [hs.kept.pipes] at this

/-- What the loop of `restart_prep` starts from, pipe by pipe. -/
theorem Prepared.queues {w : Voter} (h : Prepared cfg plan id e r v w) (hl : Lockstep cfg v)
    (hne : r ≠ e) {p : Nat} (hp : p < cfg.pipeCount) :
    InStep (fun i => i < cfg.repCount ∧ i ≠ e) w p ∧ w.queue r p = v.queue r p ∧
      w.handed e r p = v.handed e r p ∧
      w.handedReady cfg e r p = v.handedReady cfg e r p := by
  have hq : ∀ j, j ≠ e → w.queue j p = v.queue j p := fun j hj => by
    unfold Voter.queue
    rw [h.vot_ne j hj]
  have hhanded : w.handed e r p = v.handed e r p := by
    funext i
    by_cases hi : i = e
    · rw [hi, handed_self, handed_self, hq r hne]
    · rw [handed_of_ne hi, handed_of_ne hi, hq i hi]
  have hstep := hl.inStep p hp
  refine ⟨InStep.congr (v := v) ⟨fun i hi => hstep.wf i hi.1,
    fun i j hi hj => hstep.index i j hi.1 hj.1⟩ fun i hi => h.vot_ne i hi.2 p, hq r hne,
    hhanded, by unfold Voter.handedReady; rw [hhanded]⟩

theorem Prepared.isInput {w : Voter} (h : Prepared cfg plan id e r v w) (p : Nat) :
    w.IsInput p ↔ v.IsInput p := by
  unfold Voter.IsInput
  rw [h.extPipes]

/-- No replica has bytes of an input pipe to be voted on. -/
theorem Prepared.input_zero {w : Voter} (h : Prepared cfg plan id e r v w) (hl : Lockstep cfg v)
    {i p : Nat} (hip : cfg.Slot i p) (hin : v.IsInput p) :
    (w.vot i p).buffCount = 0 ∧ (w.vot i p).buffIndex = 0 := by
  by_cases hie : i = e
  · rw [hie]
    exact h.empty p hip.2
  · rw [h.vot_ne i hie]
    exact hl.input i p hip hin

/-- Handing over keeps the votes of all replicas in order and touches none of their pipes. -/
theorem Prepared.handOver {w : Voter} (h : Prepared cfg plan id e r v w) (hl : Lockstep cfg v)
    (hr : r < cfg.repCount) (hne : r ≠ e) :
    wp (loop cfg.pipeCount (Pint.handOver cfg e r)) (fun _ u =>
      Handing cfg (refilled id e v.kernel.pipes) e r w cfg.pipeCount u ∧
        SameBytes cfg (refilled id e v.kernel.pipes) w u) (fun _ => False) w := by
  refine wp_loop (fun n u => Handing cfg (refilled id e v.kernel.pipes) e r w n u ∧
    SameBytes cfg (refilled id e v.kernel.pipes) w u) ⟨Handing.start h.timerStarted,
      fun _ _ _ => rfl⟩ fun n u hn hu => ?_
  have hstep := (h.queues hl hne hn).1
  have hbytes := handOver_bytes (E := fun _ => False) (h.wired.kept hu.1.kept)
    (hstep.congr fun i _ => hu.1.vot n (Or.inl (Nat.le_refl n)) i) hr hne hn
  exact ((hu.1.step h.wired hstep hr hne hn).and hbytes).mono
    (fun _ _ h => ⟨h.1, hu.2.trans h.2⟩) fun _ h => h.1

/-- The end of `restart_prep`: the loop is done and the stolen bytes were given back. -/
theorem Prepared.restarted {w u : Voter} (h : Prepared cfg plan id e r v w)
    (hl : Lockstep cfg v) (hne : r ≠ e)
    (hu : Handing cfg (refilled id e v.kernel.pipes) e r w cfg.pipeCount u)
    (hs : Still u v') (hf : SameFlight cfg (refilled id e v.kernel.pipes) u v')
    (he : e < cfg.repCount) : Restarted cfg plan id e r v v' := by
  have hin := h.isInput
  have hin' : ∀ p, u.IsInput p ↔ w.IsInput p := hu.kept.isInput
  have hlog : v'.log = { v.log with
      said := v'.log.said
      signals := v'.log.signals
      sent := u.log.sent
      restarts := v.log.restarts ++ [(e, r)]
      stream := Function.update v.log.stream e (v.log.stream r) } := by
    rw [hs.log, hu.log, h.log]
  have hsaid : u.log.said = w.log.said := by rw [hu.log]
  have hsent : v'.log.sent = u.log.sent := hs.sent
  have hwsent : w.log.sent = v.log.sent := by rw [h.log]
  -- What is in flight is not touched once the new pipes are there.
  have hflight : ∀ j p, cfg.Slot j p → ¬ v.IsInput p →
      v'.kernel.unread (refilled id e v.kernel.pipes j p)
        = w.kernel.unread (refilled id e v.kernel.pipes j p) := by
    intro j p hjp hout
    have hout' : ¬ w.IsInput p := fun hc => hout ((hin p).mp hc)
    rw [hf j p hjp (fun hc => hout' ((hin' p).mp hc)), hu.flight j p hjp hout']
  refine
    { watchdog := hs.watchdog.trans (hu.watchdog.trans h.watchdog)
      timerStarted := hs.timerStarted.trans hu.timerStarted
      lastDead := hs.lastDead.trans (hu.kept.lastDead.trans h.lastDead)
      children := hs.children.trans (hu.kept.children.trans h.children)
      extPipes := hs.extPipes.trans (hu.extPipes.trans h.extPipes)
      tick := Nat.le_trans h.tick (Nat.le_trans hu.kept.tick hs.tick)
      wired := h.wired.kept (hu.kept.trans hs.toKept)
      lockstep := ⟨fun p hp => ?_, fun i p hip hc => ?_⟩
      pid_ne := fun j hj => (hs.pid j).trans ((hu.kept.pid j).trans (h.pid_ne j hj))
      queue := fun i p hip hout => ?_
      sent := fun p hp hout => ?_
      sent_ne := fun p hc => ?_
      accepted := by rw [hlog]
      stream := by rw [hlog]
      restarts := by rw [hlog]
      calls := by rw [hlog]
      alarms := fun m hm hmem => ?_
      flight := fun j p hjp hj hout => ?_
      fresh := fun p hp hout => ?_ }
  · by_cases hinp : w.IsInput p
    · have hvot : ∀ i, v'.vot i p = w.vot i p := fun i =>
        (hs.vot i p).trans (hu.vot p (Or.inr hinp) i)
      apply InStep.of_zero
      intro i hi
      rw [hvot]
      exact h.input_zero hl ⟨hi, hp⟩ ((hin p).mp hinp)
    · exact (hu.inStep p hp hinp).congr fun i _ => hs.vot i p
  · have hinp : w.IsInput p := (hin' p).mp ((hs.toKept.isInput p).mp hc)
    rw [hs.vot, hu.vot p (Or.inr hinp)]
    exact h.input_zero hl hip ((hin p).mp hinp)
  · obtain ⟨-, -, h2, h3⟩ := h.queues hl hne hip.2
    rw [hs.queue, hu.queue p hip.2 (fun hc => hout ((hin p).mp hc)) i hip.1, h2, h3]
  · obtain ⟨-, h1, -, h3⟩ := h.queues hl hne hp
    rw [hsent, hu.sentDone p hp (fun hc => hout ((hin p).mp hc)), h1, h3, hwsent]
  · rw [hsent, hu.sent p (hc.imp_right (hin p).mpr), hwsent]
  · have := hs.alarms m hm hmem
    rw [hsaid] at this
    exact h.alarms m hm this
  · have := hflight j p hjp hout
    rw [refilled_of_ne hj] at this
    rw [this]
    exact h.flight j p hjp hj hout
  · have := hflight e p ⟨he, hp⟩ hout
    rw [refilled_self] at this
    rw [this]
    exact h.fresh p hp

/-- **The specification of `restart_prep`**, with the input pipes. It does not stop. -/
theorem restartPrep_full (hw : Wired cfg plan id v) (hl : Lockstep cfg v)
    (he : e < cfg.repCount) (hr : r < cfg.repCount) (hne : r ≠ e) :
    wp (restartPrep cfg env e r)
      (fun _ v' => Restarted cfg plan id e r v v' ∧ Refed cfg env id e r v v')
      (fun _ => False) v := by
  unfold restartPrep
  rw [wp_bind, wp_modify, wp_bind]
  obtain ⟨v₁, hv₁⟩ : ∃ v₁ : Voter, v₁ = { v with
    log := { v.log with restarts := v.log.restarts ++ [(e, r)] } } := ⟨_, rfl⟩
  rw [← hv₁]
  have hk₁ : Kept v v₁ := by
    rw [hv₁]
    exact { Kept.refl v with }
  refine (stealPipes_spec (hw.kept hk₁) hr).imp fun buffer v₂ h₂ => ?_
  rw [wp_bind, wp_modify, wp_bind]
  have hstolen : Stolen cfg id e r v { v₂ with timerStarted := false } := by
    rw [hv₁] at h₂
    exact h₂.stolen
  refine (restartReplica_spec (hw.kept hstolen.kept) he hr hne cfg.repCount cfg.replicaPriority).imp
    fun _ v₄ h₄ => ?_
  have hprep := hstolen.prepared hw h₄.1 h₄.2
  rw [wp_bind, wp_modify, wp_bind, wp_get, wp_bind]
  obtain ⟨w, hwdef⟩ : ∃ w : Voter, w = { v₄ with log := { v₄.log with
    stream := Function.update v₄.log.stream e (v₄.log.stream r) } } := ⟨_, rfl⟩
  rw [← hwdef] at hprep ⊢
  rw [hprep.wired.count r hr]
  refine (hprep.handOver hl hr hne).imp fun _ u hu => ?_
  have hwu := hprep.wired.kept hu.1.kept
  rw [wp_bind]
  refine (returnPipes_spec hwu he buffer).imp fun _ u' hu' => ?_
  refine (returnPipes_spec (hwu.kept hu'.still.toKept) hr buffer).imp fun _ v' hv' => ?_
  refine ⟨hprep.restarted hl hne hu.1 (hu'.still.trans hv'.still)
    (hu'.flight.trans hu'.still.toKept hv'.flight) he, ?_⟩
  -- The input pipes: the voter that steals differs from `v` in the log only.
  have hpipes : v₂.kernel.pipes = v.kernel.pipes := hstolen.kept.pipes
  have hinput : ∀ p, u.IsInput p ↔ v₁.IsInput p := by
    intro p
    unfold Voter.IsInput
    rw [hu.1.extPipes, hprep.extPipes, hv₁]
  have hrefed : Refed cfg env id e r v₁ v' := by
    rw [← hk₁.pipes] at hu' hv'
    refine h₂.refed (hw.kept hk₁) hr he hne (w := w) (u := u) (fun x hx => ?_)
      (fun p hp => ?_) hinput ?_ hu' hv'
    · rw [hwdef]
      exact h₄.1.unread x (by rw [hk₁.pipes] at hx; rw [hpipes]; exact hx)
    · rw [hk₁.pipes]
      exact hprep.fresh p hp
    · rw [hk₁.pipes]
      exact hu.2
  rw [hv₁] at hrefed
  exact ⟨hrefed.restarter, hrefed.restartee⟩

/-- **The specification of `restart_prep`.** It does not stop. -/
theorem restartPrep_spec (hw : Wired cfg plan id v) (hl : Lockstep cfg v)
    (he : e < cfg.repCount) (hr : r < cfg.repCount) (hne : r ≠ e) :
    wp (restartPrep cfg env e r) (fun _ v' => Restarted cfg plan id e r v v')
      (fun _ => False) v :=
  (restartPrep_full hw hl he hr hne).imp fun _ _ h => h.1

end Restart

end Pint
