import Pint.Proof.Forwarding
import Pint.Program.System

/-!
# What a restart does to the rest

`Restarted` and `Refed` say what becomes of the two replicas of a restart. This module adds what
becomes of everything else: the descriptors that are not the restarted replica's stand for what
they stood for, the pipes of the third replica and the external input pipes hold what they held,
and the pipes of the restarted replica are of the types they were configured with. `Cloned` is
all of it.

The proofs go through `restart_prep` a second time, with a smaller question at every call. A
`close` or a `pipe` changes the table at the numbers that are `Mine`, and no external pipe has
one of these (`Relaid.lookup_ext`). A `read` or a `write` changes the pipe that its number
stands for, so a pipe is left alone if none of the calls was given a number of it; those of
`restart_prep` are the restarter's inputs, the restartee's new pipes, and the external outputs.

The last section is the step lemma of the main loop that goes with it: what one `go` does is
nothing, a chunk of input that is passed on, a `processFromRep`, or a restart by the watchdog
(`Went`), and there is at most one restart in it.
-/

namespace Pint

open Prog Voting

/-! ## The table and the types -/

/-- What `restartReplica` keeps of the table, and what it writes into `rep_pipes`. -/
structure Relaid (cfg : Config) (plan : Plan) (e : Nat) (v v' : Voter) : Prop where
  same : ∀ x : Nat, ¬ plan.Mine cfg.pipeCount e x →
    v'.kernel.lookup (x : Int) = v.kernel.lookup (x : Int)
  types : ∀ p, p < cfg.pipeCount →
    ((v'.replicas e).repPipes p).repInfo = (v.extPipes p).repInfo
  repPipes_ne : ∀ j, j ≠ e → (v'.replicas j).repPipes = (v.replicas j).repPipes

section Table

variable {cfg : Config} {env : Env} {plan : Plan} {id : Nat → Nat → Nat} {v v' t : Voter}
  {e r : Nat} {E : Stop → Prop}

theorem Relaid.still {w : Voter} (h : Relaid cfg plan e v v') (hs : Still v' w) :
    Relaid cfg plan e v w where
  same x hx := by rw [hs.toKept.lookup, h.same x hx]
  types p hp := by rw [hs.repPipes, h.types p hp]
  repPipes_ne j hj := by rw [hs.repPipes, h.repPipes_ne j hj]

/-- `createPipe` copies the type of the external pipe. -/
theorem piped_repInfo (v : Voter) (i p : Nat) :
    (((v.piped i p).replicas i).repPipes p).repInfo = (v.extPipes p).repInfo := by
  unfold Voter.piped
  dsimp only
  split <;> simp [Voter.setReplica]

/-- The second half of a restart, from the closed descriptors on. -/
theorem createPipes_relaid (hw : Wired cfg plan id v) (he : e < cfg.repCount)
    (hk : Closing plan cfg.pipeCount e (plan.Mine cfg.pipeCount e) v.kernel t.kernel)
    (hext : t.extPipes = v.extPipes)
    (hne : ∀ j, j ≠ e → SamePipes (v.replicas j) (t.replicas j))
    (hcount : (t.replicas e).pipeCount = 0) :
    wp (createPipes e 1 cfg.pipeCount) (fun _ u => Relaid cfg plan e v u) E t := by
  have hstart := Refilling.start hw he hk hext hne hcount
  unfold createPipes
  simp only [loop, Nat.add_zero, wp_bind, wp_pure]
  refine (wp_loop (fun n u => Refilling cfg plan id e v t n u ∧ ∀ q, q < n →
      ((u.replicas e).repPipes q).repInfo = (v.extPipes q).repInfo)
    ⟨hstart, fun q hq => absurd hq (Nat.not_lt_zero q)⟩ fun n u hn hu => ?_).imp fun _ u hu => ?_
  · rw [wp_createPipe]
    refine ⟨hu.1.step hw he hn, fun q hq => ?_⟩
    rcases Nat.lt_succ_iff_lt_or_eq.mp hq with hlt | rfl
    · rw [(piped_ne (Nat.ne_of_lt hlt)).2.1]
      exact hu.2 q hlt
    · rw [piped_repInfo, hu.1.outside.extPipes, hext]
  · refine ⟨hu.1.same, hu.2, fun j hj => ?_⟩
    rw [hu.1.replicas_ne j hj, (hne j hj).repPipes]

/-- From the closed descriptors on. -/
theorem remake_relaid (name : String) (priority : Int) (hw : Wired cfg plan id v)
    (he : e < cfg.repCount) (hr : r < cfg.repCount) (hne : r ≠ e) {k' : Kernel}
    (hk : Closing plan cfg.pipeCount e (plan.Mine cfg.pipeCount e) v.kernel k')
    (hs : Still { v with kernel := k' } t) (hkt : t.kernel = k') :
    wp (initReplicas e 1 name priority) (fun _ u =>
      wp (createPipes e 1 (u.replicas r).pipeCount) (fun _ w => Relaid cfg plan e v w) E u)
      E t := by
  have hsame : ∀ i, SamePipes (v.replicas i) (t.replicas i) := hs.samePipes
  have hj : ∀ q, q < cfg.pipeCount → ∃ input, Joined input (t.vot e q)
      ((t.replicas e).repPipes q) ((t.replicas e).voterRepInCopy q) (plan.rd e q)
      (plan.wr e q) := by
    intro q hq
    rw [hs.vot, hs.repPipes, hs.inCopy]
    exact ⟨_, hw.joined e q ⟨he, hq⟩⟩
  have hcount : (t.replicas e).pipeCount = cfg.pipeCount :=
    (hsame e).pipeCount.trans (hw.count e he)
  refine (initReplicas_spec hj hcount (by rw [hkt]; exact hk)).imp fun _ u hu => ?_
  obtain ⟨hclear, hzero, hku⟩ := hu
  have hcountr : (u.replicas r).pipeCount = cfg.pipeCount := by
    rw [hclear.replicas_ne r hne, (hsame r).pipeCount]
    exact hw.count r hr
  rw [hcountr]
  refine createPipes_relaid hw he hku (hclear.outside.extPipes.trans hs.extPipes)
    (fun j hj => ?_) hzero
  rw [hclear.replicas_ne j hj]
  exact hsame j

theorem restartReplica_relaid (hw : Wired cfg plan id v) (he : e < cfg.repCount)
    (hr : r < cfg.repCount) (hne : r ≠ e) (num : Nat) (defaultPriority : Int) :
    wp (restartReplica env num r e defaultPriority) (fun _ v' => Relaid cfg plan e v v') E v := by
  unfold restartReplica
  rw [wp_bind]
  refine (cleanupReplica_spec hw he).imp fun _ t₀ ht₀ => ?_
  obtain ⟨k', signals, rfl, hk⟩ := ht₀
  have hs₀ : Still { v with kernel := k' } { v with kernel := k', log := { v.log with signals } } :=
    still_signal { v with kernel := k' } signals
  rw [wp_bind]
  refine (favour_still _ _ _ _).imp fun _ t ht => ?_
  rw [wp_bind, wp_get, wp_bind, wp_kill]
  have hs := (hs₀.trans ht.1).trans (still_signal t (t.log.signals ++
    [((t.replicas r).pid, .RESTART_SIGNAL)]))
  rw [wp_bind]
  refine (remake_relaid _ _ hw he hr hne hk hs ht.2).imp fun _ u hu => ?_
  rw [wp_bind, wp_get, wp_bind]
  refine hu.imp fun _ w hrel => ?_
  rw [wp_bind, wp_acceptSendFDS, wp_bind, wp_modify]
  have hset : Relaid cfg plan e v (({ w with tick := w.tick + 1 } : Voter).setReplica e
      { w.replicas e with pid := env.pid w.tick }) := by
    refine ⟨hrel.same, fun p hp => ?_, fun j hj => ?_⟩
    · show ((Function.update w.replicas e _ e).repPipes p).repInfo = _
      rw [Function.update_self]
      exact hrel.types p hp
    · show (Function.update w.replicas e _ j).repPipes = _
      rw [Function.update_of_ne hj]
      exact hrel.repPipes_ne j hj
  exact (balanceReps_still _ _).imp fun _ x hx => hset.still hx.1

end Table

/-! ## The pipes of the others -/

section Elsewhere

variable {cfg : Config} {env : Env} {plan : Plan} {id : Nat → Nat → Nat} {v v' u : Voter}
  {e r : Nat} {E : Stop → Prop}

/-- A `read` takes from the pipe it reads, if from any. -/
theorem read_elsewhere (fd : Int) (n : Nat) :
    wp (read env fd n) (fun _ v' => Still v v' ∧ ∀ x, v.kernel.lookup fd ≠ some (.readEnd x) →
      v'.kernel.unread x = v.kernel.unread x) (fun _ => True) v := by
  unfold read
  rw [wp_bind, wp_get]
  split
  · rename_i k hk
    split
    · exact trivial
    · refine ⟨still_drained v k _, fun x hx => Function.update_of_ne ?_ _ _⟩
      rintro rfl
      exact hx hk
  · exact ⟨Still.refl v, fun _ _ => rfl⟩

/-- The second loop of `stealPipes` reads what `select` reported. -/
theorem stealReady_elsewhere {rep : Replica} {ready : List Int} (l : List Nat)
    (buffer : Nat → List Byte) :
    wp (stealReady env rep ready l buffer) (fun _ u => Still v u ∧
      ∀ x, (∀ fd ∈ ready, v.kernel.lookup fd ≠ some (.readEnd x)) →
        u.kernel.unread x = v.kernel.unread x) (fun _ => True) v := by
  induction l generalizing v buffer with
  | nil => exact ⟨Still.refl v, fun _ _ => rfl⟩
  | cons i l ih =>
    rw [stealReady, wp_ite]
    split
    · rename_i hmem
      rw [wp_bind]
      refine (read_elsewhere _ _).imp fun got u hu => ?_
      have hrest : ∀ (w : Voter) (buffer : Nat → List Byte), Still u w →
          w.kernel = u.kernel → wp (stealReady env rep ready l buffer) (fun _ u' => Still v u' ∧
            ∀ x, (∀ fd ∈ ready, v.kernel.lookup fd ≠ some (.readEnd x)) →
              u'.kernel.unread x = v.kernel.unread x) (fun _ => True) w := by
        intro w buffer hw hk
        refine (ih buffer).imp fun _ u' hu' => ⟨(hu.1.trans hw).trans hu'.1, fun x hx => ?_⟩
        rw [hu'.2 x fun fd hfd => ?_, hk, hu.2 x (hx _ hmem)]
        rw [hw.toKept.lookup, hu.1.toKept.lookup]
        exact hx fd hfd
      cases got with
      | data bytes => exact hrest u _ (Still.refl u) rfl
      | failed =>
        dsimp only
        rw [wp_bind, wp_say]
        exact hrest _ _ (still_say u (by simp [Message.alarm])) rfl
    · exact ih buffer

/-- **`stealPipes` reads the input pipes of one replica.** -/
theorem stealPipes_elsewhere (hw : Wired cfg plan id v) (hr : r < cfg.repCount) :
    wp (stealPipes env r) (fun _ u => Still v u ∧
      ∀ x, (∀ p, p < cfg.pipeCount → x ≠ id r p) →
        u.kernel.unread x = v.kernel.unread x) (fun _ => True) v := by
  unfold stealPipes
  rw [wp_bind, wp_get]
  dsimp only
  rw [wp_bind, wp_select, hw.count r hr]
  refine (stealReady_elsewhere _ _).imp fun _ u hu => ⟨hu.1, fun x hx => hu.2 x ?_⟩
  intro fd hfd hlook
  simp only [List.mem_filter, List.mem_map, List.mem_range, decide_eq_true_eq] at hfd
  obtain ⟨⟨⟨p, hp, rfl⟩, hne⟩, -⟩ := hfd
  have hjoin := hw.joined r p ⟨hr, hp⟩
  by_cases hin : v.IsInput p
  · rw [(hjoin.inward hin).2.2.2.2, hw.rd r p ⟨hr, hp⟩] at hlook
    exact hx p hp (PipeEnd.readEnd.inj (Option.some.inj hlook)).symm
  · exact hne (hjoin.outward hin).2.2.2.2

/-- **`returnPipes` writes to the pipes from which something was stolen.** -/
theorem returnPipes_elsewhere (hw : Wired cfg plan id v) (hr : r < cfg.repCount)
    {buffer : Nat → List Byte} (hnone : ∀ p, ¬ v.IsInput p → buffer p = []) :
    wp (returnPipes r buffer) (fun _ u => Still v u ∧
      ∀ x, (∀ p, p < cfg.pipeCount → x ≠ id r p) →
        u.kernel.unread x = v.kernel.unread x) E v := by
  unfold returnPipes
  rw [wp_bind, wp_get, hw.count r hr]
  refine wp_loop_const (fun u => Still v u ∧ ∀ x, (∀ p, p < cfg.pipeCount → x ≠ id r p) →
    u.kernel.unread x = v.kernel.unread x) ⟨Still.refl v, fun _ _ => rfl⟩ fun p u hp hu => ?_
  rw [wp_ite]
  split
  · rename_i hsome
    rw [wp_bind, wp_get]
    refine (writeBuffer_still _ _ _).imp fun _ w hw' => ⟨hu.1.trans hw'.1, fun x hx => ?_⟩
    have hin : v.IsInput p := by
      by_contra hout
      exact hsome (hnone p hout)
    rw [hw'.2 x, hu.2 x hx]
    rintro fd rfl
    rw [hu.1.toKept.lookup, hu.1.vot, ((hw.joined r p ⟨hr, hp⟩).inward hin).2.1,
      hw.wr r p ⟨hr, hp⟩]
    exact fun hc => hx p hp (PipeEnd.writeEnd.inj (Option.some.inj hc)).symm
  · exact hu

/-- A turn of the loop of `restart_prep` writes to the outside. -/
theorem handOver_wrote {p : Nat} (h : InStep (fun i => i < cfg.repCount ∧ i ≠ e) v p)
    (hr : r < cfg.repCount) (hne : r ≠ e) :
    wp (handOver cfg e r p) (fun _ v' => OnlyWrote (· = (v.extPipes p).fdOut) v v') E v := by
  by_cases hin : (v.vot r p).fdIn = 0
  · unfold handOver
    rw [wp_bind, wp_get, wp_ite, if_neg (not_not.mpr hin), wp_pure]
    exact fun _ _ => rfl
  · exact (handOver_spec h hr hne hin).imp fun _ _ hs => hs.wrote

/-- The kernel pipe `x` is behind no external pipe that the voter writes to. -/
def Voter.NotSent (v : Voter) (cfg : Config) (x : Nat) : Prop :=
  ∀ p, p < cfg.pipeCount → v.kernel.lookup (v.extPipes p).fdOut ≠ some (.writeEnd x)

theorem Prepared.handOver_elsewhere {w : Voter} (h : Prepared cfg plan id e r v w)
    (hl : Lockstep cfg v) (hr : r < cfg.repCount) (hne : r ≠ e) :
    wp (loop cfg.pipeCount (Pint.handOver cfg e r)) (fun _ u =>
      ∀ x, w.NotSent cfg x → u.kernel.unread x = w.kernel.unread x) E w := by
  refine (wp_loop (fun n u => Handing cfg (refilled id e v.kernel.pipes) e r w n u ∧
      ∀ x, w.NotSent cfg x → u.kernel.unread x = w.kernel.unread x)
    ⟨Handing.start h.timerStarted, fun _ _ => rfl⟩ fun n u hn hu => ?_).imp fun _ _ hu => hu.2
  obtain ⟨hu, hsame⟩ := hu
  have hstep := (h.queues hl hne hn).1
  refine ((hu.step (E := E) h.wired hstep hr hne hn).and (handOver_wrote (E := E)
    (hstep.congr fun i _ => hu.vot n (Or.inl (Nat.le_refl n)) i) hr hne)).mono
    (fun _ u' hu' => ⟨hu'.1, fun x hx => ?_⟩) fun _ he => he.1
  rw [hu'.2 x, hsame x hx]
  rintro fd rfl
  rw [hu.kept.lookup, hu.extPipes]
  exact hx n hn

end Elsewhere

/-! ## `restart_prep` -/

/-- All that `restart_prep e r` does. -/
structure Cloned (cfg : Config) (env : Env) (plan : Plan) (id : Nat → Nat → Nat) (e r : Nat)
    (v v' : Voter) : Prop where
  restarted : Restarted cfg plan id e r v v'
  refed : Refed cfg env id e r v v'
  relaid : Relaid cfg plan e v v'
  /-- The pipes that were there before, that the restarter does not use, and that the voter
  does not write to. -/
  elsewhere : ∀ x, x < v.kernel.pipes → (∀ p, p < cfg.pipeCount → x ≠ id r p) →
    v.NotSent cfg x → v'.kernel.unread x = v.kernel.unread x

section Clone

variable {cfg : Config} {env : Env} {plan : Plan} {id : Nat → Nat → Nat} {v v' u w : Voter}
  {e r : Nat} {E : Stop → Prop}

/-- What was open before the pipes of the replicas is still that. -/
theorem Relaid.lookup_old (h : Relaid cfg plan e v v') (hw : Wired cfg plan id v)
    (he : e < cfg.repCount) {fd : Int} {what : PipeEnd} (hfd : v.kernel.lookup fd = some what)
    (hold : what.old plan.base) : v'.kernel.lookup fd = v.kernel.lookup fd := by
  obtain ⟨x, rfl⟩ := Kernel.natCast_of_lookup hfd
  exact h.same x (hw.old_not_mine he hfd hold)

theorem Relaid.lookup_ext (h : Relaid cfg plan e v v') (hw : Wired cfg plan id v)
    (he : e < cfg.repCount) {p : Nat} (hp : p < cfg.pipeCount) :
    v'.kernel.lookup (v.extPipes p).fdIn = v.kernel.lookup (v.extPipes p).fdIn ∧
      v'.kernel.lookup (v.extPipes p).fdOut = v.kernel.lookup (v.extPipes p).fdOut := by
  obtain ⟨⟨a, ha, hao⟩, b, hb, hbo⟩ := hw.ext p hp
  exact ⟨h.lookup_old hw he ha hao, h.lookup_old hw he hb hbo⟩

/-- The same, seen from a state with the same table. -/
theorem Relaid.of_kept (h : Relaid cfg plan e u v') (hk : Kept v u)
    (hext : u.extPipes = v.extPipes) : Relaid cfg plan e v v' where
  same x hx := by rw [h.same x hx, hk.lookup]
  types p hp := by rw [h.types p hp, hext]
  repPipes_ne j hj := by rw [h.repPipes_ne j hj, hk.repPipes]

/-- Afterwards the table and the types stay as they are. -/
theorem Relaid.kept (h : Relaid cfg plan e v u) (hk : Kept u v') : Relaid cfg plan e v v' where
  same x hx := by rw [hk.lookup, h.same x hx]
  types p hp := by rw [hk.repPipes, h.types p hp]
  repPipes_ne j hj := by rw [hk.repPipes, h.repPipes_ne j hj]

theorem restartPrep_elsewhere (hw : Wired cfg plan id v) (hl : Lockstep cfg v)
    (he : e < cfg.repCount) (hr : r < cfg.repCount) (hne : r ≠ e) :
    wp (restartPrep cfg env e r) (fun _ v' => Relaid cfg plan e v v' ∧
      ∀ x, x < v.kernel.pipes → (∀ p, p < cfg.pipeCount → x ≠ id r p) → v.NotSent cfg x →
        v'.kernel.unread x = v.kernel.unread x) (fun _ => True) v := by
  unfold restartPrep
  rw [wp_bind, wp_modify, wp_bind]
  -- The states are named as the calls come: `v₁` has noted the restart, `v₂` has the backlog
  -- stolen, `v₄` the restartee made anew, `u` the votes handed over.
  obtain ⟨v₁, hv₁⟩ : ∃ v₁ : Voter, v₁ = { v with
    log := { v.log with restarts := v.log.restarts ++ [(e, r)] } } := ⟨_, rfl⟩
  rw [← hv₁]
  have hk₁ : Kept v v₁ := by
    rw [hv₁]
    exact { Kept.refl v with }
  refine ((stealPipes_spec (hw.kept hk₁) hr).and (stealPipes_elsewhere (hw.kept hk₁) hr)).mono
    (fun buffer v₂ h₂ => ?_) fun _ _ => trivial
  obtain ⟨h₂, -, hsteal⟩ := h₂
  have hnone : ∀ p, ¬ v.IsInput p → buffer p = [] := fun p hp =>
    h₂.none p (Or.inr fun hc => hp ((hk₁.isInput p).mp hc))
  rw [wp_bind, wp_modify, wp_bind]
  have hstolen : Stolen cfg id e r v { v₂ with timerStarted := false } := by
    rw [hv₁] at h₂
    exact h₂.stolen
  have hws := hw.kept hstolen.kept
  refine ((restartReplica_spec hws he hr hne cfg.repCount cfg.replicaPriority).and
    (restartReplica_relaid hws he hr hne cfg.repCount cfg.replicaPriority)).mono
    (fun _ v₄ h₄ => ?_) fun _ (h : True ∧ True) => trivial
  obtain ⟨⟨hremade, hch⟩, hrelaid⟩ := h₄
  have hprep := hstolen.prepared hw hremade hch
  rw [wp_bind, wp_modify, wp_bind, wp_get, wp_bind]
  obtain ⟨w, hwdef⟩ : ∃ w : Voter, w = { v₄ with log := { v₄.log with
    stream := Function.update v₄.log.stream e (v₄.log.stream r) } } := ⟨_, rfl⟩
  have hrel : Relaid cfg plan e v w := by
    rw [hwdef]
    exact (hrelaid.of_kept hstolen.kept hstolen.extPipes).kept { Kept.refl v₄ with }
  have hwkernel : w.kernel = v₄.kernel := by rw [hwdef]
  rw [← hwdef] at hprep ⊢
  rw [hprep.wired.count r hr]
  refine ((hprep.handOver hl hr hne).and (hprep.handOver_elsewhere (E := fun _ => True) hl hr
    hne)).mono (fun _ u hu => ?_) fun _ _ => trivial
  obtain ⟨⟨hu, -⟩, hover⟩ := hu
  have hwu := hprep.wired.kept hu.kept
  have hin : ∀ p, u.IsInput p ↔ v.IsInput p := fun p =>
    (hu.kept.isInput p).trans (hprep.isInput p)
  rw [wp_bind]
  refine (returnPipes_elsewhere hwu he fun p hp => hnone p fun hc => hp ((hin p).mpr hc)).imp
    fun _ u' hu' => ?_
  obtain ⟨hstill', hback'⟩ := hu'
  refine (returnPipes_elsewhere (hwu.kept hstill'.toKept) hr fun p hp => hnone p fun hc =>
    hp ((hstill'.toKept.isInput p).mpr ((hin p).mpr hc))).imp fun _ v' hv' => ?_
  obtain ⟨hstill, hback⟩ := hv'
  refine ⟨hrel.kept (hu.kept.trans (hstill'.toKept.trans hstill.toKept)), fun x hx hxr hsent => ?_⟩
  -- A pipe that was there before is none of those that were made for the clone.
  have hfresh : ∀ p, p < cfg.pipeCount → x ≠ refilled id e v.kernel.pipes e p := by
    rintro p - rfl
    rw [refilled_self] at hx
    omega
  rw [hback x fun p hp => by rw [refilled_of_ne hne]; exact hxr p hp, hback' x hfresh,
    hover x fun p hp => by
      rw [hprep.extPipes, (hrel.lookup_ext hw he hp).2]
      exact hsent p hp, hwkernel]
  have hpipes : ({ v₂ with timerStarted := false } : Voter).kernel.pipes = v.kernel.pipes :=
    hstolen.kept.pipes
  rw [hremade.unread x (by rw [hpipes]; exact hx)]
  show v₂.kernel.unread x = _
  rw [hsteal x hxr, hv₁]

/-- **The specification of `restart_prep`**, with all it does and all it leaves alone. -/
theorem restartPrep_clones (hw : Wired cfg plan id v) (hl : Lockstep cfg v)
    (he : e < cfg.repCount) (hr : r < cfg.repCount) (hne : r ≠ e) :
    wp (restartPrep cfg env e r) (fun _ v' => Cloned cfg env plan id e r v v')
      (fun _ => False) v :=
  ((restartPrep_full hw hl he hr hne).and (restartPrep_elsewhere hw hl he hr hne)).mono
    (fun _ _ h => ⟨h.1.1, h.1.2, h.2.1, h.2.2⟩) fun _ h => h.1

end Clone

/-! ## One piece of the main loop -/

/-- No replica was restarted, or one was, from another. -/
inductive AtMostOne (cfg : Config) (env : Env) (plan : Plan) (id : Nat → Nat → Nat)
    (v v' : Voter) : Prop where
  | none (h : v'.log.restarts = v.log.restarts)
  | one {e r : Nat} (he : e < cfg.repCount) (hr : r < cfg.repCount) (hne : r ≠ e)
    (h : Cloned cfg env plan id e r v v')

/-- The pipes, what they carry and what is known of them are as before. -/
structure Aside (v v' : Voter) : Prop where
  kept : Kept v v'
  kernel : v'.kernel = v.kernel
  repInfo : ∀ p, (v'.extPipes p).repInfo = (v.extPipes p).repInfo
  vot : ∀ i p, v'.vot i p = v.vot i p
  sent : v'.log.sent = v.log.sent
  restarts : v'.log.restarts = v.log.restarts

/-- What a `processFromRep r p` does, with what is left in the pipe and how a replica is
restarted. -/
inductive Served (cfg : Config) (env : Env) (plan : Plan) (id : Nat → Nat → Nat) (r p : Nat)
    (v v' : Voter) : Prop where
  | refused (hfull : maxVotePipeBuff ≤ (v.queue r p).length + (v.arriving env (id r p)).length)
      (hs : Still v v') (htook : OnlyTook (id r p) v v')
  | voted (hfit : (v.queue r p).length + (v.arriving env (id r p)).length < maxVotePipeBuff)
      (w : Voter) (hw : Accepted cfg id r p (v.arriving env (id r p)) v w)
      (htook : OnlyTook (id r p) v w)
      (hleft : v.kernel.unread (id r p) = v.arriving env (id r p) ++ w.kernel.unread (id r p))
      (hv : Voted cfg plan id p w v') (hone : AtMostOne cfg env plan id w v')

/-- What one `go` does to the voter, in DMR and TMR. -/
inductive Went (cfg : Config) (env : Env) (plan : Plan) (id : Nat → Nat → Nat)
    (v v' : Voter) : Prop where
  | aside (h : Aside v v')
  | passed {p : Nat} (hp : p < cfg.pipeCount) (ha : Armed env v v')
    (hinfo : ∀ q, (v'.extPipes q).repInfo = (v.extPipes q).repInfo) (h : Passed cfg id p v v')
  | served {r p : Nat} (hs : cfg.Slot r p) (hout : ¬ v.IsInput p)
    (h : Served cfg env plan id r p v v')
  | handled {u w : Voter} (hdue : v.watchdogDue cfg env) (hu : Aside v u)
    (hw : Cloned cfg env plan id (v.restartee cfg) (cfg.restarter (v.restartee cfg)) u w)
    (hv : Aside w v')

section Pieces

variable {cfg : Config} {env : Env} {plan : Plan} {id : Nat → Nat → Nat} {v v' u w : Voter}
  {p r : Nat} {E : Stop → Prop}

theorem Aside.refl (v : Voter) : Aside v v :=
  ⟨Kept.refl v, rfl, fun _ => rfl, fun _ _ => rfl, rfl, rfl⟩

theorem Aside.trans (h : Aside v u) (h' : Aside u v') : Aside v v' where
  kept := h.kept.trans h'.kept
  kernel := h'.kernel.trans h.kernel
  repInfo p := (h'.repInfo p).trans (h.repInfo p)
  vot i p := (h'.vot i p).trans (h.vot i p)
  sent := h'.sent.trans h.sent
  restarts := h'.restarts.trans h.restarts

theorem Still.aside (h : Still v v') (hk : SameKernel v v') : Aside v v' :=
  ⟨h.toKept, hk, fun p => by rw [h.extPipes], h.vot, h.sent, h.restarts⟩

theorem aside_note (v : Voter) (c : Call) : Aside v (v.note c) :=
  ⟨{ Kept.refl v with }, rfl, fun _ => rfl, fun _ _ => rfl, rfl, rfl⟩

theorem aside_tick (v : Voter) : Aside v { v with tick := v.tick + 1 } :=
  (still_tick v).aside rfl

theorem Sound.aside (h : Sound cfg plan id v) (ha : Aside v v') : Sound cfg plan id v' :=
  ⟨h.wired.kept ha.kept, fun p hp => (h.lockstep.inStep p hp).congr fun i _ => ha.vot i p,
    fun i p hs hin => by
      rw [ha.vot]
      exact h.lockstep.input i p hs ((ha.kept.isInput p).mp hin)⟩

theorem Cloned.sound {e : Nat} (h : Cloned cfg env plan id e r v v') :
    Sound cfg plan (refilled id e v.kernel.pipes) v' :=
  ⟨h.restarted.wired, h.restarted.lockstep⟩

theorem Sent.restarts (h : Sent cfg p r v v') : v'.log.restarts = v.log.restarts := by
  rw [h.log]

theorem checkTmr_clones (hw : Wired cfg plan id v) (hl : Lockstep cfg v)
    (hn : cfg.repCount = 3) (hp : p < cfg.pipeCount) {rs : List Nat} (hrs : ∀ r ∈ rs, r < 3) :
    wp (checkTmr cfg env p (v.ready cfg p : Nat) rs)
      (fun _ v' => AtMostOne cfg env plan id v v') (fun _ => False) v := by
  have hstep := hl.inStep p hp
  have hready : ∀ {i : Nat}, i < cfg.repCount → v.ready cfg p ≤ (v.queue i p).length :=
    ready_le_queue
  induction rs with
  | nil =>
    unfold checkTmr
    rw [wp_say]
    exact .none rfl
  | cons r rest ih =>
    have hr : r < cfg.repCount := hn ▸ hrs r List.mem_cons_self
    have hnext : (r + 1) % cfg.repCount < cfg.repCount := Nat.mod_lt _ (by omega)
    have hthird : (r + 2) % cfg.repCount < cfg.repCount := Nat.mod_lt _ (by omega)
    have hne : r ≠ (r + 2) % cfg.repCount := by
      rw [hn]
      omega
    unfold checkTmr
    rw [wp_bind]
    -- The first pair that agrees decides. Then the third is restarted if it does not agree too.
    refine compareReplicas_spec hstep hr hnext (hready hr) (hready hnext) (fun _ => ?_)
      fun result hres _ => ?_
    · rw [wp_ite, if_pos rfl, wp_bind]
      refine compareReplicas_spec hstep hr hthird (hready hr) (hready hthird) (fun _ => ?_)
        fun result hres _ => ?_
      · rw [wp_ite, if_neg (not_not.mpr rfl)]
        exact (sendPipe_spec hstep hr).imp fun _ _ hs => .none hs.restarts
      · rw [wp_ite, if_pos hres]
        exact (restartPrep_clones hw hl hthird hr hne).imp fun _ _ hc => .one hthird hr hne hc
    · rw [wp_ite, if_neg hres]
      exact ih fun x hx => hrs x (List.mem_cons_of_mem _ hx)

/-- **A vote restarts at most one replica.** -/
theorem checkSDC_clones (hw : Wired cfg plan id v) (hl : Lockstep cfg v) (hn : 0 < cfg.repCount)
    (hp : p < cfg.pipeCount) :
    wp (checkSDC cfg env p) (fun _ v' => AtMostOne cfg env plan id v v') (fun _ => False) v := by
  have hstep := hl.inStep p hp
  unfold checkSDC
  rw [wp_bind, wp_get, bytesReady_eq hstep]
  dsimp only
  rw [wp_ite]
  split
  · exact .none rfl
  · split
    · exact (sendPipe_spec hstep hn).imp fun _ _ hs => .none hs.restarts
    · rename_i hmode
      have htwo : cfg.repCount = 2 := by rw [cfg.repCount_eq, hmode]; rfl
      rw [wp_bind]
      refine compareReplicas_spec hstep (by omega) (by omega) (ready_le_queue (by omega))
        (ready_le_queue (by omega)) (fun _ => ?_) fun result hres _ => ?_
      · rw [if_neg (not_not.mpr rfl)]
        exact (sendPipe_spec hstep hn).imp fun _ _ hs => .none hs.restarts
      · rw [if_pos hres, wp_bind, wp_say]
        have hstill : Still v (v.say [.votingDisagreement]) :=
          still_say v (by simp [Message.alarm])
        exact (sendPipe_spec (hstep.congr fun i _ => hstill.vot i p) hn).imp
          fun _ _ hs => .none hs.restarts
    · rename_i hmode
      have hthree : cfg.repCount = 3 := by rw [cfg.repCount_eq, hmode]; rfl
      exact checkTmr_clones hw hl hthree hp fun r hr => hthree ▸ List.mem_range.mp hr
    · exact .none rfl

theorem processFromRep_serves (h : Sound cfg plan id v) (hs : cfg.Slot r p)
    (hout : ¬ v.IsInput p) :
    wp (processFromRep cfg env r p) (fun _ v' => Served cfg env plan id r p v v')
      (fun _ => True) v := by
  refine processFromRep_takes h.wired h.lockstep hs hout (fun _ => trivial) ?_ ?_
  · intro hfull v' hstill _ htook _ _
    exact .refused hfull hstill htook
  · intro hfit w hacc htook hleft _
    have hww := h.wired.kept hacc.kept
    have hn := Nat.zero_lt_of_lt hs.1
    exact ((checkSDC_spec hww hacc.lockstep hn hs.2).and
      (checkSDC_clones hww hacc.lockstep hn hs.2)).mono
      (fun _ _ hv => .voted hfit w hacc htook hleft hv.1 hv.2) fun _ _ => trivial

theorem serveReplica_serves {ready : List Int} (h : Sound cfg plan id v) (hs : cfg.Slot r p) :
    wp (serveReplica cfg env ready p r) (fun _ v' => v' = v ∨
      (¬ v.IsInput p ∧ Served cfg env plan id r p v v')) (fun _ => True) v := by
  unfold serveReplica
  rw [wp_bind, wp_get]
  dsimp only
  rw [wp_ite]
  split
  · rename_i hready
    have hout := (h.wired.fdIn_ne_zero hs).mp hready.1
    exact (processFromRep_serves h hs hout).imp fun _ _ hv => Or.inr ⟨hout, hv⟩
  · exact Or.inl rfl

/-- The types of the external pipes are not touched. -/
theorem serveExternal_repInfo {ready : List Int} :
    wp (serveExternal cfg env ready p) (fun _ v' =>
      ∀ q, (v'.extPipes q).repInfo = (v.extPipes q).repInfo) (fun _ => True) v := by
  unfold serveExternal
  rw [wp_bind, wp_get]
  dsimp only
  rw [wp_ite]
  split
  · rw [wp_bind]
    refine (read_elsewhere _ _).imp fun got u hu => ?_
    rw [wp_bind, wp_modify]
    have hset : ∀ q, ((u.setExt p ((u.extPipes p).received got)).extPipes q).repInfo
        = (v.extPipes q).repInfo := by
      intro q
      rw [← hu.1.extPipes]
      unfold Voter.setExt
      by_cases hq : q = p
      · rw [hq]
        cases got <;> simp [VotePipe.received]
      · simp [hq]
    rw [wp_ite]
    split
    · refine (processData_still p).imp fun _ v' hv q => ?_
      rw [hv.1.extPipes, (arm_same _ p).2.2]
      exact hset q
    · rw [wp_ite]
      split <;> exact hset
  · exact fun _ => rfl

theorem watchSet_aside : wp (watchSet cfg env) (fun _ v' => Aside v v') E v := by
  unfold watchSet
  rw [wp_bind, wp_get]
  dsimp only
  rw [wp_ite]
  split
  · rw [wp_bind, wp_generateTimestamp, wp_bind, wp_modify, wp_pure]
    exact ⟨{ Kept.refl v with tick := Nat.le_succ _ }, rfl, fun _ => rfl, fun _ _ => rfl, rfl,
      rfl⟩
  · exact Aside.refl v

/-- **`voterRestartHandler` in DMR and TMR**, with all it does. -/
theorem voterRestartHandler_clones (h : Sound cfg plan id v) (hmode : cfg.Replicated) :
    wp (voterRestartHandler cfg env) (fun _ v' => ∃ u w, Aside v u ∧
      Cloned cfg env plan id (v.restartee cfg) (cfg.restarter (v.restartee cfg)) u w ∧
        Aside w v') E v := by
  have hn : 0 < cfg.repCount := by
    rcases hmode.repCount with hn | hn <;> omega
  obtain ⟨hr, hne⟩ := restarter_ne hmode (v.restartee cfg)
  -- The code is the same for two replicas and for three.
  have hbody : wp (do
      let v ← get
      let restartee := behindRep v.replicas cfg.repCount cfg.timerStopIndex
      let restarter := (restartee + (cfg.repCount - 1)) % cfg.repCount
      note (.picked restartee restarter)
      restartPrep cfg env restartee restarter
      let now ← generateTimestamp env
      note (.returned now) : M Unit) (fun _ v' => ∃ u w, Aside v u ∧
        Cloned cfg env plan id (v.restartee cfg) (cfg.restarter (v.restartee cfg)) u w ∧
          Aside w v') E v := by
    rw [wp_bind, wp_get]
    dsimp only
    rw [wp_bind, wp_note, wp_bind]
    have hnote := h.note (.picked (v.restartee cfg) (cfg.restarter (v.restartee cfg)))
    refine (restartPrep_clones hnote.wired hnote.lockstep (behindRep_lt hn) hr hne).mono
      (fun _ w hw => ?_) fun _ hc => hc.elim
    rw [wp_bind, wp_generateTimestamp, wp_note]
    exact ⟨_, w, aside_note v _, hw, (aside_tick w).trans (aside_note _ _)⟩
  unfold voterRestartHandler
  rcases hmode with hm | hm
  · rw [hm]
    exact hbody
  · rw [hm]
    exact hbody

/-- **`doOneUpdate` up to its `select`**, in DMR and TMR. -/
theorem beforeSelect_clones (h : Sound cfg plan id v) (hmode : cfg.Replicated) :
    wp (beforeSelect cfg env) (fun _ v' => Aside v v' ∨ ∃ u w, v.watchdogDue cfg env ∧
      Aside v u ∧ Cloned cfg env plan id (v.restartee cfg) (cfg.restarter (v.restartee cfg)) u w ∧
        Aside w v') E v := by
  have hsmr : cfg.repType ≠ .smr := by
    rcases hmode with hm | hm <;> rw [hm] <;> decide
  unfold beforeSelect reapExit
  rw [wp_bind, wp_ite, if_neg hsmr, wp_pure, wp_bind]
  unfold checkWatchdog
  rw [wp_bind, wp_get, wp_ite]
  split
  · rename_i ht
    rw [wp_bind, wp_generateTimestamp]
    dsimp only
    rw [wp_ite]
    split
    · exact watchSet_aside.imp fun _ v' hv => Or.inl ((aside_tick v).trans hv)
    · rename_i hleft
      rw [wp_bind, wp_note]
      refine (voterRestartHandler_clones (h.tick.note _) hmode).imp fun _ x hx => ?_
      obtain ⟨u, w, hu, hc, hx⟩ := hx
      refine watchSet_aside.imp fun _ v' hv => Or.inr ⟨u, w, ⟨ht, by omega⟩, ?_, hc, hx.trans hv⟩
      exact ((aside_tick v).trans (aside_note _ _)).trans hu
  · exact watchSet_aside.imp fun _ v' hv => Or.inl hv

/-- **The step lemma of the main loop**, in DMR and TMR. -/
theorem Machine.go_went {m m' : Machine} (h : Sound cfg plan id m.v) (hpc : m.pc.Within cfg)
    (hmode : cfg.Replicated) (hgo : m.go cfg env = .ok m') :
    Went cfg env plan id m.v m'.v := by
  cases Machine.turn hgo with
  | beforeSelect hrun =>
    rcases (beforeSelect_clones (E := fun _ => True) h hmode).of_run hrun with ha | hc
    · exact .aside ha
    · obtain ⟨u, w, hdue, hu, hw, hv⟩ := hc
      exact .handled hdue hu hw hv
  | selected _ => exact .aside (Aside.refl _)
  | woken => exact .aside (Aside.refl _)
  | external hrun =>
    have hp := hpc _ List.mem_cons_self
    exact .passed hp ((exec_spec (serveExternal_spec h.wired hp)).1 _ hrun).1
      ((exec_spec serveExternal_repInfo).1 _ hrun)
      ((exec_spec (serveExternal_passes h.wired hp)).1 _ hrun)
  | externalsDone => exact .aside (Aside.refl _)
  | replica hrun =>
    have hs := mem_slots.mp (hpc.subset List.mem_cons_self)
    rcases (exec_spec (serveReplica_serves h hs)).1 _ hrun with hv | ⟨hout, hv⟩
    · rw [hv]
      exact .aside (Aside.refl _)
    · exact .served hs hout hv
  | replicasDone => exact .aside (Aside.refl _)

end Pieces

end Pint
