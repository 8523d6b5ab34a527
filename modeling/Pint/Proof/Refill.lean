import Pint.Proof.Plumbing

/-!
# Making a replica's pipes again

A restart runs `cleanupReplica`, `initReplicas` and `createPipes` for one replica: all its
descriptors are closed, some of them twice, and as many pipes are made. `Closing` is the
first half, for any part of it, and `Refilling` the second, turn by turn.
`createPipes_refill` puts them together: everything is connected again, by the same numbers.

The numbers are the same because a descriptor is always the lowest that is free. Below the
ones of this replica nothing was free before (`Packed`), so after closing the free numbers
up to its highest are exactly its own; and the turns of the loop take them in the order in
which they were taken the first time (`Refilling.numbers`). Of the other replicas nothing is
closed, so they stay connected all the while.

The second `close` of a number in `initReplicas` finds it closed. That is only so because nothing
is opened in between; it is the reason why `Closing` is about the kernel of before, and not
about a step.

`Remade` is all that the rest of the development needs to know about a replica that was
restarted.
-/

namespace Pint

open Prog

/-! ## Closing the descriptors of a replica -/

/-- A descriptor of replica `e`. -/
def Plan.Mine (plan : Plan) (m e x : Nat) : Prop :=
  ∃ q, q < m ∧ (x = plan.rd e q ∨ x = plan.wr e q)

/-- Of kernel `k`, some descriptors of replica `e` were closed, the ones in `P` among them. -/
structure Closing (plan : Plan) (m e : Nat) (P : Nat → Prop) (k k' : Kernel) : Prop where
  unread : k'.unread = k.unread
  pipes : k'.pipes = k.pipes
  same : ∀ x : Nat, ¬ plan.Mine m e x → k'.lookup (x : Int) = k.lookup (x : Int)
  shut : ∀ x : Nat, P x → k'.lookup (x : Int) = none

section Close

variable {cfg : Config} {plan : Plan} {m e : Nat} {P : Nat → Prop} {k k' : Kernel}
  {E : Stop → Prop} {v v₀ : Voter} {id : Nat → Nat → Nat}

theorem Closing.refl : Closing plan m e (fun _ => False) k k :=
  ⟨rfl, rfl, fun _ _ => rfl, fun _ h => h.elim⟩

theorem Closing.close (h : Closing plan m e P k k') {x : Nat} (hx : plan.Mine m e x) :
    Closing plan m e (fun y => P y ∨ y = x) k (k'.close (x : Int)) where
  unread := by rw [Kernel.close_unread, h.unread]
  pipes := by rw [Kernel.close_pipes, h.pipes]
  same y hy := by
    rw [Kernel.lookup_close, if_neg (by rintro rfl; exact hy hx), h.same y hy]
  shut y hy := by
    rw [Kernel.lookup_close]
    split
    · rfl
    · rename_i hne
      exact h.shut y (hy.resolve_right hne)

theorem Closing.mono {P' : Nat → Prop} (h : Closing plan m e P k k')
    (hsub : ∀ x, P' x → P x) : Closing plan m e P' k k' :=
  ⟨h.unread, h.pipes, h.same, fun x hx => h.shut x (hsub x hx)⟩

/-- Either of the descriptors that a `vote_pipe` records, when it is one of the replica's or
none. -/
theorem closeVotePipe_spec {pipe : VotePipe} {Q : Unit → Voter → Prop}
    (h : Closing plan m e P k v.kernel)
    (hin : pipe.fdIn = 0 ∨ ∃ x : Nat, pipe.fdIn = x ∧ plan.Mine m e x)
    (hout : pipe.fdOut = 0 ∨ ∃ x : Nat, pipe.fdOut = x ∧ plan.Mine m e x)
    (hQ : ∀ k', Closing plan m e P k k' → Q () { v with kernel := k' }) :
    wp (closeVotePipe pipe) Q E v := by
  have hout' : ∀ k', Closing plan m e P k k' →
      wp (if pipe.fdOut ≠ 0 then close pipe.fdOut else pure ()) Q E { v with kernel := k' } := by
    intro k' hk'
    rw [wp_ite]
    split
    · rename_i hne
      obtain ⟨x, hx, hmine⟩ := hout.resolve_left hne
      rw [hx]
      exact hQ _ ((hk'.close hmine).mono fun _ => Or.inl)
    · exact hQ _ hk'
  unfold closeVotePipe
  dsimp only
  rw [wp_ite]
  split
  · rename_i hne
    obtain ⟨x, hx, hmine⟩ := hin.resolve_left hne
    rw [wp_bind, hx]
    exact hout' _ ((h.close hmine).mono fun _ => Or.inl)
  · exact hout' _ h

/-- Both ends of pipe `p` of replica `e` are closed by `cleanupPipe`. -/
theorem cleanupPipe_spec {D : Nat → Nat → Prop} {p : Nat}
    (hp : Plumbed D m plan id v₀) (hD : D e p) (hpm : p < m)
    (hv : v.replicas e = v₀.replicas e) (h : Closing plan m e P k v.kernel) :
    wp (cleanupPipe e p) (fun _ v' => ∃ k', v' = { v with kernel := k' } ∧
      Closing plan m e (fun x => P x ∨ x = plan.rd e p ∨ x = plan.wr e p) k k') E v := by
  have hrd : plan.Mine m e (plan.rd e p) := ⟨p, hpm, Or.inl rfl⟩
  have hwr : plan.Mine m e (plan.wr e p) := ⟨p, hpm, Or.inr rfl⟩
  have hrd0 : (plan.rd e p : Int) > 0 := by
    have := hp.rd_ne_zero hD
    omega
  have hwr0 : (plan.wr e p : Int) > 0 := by
    have := hp.wr_ne_zero hD
    omega
  have hvot : (v.replicas e).votPipes p = v₀.vot e p := by
    unfold Voter.vot
    rw [hv]
  have hrep : (v.replicas e).repPipes p = (v₀.replicas e).repPipes p := by rw [hv]
  unfold cleanupPipe
  rw [wp_bind, wp_get]
  dsimp only
  rw [hvot, hrep]
  -- One end is in the vote pipe and one in the replica's pipe; which is which depends on the
  -- direction.
  by_cases hin : v₀.IsInput p
  · obtain ⟨h1, h2, h3, h4, -⟩ := (hp.joined e p hD).inward hin
    rw [h1, h2, h3, h4]
    simp only [gt_iff_lt, Int.lt_irrefl, if_false, hrd0, hwr0, if_true, wp_bind, wp_pure,
      wp_close]
    refine ⟨_, rfl, ((h.close hwr).close hrd).mono fun x hx => ?_⟩
    rcases hx with hx | hx | hx
    · exact Or.inl (Or.inl hx)
    · exact Or.inr hx
    · exact Or.inl (Or.inr hx)
  · obtain ⟨h1, h2, h3, h4, -⟩ := (hp.joined e p hD).outward hin
    rw [h1, h2, h3, h4]
    simp only [gt_iff_lt, Int.lt_irrefl, if_false, hrd0, hwr0, if_true, wp_bind, wp_close]
    refine ⟨_, rfl, ((h.close hrd).close hwr).mono fun x hx => ?_⟩
    rcases hx with hx | hx | hx
    · exact Or.inl (Or.inl hx)
    · exact Or.inl (Or.inr hx)
    · exact Or.inr hx

/-- **`cleanupReplica` closes all descriptors of the replica.** -/
theorem cleanupReplica_spec (hw : Wired cfg plan id v) (he : e < cfg.repCount) :
    wp (cleanupReplica e) (fun _ v' => ∃ k' signals,
      v' = { v with kernel := k', log := { v.log with signals } } ∧
      Closing plan cfg.pipeCount e (plan.Mine cfg.pipeCount e) v.kernel k') E v := by
  unfold cleanupReplica
  rw [wp_bind, wp_get, wp_bind, wp_kill, hw.count e he]
  refine (wp_loop (fun n v' => ∃ k', v' = { v with
      kernel := k'
      log := { v.log with signals := v.log.signals ++ [((v.replicas e).pid, .SIGKILL)] } } ∧
    Closing plan cfg.pipeCount e
      (fun x => ∃ q, q < n ∧ (x = plan.rd e q ∨ x = plan.wr e q)) v.kernel k')
    ⟨v.kernel, rfl, Closing.refl.mono (by simp)⟩ fun p v' hpm hv' => ?_).imp ?_
  · obtain ⟨k', hv', hk'⟩ := hv'
    have hrep : v'.replicas e = v.replicas e := by rw [hv']
    have hkernel : v'.kernel = k' := by rw [hv']
    rw [← hkernel] at hk'
    refine (cleanupPipe_spec hw.toPlumbed ⟨he, hpm⟩ hpm hrep hk').imp fun _ v'' h => ?_
    obtain ⟨k'', rfl, hk''⟩ := h
    refine ⟨k'', by rw [hv'], hk''.mono ?_⟩
    rintro x ⟨q, hq, hx⟩
    rcases Nat.lt_succ_iff_lt_or_eq.mp hq with hlt | rfl
    · exact Or.inl ⟨q, hlt, hx⟩
    · exact Or.inr hx
  · rintro _ v' ⟨k', rfl, hk'⟩
    exact ⟨k', _, rfl, hk'⟩

/-- What is left of replica `e` once it is initialised again: nothing queued, no pipes. -/
structure Cleared (m e : Nat) (v v' : Voter) : Prop where
  outside : Outside v v'
  children : v'.children = v.children
  replicas_ne : ∀ j, j ≠ e → v'.replicas j = v.replicas j
  empty : ∀ q, q < m → (v'.vot e q).buffCount = 0 ∧ (v'.vot e q).buffIndex = 0

theorem setVot_vot {i p : Nat} {pipe : VotePipe} (q : Nat) :
    (v.setVot i p pipe).vot i q = if q = p then pipe else v.vot i q := by
  unfold Voter.setVot Voter.vot Voter.setReplica Replica.setVot
  simp only [Function.update_self]
  split
  · rename_i h
    rw [h, Function.update_self]
  · rename_i h
    exact Function.update_of_ne h _ _

theorem setVot_replicas_ne {i p j : Nat} {pipe : VotePipe} (h : j ≠ i) :
    (v.setVot i p pipe).replicas j = v.replicas j := Function.update_of_ne h _ _

/-- One pipe of the loop in `initReplicas`. -/
theorem resetPipes_spec {p : Nat} (hj : ∃ input, Joined input (v.vot e p)
      ((v.replicas e).repPipes p) ((v.replicas e).voterRepInCopy p) (plan.rd e p) (plan.wr e p))
    (hpm : p < m) (h : Closing plan m e P k v.kernel) :
    wp (do resetVotPipe e p; resetRepPipe e p) (fun _ v' =>
      Outside v v' ∧ v'.children = v.children ∧ Closing plan m e P k v'.kernel ∧
        (∀ j, j ≠ e → v'.replicas j = v.replicas j) ∧
        (v'.replicas e).voterRepInCopy = (v.replicas e).voterRepInCopy ∧
        (∀ q, q ≠ p → v'.vot e q = v.vot e q ∧
          (v'.replicas e).repPipes q = (v.replicas e).repPipes q) ∧
        (v'.vot e p).buffCount = 0 ∧ (v'.vot e p).buffIndex = 0) E v := by
  have hrd : plan.Mine m e (plan.rd e p) := ⟨p, hpm, Or.inl rfl⟩
  have hwr : plan.Mine m e (plan.wr e p) := ⟨p, hpm, Or.inr rfl⟩
  obtain ⟨input, hj⟩ := hj
  -- Each of the four fields is 0 or a number of this replica, so closing it closes nobody else's.
  have hends : ∀ pipe, pipe = v.vot e p ∨ pipe = (v.replicas e).repPipes p →
      (pipe.fdIn = 0 ∨ ∃ x : Nat, pipe.fdIn = x ∧ plan.Mine m e x) ∧
        (pipe.fdOut = 0 ∨ ∃ x : Nat, pipe.fdOut = x ∧ plan.Mine m e x) := by
    by_cases hin : input
    · obtain ⟨h1, h2, h3, h4, -⟩ := hj.inward hin
      rintro pipe (rfl | rfl)
      · exact ⟨Or.inl h1, Or.inr ⟨_, h2, hwr⟩⟩
      · exact ⟨Or.inr ⟨_, h3, hrd⟩, Or.inl h4⟩
    · obtain ⟨h1, h2, h3, h4, -⟩ := hj.outward hin
      rintro pipe (rfl | rfl)
      · exact ⟨Or.inr ⟨_, h1, hrd⟩, Or.inl h2⟩
      · exact ⟨Or.inl h3, Or.inr ⟨_, h4, hwr⟩⟩
  unfold resetVotPipe resetRepPipe
  rw [wp_bind, wp_bind, wp_get, wp_bind]
  refine closeVotePipe_spec h (hends _ (Or.inl rfl)).1 (hends _ (Or.inl rfl)).2 fun k' hk' => ?_
  rw [wp_modify, wp_bind, wp_get, wp_bind]
  have hrep : ((({ v with kernel := k' } : Voter).setVot e p
      (resetVotePipe (v.vot e p))).replicas e).repPipes p = (v.replicas e).repPipes p := by
    simp [Voter.setVot, Voter.setReplica, Replica.setVot]
  refine closeVotePipe_spec (k := k) hk' ?_ ?_ fun k'' hk'' => ?_
  · have := (hends _ (Or.inr rfl)).1
    rwa [← hrep] at this
  · have := (hends _ (Or.inr rfl)).2
    rwa [← hrep] at this
  · rw [wp_modify]
    refine ⟨{ Outside.refl v with }, rfl, hk'', fun j hj => ?_, ?_, fun q hq => ⟨?_, ?_⟩, ?_, ?_⟩
    · simp [Voter.setVot, Voter.setReplica, hj]
    · simp [Voter.setVot, Voter.setReplica, Replica.setVot, Replica.setRep]
    · simp [Voter.setVot, Voter.setReplica, Replica.setVot, Replica.setRep, Voter.vot, hq]
    · simp [Voter.setVot, Voter.setReplica, Replica.setVot, Replica.setRep, hq]
    · simp [Voter.setVot, Voter.setReplica, Replica.setVot, Replica.setRep, Voter.vot,
        resetVotePipe]
    · simp [Voter.setVot, Voter.setReplica, Replica.setVot, Replica.setRep, Voter.vot,
        resetVotePipe]

/-- **`initReplicas` empties the replica's queues**, and closes nothing that is not its. -/
theorem initReplicas_spec {name : String} {priority : Int}
    (hj : ∀ q, q < m → ∃ input, Joined input (v.vot e q) ((v.replicas e).repPipes q)
      ((v.replicas e).voterRepInCopy q) (plan.rd e q) (plan.wr e q))
    (hcount : (v.replicas e).pipeCount = m) (h : Closing plan m e P k v.kernel) :
    wp (initReplicas e 1 name priority) (fun _ v' => Cleared m e v v' ∧
      (v'.replicas e).pipeCount = 0 ∧ Closing plan m e P k v'.kernel) E v := by
  unfold initReplicas
  simp only [loop, Nat.add_zero, wp_bind, wp_pure, wp_modify, wp_get]
  obtain ⟨w, hw⟩ : ∃ w, w = v.setReplica e { v.replicas e with name, pid := -1, priority } :=
    ⟨_, rfl⟩
  have hrep : w.replicas e = { v.replicas e with name, pid := -1, priority } := by
    rw [hw]
    exact Function.update_self _ _ _
  have hvot : ∀ q, w.vot e q = v.vot e q := by
    intro q
    unfold Voter.vot
    rw [hrep]
  have hout : Outside v w := by
    rw [hw]
    exact { Outside.refl v with }
  have hkernel : w.kernel = v.kernel := by
    rw [hw]
    rfl
  rw [← hw, hrep, hcount]
  -- The pipes from `n` on still have their old numbers, and those before it are empty.
  refine (wp_loop (fun n u => Outside v u ∧ u.children = v.children ∧
      Closing plan m e P k u.kernel ∧ (∀ j, j ≠ e → u.replicas j = v.replicas j) ∧
      (u.replicas e).voterRepInCopy = (v.replicas e).voterRepInCopy ∧
      (∀ q, n ≤ q → u.vot e q = v.vot e q ∧
        (u.replicas e).repPipes q = (v.replicas e).repPipes q) ∧
      ∀ q, q < n → (u.vot e q).buffCount = 0 ∧ (u.vot e q).buffIndex = 0)
    ?_ fun n u hn hu => ?_).imp ?_
  · refine ⟨hout, by rw [hw]; rfl, by rw [hkernel]; exact h, fun j hj => ?_, by rw [hrep],
      fun q _ => ⟨hvot q, by rw [hrep]⟩, fun q hq => absurd hq (by simp)⟩
    rw [hw]
    exact Function.update_of_ne hj _ _
  · obtain ⟨h1, h2, h3, h4, h5, h6, h7⟩ := hu
    have hjn : ∃ input, Joined input (u.vot e n) ((u.replicas e).repPipes n)
        ((u.replicas e).voterRepInCopy n) (plan.rd e n) (plan.wr e n) := by
      rw [(h6 n (Nat.le_refl n)).1, (h6 n (Nat.le_refl n)).2, h5]
      exact hj n hn
    refine (resetPipes_spec hjn hn h3).imp fun _ u' hu' => ?_
    obtain ⟨g1, g2, g3, g4, g5, g6, g7⟩ := hu'
    refine ⟨h1.trans g1, g2.trans h2, g3, fun j hj => (g4 j hj).trans (h4 j hj), g5.trans h5,
      fun q hq => ?_, fun q hq => ?_⟩
    · have hqn : q ≠ n := by omega
      obtain ⟨a1, a2⟩ := g6 q hqn
      obtain ⟨b1, b2⟩ := h6 q (by omega)
      exact ⟨a1.trans b1, a2.trans b2⟩
    · rcases Nat.lt_succ_iff_lt_or_eq.mp hq with hlt | rfl
      · rw [(g6 q (Nat.ne_of_lt hlt)).1]
        exact h7 q hlt
      · exact g7
  · rintro _ u ⟨h1, h2, h3, h4, -, -, h7⟩
    refine ⟨⟨h1.trans { Outside.refl u with }, h2, fun j hj => ?_, fun q hq => ?_⟩, ?_, h3⟩
    · exact (Function.update_of_ne hj _ _).trans (h4 j hj)
    · have hsame : (u.setReplica e { u.replicas e with pipeCount := 0 }).vot e q = u.vot e q := by
        simp [Voter.setReplica, Voter.vot]
      rw [hsame]
      exact h7 q hq
    · simp [Voter.setReplica]

end Close

/-! ## Opening them again -/

section Refill

variable {cfg : Config} {plan : Plan} {id : Nat → Nat → Nat} {e : Nat} {v t : Voter}
  {E : Stop → Prop}

/-- A descriptor of replica `e` is not one of another replica. -/
theorem Wired.not_mine (hw : Wired cfg plan id v) (he : e < cfg.repCount) {j q : Nat}
    (hs : cfg.Slot j q) (hne : j ≠ e) :
    ¬ plan.Mine cfg.pipeCount e (plan.rd j q) ∧ ¬ plan.Mine cfg.pipeCount e (plan.wr j q) := by
  have hfd : ∀ p, p < cfg.pipeCount → _ := fun p hp =>
    hw.fd_ne (D := cfg.Slot) hs ⟨he, hp⟩ fun h => hne h.1
  constructor
  · rintro ⟨p, hp, h | h⟩
    · exact (hfd p hp).1 h
    · exact (hfd p hp).2.1 h
  · rintro ⟨p, hp, h | h⟩
    · exact (hfd p hp).2.2.1 h
    · exact (hfd p hp).2.2.2 h

theorem Wired.old_not_mine (hw : Wired cfg plan id v) (he : e < cfg.repCount) {x : Nat}
    {what : PipeEnd} (h : v.kernel.lookup (x : Int) = some what) (hold : what.old plan.base) :
    ¬ plan.Mine cfg.pipeCount e x := by
  rintro ⟨p, hp, hx⟩
  obtain ⟨h1, h2⟩ := hw.old_ne h hold (i := e) ⟨he, hp⟩
  rcases hx with rfl | rfl
  · exact h1 rfl
  · exact h2 rfl

/-- Without the descriptors of replica `e`, the others are connected as before. -/
theorem Wired.closing (hw : Wired cfg plan id v) (he : e < cfg.repCount) {k' : Kernel}
    {P : Nat → Prop} (hk : Closing plan cfg.pipeCount e P v.kernel k') :
    Plumbed (fun j q => cfg.Slot j q ∧ j ≠ e) cfg.pipeCount plan id { v with kernel := k' } where
  zero := by
    obtain ⟨what, h, hold⟩ := hw.zero
    refine ⟨what, ?_, hold⟩
    exact (hk.same 0 (hw.old_not_mine (x := 0) he h hold)).trans h
  ext p hp := by
    have hsame : ∀ fd what, v.kernel.lookup fd = some what → what.old plan.base →
        k'.lookup fd = some what := by
      intro fd what h hold
      obtain ⟨x, rfl⟩ := Kernel.natCast_of_lookup h
      exact (hk.same x (hw.old_not_mine he h hold)).trans h
    obtain ⟨⟨a, ha, hao⟩, b, hb, hbo⟩ := hw.ext p hp
    exact ⟨⟨a, hsame _ a ha hao, hao⟩, b, hsame _ b hb hbo, hbo⟩
  base_le := by
    show plan.base ≤ k'.pipes
    rw [hk.pipes]
    exact hw.base_le
  joined j q h := hw.joined j q h.1
  rd j q h := (hk.same _ (hw.not_mine he h.1 h.2).1).trans (hw.rd j q h.1)
  wr j q h := (hk.same _ (hw.not_mine he h.1 h.2).2).trans (hw.wr j q h.1)
  id_ge j q h := hw.id_ge j q h.1
  id_lt j q h := by
    show id j q < k'.pipes
    rw [hk.pipes]
    exact hw.id_lt j q h.1
  id_inj i p j q h h' := hw.id_inj i p j q h.1 h'.1

/-- Connectedness depends on the set of slots and on the pipes at these slots. -/
theorem Plumbed.congr {D D' : Nat → Nat → Prop} {m : Nat} {id' : Nat → Nat → Nat}
    (hp : Plumbed D m plan id v) (hD : ∀ i p, D' i p → D i p)
    (hid : ∀ i p, D' i p → id' i p = id i p) : Plumbed D' m plan id' v where
  zero := hp.zero
  ext := hp.ext
  base_le := hp.base_le
  joined i p h := hp.joined i p (hD i p h)
  rd i p h := hid i p h ▸ hp.rd i p (hD i p h)
  wr i p h := hid i p h ▸ hp.wr i p (hD i p h)
  id_ge i p h := hid i p h ▸ hp.id_ge i p (hD i p h)
  id_lt i p h := hid i p h ▸ hp.id_lt i p (hD i p h)
  id_inj i p j q h h' heq := by
    rw [hid i p h, hid j q h'] at heq
    exact hp.id_inj i p j q (hD i p h) (hD j q h') heq

/-- The kernel pipes after those of replica `e` were made anew. -/
def refilled (id : Nat → Nat → Nat) (e pipes : Nat) : Nat → Nat → Nat :=
  fun j q => if j = e then pipes + q else id j q

@[simp] theorem refilled_self {m q : Nat} : refilled id e m e q = m + q := if_pos rfl

theorem refilled_of_ne {m j q : Nat} (h : j ≠ e) : refilled id e m j q = id j q := if_neg h

/-- After `n` turns of the loop that makes the pipes of replica `e` again. The descriptors
are the old ones, so `plan` is not indexed by `n`. -/
structure Refilling (cfg : Config) (plan : Plan) (id : Nat → Nat → Nat) (e : Nat) (v t : Voter)
    (n : Nat) (u : Voter) : Prop where
  outside : Outside t u
  children : u.children = t.children
  replicas_ne : ∀ j, j ≠ e → u.replicas j = t.replicas j
  pid : (u.replicas e).pid = (t.replicas e).pid
  pipeCount : (u.replicas e).pipeCount = n
  votes : ∀ j q, (u.vot j q).buffCount = (t.vot j q).buffCount ∧
    (u.vot j q).buffIndex = (t.vot j q).buffIndex ∧ (u.vot j q).buffer = (t.vot j q).buffer
  plumbed : Plumbed (fun j q => (cfg.Slot j q ∧ j ≠ e) ∨ (j = e ∧ q < n)) cfg.pipeCount plan
    (refilled id e v.kernel.pipes) u
  pipes : u.kernel.pipes = v.kernel.pipes + n
  same : ∀ x : Nat, ¬ plan.Mine cfg.pipeCount e x →
    u.kernel.lookup (x : Int) = v.kernel.lookup (x : Int)
  shut : ∀ q, n ≤ q → q < cfg.pipeCount →
    u.kernel.lookup (plan.rd e q : Int) = none ∧ u.kernel.lookup (plan.wr e q : Int) = none
  unread : ∀ x, x < v.kernel.pipes → u.kernel.unread x = v.kernel.unread x
  fresh : ∀ q, q < n → u.kernel.unread (v.kernel.pipes + q) = []

variable {n : Nat} {u : Voter}

/-- Below a descriptor of replica `e` whose turn has come nothing is free. -/
theorem Refilling.below (hw : Wired cfg plan id v) (he : e < cfg.repCount)
    (h : Refilling cfg plan id e v t n u) (hn : n < cfg.pipeCount) {x : Nat}
    (hx : x < plan.wr e n) (hne : x ≠ plan.rd e n) : u.kernel.lookup (x : Int) ≠ none := by
  by_cases hmine : plan.Mine cfg.pipeCount e x
  · -- One of the replica's own: its turn was earlier, because they are in order.
    obtain ⟨q, hq, hxq⟩ := hmine
    have hrw := hw.rd_lt e n ⟨he, hn⟩
    have hqn : q < n := by
      rcases Nat.lt_trichotomy q n with hlt | rfl | hgt
      · exact hlt
      · rcases hxq with rfl | rfl
        · exact absurd rfl hne
        · exact absurd hx (Nat.lt_irrefl _)
      · have h1 := hw.wr_lt e n q ⟨he, hn⟩ ⟨he, hq⟩ hgt
        have h2 := hw.rd_lt e q ⟨he, hq⟩
        rcases hxq with rfl | rfl <;> omega
    rcases hxq with rfl | rfl
    · rw [h.plumbed.rd e q (Or.inr ⟨rfl, hqn⟩)]
      simp
    · rw [h.plumbed.wr e q (Or.inr ⟨rfl, hqn⟩)]
      simp
  · rw [h.same x hmine]
    exact hw.full e n ⟨he, hn⟩ x (Nat.le_of_lt hx)

/-- **The numbers that are handed out are the old ones.** -/
theorem Refilling.numbers (hw : Wired cfg plan id v) (he : e < cfg.repCount)
    (h : Refilling cfg plan id e v t n u) (hn : n < cfg.pipeCount) :
    u.kernel.rdNext = plan.rd e n ∧ u.kernel.wrNext = plan.wr e n := by
  obtain ⟨hrfree, hwfree⟩ := h.shut n (Nat.le_refl n) hn
  have hlt := hw.rd_lt e n ⟨he, hn⟩
  have hrd : u.kernel.rdNext = plan.rd e n :=
    Kernel.rdNext_eq hrfree fun y hy =>
      h.below hw he hn (Nat.lt_trans hy hlt) (Nat.ne_of_lt hy)
  refine ⟨hrd, Kernel.wrNext_eq ?_ hwfree fun y hy hne => ?_⟩
  · rw [hrd]
    exact (Nat.ne_of_lt hlt).symm
  · rw [hrd] at hne
    exact h.below hw he hn hy hne

theorem Refilling.step (hw : Wired cfg plan id v) (he : e < cfg.repCount)
    (h : Refilling cfg plan id e v t n u) (hn : n < cfg.pipeCount) :
    Refilling cfg plan id e v t (n + 1) (u.piped e n) := by
  -- The two lowest free numbers are those that the old pipe had, as everything below is open
  -- again.
  obtain ⟨hrd, hwr⟩ := h.numbers hw he hn
  have hk : (u.piped e n).kernel = u.kernel.piped := piped_kernel
  have hadd : plan.add e n u.kernel = plan := by
    unfold Plan.add
    rw [atSlot_of_eq hrd, atSlot_of_eq hwr]
  refine
    { outside := h.outside.trans piped_outside
      children := piped_children.trans h.children
      replicas_ne := fun j hj => (piped_replicas_ne hj).trans (h.replicas_ne j hj)
      pid := (piped_pid e).trans h.pid
      pipeCount := piped_pipeCount
      votes := fun j q => ?_
      plumbed := ?_
      pipes := ?_
      same := fun x hx => ?_
      shut := fun q hq hqm => ?_
      unread := fun x hx => ?_
      fresh := fun q hq => ?_ }
  · obtain ⟨a1, a2, a3⟩ := piped_votes (v := u) (i := e) (p := n) j q
    obtain ⟨b1, b2, b3⟩ := h.votes j q
    exact ⟨a1.trans b1, a2.trans b2, a3.trans b3⟩
  · have hnew := h.plumbed.piped (i := e) (p := n) (by simp)
    rw [hadd] at hnew
    refine hnew.congr (fun j q => slot_succ (D := fun j q => cfg.Slot j q ∧ j ≠ e)) fun j q hD => ?_
    rw [atSlot_of_eq (h.pipes.trans refilled_self.symm)]
  · rw [hk]
    show u.kernel.pipes + 1 = _
    rw [h.pipes, Nat.add_assoc]
  · have hxr : x ≠ plan.rd e n := fun hx' => hx ⟨n, hn, Or.inl hx'⟩
    have hxw : x ≠ plan.wr e n := fun hx' => hx ⟨n, hn, Or.inr hx'⟩
    rw [hk, Kernel.lookup_piped, hrd, hwr, if_neg hxr, if_neg hxw]
    exact h.same x hx
  · obtain ⟨h1, h2⟩ := h.shut q (by omega) hqm
    -- The pipes to come have higher numbers, and they are still closed.
    have hlt := hw.wr_lt e n q ⟨he, hn⟩ ⟨he, hqm⟩ (by omega)
    have hrn := hw.rd_lt e n ⟨he, hn⟩
    have hrq := hw.rd_lt e q ⟨he, hqm⟩
    rw [hk, Kernel.lookup_piped, Kernel.lookup_piped, hrd, hwr, if_neg (by omega),
      if_neg (by omega), if_neg (by omega), if_neg (by omega)]
    exact ⟨h1, h2⟩
  · rw [hk]
    show Function.update u.kernel.unread u.kernel.pipes [] x = _
    rw [Function.update_of_ne (by rw [h.pipes]; omega)]
    exact h.unread x hx
  · rw [hk]
    show Function.update u.kernel.unread u.kernel.pipes [] _ = _
    by_cases hqn : q = n
    · rw [hqn, ← h.pipes, Function.update_self]
    · rw [Function.update_of_ne (by rw [h.pipes]; omega)]
      exact h.fresh q (by omega)

/-- What is true once the pipes of replica `e` were made again, compared with the state `t`
before and with the state `v` before its descriptors were closed. -/
structure Refilled (cfg : Config) (plan : Plan) (id : Nat → Nat → Nat) (e : Nat)
    (v t u : Voter) : Prop where
  outside : Outside t u
  children : u.children = t.children
  replicas_ne : ∀ j, j ≠ e → u.replicas j = t.replicas j
  pid : (u.replicas e).pid = (t.replicas e).pid
  votes : ∀ j q, (u.vot j q).buffCount = (t.vot j q).buffCount ∧
    (u.vot j q).buffIndex = (t.vot j q).buffIndex ∧ (u.vot j q).buffer = (t.vot j q).buffer
  wired : Wired cfg plan (refilled id e v.kernel.pipes) u
  pipes : u.kernel.pipes = v.kernel.pipes + cfg.pipeCount
  unread : ∀ x, x < v.kernel.pipes → u.kernel.unread x = v.kernel.unread x
  fresh : ∀ q, q < cfg.pipeCount → u.kernel.unread (v.kernel.pipes + q) = []

/-- Without replica `e` everything is still connected. -/
theorem Refilling.start (hw : Wired cfg plan id v) (he : e < cfg.repCount)
    (hk : Closing plan cfg.pipeCount e (plan.Mine cfg.pipeCount e) v.kernel t.kernel)
    (hext : t.extPipes = v.extPipes)
    (hne : ∀ j, j ≠ e → SamePipes (v.replicas j) (t.replicas j))
    (hcount : (t.replicas e).pipeCount = 0) : Refilling cfg plan id e v t 0 t := by
  have hcl := hw.closing he hk
  have hp : Plumbed (fun j q => cfg.Slot j q ∧ j ≠ e) cfg.pipeCount plan id t :=
    { zero := hcl.zero
      ext := fun p hp => by
        rw [hext]
        exact hcl.ext p hp
      base_le := hcl.base_le
      joined := fun j q h => by
        obtain ⟨hvot, hrep, hcopy, -⟩ := hne j h.2
        have hin : t.IsInput q = v.IsInput q := by
          unfold Voter.IsInput
          rw [hext]
        unfold Voter.vot
        rw [hin, hvot, hrep, hcopy]
        exact hcl.joined j q h
      rd := hcl.rd
      wr := hcl.wr
      id_ge := hcl.id_ge
      id_lt := hcl.id_lt
      id_inj := hcl.id_inj }
  refine
    { outside := Outside.refl t
      children := rfl
      replicas_ne := fun _ _ => rfl
      pid := rfl
      pipeCount := hcount
      votes := fun _ _ => ⟨rfl, rfl, rfl⟩
      plumbed := hp.congr (fun j q hD => ?_) fun j q hD => ?_
      pipes := hk.pipes
      same := hk.same
      shut := fun q _ hq => ⟨hk.shut _ ⟨q, hq, Or.inl rfl⟩, hk.shut _ ⟨q, hq, Or.inr rfl⟩⟩
      unread := fun x _ => by rw [hk.unread]
      fresh := fun q hq => absurd hq (by simp) }
  · rcases hD with hD | ⟨-, hq⟩
    · exact hD
    · exact absurd hq (by simp)
  · rcases hD with hD | ⟨-, hq⟩
    · exact refilled_of_ne hD.2
    · exact absurd hq (by simp)

/-- When the last pipe was made, everything is connected. -/
theorem Refilling.refilled (hw : Wired cfg plan id v) (he : e < cfg.repCount)
    (hne : ∀ j, j ≠ e → SamePipes (v.replicas j) (t.replicas j))
    (h : Refilling cfg plan id e v t cfg.pipeCount u) : Refilled cfg plan id e v t u := by
  have hall : ∀ j q, cfg.Slot j q →
      (cfg.Slot j q ∧ j ≠ e) ∨ (j = e ∧ q < cfg.pipeCount) := by
    intro j q hs
    by_cases hj : j = e
    · exact Or.inr ⟨hj, hs.2⟩
    · exact Or.inl ⟨hs, hj⟩
  have hplumbed := h.plumbed.congr hall fun _ _ _ => rfl
  refine ⟨h.outside, h.children, h.replicas_ne, h.pid, h.votes,
    { toPlumbed := hplumbed, rd_lt := hw.rd_lt, wr_lt := hw.wr_lt, full := ?_, count := ?_ },
    h.pipes, h.unread, h.fresh⟩
  · intro i p hs x hx
    by_cases hmine : plan.Mine cfg.pipeCount e x
    · obtain ⟨q, hq, rfl | rfl⟩ := hmine
      · rw [hplumbed.rd e q ⟨he, hq⟩]
        simp
      · rw [hplumbed.wr e q ⟨he, hq⟩]
        simp
    · rw [h.same x hmine]
      exact hw.full i p hs x hx
  · intro i hi
    by_cases hie : i = e
    · rw [hie]
      exact h.pipeCount
    · rw [h.replicas_ne i hie, (hne i hie).pipeCount]
      exact hw.count i hi

/-- **Closing the descriptors of a replica and making its pipes again leaves everything
connected, by the same numbers**; the new pipes hold nothing. -/
theorem createPipes_refill (hw : Wired cfg plan id v) (he : e < cfg.repCount)
    (hk : Closing plan cfg.pipeCount e (plan.Mine cfg.pipeCount e) v.kernel t.kernel)
    (hext : t.extPipes = v.extPipes)
    (hne : ∀ j, j ≠ e → SamePipes (v.replicas j) (t.replicas j))
    (hcount : (t.replicas e).pipeCount = 0) :
    wp (createPipes e 1 cfg.pipeCount) (fun _ u => Refilled cfg plan id e v t u) E t := by
  have hstart := Refilling.start hw he hk hext hne hcount
  unfold createPipes
  simp only [loop, Nat.add_zero, wp_bind, wp_pure]
  refine (wp_loop (Refilling cfg plan id e v t) hstart fun n u hn hu => ?_).imp
    fun _ u hu => hu.refilled hw he hne
  rw [wp_createPipe]
  exact hu.step hw he hn

end Refill

/-! ## `restartReplica` -/

section RestartReplica

variable {cfg : Config} {env : Env} {plan : Plan} {id : Nat → Nat → Nat} {e r : Nat}
  {v v' : Voter} {E : Stop → Prop}

/-- Replica `e` was made anew: its queues are empty, its pipes are new, and all else is as
it was. -/
structure Remade (cfg : Config) (plan : Plan) (id : Nat → Nat → Nat) (e : Nat) (v v' : Voter) :
    Prop where
  outside : Outside v v'
  wired : Wired cfg plan (refilled id e v.kernel.pipes) v'
  pipes : v'.kernel.pipes = v.kernel.pipes + cfg.pipeCount
  unread : ∀ x, x < v.kernel.pipes → v'.kernel.unread x = v.kernel.unread x
  fresh : ∀ q, q < cfg.pipeCount → v'.kernel.unread (v.kernel.pipes + q) = []
  vot_ne : ∀ j, j ≠ e → ∀ q, v'.vot j q = v.vot j q
  pid_ne : ∀ j, j ≠ e → (v'.replicas j).pid = (v.replicas j).pid
  empty : ∀ q, q < cfg.pipeCount → (v'.vot e q).buffCount = 0 ∧ (v'.vot e q).buffIndex = 0

theorem Still.outside (h : Still v v') : Outside v v' :=
  ⟨h.timerStarted, h.watchdog, h.lastDead, h.extPipes, h.tick, h.log, h.alarms⟩

/-- A quiet call after the replica was made anew, which leaves the kernel as it is. -/
theorem Remade.still {v'' : Voter} (h : Remade cfg plan id e v v') (hs : Still v' v'')
    (hk : SameKernel v' v'') : Remade cfg plan id e v v'' where
  outside := h.outside.trans hs.outside
  wired := h.wired.kept hs.toKept
  pipes := by rw [hk, h.pipes]
  unread x hx := by rw [hk, h.unread x hx]
  fresh q hq := by rw [hk, h.fresh q hq]
  vot_ne j hj q := by rw [hs.vot, h.vot_ne j hj q]
  pid_ne j hj := by rw [hs.pid, h.pid_ne j hj]
  empty q hq := by
    rw [hs.vot]
    exact h.empty q hq

/-- A new process for the replica. -/
theorem Remade.setPid (h : Remade cfg plan id e v v') (pid : Int) :
    Remade cfg plan id e v (v'.setReplica e { v'.replicas e with pid }) := by
  obtain ⟨w, hw⟩ : ∃ w, w = v'.setReplica e { v'.replicas e with pid } := ⟨_, rfl⟩
  have hne : ∀ j, j ≠ e → w.replicas j = v'.replicas j := by
    intro j hj
    rw [hw]
    exact Function.update_of_ne hj _ _
  have hself : w.replicas e = { v'.replicas e with pid } := by
    rw [hw]
    exact Function.update_self _ _ _
  have hpipes : ∀ j, SamePipes (v'.replicas j) (w.replicas j) := by
    intro j
    by_cases hj : j = e
    · rw [hj, hself]
      exact ⟨rfl, rfl, rfl, rfl⟩
    · rw [hne j hj]
      exact ⟨rfl, rfl, rfl, rfl⟩
  have hvot : ∀ j q, w.vot j q = v'.vot j q := by
    intro j q
    unfold Voter.vot
    rw [(hpipes j).votPipes]
  have hout : Outside v' w := by
    rw [hw]
    exact { Outside.refl v' with }
  have hkernel : w.kernel = v'.kernel := by
    rw [hw]
    rfl
  rw [← hw]
  have hwired := h.wired.samePipes hkernel (fun p => by rw [hout.extPipes]; exact ⟨rfl, rfl⟩)
    hpipes
  exact
    { outside := h.outside.trans hout
      wired := hwired
      pipes := by rw [hkernel, h.pipes]
      unread := fun x hx => by rw [hkernel, h.unread x hx]
      fresh := fun q hq => by rw [hkernel, h.fresh q hq]
      vot_ne := fun j hj q => by rw [hvot, h.vot_ne j hj q]
      pid_ne := fun j hj => by rw [hne j hj, h.pid_ne j hj]
      empty := fun q hq => by
        rw [hvot]
        exact h.empty q hq }

/-- From the closed descriptors on: the part that all restarts share. `t` is the state once
the replica's descriptors were closed, and `count` is how many pipes are made. -/
theorem remake_spec (name : String) (priority : Int) (hw : Wired cfg plan id v)
    (he : e < cfg.repCount) {k' : Kernel} {t : Voter}
    (hk : Closing plan cfg.pipeCount e (plan.Mine cfg.pipeCount e) v.kernel k')
    (hs : Still { v with kernel := k' } t) (hkt : t.kernel = k') (count : Voter → Nat)
    (hcounts : ∀ u : Voter, (∀ j, j ≠ e → u.replicas j = t.replicas j) →
      count u = cfg.pipeCount) {Q : Unit → Voter → Prop}
    (hQ : ∀ u, Remade cfg plan id e v u → u.children = v.children → Q () u) :
    wp (initReplicas e 1 name priority) (fun _ u => wp (createPipes e 1 (count u)) Q E u) E t := by
  have hvot : ∀ i q, t.vot i q = v.vot i q := hs.vot
  have hsame : ∀ i, SamePipes (v.replicas i) (t.replicas i) := hs.samePipes
  have hj : ∀ q, q < cfg.pipeCount → ∃ input, Joined input (t.vot e q)
      ((t.replicas e).repPipes q) ((t.replicas e).voterRepInCopy q) (plan.rd e q)
      (plan.wr e q) := by
    intro q hq
    rw [hvot, (hsame e).repPipes, (hsame e).inCopy]
    exact ⟨_, hw.joined e q ⟨he, hq⟩⟩
  have hcount : (t.replicas e).pipeCount = cfg.pipeCount :=
    (hsame e).pipeCount.trans (hw.count e he)
  -- The record is cleared first, which closes numbers that are closed already, and then its pipes
  -- are made.
  refine (initReplicas_spec hj hcount (by rw [hkt]; exact hk)).imp fun _ u hu => ?_
  obtain ⟨hclear, hzero, hku⟩ := hu
  rw [hcounts u hclear.replicas_ne]
  have hext : u.extPipes = v.extPipes := hclear.outside.extPipes.trans hs.extPipes
  have hne : ∀ j, j ≠ e → SamePipes (v.replicas j) (u.replicas j) := by
    intro j hj
    rw [hclear.replicas_ne j hj]
    exact hsame j
  refine (createPipes_refill hw he hku hext hne hzero).imp fun _ w hr => ?_
  refine hQ w ⟨?_, hr.wired, hr.pipes, hr.unread, hr.fresh, fun j hj q => ?_, fun j hj => ?_,
    fun q hq => ?_⟩ (hr.children.trans (hclear.children.trans hs.children))
  · exact ({ hs.outside with } : Outside v t).trans (hclear.outside.trans hr.outside)
  · unfold Voter.vot
    rw [hr.replicas_ne j hj, hclear.replicas_ne j hj]
    exact hvot j q
  · rw [hr.replicas_ne j hj, hclear.replicas_ne j hj]
    exact hs.pid j
  · rw [(hr.votes e q).1, (hr.votes e q).2.1]
    exact hclear.empty q hq

/-- What `restartReplica` does once the signal is sent. -/
theorem remade_spec (name : String) (num : Nat) (priority : Int) (hw : Wired cfg plan id v)
    (he : e < cfg.repCount) (hr : r < cfg.repCount) (hne : r ≠ e) {k' : Kernel} {t : Voter}
    (hk : Closing plan cfg.pipeCount e (plan.Mine cfg.pipeCount e) v.kernel k')
    (hs : Still { v with kernel := k' } t) (hkt : t.kernel = k') :
    wp (do
      initReplicas e 1 name priority
      let v ← get
      createPipes e 1 (v.replicas r).pipeCount
      let pid ← acceptSendFDS env
      modify fun v => v.setReplica e { v.replicas e with pid }
      balanceReps env num priority)
      (fun _ v' => Remade cfg plan id e v v' ∧ v'.children = v.children) E t := by
  have hcount : (t.replicas r).pipeCount = cfg.pipeCount :=
    (hs.pipeCount r).trans (hw.count r hr)
  have hremake := remake_spec name priority (E := E)
    (Q := fun _ u => wp (do
      let pid ← acceptSendFDS env
      modify fun v => v.setReplica e { v.replicas e with pid }
      balanceReps env num priority) (fun _ v' => Remade cfg plan id e v v' ∧
        v'.children = v.children) E u) hw he hk hs hkt
    (fun u => (u.replicas r).pipeCount) ?_ fun u hu hch => ?_
  · rw [wp_bind]
    refine hremake.imp fun _ u hu => ?_
    rw [wp_bind, wp_get, wp_bind]
    exact hu
  · intro u hu
    rw [hu r hne]
    exact hcount
  · rw [wp_bind, wp_acceptSendFDS, wp_bind, wp_modify]
    have htick := hu.still (still_tick u) rfl
    refine (balanceReps_still _ _).imp fun _ w hbal => ⟨?_, ?_⟩
    · exact (htick.setPid _).still hbal.1 hbal.2
    · exact hbal.1.children.trans hch

/-- The priorities in `restartReplica`. -/
theorem favour_still (num r e : Nat) (defaultPriority : Int) :
    wp (loop num fun i => do
      if i ≠ e then
        let priority := if i = r then defaultPriority + 2 else defaultPriority
        let ret ← setPriority env i priority
        if ret < 0 then say [.schedSetPolicy priority])
      (fun _ v' => Still v v' ∧ SameKernel v v') E v := by
  refine wp_loop_still (fun _ => rfl) (fun _ _ _ h h' => h'.trans h) fun i u _ _ => ?_
  rw [wp_ite]
  split
  · dsimp only
    rw [wp_bind]
    refine (setPriority_still i _).imp fun ret u' hu' => ?_
    rw [wp_ite]
    split
    · exact ⟨hu'.1.trans (still_say u' (by simp [Message.alarm])), hu'.2⟩
    · exact hu'
  · exact ⟨Still.refl u, rfl⟩

/-- **`restartReplica` makes the replica anew.** -/
theorem restartReplica_spec (hw : Wired cfg plan id v) (he : e < cfg.repCount)
    (hr : r < cfg.repCount) (hne : r ≠ e) (num : Nat) (defaultPriority : Int) :
    wp (restartReplica env num r e defaultPriority)
      (fun _ v' => Remade cfg plan id e v v' ∧ v'.children = v.children) E v := by
  unfold restartReplica
  rw [wp_bind]
  refine (cleanupReplica_spec hw he).imp fun _ t₀ ht₀ => ?_
  obtain ⟨k', signals, rfl, hk⟩ := ht₀
  have hs₀ : Still { v with kernel := k' } { v with kernel := k', log := { v.log with signals } } :=
    still_signal { v with kernel := k' } signals
  rw [wp_bind]
  refine (favour_still _ _ _ _).imp fun _ t ht => ?_
  rw [wp_bind, wp_get, wp_bind, wp_kill]
  have hs := (hs₀.trans ht.1).trans (still_signal t (t.log.signals ++
    [((t.replicas r).pid, .RESTART_SIGNAL)]))
  exact remade_spec (t.replicas r).name num defaultPriority hw he hr hne hk hs ht.2

end RestartReplica

end Pint
