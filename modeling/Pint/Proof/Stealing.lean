import Pint.Proof.Plumbing

/-!
# Taking a replica's input away, and giving it back

`restart_prep` empties the restarter's input pipes before the restart and refills those of
both replicas after it. Both are bounded: `stealPipes` makes one `read` for each pipe, and
`returnPipes` writes what that read brought. `Stealing` and `Returning` say pipe by pipe
what is in the kernel while the loops run; the rest of the development only needs to know
that the two are quiet.

How much one `read` takes is up to the system, from one byte to all that there is and the buffer
has room for. `Voter.stolen` is that number for each pipe. What it leaves stays in the pipe and is
in front of what is given back, which is how input gets out of its order.
-/

namespace Pint

open Prog

/-- What replica `i` has not read of its input pipe `p`. -/
def Voter.backlog (v : Voter) (i p : Nat) : List Byte :=
  v.kernel.waiting ((v.replicas i).repPipes p).fdIn

/-- The number of the question asked by the `read` of pipe `p` in `stealPipes`: each pipe
before it that has something to read asks one. -/
def Voter.stealTick (v : Voter) (i p : Nat) : Nat :=
  v.tick + (List.range p).countP fun q => (v.extPipes q).fdIn ≠ 0 ∧ v.backlog i q ≠ []

/-- How many bytes that `read` takes. -/
def Voter.stolen (v : Voter) (env : Env) (i p : Nat) : Nat :=
  env.taken (v.stealTick i p) maxVotePipeBuff (v.backlog i p)

/-! ## Stealing -/

section Steal

variable {plan : Plan} {id : Nat → Nat → Nat} {cfg : Config} {env : Env} {v u : Voter} {r : Nat}

/-- The replica reads the kernel pipe that the voter writes to. -/
theorem Wired.backlog_eq (hw : Wired cfg plan id v) {i p : Nat} (hs : cfg.Slot i p)
    (hin : v.IsInput p) : v.backlog i p = v.kernel.unread (id i p) := by
  unfold Voter.backlog
  rw [((hw.joined i p hs).inward hin).2.2.1]
  exact Kernel.waiting_readEnd (hw.rd i p hs)

/-- After the turns of the loop of `stealPipes r` for the pipes below `n`. For the pipes to come
`restart_prep` has set the counts to 0, so their buffers are empty. -/
structure Stealing (cfg : Config) (env : Env) (id : Nat → Nat → Nat) (r : Nat) (v : Voter)
    (n : Nat) (buffer : Nat → List Byte) (u : Voter) : Prop where
  still : Still v u
  tick : u.tick = v.stealTick r n
  got : ∀ q, q < n → v.IsInput q → buffer q = (v.backlog r q).take (v.stolen env r q)
  none : ∀ q, n ≤ q ∨ ¬ v.IsInput q → buffer q = []
  left : ∀ q, q < n → v.IsInput q →
    u.kernel.unread (id r q) = (v.backlog r q).drop (v.stolen env r q)
  /-- The pipes of the other replicas, and those whose turn has not come. -/
  same : ∀ j q, cfg.Slot j q → (j = r → n ≤ q ∨ ¬ v.IsInput q) →
    u.kernel.unread (id j q) = v.kernel.unread (id j q)

theorem Stealing.flight {n : Nat} {buffer : Nat → List Byte}
    (h : Stealing cfg env id r v n buffer u) : SameFlight cfg id v u :=
  fun j q hs hout => h.same j q hs fun _ => Or.inr hout

theorem stealTick_succ (v : Voter) (i n : Nat) :
    v.stealTick i (n + 1) = v.stealTick i n
      + if (v.extPipes n).fdIn ≠ 0 ∧ v.backlog i n ≠ [] then 1 else 0 := by
  unfold Voter.stealTick
  rw [List.range_succ, List.countP_append, List.countP_singleton, Nat.add_assoc]
  simp only [decide_eq_true_eq]

theorem stealTick_read {i n : Nat} (h : v.IsInput n ∧ v.backlog i n ≠ []) :
    v.stealTick i (n + 1) = v.stealTick i n + 1 := by
  rw [stealTick_succ, if_pos ⟨h.1, h.2⟩]

theorem stealTick_skip {i n : Nat} (h : ¬ (v.IsInput n ∧ v.backlog i n ≠ [])) :
    v.stealTick i (n + 1) = v.stealTick i n := by
  rw [stealTick_succ, if_neg fun hc => h ⟨hc.1, hc.2⟩, Nat.add_zero]

/-- A pipe that is passed over: an output pipe, or one with nothing in it. -/
theorem Stealing.skip {n : Nat} {buffer : Nat → List Byte}
    (h : Stealing cfg env id r v n buffer u) (hw : Wired cfg plan id v) (hs : cfg.Slot r n)
    (hskip : ¬ (v.IsInput n ∧ v.backlog r n ≠ [])) :
    Stealing cfg env id r v (n + 1) buffer u := by
  have hnil : v.IsInput n → v.backlog r n = [] := fun hin => by
    by_contra hne
    exact hskip ⟨hin, hne⟩
  have hlater : ∀ q, n + 1 ≤ q ∨ ¬ v.IsInput q → n ≤ q ∨ ¬ v.IsInput q :=
    fun q hq => hq.imp_left Nat.le_of_succ_le
  refine
    { still := h.still
      tick := by
        rw [stealTick_skip hskip]
        exact h.tick
      got := fun q hq hin => ?_
      none := fun q hq => h.none q (hlater q hq)
      left := fun q hq hin => ?_
      same := fun j q hjq hj => h.same j q hjq fun hjr => hlater q (hj hjr) }
  · rcases Nat.lt_succ_iff_lt_or_eq.mp hq with hlt | rfl
    · exact h.got q hlt hin
    · rw [h.none q (Or.inl (Nat.le_refl q)), hnil hin, List.take_nil]
  · rcases Nat.lt_succ_iff_lt_or_eq.mp hq with hlt | rfl
    · exact h.left q hlt hin
    · rw [h.same r q hs fun _ => Or.inl (Nat.le_refl q), ← hw.backlog_eq hs hin, hnil hin,
        List.drop_nil]

/-- A pipe that is read. -/
theorem Stealing.read {n : Nat} {buffer : Nat → List Byte}
    (h : Stealing cfg env id r v n buffer u) (hw : Wired cfg plan id v) (hs : cfg.Slot r n)
    (hin : v.IsInput n) (hne : v.backlog r n ≠ []) :
    Stealing cfg env id r v (n + 1)
      (Function.update buffer n ((v.backlog r n).take (v.stolen env r n)))
      (u.drained (id r n) ((v.backlog r n).drop (v.stolen env r n))) := by
  have hother : ∀ j q, cfg.Slot j q → (j = r → q ≠ n) →
      (u.drained (id r n) ((v.backlog r n).drop (v.stolen env r n))).kernel.unread (id j q)
        = u.kernel.unread (id j q) := by
    intro j q hjq hj
    refine Function.update_of_ne (fun heq => ?_) _ _
    obtain ⟨hjr, hqn⟩ := hw.id_inj j q r n hjq hs heq
    exact hj hjr hqn
  refine
    { still := h.still.trans (still_drained u _ _)
      tick := by
        rw [stealTick_read ⟨hin, hne⟩, ← h.tick]
        rfl
      got := fun q hq hinq => ?_
      none := fun q hq => ?_
      left := fun q hq hinq => ?_
      same := fun j q hjq hj => ?_ }
  · rcases Nat.lt_succ_iff_lt_or_eq.mp hq with hlt | rfl
    · rw [Function.update_of_ne (Nat.ne_of_lt hlt)]
      exact h.got q hlt hinq
    · exact Function.update_self _ _ _
  · have hqn : q ≠ n := by
      rintro rfl
      exact hq.elim (Nat.not_succ_le_self q) fun hout => hout hin
    rw [Function.update_of_ne hqn]
    exact h.none q (hq.imp_left Nat.le_of_succ_le)
  · rcases Nat.lt_succ_iff_lt_or_eq.mp hq with hlt | rfl
    · rw [hother r q ⟨hs.1, Nat.lt_trans hlt hs.2⟩ fun _ => Nat.ne_of_lt hlt]
      exact h.left q hlt hinq
    · exact Function.update_self _ _ _
  · have hqn : j = r → q ≠ n := by
      rintro hjr rfl
      exact (hj hjr).elim (Nat.not_succ_le_self q) fun hout => hout hin
    rw [hother j q hjq hqn]
    exact h.same j q hjq fun hjr => (hj hjr).imp_left Nat.le_of_succ_le

/-- The second loop of `stealPipes`. It does not block: what `select` found is still there
when its turn comes, as the turns before it read other kernel pipes. -/
theorem stealReady_spec {rep : Replica} {ready : List Int} {n k : Nat}
    {buffer : Nat → List Byte} (hw : Wired cfg plan id v) (hr : r < cfg.repCount)
    (hcopy : ∀ q, q < cfg.pipeCount → rep.voterRepInCopy q = (v.replicas r).voterRepInCopy q)
    (hready : ∀ q, q < cfg.pipeCount →
      (rep.voterRepInCopy q ∈ ready ↔ v.IsInput q ∧ v.backlog r q ≠ []))
    (hn : n + k ≤ cfg.pipeCount) (h : Stealing cfg env id r v n buffer u) :
    wp (stealReady env rep ready (List.range' n k) buffer)
      (fun buffer' u' => Stealing cfg env id r v (n + k) buffer' u') (fun _ => False) u := by
  induction k generalizing n buffer u with
  | zero => exact h
  | succ k ih =>
    have hs : cfg.Slot r n := ⟨hr, by omega⟩
    have hnk : n + (k + 1) = n + 1 + k := by omega
    rw [hnk] at hn ⊢
    rw [List.range'_succ, stealReady, wp_ite]
    split
    · rename_i hmem
      obtain ⟨hin, hne⟩ := (hready n hs.2).mp hmem
      have hback : u.kernel.unread (id r n) = v.backlog r n := by
        rw [h.same r n hs fun _ => Or.inl (Nat.le_refl n), hw.backlog_eq hs hin]
      have hlook : u.kernel.lookup (rep.voterRepInCopy n) = some (.readEnd (id r n)) := by
        rw [h.still.toKept.lookup, hcopy n hs.2, ((hw.joined r n hs).inward hin).2.2.2.2]
        exact hw.rd r n hs
      rw [wp_bind]
      refine read_spec hlook (fun hnil => hne (hback.symm.trans hnil)) fun _ => ?_
      rw [hback, h.tick]
      exact ih hn (h.read hw hs hin hne)
    · rename_i hmem
      exact ih hn (h.skip hw hs fun hc => hmem ((hready n hs.2).mpr hc))

/-- **`stealPipes` makes one `read` for each input pipe**, and does not block. -/
theorem stealPipes_spec (hw : Wired cfg plan id v) (hr : r < cfg.repCount) :
    wp (stealPipes env r)
      (fun buffer u => Stealing cfg env id r v cfg.pipeCount buffer u) (fun _ => False) v := by
  unfold stealPipes
  rw [wp_bind, wp_get]
  dsimp only
  rw [wp_bind, wp_select, hw.count r hr, List.range_eq_range']
  have hstart : Stealing cfg env id r v 0 (fun _ => []) v :=
    { still := Still.refl v
      tick := rfl
      got := fun q hq => absurd hq (Nat.not_lt_zero q)
      none := fun _ _ => rfl
      left := fun q hq => absurd hq (Nat.not_lt_zero q)
      same := fun _ _ _ _ => rfl }
  refine (stealReady_spec hw hr (fun _ _ => rfl) (fun q hq => ?_)
    (Nat.le_of_eq (Nat.zero_add _)) hstart).imp fun buffer u h => ?_
  case refine_2 =>
    rw [Nat.zero_add] at h
    exact h
  -- What `select` answers.
  have hs : cfg.Slot r q := ⟨hr, hq⟩
  simp only [List.mem_filter, List.mem_map, List.mem_range'_1, decide_eq_true_eq]
  constructor
  · rintro ⟨⟨-, hne0⟩, hwait⟩
    have hin : v.IsInput q := by
      by_contra hout
      exact hne0 ((hw.joined r q hs).outward hout).2.2.2.2
    have hcopy := ((hw.joined r q hs).inward hin).2.2.2.2
    rw [hcopy, Kernel.waiting_readEnd (hw.rd r q hs)] at hwait
    exact ⟨hin, by rwa [hw.backlog_eq hs hin]⟩
  · rintro ⟨hin, hne⟩
    have hcopy := ((hw.joined r q hs).inward hin).2.2.2.2
    refine ⟨⟨⟨q, ⟨Nat.zero_le q, by omega⟩, rfl⟩, ?_⟩, ?_⟩
    · rw [hcopy]
      exact hw.rd_ne_zero hs
    · rw [hcopy, Kernel.waiting_readEnd (hw.rd r q hs), ← hw.backlog_eq hs hin]
      exact hne

end Steal

/-! ## Giving back -/

section Return

variable {plan : Plan} {id : Nat → Nat → Nat} {cfg : Config} {v u : Voter} {r : Nat}
  {E : Stop → Prop}

/-- What is written to the write end of a pipe is appended to what is in it. -/
theorem writeBuffer_delivers {fd : Int} {bytes : List Byte} {k : Nat}
    (hl : v.kernel.lookup fd = some (.writeEnd k)) {Q : Unit → Voter → Prop} :
    wp (writeBuffer fd bytes bytes.length) Q E v ↔
      Q () { v with kernel := v.kernel.deliver k bytes } := by
  unfold writeBuffer write
  dsimp only
  rw [wp_ite, if_neg (by omega), wp_bind, wp_bind, wp_get]
  simp only [hl]
  rw [wp_bind, wp_set, wp_pure, wp_ite, if_pos rfl, wp_pure]

/-- After the turns of the loop of `returnPipes r` for the pipes below `n`. Nothing was written to
an output pipe, so what is in flight stays as it is. -/
structure Returning (cfg : Config) (id : Nat → Nat → Nat) (r : Nat) (buffer : Nat → List Byte)
    (v : Voter) (n : Nat) (u : Voter) : Prop where
  still : Still v u
  flight : SameFlight cfg id v u
  back : ∀ q, q < n → v.IsInput q →
    u.kernel.unread (id r q) = v.kernel.unread (id r q) ++ buffer q
  same : ∀ j q, cfg.Slot j q → v.IsInput q → (j = r → n ≤ q) →
    u.kernel.unread (id j q) = v.kernel.unread (id j q)

/-- A turn that writes nothing to the pipes of the replicas. -/
theorem Returning.skip {n : Nat} {buffer : Nat → List Byte} {u' : Voter}
    (h : Returning cfg id r buffer v n u) (hs : cfg.Slot r n) (hstill : Still u u')
    (hskip : v.IsInput n → buffer n = [])
    (hsame : ∀ j q, cfg.Slot j q → u'.kernel.unread (id j q) = u.kernel.unread (id j q)) :
    Returning cfg id r buffer v (n + 1) u' := by
  refine
    { still := h.still.trans hstill
      flight := fun j q hjq hout => (hsame j q hjq).trans (h.flight j q hjq hout)
      back := fun q hq hin => ?_
      same := fun j q hjq hin hj =>
        (hsame j q hjq).trans (h.same j q hjq hin fun hjr => Nat.le_of_succ_le (hj hjr)) }
  rcases Nat.lt_succ_iff_lt_or_eq.mp hq with hlt | rfl
  · rw [hsame r q ⟨hs.1, Nat.lt_trans hlt hs.2⟩]
    exact h.back q hlt hin
  · rw [hsame r q hs, h.same r q hs hin fun _ => Nat.le_refl q, hskip hin, List.append_nil]

/-- A turn that writes to an input pipe. -/
theorem Returning.write {n : Nat} {buffer : Nat → List Byte}
    (h : Returning cfg id r buffer v n u) (hw : Wired cfg plan id v) (hs : cfg.Slot r n)
    (hin : v.IsInput n) : Returning cfg id r buffer v (n + 1)
      { u with kernel := u.kernel.deliver (id r n) (buffer n) } := by
  have hother : ∀ j q, cfg.Slot j q → ¬ (j = r ∧ q = n) →
      (u.kernel.deliver (id r n) (buffer n)).unread (id j q) = u.kernel.unread (id j q) := by
    intro j q hjq hne
    refine Function.update_of_ne (fun heq => hne ?_) _ _
    exact hw.id_inj j q r n hjq hs heq
  refine
    { still := h.still.trans (still_unread u _)
      flight := fun j q hjq hout => ?_
      back := fun q hq hinq => ?_
      same := fun j q hjq hinq hj => ?_ }
  · have hne : ¬ (j = r ∧ q = n) := by
      rintro ⟨-, rfl⟩
      exact hout hin
    exact (hother j q hjq hne).trans (h.flight j q hjq hout)
  · rcases Nat.lt_succ_iff_lt_or_eq.mp hq with hlt | rfl
    · refine (hother r q ⟨hs.1, Nat.lt_trans hlt hs.2⟩ fun hc => ?_).trans (h.back q hlt hinq)
      exact Nat.ne_of_lt hlt hc.2
    · show (u.kernel.deliver (id r q) (buffer q)).unread (id r q) = _
      unfold Kernel.deliver
      dsimp only
      rw [Function.update_self, h.same r q hs hinq fun _ => Nat.le_refl q]
  · refine (hother j q hjq fun hc => ?_).trans
      (h.same j q hjq hinq fun hjr => Nat.le_of_succ_le (hj hjr))
    exact absurd (hj hc.1) (by rw [hc.2]; exact Nat.not_succ_le_self n)

/-- **`returnPipes` appends the stolen bytes** to what is in the pipes by now. -/
theorem returnPipes_spec (hw : Wired cfg plan id v) (hr : r < cfg.repCount)
    (buffer : Nat → List Byte) :
    wp (returnPipes r buffer) (fun _ u => Returning cfg id r buffer v cfg.pipeCount u) E v := by
  unfold returnPipes
  rw [wp_bind, wp_get, hw.count r hr]
  refine wp_loop (Returning cfg id r buffer v)
    { still := Still.refl v
      flight := SameFlight.refl
      back := fun q hq => absurd hq (Nat.not_lt_zero q)
      same := fun _ _ _ _ _ => rfl } fun n u hn hu => ?_
  have hs : cfg.Slot r n := ⟨hr, hn⟩
  have hwu := hw.kept hu.still.toKept
  rw [wp_ite]
  split
  · rw [wp_bind, wp_get]
    by_cases hin : v.IsInput n
    · have hjoin := (hw.joined r n hs).inward hin
      have hlook : u.kernel.lookup (u.vot r n).fdOut = some (.writeEnd (id r n)) := by
        rw [hu.still.vot, hjoin.2.1]
        exact hwu.wr r n hs
      exact (writeBuffer_delivers hlook).mpr (hu.write hw hs hin)
    · -- An output pipe of the replica is no pipe the voter writes to.
      have hzero : (u.vot r n).fdOut = 0 := by
        rw [hu.still.vot]
        exact ((hw.joined r n hs).outward hin).2.1
      refine (writeBuffer_still _ _ _).imp fun _ u' h => ?_
      refine hu.skip hs h.1 (fun hc => absurd hc hin) fun j q hjq => h.2 _ ?_
      rintro fd rfl
      obtain ⟨e, he, hold⟩ := hwu.zero
      rw [hzero, he]
      intro heq
      obtain rfl := Option.some.inj heq
      exact absurd hold (Nat.not_lt.mpr (hwu.id_ge j q hjq))
  · rename_i hnil
    exact hu.skip hs (Still.refl u) (fun _ => not_not.mp hnil) fun _ _ _ => rfl

end Return

end Pint
