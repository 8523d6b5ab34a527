import Mathlib.Tactic.Common
import Mathlib.Data.List.Basic

/-!
# Voting on streams

Several producers write what should be the same stream. What was taken from a producer and
not yet passed on is its queue; what all of them have delivered, `ready` elements, can be
compared and passed on.

`verdict` is the poll that compares each producer with the next one around the circle, and
stops at the first pair that agrees. What makes it a majority vote among three is
`verdict_of_agree`: where two producers agree, whatever the third did and wherever it
stands, the poll passes on what the two have and never finds against one of them.

`Accounts` is the bookkeeping under all stream arguments: what a producer delivered is what
was passed on followed by its queue.
-/

namespace Voting

variable {α : Type} {cap n k a b c r : Nat} {q q' : Nat → List α}

/-! ## How much can be voted on -/

/-- The shortest of the first `n` queues, at most `cap`. -/
def ready (cap n : Nat) (q : Nat → List α) : Nat :=
  (List.range n).foldl (fun k r => min k (q r).length) cap

theorem ready_succ : ready cap (n + 1) q = min (ready cap n q) (q n).length := by
  unfold ready
  rw [List.range_succ, List.foldl_append]
  rfl

theorem ready_le_cap : ready cap n q ≤ cap := by
  induction n with
  | zero => exact Nat.le_refl cap
  | succ n ih =>
    rw [ready_succ]
    exact Nat.le_trans (Nat.min_le_left _ _) ih

theorem ready_le (h : r < n) : ready cap n q ≤ (q r).length := by
  induction n with
  | zero => exact absurd h (by simp)
  | succ n ih =>
    rw [ready_succ]
    rcases Nat.lt_succ_iff_lt_or_eq.mp h with hlt | rfl
    · exact Nat.le_trans (Nat.min_le_left _ _) (ih hlt)
    · exact Nat.min_le_right _ _

theorem le_ready (hcap : k ≤ cap) (h : ∀ r, r < n → k ≤ (q r).length) :
    k ≤ ready cap n q := by
  induction n with
  | zero => exact hcap
  | succ n ih =>
    rw [ready_succ]
    exact Nat.le_min.mpr ⟨ih fun r hr => h r (Nat.lt_succ_of_lt hr), h n (Nat.lt_succ_self n)⟩

/-- Only the lengths matter. -/
theorem ready_congr (h : ∀ r, r < n → (q r).length = (q' r).length) :
    ready cap n q = ready cap n q' :=
  Nat.le_antisymm
    (le_ready ready_le_cap fun r hr => h r hr ▸ ready_le hr)
    (le_ready ready_le_cap fun r hr => h r hr ▸ ready_le hr)

/-- Unless the bound is in force, the shortest queue is one of them. -/
theorem ready_eq_length (hr : r < n) (h : (q r).length < cap) :
    ∃ i, i < n ∧ ready cap n q = (q i).length := by
  have hmem : ready cap n q = cap ∨ ∃ i, i < n ∧ ready cap n q = (q i).length := by
    clear hr h
    induction n with
    | zero => exact Or.inl rfl
    | succ n ih =>
      rw [ready_succ]
      rcases Nat.le_total (ready cap n q) (q n).length with hle | hle
      · rw [Nat.min_eq_left hle]
        rcases ih with hcap | ⟨i, hi, heq⟩
        · exact Or.inl hcap
        · exact Or.inr ⟨i, Nat.lt_succ_of_lt hi, heq⟩
      · rw [Nat.min_eq_right hle]
        exact Or.inr ⟨n, Nat.lt_succ_self n, rfl⟩
  rcases hmem with hcap | hi
  · have hle : ready cap n q ≤ (q r).length := ready_le hr
    omega
  · exact hi

/-- Once everything ready was passed on, nothing is ready. -/
theorem ready_drop (hr : r < n) (h : (q r).length < cap) :
    ready cap n (fun i => (q i).drop (ready cap n q)) = 0 := by
  obtain ⟨i, hi, heq⟩ := ready_eq_length hr h
  have hle : ready cap n (fun i => (q i).drop (ready cap n q))
      ≤ ((q i).drop (ready cap n q)).length := ready_le hi
  rw [List.length_drop, ← heq, Nat.sub_self] at hle
  exact Nat.le_zero.mp hle

/-! ## Agreement -/

/-- Two queues start with the same `k` elements. -/
def Agree (k : Nat) (q : Nat → List α) (a b : Nat) : Prop := (q a).take k = (q b).take k

instance [DecidableEq α] : Decidable (Agree k q a b) :=
  inferInstanceAs (Decidable ((q a).take k = (q b).take k))

theorem Agree.refl : Agree k q a a := rfl

theorem Agree.symm (h : Agree k q a b) : Agree k q b a := Eq.symm h

theorem Agree.trans (h : Agree k q a b) (h' : Agree k q b c) : Agree k q a c := Eq.trans h h'

/-! ## The poll -/

inductive Verdict where
  /-- No producer agrees with the next. -/
  | noTwo
  /-- `winner` agrees with the next and with the one after it. -/
  | unanimous (winner : Nat)
  /-- `winner` agrees with the next and not with `loser`, the one after it. -/
  | outvoted (loser winner : Nat)
deriving DecidableEq, Repr

variable [DecidableEq α]

/-- The poll over the producers of the list. -/
def poll (n k : Nat) (q : Nat → List α) : List Nat → Verdict
  | [] => .noTwo
  | r :: rest =>
    if Agree k q r ((r + 1) % n) then
      if Agree k q r ((r + 2) % n) then .unanimous r else .outvoted ((r + 2) % n) r
    else poll n k q rest

def verdict (n k : Nat) (q : Nat → List α) : Verdict := poll n k q (List.range n)

/-- What an outcome against a producer means. -/
theorem poll_outvoted {rs : List Nat} {loser winner : Nat}
    (h : poll n k q rs = .outvoted loser winner) :
    winner ∈ rs ∧ loser = (winner + 2) % n ∧ Agree k q winner ((winner + 1) % n) ∧
      ¬ Agree k q winner loser := by
  induction rs with
  | nil => exact absurd h (by simp [poll])
  | cons r rest ih =>
    rw [poll] at h
    split at h
    · rename_i hnext
      split at h
      · exact absurd h (by simp)
      · rename_i hthird
        obtain ⟨rfl, rfl⟩ := Verdict.outvoted.inj h
        exact ⟨List.mem_cons_self, rfl, hnext, hthird⟩
    · obtain ⟨hmem, hrest⟩ := ih h
      exact ⟨List.mem_cons_of_mem _ hmem, hrest⟩

theorem poll_unanimous {rs : List Nat} {winner : Nat}
    (h : poll n k q rs = .unanimous winner) :
    winner ∈ rs ∧ Agree k q winner ((winner + 1) % n) ∧ Agree k q winner ((winner + 2) % n) := by
  induction rs with
  | nil => exact absurd h (by simp [poll])
  | cons r rest ih =>
    rw [poll] at h
    split at h
    · rename_i hnext
      split at h
      · rename_i hthird
        obtain rfl := Verdict.unanimous.inj h
        exact ⟨List.mem_cons_self, hnext, hthird⟩
      · exact absurd h (by simp)
    · obtain ⟨hmem, hrest⟩ := ih h
      exact ⟨List.mem_cons_of_mem _ hmem, hrest⟩

theorem poll_noTwo {rs : List Nat} (h : poll n k q rs = .noTwo) :
    ∀ r ∈ rs, ¬ Agree k q r ((r + 1) % n) := by
  induction rs with
  | nil => simp
  | cons r rest ih =>
    rw [poll] at h
    split at h
    · split at h <;> exact absurd h (by simp)
    · rename_i hnext
      intro x hx
      rcases List.mem_cons.mp hx with rfl | hx
      · exact hnext
      · exact ih h x hx

/-! ## Three producers -/

/-- Each of three producers is the winner, the one after it, or the one after that. -/
theorem three_cases (hr : r < 3) (ha : a < 3) : a = r ∨ a = (r + 1) % 3 ∨ a = (r + 2) % 3 := by
  omega

/-- **An outcome against a producer among three**: the other two agree. -/
theorem verdict_outvoted {loser winner : Nat} (h : verdict 3 k q = .outvoted loser winner) :
    winner < 3 ∧ loser < 3 ∧ loser ≠ winner ∧ ¬ Agree k q winner loser ∧
      ∀ x, x < 3 → x ≠ loser → Agree k q winner x := by
  obtain ⟨hmem, rfl, hnext, hthird⟩ := poll_outvoted h
  have hw : winner < 3 := List.mem_range.mp hmem
  refine ⟨hw, Nat.mod_lt _ (by simp), by omega, hthird, fun x hx hne => ?_⟩
  rcases three_cases hw hx with rfl | rfl | rfl
  · exact Agree.refl
  · exact hnext
  · exact absurd rfl hne

theorem verdict_unanimous {winner : Nat} (h : verdict 3 k q = .unanimous winner) :
    winner < 3 ∧ ∀ x, x < 3 → Agree k q winner x := by
  obtain ⟨hmem, hnext, hthird⟩ := poll_unanimous h
  have hw : winner < 3 := List.mem_range.mp hmem
  refine ⟨hw, fun x hx => ?_⟩
  rcases three_cases hw hx with rfl | rfl | rfl
  · exact Agree.refl
  · exact hnext
  · exact hthird

/-- Where the poll finds nothing, no two of three agree. -/
theorem verdict_noTwo (h : verdict 3 k q = .noTwo) (ha : a < 3) (hb : b < 3) (hab : a ≠ b) :
    ¬ Agree k q a b := by
  intro hagree
  have hnone := poll_noTwo h
  -- One of the two is followed by the other.
  have hpair : b = (a + 1) % 3 ∨ a = (b + 1) % 3 := by omega
  rcases hpair with hpair | hpair
  · exact hnone a (List.mem_range.mpr ha) (hpair ▸ hagree)
  · exact hnone b (List.mem_range.mpr hb) (hpair ▸ hagree.symm)

/-- **Two that agree carry the vote.** The poll finds a winner that agrees with both, and if
it finds against anyone it is the third. -/
theorem verdict_of_agree (ha : a < 3) (hb : b < 3) (hc : c < 3) (hab : a ≠ b) (hac : a ≠ c)
    (hbc : b ≠ c) (h : Agree k q a b) :
    (∃ w, verdict 3 k q = .unanimous w ∧ w < 3 ∧ Agree k q w a) ∨
      ∃ w, verdict 3 k q = .outvoted c w ∧ w < 3 ∧ w ≠ c ∧ Agree k q w a := by
  cases hv : verdict 3 k q with
  | noTwo => exact absurd h (verdict_noTwo hv ha hb hab)
  | unanimous w =>
    obtain ⟨hw, hall⟩ := verdict_unanimous hv
    exact Or.inl ⟨w, rfl, hw, hall a ha⟩
  | outvoted loser w =>
    obtain ⟨hw, hl, hne, hdis, hall⟩ := verdict_outvoted hv
    -- The loser disagrees with the winner, so it is neither of the two that agree.
    have hla : loser ≠ a := by
      rintro rfl
      exact hdis ((hall b hb (Ne.symm hab)).trans h.symm)
    have hlb : loser ≠ b := by
      rintro rfl
      exact hdis ((hall a ha hab).trans h)
    obtain rfl : loser = c := by omega
    exact Or.inr ⟨w, rfl, hw, Ne.symm hne, hall a ha hac⟩

omit [DecidableEq α] in
/-- Among three, the other two agree, and not with `e`. -/
def Minority (k : Nat) (q : Nat → List α) (e : Nat) : Prop :=
  e < 3 ∧ Agree k q ((e + 1) % 3) ((e + 2) % 3) ∧ ¬ Agree k q ((e + 1) % 3) e

instance (e : Nat) : Decidable (Minority k q e) :=
  inferInstanceAs (Decidable (_ ∧ _ ∧ _))

/-- The poll finds against the minority, for the one after it. -/
theorem verdict_outvoted_iff {loser winner : Nat} :
    verdict 3 k q = .outvoted loser winner ↔ winner = (loser + 1) % 3 ∧ Minority k q loser := by
  constructor
  · intro h
    obtain ⟨hmem, hl, hnext, hthird⟩ := poll_outvoted h
    have hw : winner < 3 := List.mem_range.mp hmem
    have hwl : winner = (loser + 1) % 3 := by omega
    have hnl : (winner + 1) % 3 = (loser + 2) % 3 := by omega
    rw [hnl, hwl] at hnext
    rw [hwl] at hthird
    exact ⟨hwl, by omega, hnext, hthird⟩
  · rintro ⟨hw, hl, hagree, hdis⟩
    rcases verdict_of_agree (a := (loser + 1) % 3) (b := (loser + 2) % 3) (c := loser) (by omega)
      (by omega) hl (by omega) (by omega) (by omega) hagree with
      ⟨w, hv, -, hwa⟩ | ⟨w, hv, hlt, hne, -⟩
    · exact absurd (hwa.symm.trans ((verdict_unanimous hv).2 loser hl)) hdis
    · obtain ⟨-, h2, -, -⟩ := poll_outvoted hv
      obtain rfl : w = winner := by omega
      exact hv

omit [DecidableEq α]

/-! ## Elements with two votes -/

/-- Two of the first `n` queues hold `x` at position `k`. -/
def Seconded (n : Nat) (q : Nat → List α) (k : Nat) (x : α) : Prop :=
  ∃ i j, i < n ∧ j < n ∧ i ≠ j ∧ (q i)[k]? = some x ∧ (q j)[k]? = some x

/-- An element of one queue has a second vote if another queue has it too. -/
theorem seconded_iff {x : α} (hr : r < n) (hx : (q r)[k]? = some x) :
    Seconded n q k x ↔ ∃ j, j < n ∧ j ≠ r ∧ (q j)[k]? = some x := by
  constructor
  · rintro ⟨i, j, hi, hj, hij, hxi, hxj⟩
    by_cases hir : i = r
    · exact ⟨j, hj, fun hjr => hij (hir.trans hjr.symm), hxj⟩
    · exact ⟨i, hi, hir, hxi⟩
  · rintro ⟨j, hj, hjr, hxj⟩
    exact ⟨r, j, hr, hj, Ne.symm hjr, hx, hxj⟩

/-! ## Streams -/

/-- What was delivered is what was passed on followed by what is queued. -/
def Accounts (stream sent queue : List α) : Prop := stream = sent ++ queue

/-- Delivering more. -/
theorem Accounts.deliver {stream sent queue xs : List α} (h : Accounts stream sent queue) :
    Accounts (stream ++ xs) sent (queue ++ xs) := by
  unfold Accounts at *
  rw [h, List.append_assoc]

/-- Passing on `k` elements of a queue that agrees. -/
theorem Accounts.pass {stream sent queue other : List α} (h : Accounts stream sent queue)
    (hk : other.take k = queue.take k) :
    Accounts stream (sent ++ other.take k) (queue.drop k) := by
  unfold Accounts at *
  rw [h, hk, List.append_assoc, List.take_append_drop]

theorem Accounts.sent_part {stream sent queue : List α} (h : Accounts stream sent queue) :
    sent <+: stream := ⟨queue, h.symm⟩

/-- **Two producers of one stream agree** on whatever both have delivered. -/
theorem Accounts.agree {A B S sent : List α} (ha : Accounts A sent (q a))
    (hb : Accounts B sent (q b)) (hA : A <+: S) (hB : B <+: S) (hka : k ≤ (q a).length)
    (hkb : k ≤ (q b).length) : Agree k q a b := by
  obtain ⟨s, hs⟩ := hA
  obtain ⟨t, ht⟩ := hB
  unfold Accounts at ha hb
  rw [ha, List.append_assoc] at hs
  rw [hb, List.append_assoc, ← hs] at ht
  have htail : q b ++ t = q a ++ s := List.append_cancel_left ht
  calc (q a).take k = (q a ++ s).take k := (List.take_append_of_le_length hka).symm
    _ = (q b ++ t).take k := by rw [htail]
    _ = (q b).take k := List.take_append_of_le_length hkb

end Voting
