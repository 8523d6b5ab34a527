import Mathlib.Tactic.Common
import Mathlib.Data.List.Basic

/-!
# Blocks of one size in a stream

A writer puts blocks of `n` items into a stream. A reader that knows nothing but `n` takes up
to `n` of the items that have arrived, and keeps them only if they are `n`. `Stream` is the two
of them and what is on the way between; how the items travel does not matter, only how many
have arrived when the reader looks.

The reader gets the blocks that were written, in order, exactly as long as it never takes a
part of one (`Stream.step_intact`). From the first part on nothing fits any more, because what
was taken is missing (`Stream.Bounded`).
-/

namespace Framing

variable {α : Type} {n : Nat}

/-- `n` items that belong together. -/
@[ext] structure Block (α : Type) (n : Nat) where
  toList : List α
  length_eq : toList.length = n
deriving DecidableEq

/-- The items of some blocks, one after the other. -/
def flat (blocks : List (Block α n)) : List α := (blocks.map Block.toList).flatten

section Flat

variable {xs ys : List (Block α n)} {b : Block α n} {rest : List α}

@[simp] theorem flat_nil : flat ([] : List (Block α n)) = [] := rfl

@[simp] theorem flat_cons : flat (b :: xs) = b.toList ++ flat xs := rfl

@[simp] theorem flat_append : flat (xs ++ ys) = flat xs ++ flat ys := by
  unfold flat
  rw [List.map_append, List.flatten_append]

/-- A stream that begins with the items of some blocks begins with these blocks. -/
theorem prefix_of_flat (hn : 0 < n) (h : flat xs ++ rest = flat ys) :
    ∃ zs, ys = xs ++ zs ∧ rest = flat zs := by
  induction xs generalizing ys with
  | nil => exact ⟨ys, rfl, h⟩
  | cons x xs ih =>
    cases ys with
    | nil =>
      have hlen := congrArg List.length h
      rw [flat_cons, List.length_append, List.length_append, Block.length_eq,
        flat_nil, List.length_nil] at hlen
      omega
    | cons y ys =>
      rw [flat_cons, flat_cons, List.append_assoc] at h
      obtain ⟨hxy, hrest⟩ := List.append_inj h
        (by rw [Block.length_eq, Block.length_eq])
      obtain ⟨zs, hzs, hflat⟩ := ih hrest
      obtain rfl := Block.ext hxy
      exact ⟨zs, by rw [hzs, List.cons_append], hflat⟩

end Flat

/-! ## A writer and a reader -/

structure Stream (α : Type) (n : Nat) where
  written : List (Block α n) := []
  /-- What was written and has not been taken by the reader. -/
  way : List α := []
  processed : List (Block α n) := []

inductive Move (α : Type) (n : Nat) where
  | send (b : Block α n)
  /-- The reader looks when `arrived` of the items on the way have arrived. -/
  | wake (arrived : Nat)

namespace Stream

/-- What the reader takes. -/
def taken (s : Stream α n) (arrived : Nat) : List α := (s.way.take arrived).take n

def step : Move α n → Stream α n → Stream α n
  | .send b, s => { s with written := s.written ++ [b], way := s.way ++ b.toList }
  | .wake arrived, s =>
    { s with
      way := s.way.drop (s.taken arrived).length
      processed :=
        if h : (s.taken arrived).length = n then s.processed ++ [⟨s.taken arrived, h⟩]
        else s.processed }

/-- Nothing is lost: what was processed and what is on the way is what was written. -/
def Intact (s : Stream α n) : Prop := flat s.processed ++ s.way = flat s.written

/-- The blocks processed are the first ones written, and the others are on the way. -/
def Ordered (s : Stream α n) : Prop :=
  ∃ rest, s.written = s.processed ++ rest ∧ s.way = flat rest

/-- No more is processed and on the way than was written. -/
def Bounded (s : Stream α n) : Prop :=
  (flat s.processed ++ s.way).length ≤ (flat s.written).length

/-- The reader finds nothing, or a whole block. -/
def Whole (s : Stream α n) : Move α n → Prop
  | .send _ => True
  | .wake arrived => s.way.take arrived ≠ [] → n ≤ (s.way.take arrived).length

variable {s : Stream α n} {m : Move α n}

theorem intact_iff_ordered (hn : 0 < n) : s.Intact ↔ s.Ordered := by
  constructor
  · intro h
    exact prefix_of_flat hn h
  · rintro ⟨rest, hwritten, hway⟩
    unfold Intact
    rw [hwritten, hway, flat_append]

/-- What the reader takes is the front of what is on the way. -/
theorem taken_append_drop (arrived : Nat) :
    s.taken arrived ++ s.way.drop (s.taken arrived).length = s.way := by
  have hprefix : s.taken arrived <+: s.way :=
    (List.take_prefix n _).trans (List.take_prefix arrived _)
  obtain ⟨rest, hrest⟩ := hprefix
  conv_lhs => rw [← hrest]
  rw [hrest, ← hrest, List.drop_left]

/-- What a reader does that takes a whole block, and one that takes a part. -/
theorem step_wake_whole {arrived : Nat} {block : List α} (ht : s.taken arrived = block)
    (hb : block.length = n) : step (.wake arrived) s
      = { s with
          way := s.way.drop block.length
          processed := s.processed ++ [⟨block, hb⟩] } := by
  subst ht
  unfold step
  dsimp only
  rw [dif_pos hb]

theorem step_wake_part {arrived : Nat} {block : List α} (ht : s.taken arrived = block)
    (hb : block.length ≠ n) :
    step (.wake arrived) s = { s with way := s.way.drop block.length } := by
  subst ht
  unfold step
  dsimp only
  rw [dif_neg hb]

/-- A whole block moves from the way to the reader. -/
theorem flat_wake_whole {arrived : Nat} (h : (s.taken arrived).length = n) :
    flat (step (.wake arrived) s).processed ++ (step (.wake arrived) s).way
      = flat s.processed ++ s.way := by
  have hsplit := taken_append_drop (s := s) arrived
  rw [step_wake_whole rfl h]
  dsimp only
  rw [flat_append, flat_cons, flat_nil, List.append_nil, List.append_assoc]
  exact congrArg (flat s.processed ++ ·) hsplit

/-- A part of a block is gone. -/
theorem length_wake_part {arrived : Nat} (h : (s.taken arrived).length ≠ n) :
    (flat (step (.wake arrived) s).processed ++ (step (.wake arrived) s).way).length
      + (s.taken arrived).length = (flat s.processed ++ s.way).length := by
  have hlen := congrArg List.length (taken_append_drop (s := s) arrived)
  rw [step_wake_part rfl h]
  dsimp only
  rw [List.length_append] at hlen ⊢
  rw [List.length_append]
  omega

theorem length_taken (arrived : Nat) :
    (s.taken arrived).length = min n (s.way.take arrived).length := by
  unfold taken
  exact List.length_take

/-- When the reader keeps what it takes. -/
theorem whole_iff {arrived : Nat} : s.Whole (.wake arrived) ↔
    (s.taken arrived).length = n ∨ (s.taken arrived).length = 0 := by
  have htaken := length_taken (s := s) arrived
  constructor
  · intro h
    by_cases hnil : s.way.take arrived = []
    · refine Or.inr ?_
      rw [htaken, hnil]
      exact Nat.min_zero n
    · refine Or.inl ?_
      rw [htaken, Nat.min_eq_left (h hnil)]
  · intro h hne
    have hpos := List.length_pos_of_ne_nil hne
    omega

theorem Bounded.step (h : s.Bounded) : (Stream.step m s).Bounded := by
  cases m with
  | send b =>
    show (flat s.processed ++ (s.way ++ b.toList)).length ≤ (flat (s.written ++ [b])).length
    unfold Bounded at h
    rw [← List.append_assoc, flat_append, List.length_append, flat_cons, flat_nil,
      List.append_nil, @List.length_append _ (flat s.written)]
    omega
  | wake arrived =>
    unfold Bounded at h ⊢
    by_cases hlen : (s.taken arrived).length = n
    · rw [flat_wake_whole hlen]
      exact h
    · have hpart := length_wake_part hlen
      have hwritten : (Stream.step (.wake arrived) s).written = s.written := rfl
      rw [hwritten]
      omega

/-- **The step lemma.** A step keeps the stream intact exactly if the reader does not take a
part of a block. -/
theorem step_intact (h : s.Bounded) : (step m s).Intact ↔ s.Intact ∧ s.Whole m := by
  cases m with
  | send b =>
    show flat s.processed ++ (s.way ++ b.toList) = flat (s.written ++ [b]) ↔ _
    rw [← List.append_assoc, flat_append, flat_cons, flat_nil, List.append_nil,
      List.append_left_inj]
    exact (and_iff_left trivial).symm
  | wake arrived =>
    have hwritten : (step (.wake arrived) s).written = s.written := rfl
    unfold Intact
    rw [hwritten, whole_iff]
    by_cases hlen : (s.taken arrived).length = n
    · rw [flat_wake_whole hlen]
      exact (and_iff_left (Or.inl hlen)).symm
    · have hpart := length_wake_part hlen
      by_cases hzero : (s.taken arrived).length = 0
      · have hsame : flat (step (.wake arrived) s).processed ++ (step (.wake arrived) s).way
            = flat s.processed ++ s.way := by
          rw [step_wake_part rfl hlen, hzero, List.drop_zero]
        rw [hsame]
        exact (and_iff_left (Or.inr hzero)).symm
      · refine iff_of_false ?_ ?_
        · intro heq
          have := congrArg List.length heq
          unfold Bounded at h
          omega
        · rintro ⟨-, hwhole⟩
          exact hwhole.elim hlen hzero

end Stream

end Framing
