import Pint.Proof.Still

/-!
# `close` and `pipe` in the kernel's table

The facts of `Lib/DescriptorTable.lean` at the voter's descriptors, which are C integers:
what a number stands for after a `close` and after a `pipe`, and which numbers `pipe` hands
out (`Kernel.rdNext`, `Kernel.wrNext`).

Two of them carry the later arguments. What is open stays what it is when something else is
opened (`lookup_piped_of_open`), and `pipe` hands out the lowest numbers that are free, so
nothing is free below them afterwards (`lookup_piped_ne_none`).
-/

namespace Pint

open DescriptorTable

namespace Kernel

variable {k : Kernel} {fd : Int} {x : Nat} {e : PipeEnd}

@[simp] theorem lookup_natCast : k.lookup (x : Int) = DescriptorTable.lookup k.fds x := by
  unfold Kernel.lookup
  rw [if_pos (Int.natCast_nonneg x)]
  rfl

theorem natCast_of_lookup (h : k.lookup fd = some e) : ∃ x : Nat, fd = x := by
  unfold Kernel.lookup at h
  split at h
  · rename_i hfd
    exact ⟨fd.toNat, (Int.toNat_of_nonneg hfd).symm⟩
  · exact absurd h (by simp)

/-! ## Unread bytes -/

theorem waiting_readEnd {id : Nat} (h : k.lookup fd = some (.readEnd id)) :
    k.waiting fd = k.unread id := by
  unfold waiting
  rw [h]

/-- Only the read end of a pipe has bytes waiting. -/
theorem waiting_ne_nil :
    k.waiting fd ≠ [] ↔ ∃ id, k.lookup fd = some (.readEnd id) ∧ k.unread id ≠ [] := by
  constructor
  · intro h
    unfold waiting at h
    cases hl : k.lookup fd with
    | none =>
      rw [hl] at h
      exact absurd rfl h
    | some what =>
      rw [hl] at h
      cases what with
      | readEnd id => exact ⟨id, rfl, h⟩
      | writeEnd id => exact absurd rfl h
      | other => exact absurd rfl h
  · rintro ⟨id, hl, h⟩
    rw [waiting_readEnd hl]
    exact h

/-! ## `close` -/

@[simp] theorem close_unread : (k.close fd).unread = k.unread := by
  unfold close
  split <;> rfl

@[simp] theorem close_pipes : (k.close fd).pipes = k.pipes := by
  unfold close
  split <;> rfl

theorem lookup_close (y : Nat) :
    (k.close (x : Int)).lookup (y : Int) = if y = x then none else k.lookup (y : Int) := by
  have hclose : (k.close (x : Int)).fds = DescriptorTable.close k.fds x := by
    unfold close
    rw [if_pos (Int.natCast_nonneg x)]
    rfl
  rw [lookup_natCast, lookup_natCast, hclose]
  split
  · rename_i h
    rw [h, lookup_close_self]
  · rename_i h
    exact lookup_close_ne h

/-- What is open stays what it is when something else is opened. -/
theorem lookup_open_of_open {what : PipeEnd} (h : k.lookup fd = some e) :
    (k.open what).2.lookup fd = some e := by
  obtain ⟨x, rfl⟩ := natCast_of_lookup h
  rw [lookup_natCast] at h ⊢
  exact lookup_insert_of_open h

/-! ## `pipe` -/

/-- The number `pipe` gives the read end. -/
def rdNext (k : Kernel) : Nat := lowestFree k.fds

/-- The number `pipe` gives the write end. -/
def wrNext (k : Kernel) : Nat := lowestFree (insert k.fds (.readEnd k.pipes))

/-- The kernel after a `pipe`. -/
def piped (k : Kernel) : Kernel where
  fds := insert (insert k.fds (.readEnd k.pipes)) (.writeEnd k.pipes)
  unread := Function.update k.unread k.pipes []
  pipes := k.pipes + 1

example (k : Kernel) : k.pipe = ((k.rdNext : Int), (k.wrNext : Int), k.piped) := rfl

theorem lookup_rdNext (k : Kernel) : k.lookup (k.rdNext : Int) = none := by
  rw [lookup_natCast]
  exact lookup_lowestFree k.fds

theorem lookup_of_lt_rdNext (h : x < k.rdNext) : k.lookup (x : Int) ≠ none := by
  rw [lookup_natCast]
  exact lookup_of_lt_lowestFree h

theorem lookup_wrNext_insert (k : Kernel) :
    DescriptorTable.lookup (insert k.fds (.readEnd k.pipes)) k.wrNext = none :=
  lookup_lowestFree _

theorem rdNext_ne_wrNext (k : Kernel) : k.rdNext ≠ k.wrNext := by
  intro h
  have hfree := k.lookup_wrNext_insert
  rw [← h] at hfree
  exact absurd (lookup_insert_self (t := k.fds) (a := .readEnd k.pipes))
    (by rw [← rdNext, hfree]; simp)

theorem rdNext_lt_wrNext (k : Kernel) : k.rdNext < k.wrNext := by
  rcases Nat.lt_trichotomy k.rdNext k.wrNext with h | h | h
  · exact h
  · exact absurd h k.rdNext_ne_wrNext
  · -- Everything below the read end was open before, and still is.
    have hopen := lookup_of_lt_rdNext h
    rw [lookup_natCast] at hopen
    obtain ⟨e, he⟩ := Option.ne_none_iff_exists'.mp hopen
    have hfree := k.lookup_wrNext_insert
    rw [lookup_insert_of_open he] at hfree
    exact absurd hfree (by simp)

theorem lookup_wrNext (k : Kernel) : k.lookup (k.wrNext : Int) = none := by
  have hfree := k.lookup_wrNext_insert
  rw [lookup_insert, ← rdNext, if_neg k.rdNext_ne_wrNext.symm] at hfree
  rw [lookup_natCast]
  exact hfree

/-- What each number stands for after a `pipe`. -/
theorem lookup_piped (k : Kernel) (x : Nat) :
    k.piped.lookup (x : Int) =
      if x = k.rdNext then some (.readEnd k.pipes)
      else if x = k.wrNext then some (.writeEnd k.pipes)
      else k.lookup (x : Int) := by
  rw [lookup_natCast, lookup_natCast]
  show DescriptorTable.lookup (insert (insert k.fds _) _) x = _
  rw [lookup_insert, ← wrNext, lookup_insert, ← rdNext]
  by_cases hr : x = k.rdNext
  · rw [if_neg (by rw [hr]; exact k.rdNext_ne_wrNext), if_pos hr, if_pos hr]
  · rw [if_neg hr, if_neg hr]

@[simp] theorem lookup_piped_rdNext (k : Kernel) :
    k.piped.lookup (k.rdNext : Int) = some (.readEnd k.pipes) := by
  rw [lookup_piped, if_pos rfl]

@[simp] theorem lookup_piped_wrNext (k : Kernel) :
    k.piped.lookup (k.wrNext : Int) = some (.writeEnd k.pipes) := by
  rw [lookup_piped, if_neg k.rdNext_ne_wrNext.symm, if_pos rfl]

/-- What was open stays what it was. -/
theorem lookup_piped_of_open (h : k.lookup fd = some e) : k.piped.lookup fd = some e := by
  obtain ⟨x, rfl⟩ := natCast_of_lookup h
  have hr : x ≠ k.rdNext := by
    rintro rfl
    rw [lookup_rdNext] at h
    exact absurd h (by simp)
  have hw : x ≠ k.wrNext := by
    rintro rfl
    rw [lookup_wrNext] at h
    exact absurd h (by simp)
  rw [lookup_piped, if_neg hr, if_neg hw, h]

/-- Nothing is free up to the write end of the new pipe. -/
theorem lookup_piped_ne_none (h : x ≤ k.wrNext) : k.piped.lookup (x : Int) ≠ none := by
  rw [lookup_piped]
  split
  · simp
  · split
    · simp
    · rename_i hr hw
      have hlt : x < k.wrNext := Nat.lt_of_le_of_ne h hw
      have hopen : DescriptorTable.lookup (insert k.fds (.readEnd k.pipes)) x ≠ none :=
        lookup_of_lt_lowestFree hlt
      rw [lookup_insert, ← rdNext, if_neg hr] at hopen
      rw [lookup_natCast]
      exact hopen

theorem rdNext_eq (hfree : k.lookup (x : Int) = none)
    (hlow : ∀ y : Nat, y < x → k.lookup (y : Int) ≠ none) : k.rdNext = x :=
  lowestFree_eq (by rwa [lookup_natCast] at hfree)
    fun y hy => by
      have := hlow y hy
      rwa [lookup_natCast] at this

theorem wrNext_eq (hne : x ≠ k.rdNext) (hfree : k.lookup (x : Int) = none)
    (hlow : ∀ y : Nat, y < x → y ≠ k.rdNext → k.lookup (y : Int) ≠ none) : k.wrNext = x := by
  refine lowestFree_eq ?_ fun y hy => ?_
  · rw [lookup_insert, ← rdNext, if_neg hne]
    rwa [lookup_natCast] at hfree
  · rw [lookup_insert, ← rdNext]
    split
    · simp
    · rename_i hyr
      have := hlow y hy hyr
      rwa [lookup_natCast] at this

end Kernel

end Pint
