import Mathlib.Tactic.Common
import Mathlib.Data.List.Basic

/-!
# Descriptor tables that hand out the lowest free number

A process names what it has open by small numbers. The table maps a number to what it
stands for; closing frees the number, and opening takes the lowest number that is free.

What a program relies on when it keeps numbers across calls: opening something leaves the
numbers that are open alone (`lookup_insert_of_open`), and every number below the lowest free
one is open (`lookup_of_lt_lowestFree`). So where every number below `fd` is open and `fd` is
free, `fd` is the number that is handed out next (`lowestFree_eq`), and a program that closes
a block of numbers gets them back in increasing order.

Which numbers are handed out depends only on which are open, not on what they stand for.
`SameOpen` is that much of a table; it is what two processes have in common that went through
the same calls.
-/

namespace DescriptorTable

variable {α : Type}

/-- What each number stands for, if it is open. -/
abbrev Table (α : Type) := List (Option α)

def lookup (t : Table α) (fd : Nat) : Option α := t.getD fd none

def close (t : Table α) (fd : Nat) : Table α := t.set fd none

/-- The number the next `insert` takes. -/
def lowestFree (t : Table α) : Nat := t.findIdx Option.isNone

def insert (t : Table α) (a : α) : Table α :=
  if lowestFree t < t.length then t.set (lowestFree t) (some a) else t ++ [some a]

/-! ## Lookups -/

theorem lookup_set {t : Table α} {fd k : Nat} {o : Option α} (h : fd < t.length) :
    lookup (t.set fd o) k = if k = fd then o else lookup t k := by
  unfold lookup
  rw [List.getD_eq_getElem?_getD, List.getD_eq_getElem?_getD, List.getElem?_set]
  by_cases hk : fd = k
  · subst hk
    simp [h]
  · rw [if_neg hk, if_neg (Ne.symm hk)]

@[simp] theorem lookup_close_self (t : Table α) (fd : Nat) : lookup (close t fd) fd = none := by
  by_cases h : fd < t.length
  · rw [close, lookup_set h, if_pos rfl]
  · unfold lookup close
    rw [List.getD_eq_getElem?_getD, List.getElem?_eq_none (by simpa using h)]
    rfl

theorem lookup_close_ne {t : Table α} {fd k : Nat} (h : k ≠ fd) :
    lookup (close t fd) k = lookup t k := by
  by_cases hl : fd < t.length
  · rw [close, lookup_set hl, if_neg h]
  · rw [close, List.set_eq_of_length_le (Nat.not_lt.mp hl)]

/-- The lowest free number is free. -/
theorem lookup_lowestFree (t : Table α) : lookup t (lowestFree t) = none := by
  unfold lookup
  by_cases h : lowestFree t < t.length
  · rw [List.getD_eq_getElem?_getD, List.getElem?_eq_getElem h, Option.getD_some]
    have hnone : Option.isNone t[lowestFree t] = true := List.findIdx_getElem
    exact Option.isNone_iff_eq_none.mp hnone
  · rw [List.getD_eq_getElem?_getD, List.getElem?_eq_none (Nat.not_lt.mp h), Option.getD_none]

/-- Every number below the lowest free one is open. -/
theorem lookup_of_lt_lowestFree {t : Table α} {k : Nat} (h : k < lowestFree t) :
    lookup t k ≠ none := by
  have hlen : k < t.length := Nat.lt_of_lt_of_le h List.findIdx_le_length
  unfold lookup
  rw [List.getD_eq_getElem?_getD, List.getElem?_eq_getElem hlen, Option.getD_some]
  intro hnone
  have := List.not_of_lt_findIdx h
  simp [hnone] at this

theorem lookup_insert {t : Table α} {a : α} (k : Nat) :
    lookup (insert t a) k = if k = lowestFree t then some a else lookup t k := by
  unfold insert
  split
  · rename_i h
    exact lookup_set h
  · rename_i h
    have hl : lowestFree t = t.length :=
      Nat.le_antisymm List.findIdx_le_length (Nat.not_lt.mp h)
    unfold lookup
    rw [hl]
    by_cases hk : k = t.length
    · subst hk
      simp
    · rw [if_neg hk]
      simp only [List.getD_eq_getElem?_getD, List.getElem?_append]
      split
      · rfl
      · rename_i hlt
        rw [List.getElem?_eq_none (Nat.not_lt.mp hlt), List.getElem?_eq_none]
        simp only [List.length_cons, List.length_nil]
        omega

@[simp] theorem lookup_insert_self {t : Table α} {a : α} :
    lookup (insert t a) (lowestFree t) = some a := by
  rw [lookup_insert, if_pos rfl]

/-- Opening something leaves what is open as it was. -/
theorem lookup_insert_of_open {t : Table α} {a b : α} {k : Nat} (h : lookup t k = some b) :
    lookup (insert t a) k = some b := by
  rw [lookup_insert, if_neg, h]
  rintro rfl
  rw [lookup_lowestFree] at h
  exact absurd h (by simp)

/-- The lowest free number, by its two properties. -/
theorem lowestFree_eq {t : Table α} {n : Nat} (hfree : lookup t n = none)
    (hlow : ∀ k, k < n → lookup t k ≠ none) : lowestFree t = n := by
  rcases Nat.lt_trichotomy (lowestFree t) n with h | h | h
  · exact absurd (lookup_lowestFree t) (hlow _ h)
  · exact h
  · exact absurd hfree (lookup_of_lt_lowestFree h)

/-! ## Which numbers are open -/

/-- The same numbers are open. -/
def SameOpen (t u : Table α) : Prop := ∀ fd, lookup t fd = none ↔ lookup u fd = none

theorem SameOpen.refl (t : Table α) : SameOpen t t := fun _ => Iff.rfl

/-- The next number is the same. -/
theorem SameOpen.lowestFree_eq {t u : Table α} (h : SameOpen t u) :
    lowestFree t = lowestFree u :=
  DescriptorTable.lowestFree_eq ((h _).mpr (lookup_lowestFree u)) fun _ hk hnone =>
    lookup_of_lt_lowestFree hk ((h _).mp hnone)

theorem SameOpen.insert {t u : Table α} (h : SameOpen t u) (a b : α) :
    SameOpen (insert t a) (insert u b) := by
  intro fd
  rw [lookup_insert, lookup_insert, h.lowestFree_eq]
  split
  · simp
  · exact h fd

/-! ## Several at a time -/

/-- Opens one thing after the other: the numbers they get. -/
def insertAll : Table α → List α → List Nat × Table α
  | t, [] => ([], t)
  | t, a :: as => (lowestFree t :: (insertAll (insert t a) as).1, (insertAll (insert t a) as).2)

def closeAll (t : Table α) (fds : List Nat) : Table α := fds.foldl close t

theorem length_insertAll (t : Table α) (as : List α) : (insertAll t as).1.length = as.length := by
  induction as generalizing t with
  | nil => rfl
  | cons a as ih =>
    rw [insertAll, List.length_cons, List.length_cons, ih]

/-- The numbers depend only on what was open. -/
theorem SameOpen.insertAll_eq {t u : Table α} {as bs : List α} (h : SameOpen t u)
    (hlen : as.length = bs.length) : (insertAll t as).1 = (insertAll u bs).1 := by
  induction as generalizing t u bs with
  | nil =>
    obtain rfl := List.length_eq_zero_iff.mp hlen.symm
    rfl
  | cons a as ih =>
    cases bs with
    | nil => cases hlen
    | cons b bs =>
      rw [insertAll, insertAll, h.lowestFree_eq, ih (h.insert a b) (Nat.succ.inj hlen)]

/-- What was free before is what the numbers are taken from. -/
theorem lookup_of_mem_insertAll {t : Table α} {as : List α} {fd : Nat}
    (h : fd ∈ (insertAll t as).1) : lookup t fd = none := by
  induction as generalizing t with
  | nil => cases h
  | cons a as ih =>
    rcases List.mem_cons.mp h with rfl | h
    · exact lookup_lowestFree t
    · have hfree := ih h
      rw [lookup_insert] at hfree
      split at hfree
      · cases hfree
      · exact hfree

theorem lookup_insertAll_of_notMem {t : Table α} {as : List α} {fd : Nat}
    (h : fd ∉ (insertAll t as).1) : lookup (insertAll t as).2 fd = lookup t fd := by
  induction as generalizing t with
  | nil => rfl
  | cons a as ih =>
    obtain ⟨hne, hnot⟩ := not_or.mp fun hc => h (List.mem_cons.mpr hc)
    rw [insertAll, ih hnot, lookup_insert, if_neg hne]

/-- Each number stands for the thing in its place. -/
theorem lookup_insertAll {t : Table α} {as : List α} {i fd : Nat}
    (h : (insertAll t as).1[i]? = some fd) : lookup (insertAll t as).2 fd = as[i]? := by
  induction as generalizing t i with
  | nil => cases h
  | cons a as ih =>
    cases i with
    | succ i => exact ih h
    | zero =>
      obtain rfl : lowestFree t = fd := Option.some.inj h
      have hnot : lowestFree t ∉ (insertAll (insert t a) as).1 := by
        intro hmem
        have hfree := lookup_of_mem_insertAll hmem
        rw [lookup_insert_self] at hfree
        cases hfree
      rw [insertAll, lookup_insertAll_of_notMem hnot, lookup_insert_self]
      rfl

theorem lookup_closeAll (t : Table α) (fds : List Nat) (fd : Nat) :
    lookup (closeAll t fds) fd = if fd ∈ fds then none else lookup t fd := by
  unfold closeAll
  induction fds generalizing t with
  | nil => rfl
  | cons k fds ih =>
    rw [List.foldl_cons, ih]
    by_cases hk : fd = k
    · subst hk
      simp
    · rw [lookup_close_ne hk]
      simp [hk]

end DescriptorTable
