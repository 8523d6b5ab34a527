import Mathlib.Data.Finset.Basic
import Mathlib.Data.List.Nodup

/-!
# Ledgers of open numbers

A process has some numbers open. Each is in use from outside, or it was opened for an owner who
has it in its records. A number can be closed before it is taken out of the records, and the
system is free to hand it out again, so records are only safe to close while nothing was opened
since they got stale.

`Kept` is the invariant. It says whose records may be stale: closing a recorded number
(`Kept.release`) and striking closed numbers out (`Kept.forget`) keep it for an owner whose
records may be stale, and numbers are opened (`Kept.acquire`) only when nobody's are. What it is
for is `Kept.own`: a recorded number that is open belongs to the one who recorded it.
-/

variable {ι α : Type}

/-- The open numbers, for whom each was opened last, and what each owner has recorded. -/
structure Ledger (ι α : Type) where
  opened : Finset α
  /-- `none` for what is in use from outside. -/
  owner : α → Option ι
  recorded : ι → List α

namespace Ledger

/-- **The invariant**, where `inUse` is open from outside, and the records of some owners may be
stale. -/
structure Kept (inUse : Finset α) (stale : ι → Prop) (l : Ledger ι α) : Prop where
  outside : ∀ a ∈ inUse, a ∈ l.opened ∧ l.owner a = none
  covered : ∀ a ∈ l.opened, a ∉ inUse → ∃ i, l.owner a = some i ∧ a ∈ l.recorded i
  own : ∀ i, ∀ a ∈ l.recorded i, a ∈ l.opened → l.owner a = some i
  live : ∀ i, ¬ stale i → ∀ a ∈ l.recorded i, a ∈ l.opened
  distinct : ∀ i, (l.recorded i).Nodup

variable {inUse : Finset α} {stale stale' : ι → Prop} {l l' : Ledger ι α} {i j : ι} {a : α}
  {as new : List α}

/-- Nobody recorded what is in use from outside. -/
theorem Kept.not_recorded (h : Kept inUse stale l) (ha : a ∈ inUse) : a ∉ l.recorded i := by
  intro hrec
  obtain ⟨hopen, hnone⟩ := h.outside a ha
  rw [h.own i a hrec hopen] at hnone
  cases hnone

/-- More records may be stale. -/
theorem Kept.mono (h : Kept inUse stale l) (hstale : ∀ i, stale i → stale' i) :
    Kept inUse stale' l :=
  { h with live := fun i hi => h.live i fun hs => hi (hstale i hs) }

/-- Records in which all is open are not stale. -/
theorem Kept.settle (h : Kept inUse stale l) (hopen : ∀ i, stale i → ∀ a ∈ l.recorded i,
    a ∈ l.opened) : Kept inUse (fun _ => False) l where
  outside := h.outside
  covered := h.covered
  own := h.own
  live i _ a ha := by
    by_cases hi : stale i
    · exact hopen i hi a ha
    · exact h.live i hi a ha
  distinct := h.distinct

/-- For whom a number was opened that is closed does not matter. -/
theorem Kept.congr (h : Kept inUse stale l) (hopened : l'.opened = l.opened)
    (hrecorded : l'.recorded = l.recorded) (howner : ∀ a ∈ l.opened, l'.owner a = l.owner a) :
    Kept inUse stale l' where
  outside a ha := by
    rw [hopened, howner a (h.outside a ha).1]
    exact h.outside a ha
  covered a ha hnot := by
    rw [hopened] at ha
    rw [howner a ha, hrecorded]
    exact h.covered a ha hnot
  own i a ha hopen := by
    rw [hrecorded] at ha
    rw [hopened] at hopen
    rw [howner a hopen]
    exact h.own i a ha hopen
  live i hi a ha := by
    rw [hrecorded] at ha
    rw [hopened]
    exact h.live i hi a ha
  distinct i := by
    rw [hrecorded]
    exact h.distinct i

/-! ## Changes -/

/-- A number is closed. -/
def release [DecidableEq α] (l : Ledger ι α) (a : α) : Ledger ι α :=
  { l with opened := l.opened.erase a }

/-- The records of an owner are replaced. -/
def record [DecidableEq ι] (l : Ledger ι α) (i : ι) (as : List α) : Ledger ι α :=
  { l with recorded := Function.update l.recorded i as }

/-- Numbers are opened for an owner, who records them. -/
def acquire [DecidableEq ι] [DecidableEq α] (l : Ledger ι α) (i : ι) (new : List α) :
    Ledger ι α where
  opened := l.opened ∪ new.toFinset
  owner a := if a ∈ new then some i else l.owner a
  recorded := Function.update l.recorded i (l.recorded i ++ new)

@[simp] theorem record_self [DecidableEq ι] : (l.record i as).recorded i = as :=
  Function.update_self ..

theorem record_of_ne [DecidableEq ι] (h : j ≠ i) : (l.record i as).recorded j = l.recorded j :=
  Function.update_of_ne h ..

@[simp] theorem acquire_self [DecidableEq ι] [DecidableEq α] :
    (l.acquire i new).recorded i = l.recorded i ++ new :=
  Function.update_self ..

theorem acquire_of_ne [DecidableEq ι] [DecidableEq α] (h : j ≠ i) :
    (l.acquire i new).recorded j = l.recorded j :=
  Function.update_of_ne h ..

/-- **Closing** a number that is recorded, or that was and is closed by now, closes nothing of
anybody else. -/
theorem Kept.release [DecidableEq α] (h : Kept inUse stale l) (ha : a ∈ l.recorded i)
    (hi : stale i) : Kept inUse stale (l.release a) where
  outside b hb := by
    have hne : b ≠ a := by
      intro heq
      exact h.not_recorded hb (heq ▸ ha)
    exact ⟨Finset.mem_erase.mpr ⟨hne, (h.outside b hb).1⟩, (h.outside b hb).2⟩
  covered b hb := h.covered b (Finset.mem_of_mem_erase hb)
  own j b hb hopen := h.own j b hb (Finset.mem_of_mem_erase hopen)
  live j hj b hb := by
    have hopen := h.live j hj b hb
    refine Finset.mem_erase.mpr ⟨?_, hopen⟩
    -- Two owners do not record the same open number.
    intro heq
    have howni := h.own i a ha (heq ▸ hopen)
    have hownj := h.own j b hb hopen
    rw [heq, howni] at hownj
    exact hj (Option.some.inj hownj ▸ hi)
  distinct := h.distinct

/-- **Striking out** what is closed. -/
theorem Kept.forget [DecidableEq ι] (h : Kept inUse stale l)
    (hsub : as.Sublist (l.recorded i)) (hclosed : ∀ a ∈ l.recorded i, a ∈ l.opened → a ∈ as) :
    Kept inUse stale (l.record i as) where
  outside := h.outside
  covered a ha hnot := by
    obtain ⟨j, howner, hrec⟩ := h.covered a ha hnot
    refine ⟨j, howner, ?_⟩
    by_cases hji : j = i
    · subst hji
      rw [record_self]
      exact hclosed a hrec ha
    · rw [record_of_ne hji]
      exact hrec
  own j a ha := by
    by_cases hji : j = i
    · subst hji
      rw [record_self] at ha
      exact h.own j a (hsub.subset ha)
    · rw [record_of_ne hji] at ha
      exact h.own j a ha
  live j hj a ha := by
    by_cases hji : j = i
    · subst hji
      rw [record_self] at ha
      exact h.live j hj a (hsub.subset ha)
    · rw [record_of_ne hji] at ha
      exact h.live j hj a ha
  distinct j := by
    by_cases hji : j = i
    · subst hji
      rw [record_self]
      exact (h.distinct j).sublist hsub
    · rw [record_of_ne hji]
      exact h.distinct j

/-- **Opening** fresh numbers, when no records are stale. -/
theorem Kept.acquire [DecidableEq ι] [DecidableEq α] (h : Kept inUse (fun _ => False) l)
    (hnew : new.Nodup) (hfresh : ∀ a ∈ new, a ∉ l.opened) :
    Kept inUse (fun _ => False) (l.acquire i new) := by
  have hopen : ∀ j, ∀ a ∈ l.recorded j, a ∈ l.opened := fun j => h.live j not_false
  -- What was open before is owned by whom it was, as the new ones were not open.
  have hold : ∀ a ∈ l.opened, (l.acquire i new).owner a = l.owner a := by
    intro a ha
    exact if_neg fun hmem => hfresh a hmem ha
  have hrec : ∀ j a, a ∈ (l.acquire i new).recorded j ↔ a ∈ l.recorded j ∨ j = i ∧ a ∈ new := by
    intro j a
    by_cases hji : j = i
    · subst hji
      rw [acquire_self, List.mem_append]
      simp
    · rw [acquire_of_ne hji]
      simp [hji]
  refine ⟨?_, ?_, ?_, ?_, ?_⟩
  · intro a ha
    rw [hold a (h.outside a ha).1]
    exact ⟨Finset.mem_union_left _ (h.outside a ha).1, (h.outside a ha).2⟩
  · intro a ha hnot
    by_cases hmem : a ∈ new
    · exact ⟨i, if_pos hmem, (hrec i a).mpr (Or.inr ⟨rfl, hmem⟩)⟩
    · have ha' : a ∈ l.opened := by
        rcases Finset.mem_union.mp ha with ha | ha
        · exact ha
        · exact absurd (List.mem_toFinset.mp ha) hmem
      obtain ⟨j, howner, hrecj⟩ := h.covered a ha' hnot
      exact ⟨j, (hold a ha').trans howner, (hrec j a).mpr (Or.inl hrecj)⟩
  · intro j a ha _
    rcases (hrec j a).mp ha with ha | ⟨rfl, hmem⟩
    · rw [hold a (hopen j a ha)]
      exact h.own j a ha (hopen j a ha)
    · exact if_pos hmem
  · intro j _ a ha
    rcases (hrec j a).mp ha with ha | ⟨rfl, hmem⟩
    · exact Finset.mem_union_left _ (hopen j a ha)
    · exact Finset.mem_union_right _ (List.mem_toFinset.mpr hmem)
  · intro j
    by_cases hji : j = i
    · subst hji
      rw [acquire_self]
      refine List.nodup_append.mpr ⟨h.distinct j, hnew, ?_⟩
      intro a ha b hb heq
      exact hfresh b hb (heq ▸ hopen j a ha)
    · rw [acquire_of_ne hji]
      exact h.distinct j

/-! ## When no records are stale -/

/-- Nothing is open but what is in use from outside and what is recorded. -/
theorem Kept.opened_iff (h : Kept inUse (fun _ => False) l) :
    a ∈ l.opened ↔ a ∈ inUse ∨ ∃ i, a ∈ l.recorded i := by
  constructor
  · intro ha
    by_cases hmem : a ∈ inUse
    · exact Or.inl hmem
    · obtain ⟨i, -, hrec⟩ := h.covered a ha hmem
      exact Or.inr ⟨i, hrec⟩
  · intro hor
    rcases hor with ha | ⟨i, ha⟩
    · exact (h.outside a ha).1
    · exact h.live i not_false a ha

/-- **All that is recorded is distinct.** -/
theorem Kept.nodup (h : Kept inUse (fun _ => False) l) {owners : List ι} (howners : owners.Nodup) :
    (owners.flatMap l.recorded).Nodup := by
  rw [List.nodup_flatMap]
  refine ⟨fun i _ => h.distinct i, ?_⟩
  apply howners.imp
  intro i j hij a hai haj
  have hopen := h.live i not_false a hai
  have howni := h.own i a hai hopen
  have hownj := h.own j a haj hopen
  rw [howni] at hownj
  exact hij (Option.some.inj hownj)

end Ledger
