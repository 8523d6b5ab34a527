import Mathlib.Data.List.Induction
import Mathlib.Data.List.Sort
import Mathlib.Order.RelClasses

/-!
# A queue that serves the smallest first

Who waits in the queue is a list in the order of arrival. `Served` is what one service does:
nobody goes before the one that is served, and of those who could be served as well it came
first. `sorted` is the same queue kept as a sorted list, where a new one is put behind those
that it does not go before; then the one to be served is always at the head (`sorted_served`).

The order `r` is any strict weak order, so that two may be neither before nor behind each other.
-/

namespace StableQueue

variable {α : Type} {r : α → α → Prop}

/-- `a` is served out of the queue, and `q'` still wait. -/
inductive Served (r : α → α → Prop) : List α → α → List α → Prop where
  | mk {a : α} {before after : List α} (hbefore : ∀ b ∈ before, r a b)
    (hafter : ∀ b ∈ after, ¬ r b a) : Served r (before ++ a :: after) a (before ++ after)

/-- What can happen in the queue. -/
inductive QueueCall (α : Type) where
  | add (a : α)
  | pop

/-- The calls so far, what each `pop` has answered, and who still waits. -/
inductive Runs (r : α → α → Prop) : List (QueueCall α) → List (Option α) → List α → Prop where
  | start : Runs r [] [] []
  | add {cs : List (QueueCall α)} {as : List (Option α)} {q : List α} (a : α) (h : Runs r cs as q) :
    Runs r (cs ++ [.add a]) as (q ++ [a])
  | serve {cs : List (QueueCall α)} {as : List (Option α)} {q q' : List α} {a : α}
    (h : Runs r cs as q) (hserved : Served r q a q') :
    Runs r (cs ++ [.pop]) (as ++ [some a]) q'
  | nobody {cs : List (QueueCall α)} {as : List (Option α)} (h : Runs r cs as []) :
    Runs r (cs ++ [.pop]) (as ++ [none]) []

/-- All that was ever added. -/
def added (cs : List (QueueCall α)) : List α :=
  cs.filterMap fun c =>
    match c with
    | .add a => some a
    | .pop => none

@[simp] theorem added_add (cs : List (QueueCall α)) (a : α) :
    added (cs ++ [.add a]) = added cs ++ [a] := by
  unfold added
  rw [List.filterMap_append]
  rfl

@[simp] theorem added_pop (cs : List (QueueCall α)) : added (cs ++ [.pop]) = added cs := by
  unfold added
  rw [List.filterMap_append]
  exact List.append_nil _

section Served

variable {q q' : List α} {a b : α}

theorem Served.perm (h : Served r q a q') : q.Perm (a :: q') := by
  cases h with
  | mk hbefore hafter => exact List.perm_middle

theorem Served.least [IsStrictWeakOrder α r] (h : Served r q a q') : ∀ b ∈ q, ¬ r b a := by
  cases h with
  | mk hbefore hafter =>
    intro b hb
    rcases List.mem_append.mp hb with hb | hb
    · exact asymm (hbefore b hb)
    · rcases List.mem_cons.mp hb with rfl | hb
      · exact irrefl b
      · exact hafter b hb

/-- One who comes later and does not go before the next one changes nothing for that one. -/
theorem Served.add (h : Served r q a q') (hb : ¬ r b a) : Served r (q ++ [b]) a (q' ++ [b]) := by
  cases h with
  | @mk _ before after hbefore hafter =>
    have hmore : ∀ c ∈ after ++ [b], ¬ r c a := by
      intro c hc
      rcases List.mem_append.mp hc with hc | hc
      · exact hafter c hc
      · rwa [List.mem_singleton.mp hc]
    simpa using Served.mk hbefore hmore

end Served

/-- **Nobody gets lost, and nobody is served twice.** -/
theorem Runs.perm {cs : List (QueueCall α)} {as : List (Option α)} {q : List α}
    (h : Runs r cs as q) :
    (added cs).Perm (as.filterMap id ++ q) := by
  induction h with
  | start => exact List.Perm.refl _
  | add a h ih =>
    rw [added_add, ← List.append_assoc]
    exact ih.append_right [a]
  | serve h hserved ih =>
    rw [added_pop, List.filterMap_append, List.append_assoc]
    exact ih.trans (hserved.perm.append_left _)
  | nobody h ih =>
    rw [added_pop, List.filterMap_append, List.append_assoc]
    exact ih

/-! ## As a sorted list -/

/-- In a strict weak order what is before `b` is before all that `b` is not behind. -/
theorem lt_of_lt_of_not_lt [IsStrictWeakOrder α r] {a b c : α} (hab : r a b) (hcb : ¬ r c b) :
    r a c := by
  by_contra hac
  by_cases hbc : r b c
  · exact hac (IsTrans.trans a b c hab hbc)
  · by_cases hca : r c a
    · exact hcb (IsTrans.trans c a b hca hab)
    · have horder : IsStrictWeakOrder α r := inferInstance
      exact (horder.incomp_trans a c b ⟨hac, hca⟩ ⟨hcb, hbc⟩).1 hab

variable [DecidableRel r]

/-- Those that wait, with the next one first. -/
def sorted (r : α → α → Prop) [DecidableRel r] (q : List α) : List α :=
  q.foldl (fun s a => s.orderedInsert r a) []

@[simp] theorem sorted_snoc (q : List α) (a : α) :
    sorted r (q ++ [a]) = (sorted r q).orderedInsert r a := by
  unfold sorted
  rw [List.foldl_append, List.foldl_cons, List.foldl_nil]

theorem sorted_perm (q : List α) : (sorted r q).Perm q := by
  induction q using List.reverseRecOn with
  | nil => exact List.Perm.refl _
  | append_singleton q a ih =>
    rw [sorted_snoc]
    exact ((List.perm_orderedInsert r a _).trans (ih.cons a)).trans
      (List.perm_append_singleton a q).symm

variable [IsStrictWeakOrder α r]

/-- No one stands behind one that it goes before. -/
def InOrder (r : α → α → Prop) (s : List α) : Prop := s.Pairwise fun a b => ¬ r b a

theorem InOrder.orderedInsert {s : List α} (h : InOrder r s) (a : α) :
    InOrder r (s.orderedInsert r a) := by
  induction s with
  | nil => exact List.pairwise_singleton _ _
  | cons b s ih =>
    obtain ⟨hb, hs⟩ := List.pairwise_cons.mp h
    rw [List.orderedInsert_cons]
    split
    · rename_i hab
      refine List.pairwise_cons.mpr ⟨?_, h⟩
      intro c hc
      rcases List.mem_cons.mp hc with rfl | hc
      · exact asymm hab
      · exact asymm (lt_of_lt_of_not_lt hab (hb c hc))
    · rename_i hab
      refine List.pairwise_cons.mpr ⟨?_, ih hs⟩
      intro c hc
      rcases (List.mem_orderedInsert r).mp hc with rfl | hc
      · exact hab
      · exact hb c hc

theorem sorted_inOrder (q : List α) : InOrder r (sorted r q) := by
  induction q using List.reverseRecOn with
  | nil => exact List.Pairwise.nil
  | append_singleton q a ih =>
    rw [sorted_snoc]
    exact ih.orderedInsert a

/-- **The head of the sorted list is served next**, and what is behind it is the rest. -/
theorem sorted_served {q s : List α} {a : α} (h : sorted r q = a :: s) :
    ∃ q', Served r q a q' ∧ s = sorted r q' := by
  induction q using List.reverseRecOn generalizing a s with
  | nil => cases h
  | append_singleton q b ih =>
    rw [sorted_snoc] at h
    cases hq : sorted r q with
    | nil =>
      have hperm := sorted_perm (r := r) q
      rw [hq] at hperm
      have hnil : q = [] := hperm.nil_eq.symm
      rw [hq, List.orderedInsert_nil] at h
      obtain ⟨rfl, rfl⟩ := List.cons.inj h
      rw [hnil]
      have hserved : Served r ([] ++ b :: []) b ([] ++ []) := .mk (by simp) (by simp)
      exact ⟨[], hserved, rfl⟩
    | cons c t =>
      obtain ⟨q', hserved, ht⟩ := ih hq
      rw [hq, List.orderedInsert_cons] at h
      split at h
      · -- The new one goes before the head, and so before all.
        rename_i hbc
        obtain ⟨rfl, rfl⟩ := List.cons.inj h
        refine ⟨q, ?_, hq.symm⟩
        have hfirst : ∀ d ∈ q, r b d := fun d hd =>
          lt_of_lt_of_not_lt hbc (hserved.least d hd)
        have hserved' : Served r (q ++ b :: []) b (q ++ []) := .mk hfirst (by simp)
        rwa [List.append_nil] at hserved'
      · rename_i hbc
        obtain ⟨rfl, rfl⟩ := List.cons.inj h
        exact ⟨q' ++ [b], hserved.add hbc, by rw [sorted_snoc, ht]⟩

/-- Those of one kind stand in the sorted list as if they were alone. -/
theorem InOrder.filter_orderedInsert {s : List α} (h : InOrder r s) (p : α → Bool) (a : α) :
    (s.orderedInsert r a).filter p
      = if p a then (s.filter p).orderedInsert r a else s.filter p := by
  induction s with
  | nil =>
    rw [List.orderedInsert_nil]
    cases hp : p a <;> simp [hp]
  | cons b s ih =>
    obtain ⟨hb, hs⟩ := List.pairwise_cons.mp h
    rw [List.orderedInsert_cons]
    split
    · rename_i hab
      cases hp : p a with
      | false => simp [hp]
      | true =>
        -- All that is left is behind the new one.
        have hall : ∀ c ∈ (b :: s).filter p, r a c := by
          intro c hc
          rcases List.mem_cons.mp (List.mem_filter.mp hc).1 with rfl | hc
          · exact hab
          · exact lt_of_lt_of_not_lt hab (hb c hc)
        rw [List.filter_cons_of_pos hp, if_pos rfl]
        cases hf : (b :: s).filter p with
        | nil => rfl
        | cons c t =>
          rw [List.orderedInsert_cons, if_pos (hall c (by rw [hf]; exact List.mem_cons_self))]
    · rename_i hab
      cases hp : p b with
      | false =>
        have hpb : ¬ p b = true := by rw [hp]; exact Bool.false_ne_true
        rw [List.filter_cons_of_neg hpb, List.filter_cons_of_neg hpb]
        exact ih hs
      | true =>
        rw [List.filter_cons_of_pos hp, List.filter_cons_of_pos hp, ih hs]
        split
        · rw [List.orderedInsert_cons, if_neg hab]
        · rfl

theorem sorted_filter (q : List α) (p : α → Bool) :
    sorted r (q.filter p) = (sorted r q).filter p := by
  induction q using List.reverseRecOn with
  | nil => rfl
  | append_singleton q a ih =>
    rw [sorted_snoc, (sorted_inOrder q).filter_orderedInsert, List.filter_append, ← ih]
    cases hp : p a <;> simp [hp]

end StableQueue
