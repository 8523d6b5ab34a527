import Mathlib.Data.List.Nodup
import Mathlib.Data.List.Infix

/-!
# Tables in the order of their entries

A table has at most one entry for a key, and keeps the entries in the order in which they were
added. What has a key that is there already is not added.
-/

/-- The keys of the entries are different. -/
structure OrderedTable {α κ : Type} (key : α → κ) where
  entries : List α
  nodup : (entries.map key).Nodup

namespace OrderedTable

variable {α κ : Type} {key : α → κ}

def empty : OrderedTable key := ⟨[], List.nodup_nil⟩

def keys (t : OrderedTable key) : List κ := t.entries.map key

/-- The table with one entry more, whose key is new. -/
def snoc (t : OrderedTable key) (a : α) (h : key a ∉ t.keys) : OrderedTable key where
  entries := t.entries ++ [a]
  nodup := by
    rw [List.map_append, List.nodup_append]
    refine ⟨t.nodup, List.nodup_singleton _, ?_⟩
    rintro k hk _ hb rfl
    exact h ((List.mem_singleton.mp hb) ▸ hk)

variable [DecidableEq κ]

/-- Whether the key was new, and the table afterwards. -/
def add (t : OrderedTable key) (a : α) : Bool × OrderedTable key :=
  if h : key a ∈ t.keys then (false, t) else (true, t.snoc a h)

def addAll (t : OrderedTable key) (as : List α) : OrderedTable key :=
  as.foldl (fun t a => (t.add a).2) t

variable {t : OrderedTable key} {a : α}

theorem add_known (h : key a ∈ t.keys) : t.add a = (false, t) := dif_pos h

theorem add_new (h : key a ∉ t.keys) : t.add a = (true, t.snoc a h) := dif_neg h

/-- Entries stay where they are. -/
theorem entries_addAll (as : List α) : t.entries <+: (t.addAll as).entries := by
  induction as generalizing t with
  | nil => exact List.prefix_refl _
  | cons a as ih =>
    refine List.IsPrefix.trans ?_ ih
    show t.entries <+: (t.add a).2.entries
    by_cases h : key a ∈ t.keys
    · rw [add_known h]
    · rw [add_new h]
      exact List.prefix_append _ _

theorem getElem?_addAll {as : List α} {i : Nat} (h : t.entries[i]? = some a) :
    (t.addAll as).entries[i]? = some a := by
  obtain ⟨rest, hrest⟩ := entries_addAll (t := t) as
  rw [← hrest]
  exact List.getElem?_append_left (List.getElem?_eq_some_iff.mp h).1 ▸ h

end OrderedTable
