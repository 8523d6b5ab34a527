import Mathlib.Tactic.Common
import Mathlib.Data.List.Basic

/-!
# Scanning by the longest match

A scanner has a list of rules. At every place it takes the longest text that a rule accepts,
and of the rules that accept it the first. `Scans` says this of a whole text and `scan` does it;
with a rule for every single item they are the same (`scan_eq_iff`).
-/

namespace MaximalMunch

/-- A rule accepts some texts, and has an answer for each. -/
structure Rule (α τ : Type) where
  accepts : List α → Bool
  action : List α → τ

variable {α τ : Type}

/-- A piece of the text, with the answer of its rule. -/
structure Lexeme (α τ : Type) where
  text : List α
  value : τ

section Scan

variable (rules : List (Rule α τ))

/-- Some rule accepts the text. -/
def accepted (s : List α) : Bool := rules.any fun r => r.accepts s

/-- The length of the longest text at the head of `s` that is accepted, up to `n`, or 0. -/
def width (s : List α) : Nat → Nat
  | 0 => 0
  | n + 1 => if accepted rules (s.take (n + 1)) then n + 1 else width s n

/-- The lexeme at the head. -/
def next (s : List α) : Option (Lexeme α τ) :=
  let n := width rules s s.length
  if n = 0 then none
  else (rules.find? fun r => r.accepts (s.take n)).map fun r => ⟨s.take n, r.action (s.take n)⟩

/-- The lexemes behind the first `k` items. -/
def scanFrom : Nat → List α → List (Lexeme α τ)
  | _, [] => []
  | k + 1, _ :: s => scanFrom k s
  | 0, a :: s =>
    match next rules (a :: s) with
    | none => []
    | some x => x :: scanFrom (x.text.length - 1) s

def scan (s : List α) : List (Lexeme α τ) := scanFrom rules 0 s

/-- `w` is what the scanner takes from a text that goes on with `rest`. -/
structure Longest (w rest : List α) : Prop where
  ne_nil : w ≠ []
  is_accepted : accepted rules w = true
  stops : ∀ u, u ≠ [] → u <+: rest → accepted rules (w ++ u) = false

/-- The pieces of a text. -/
inductive Scans : List α → List (Lexeme α τ) → Prop where
  | nil : Scans [] []
  | cons {w rest : List α} {r : Rule α τ} {xs : List (Lexeme α τ)} (hw : Longest rules w rest)
    (hr : rules.find? (fun r => r.accepts w) = some r) (hrest : Scans rest xs) :
    Scans (w ++ rest) (⟨w, r.action w⟩ :: xs)

/-- Every single item is accepted, so the scanner never stops early. -/
def Total : Prop := ∀ a, accepted rules [a] = true

end Scan

variable {rules : List (Rule α τ)} {s w rest : List α} {n : Nat}

/-! ## The longest match -/

theorem width_le (s : List α) (n : Nat) : width rules s n ≤ n := by
  induction n with
  | zero => exact Nat.le_refl 0
  | succ n ih =>
    unfold width
    split
    · exact Nat.le_refl _
    · exact Nat.le_succ_of_le ih

theorem accepted_width (h : width rules s n ≠ 0) :
    accepted rules (s.take (width rules s n)) = true := by
  induction n with
  | zero => exact absurd rfl h
  | succ n ih =>
    unfold width at h ⊢
    split
    · assumption
    · rename_i hno
      rw [if_neg hno] at h
      exact ih h

/-- Nothing longer is accepted. -/
theorem not_accepted_of_width_lt {m : Nat} (hlt : width rules s n < m) (hle : m ≤ n) :
    accepted rules (s.take m) = false := by
  induction n with
  | zero => omega
  | succ n ih =>
    unfold width at hlt
    split at hlt
    · omega
    · rename_i hno
      rcases Nat.lt_or_eq_of_le hle with hm | rfl
      · exact ih hlt (Nat.le_of_lt_succ hm)
      · simpa using hno

theorem le_width {m : Nat} (hacc : accepted rules (s.take m) = true) (hle : m ≤ n) :
    m ≤ width rules s n := by
  by_contra hlt
  rw [not_accepted_of_width_lt (Nat.not_le.mp hlt) hle] at hacc
  cases hacc

theorem width_longest (h : Longest rules w rest) :
    width rules (w ++ rest) (w ++ rest).length = w.length := by
  have hge : w.length ≤ width rules (w ++ rest) (w ++ rest).length := by
    apply le_width
    · rw [List.take_left]
      exact h.is_accepted
    · rw [List.length_append]
      exact Nat.le_add_right _ _
  refine Nat.le_antisymm ?_ hge
  by_contra hlt
  have hlong : width rules (w ++ rest) (w ++ rest).length ≤ _ := width_le _ _
  have hpos : width rules (w ++ rest) (w ++ rest).length ≠ 0 := by omega
  have hacc := accepted_width hpos
  obtain ⟨k, hk⟩ := Nat.exists_eq_add_of_le hge
  rw [hk, List.take_length_add_append] at hacc
  have hu : rest.take k ≠ [] := by
    rw [hk, List.length_append] at hlong
    rw [hk] at hlt
    intro hnil
    have hlen := congrArg List.length hnil
    rw [List.length_take, List.length_nil] at hlen
    omega
  rw [h.stops _ hu (List.take_prefix k rest)] at hacc
  cases hacc

/-- **The first lexeme** of a text. -/
theorem next_longest (h : Longest rules w rest) {r : Rule α τ}
    (hr : rules.find? (fun r => r.accepts w) = some r) :
    next rules (w ++ rest) = some ⟨w, r.action w⟩ := by
  have hlen : w.length ≠ 0 := fun hzero => h.ne_nil (List.eq_nil_of_length_eq_zero hzero)
  unfold next
  rw [width_longest h]
  dsimp only
  rw [if_neg hlen, List.take_left, hr]
  rfl

/-- **What the first lexeme is**, if there is one. -/
theorem longest_of_next {x : Lexeme α τ} (h : next rules s = some x) :
    ∃ rest r, s = x.text ++ rest ∧ Longest rules x.text rest ∧
      rules.find? (fun r => r.accepts x.text) = some r ∧ x.value = r.action x.text := by
  unfold next at h
  dsimp only at h
  split at h
  · cases h
  · rename_i hpos
    obtain ⟨r, hr, rfl⟩ := Option.map_eq_some_iff.mp h
    have hle : width rules s s.length ≤ s.length := width_le s s.length
    have hlen : (s.take (width rules s s.length)).length = width rules s s.length := by
      rw [List.length_take]
      omega
    refine ⟨s.drop (width rules s s.length), r, (List.take_append_drop _ s).symm,
      ⟨?_, accepted_width hpos, ?_⟩, hr, rfl⟩
    · intro hnil
      dsimp only at hnil
      rw [hnil] at hlen
      exact hpos hlen.symm
    · rintro u hu ⟨t, ht⟩
      -- A longer match would be as long as a longer part of the text.
      have hsplit : s.take (width rules s s.length) ++ u
          = s.take (width rules s s.length + u.length) := by
        have hall : s.take (width rules s s.length) ++ u ++ t = s := by
          rw [List.append_assoc, ht, List.take_append_drop]
        have hlong : (s.take (width rules s s.length) ++ u).length
            = width rules s s.length + u.length := by rw [List.length_append, hlen]
        calc s.take (width rules s s.length) ++ u
            = (s.take (width rules s s.length) ++ u ++ t).take
                (width rules s s.length + u.length) := (List.take_left' hlong).symm
          _ = s.take (width rules s s.length + u.length) := by rw [hall]
      have hulen : 0 < u.length := List.length_pos_iff.mpr hu
      have hfit : width rules s s.length + u.length ≤ s.length := by
        have := congrArg List.length ht
        rw [List.length_append, List.length_drop] at this
        omega
      rw [hsplit]
      exact not_accepted_of_width_lt (by omega) hfit

theorem next_total (h : Total rules) (a : α) (s : List α) : next rules (a :: s) ≠ none := by
  have hone : 1 ≤ width rules (a :: s) (a :: s).length := by
    apply le_width
    · exact h a
    · exact Nat.succ_le_succ (Nat.zero_le _)
  have hpos : width rules (a :: s) (a :: s).length ≠ 0 := by omega
  have hacc := accepted_width hpos
  unfold next
  dsimp only
  rw [if_neg (by omega)]
  intro hnone
  rw [Option.map_eq_none_iff, List.find?_eq_none] at hnone
  obtain ⟨r, hr, hrw⟩ := List.any_eq_true.mp hacc
  exact hnone r hr hrw

/-! ## Whole texts -/

theorem scanFrom_drop (k : Nat) (s : List α) : scanFrom rules k s = scan rules (s.drop k) := by
  induction s generalizing k with
  | nil =>
    rw [List.drop_nil]
    cases k <;> rfl
  | cons a s ih =>
    cases k with
    | zero => rfl
    | succ k => exact ih k

theorem scan_of_next {value : τ} (h : next rules (w ++ rest) = some ⟨w, value⟩) (hne : w ≠ []) :
    scan rules (w ++ rest) = ⟨w, value⟩ :: scan rules rest := by
  cases w with
  | nil => exact absurd rfl hne
  | cons a w =>
    have hrest : scanFrom rules w.length (w ++ rest) = scan rules rest := by
      rw [scanFrom_drop, List.drop_left]
    rw [List.cons_append] at h
    rw [List.cons_append, scan, scanFrom, h]
    dsimp only
    rw [List.length_cons, Nat.add_sub_cancel, hrest]

/-- **The scanner does what `Scans` says.** -/
theorem Scans.scan_eq {xs : List (Lexeme α τ)} (h : Scans rules s xs) : scan rules s = xs := by
  induction h with
  | nil => rfl
  | cons hw hr _ ih => rw [scan_of_next (next_longest hw hr) hw.ne_nil, ih]

theorem scans_scan (htotal : Total rules) (s : List α) : Scans rules s (scan rules s) := by
  induction hlen : s.length using Nat.strongRecOn generalizing s with
  | ind n ih =>
    cases s with
    | nil => exact .nil
    | cons a s =>
      obtain ⟨x, hx⟩ := Option.ne_none_iff_exists'.mp (next_total htotal a s)
      obtain ⟨rest, r, hs, hw, hr, hvalue⟩ := longest_of_next hx
      obtain ⟨text, value⟩ := x
      obtain rfl : value = r.action text := hvalue
      rw [hs] at hx hlen ⊢
      rw [scan_of_next hx hw.ne_nil]
      have hpos : 0 < text.length := List.length_pos_iff.mpr hw.ne_nil
      have hshorter : rest.length < n := by
        rw [List.length_append] at hlen
        dsimp only at hlen
        omega
      exact .cons hw hr (ih rest.length hshorter rest rfl)

/-- **The scanner gives the pieces of the text, and only they are its pieces.** -/
theorem scan_eq_iff (htotal : Total rules) {xs : List (Lexeme α τ)} :
    scan rules s = xs ↔ Scans rules s xs :=
  ⟨fun h => h ▸ scans_scan htotal s, Scans.scan_eq⟩

/-- A text that no rule accepts with the next item is not accepted with more either, as far as
the rules look at one item. -/
theorem Longest.of_head (hne : w ≠ []) (hacc : accepted rules w = true)
    (hstop : ∀ a u, (a :: u) <+: rest → accepted rules (w ++ a :: u) = false) :
    Longest rules w rest := by
  refine ⟨hne, hacc, fun u hu hpre => ?_⟩
  cases u with
  | nil => exact absurd rfl hu
  | cons a u => exact hstop a u hpre

end MaximalMunch
