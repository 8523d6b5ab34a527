import Mathlib.Data.Nat.Digits.Defs
import Mathlib.Tactic.Common

/-!
# Formatted text: what `printf` writes and `scanf` reads

The conversions `%d` and `%[^c]` on texts, which are lists of characters. `printInt` writes
an integer in decimal; `scanInt` skips white space, takes a sign and as many digits as
there are, and fails if there is no digit. `scanInt_printInt` is the round trip, in front of
whatever is not a digit; `scanNot_append` is the one for a word that ends at a separator.
-/

namespace Scan

/-- A text. -/
abbrev Text := List Char

def digitChar (d : Nat) : Char := Char.ofNat (48 + d)

def digitValue (c : Char) : Nat := c.toNat - 48

def isDigit (c : Char) : Bool := 48 ≤ c.toNat && c.toNat ≤ 57

def isSpace (c : Char) : Bool := c = ' ' || (9 ≤ c.toNat && c.toNat ≤ 13)

/-- A number in decimal. -/
def decimal (n : Nat) : Text :=
  if n = 0 then ['0'] else (Nat.digits 10 n).reverse.map digitChar

/-- `%d` of `printf` -/
def printInt (x : Int) : Text :=
  if x < 0 then '-' :: decimal x.natAbs else decimal x.natAbs

/-- The number that a text of digits stands for. -/
def digitsValue (digits : Text) : Nat := digits.foldl (fun n c => 10 * n + digitValue c) 0

/-- As many digits as there are, at least one. -/
def scanNat (s : Text) : Option (Nat × Text) :=
  match s.takeWhile isDigit with
  | [] => none
  | d :: ds => some (digitsValue (d :: ds), s.dropWhile isDigit)

/-- `%d` of `scanf` -/
def scanInt (s : Text) : Option (Int × Text) :=
  match s.dropWhile isSpace with
  | '-' :: s => (scanNat s).map fun r => (-(r.1 : Int), r.2)
  | '+' :: s => (scanNat s).map fun r => ((r.1 : Int), r.2)
  | s => (scanNat s).map fun r => ((r.1 : Int), r.2)

/-- `%[^c]` of `scanf`: at least one character, up to the first `c`. -/
def scanNot (c : Char) (s : Text) : Option (Text × Text) :=
  match s.takeWhile (· ≠ c) with
  | [] => none
  | a :: as => some (a :: as, s.dropWhile (· ≠ c))

/-- A character of the format that is no white space. -/
def scanChar (c : Char) : Text → Option Text
  | [] => none
  | a :: s => if a = c then some s else none

/-- The integers in a text `c%dc%d…`, at most `n` of them: `scanf` stops at the first that
does not match. -/
def scanInts (c : Char) : Nat → Text → List Int
  | 0, _ => []
  | n + 1, s =>
    match scanChar c s with
    | none => []
    | some s =>
      match scanInt s with
      | none => []
      | some (x, s) => x :: scanInts c n s

/-! ## Digits -/

theorem toNat_digitChar {d : Nat} (h : d < 10) : (digitChar d).toNat = 48 + d := by
  have hall : ∀ d < 10, (digitChar d).toNat = 48 + d := by decide
  exact hall d h

theorem isDigit_digitChar {d : Nat} (h : d < 10) : isDigit (digitChar d) = true := by
  unfold isDigit
  rw [toNat_digitChar h]
  simp
  omega

theorem digitValue_digitChar {d : Nat} (h : d < 10) : digitValue (digitChar d) = d := by
  unfold digitValue
  rw [toNat_digitChar h]
  omega

/-- Reading digits in the order they are written. -/
theorem digitsValue_reverse {ds : List Nat} (h : ∀ d ∈ ds, d < 10) :
    digitsValue (ds.reverse.map digitChar) = Nat.ofDigits 10 ds := by
  induction ds with
  | nil => rfl
  | cons d ds ih =>
    have hrest := ih fun e he => h e (List.mem_cons_of_mem d he)
    unfold digitsValue at hrest ⊢
    rw [List.reverse_cons, List.map_append, List.foldl_append, hrest, Nat.ofDigits_cons]
    simp only [List.map_cons, List.map_nil, List.foldl_cons, List.foldl_nil,
      digitValue_digitChar (h d List.mem_cons_self)]
    rw [Nat.add_comm]

theorem digitsValue_decimal (n : Nat) : digitsValue (decimal n) = n := by
  unfold decimal
  split
  · rename_i hn
    rw [hn]
    rfl
  · rw [digitsValue_reverse fun d hd => Nat.digits_lt_base (by decide) hd, Nat.ofDigits_digits]

theorem isDigit_decimal (n : Nat) : ∀ c ∈ decimal n, isDigit c = true := by
  intro c hc
  unfold decimal at hc
  split at hc
  · rw [List.mem_singleton.mp hc]
    rfl
  · obtain ⟨d, hd, rfl⟩ := List.mem_map.mp hc
    exact isDigit_digitChar (Nat.digits_lt_base (by decide) (List.mem_reverse.mp hd))

theorem decimal_ne_nil (n : Nat) : decimal n ≠ [] := by
  unfold decimal
  split
  · simp
  · rename_i hn
    simp [Nat.digits_eq_nil_iff_eq_zero, hn]

/-! ## Round trips -/

/-- What comes next is not read as another digit. -/
def NoDigit (rest : Text) : Prop := ∀ c s, rest = c :: s → isDigit c = false

theorem takeWhile_append {p : Char → Bool} {s rest : Text} (hs : ∀ c ∈ s, p c = true)
    (hr : ∀ c t, rest = c :: t → p c = false) :
    (s ++ rest).takeWhile p = s ∧ (s ++ rest).dropWhile p = rest := by
  rw [List.takeWhile_append_of_pos hs, List.dropWhile_append_of_pos hs]
  cases rest with
  | nil => exact ⟨List.append_nil s, rfl⟩
  | cons c t =>
    have hc := hr c t rfl
    simp [hc]

theorem scanNat_decimal (n : Nat) {rest : Text} (h : NoDigit rest) :
    scanNat (decimal n ++ rest) = some (n, rest) := by
  obtain ⟨h1, h2⟩ := takeWhile_append (isDigit_decimal n) h
  unfold scanNat
  rw [h1, h2]
  cases hd : decimal n with
  | nil => exact absurd hd (decimal_ne_nil n)
  | cons d ds =>
    dsimp only
    rw [← hd, digitsValue_decimal]

/-- A digit is neither white space nor a sign. -/
theorem isDigit_plain {c : Char} (h : isDigit c = true) :
    isSpace c = false ∧ c ≠ '-' ∧ c ≠ '+' := by
  have hc : 48 ≤ c.toNat ∧ c.toNat ≤ 57 := by simpa [isDigit] using h
  refine ⟨?_, ?_, ?_⟩
  · have hsp : c ≠ ' ' := by
      rintro rfl
      exact absurd hc.1 (by decide)
    simp [isSpace, hsp]
    omega
  · rintro rfl
    exact absurd hc.1 (by decide)
  · rintro rfl
    exact absurd hc.1 (by decide)

/-- **`scanf` reads the number that `printf` wrote.** -/
theorem scanInt_printInt (x : Int) {rest : Text} (h : NoDigit rest) :
    scanInt (printInt x ++ rest) = some (x, rest) := by
  unfold printInt
  split
  · rename_i hneg
    have hscan := scanNat_decimal x.natAbs h
    have habs : -(x.natAbs : Int) = x := by omega
    show (scanNat (decimal x.natAbs ++ rest)).map _ = _
    rw [hscan, Option.map_some, habs]
  · rename_i hpos
    have hscan := scanNat_decimal x.natAbs h
    have habs : (x.natAbs : Int) = x := by omega
    have hdigits := isDigit_decimal x.natAbs
    cases hd : decimal x.natAbs with
    | nil => exact absurd hd (decimal_ne_nil _)
    | cons d ds =>
      rw [hd] at hscan hdigits
      obtain ⟨hsp, hminus, hplus⟩ := isDigit_plain (hdigits d List.mem_cons_self)
      unfold scanInt
      rw [List.cons_append, List.dropWhile_cons, hsp]
      split
      · rename_i heq
        exact absurd (List.cons.inj heq).1 hminus
      · rename_i heq
        exact absurd (List.cons.inj heq).1 hplus
      · rw [if_neg (by simp), ← List.cons_append, hscan, Option.map_some, habs]

theorem scanNot_append {c : Char} {s rest : Text} (hs : s ≠ []) (hc : c ∉ s) :
    scanNot c (s ++ c :: rest) = some (s, c :: rest) := by
  obtain ⟨h1, h2⟩ := @takeWhile_append (· ≠ c) s (c :: rest)
    (fun a ha => by
      have hne : a ≠ c := fun heq => hc (heq ▸ ha)
      simpa using hne)
    (fun a t heq => by simp [(List.cons.inj heq).1.symm])
  unfold scanNot
  rw [h1, h2]
  cases s with
  | nil => exact absurd rfl hs
  | cons a as => rfl

/-- Integers behind separators, as `printf` writes them. -/
def printInts (c : Char) (xs : List Int) : Text := xs.flatMap fun x => c :: printInt x

/-- **A row of integers is read back**, to the end of the text. -/
theorem scanInts_printInts {c : Char} (hc : isDigit c = false) {n : Nat} {xs : List Int}
    (hn : xs.length = n) : scanInts c n (printInts c xs) = xs := by
  induction n generalizing xs with
  | zero =>
    rw [List.eq_nil_of_length_eq_zero hn]
    rfl
  | succ n ih =>
    cases xs with
    | nil => exact absurd hn (by simp)
    | cons x xs =>
      have hrest : NoDigit (printInts c xs) := by
        intro a s heq
        cases xs with
        | nil => exact absurd heq (by simp [printInts])
        | cons y ys =>
          rw [← (List.cons.inj heq).1]
          exact hc
      have hcons : printInts c (x :: xs) = c :: (printInt x ++ printInts c xs) := rfl
      rw [hcons, scanInts, scanChar, if_pos rfl]
      dsimp only
      rw [scanInt_printInt x hrest]
      dsimp only
      rw [ih (Nat.succ.inj hn)]

end Scan
