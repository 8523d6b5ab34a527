import Pint.Program.Lexer

/-!
# What the scanner reads

`Lays ts s` says when the text `s` is a layout of the tokens `ts`: the tokens in their own
spelling, none followed by a character that would belong to it, with white space, comments and
stray characters between them. `yylex_eq_iff`: the scanner returns exactly the tokens that the
text is a layout of.

The scanner takes the longest text that some rule accepts, and of the rules that accept it the
first (`Lib.MaximalMunch`). So there are two questions for each kind of token. Where does its
text end? A text that some rule accepts is all that is taken if no accepted text goes on with the
next character (`longest_cons`), and which texts are accepted can be read off their first
character (`accepted_cons`). And which rule gets it? The keywords stand in front of the patterns,
and no two patterns accept the same text (`find_spelling`).

Both directions of the result are then inductions, one over the layout and one over the pieces
that the scanner has cut. A character that begins nothing is a piece too, of the last rule; the
scanner prints it and goes on, so texts with stray characters are layouts like any others.
-/

namespace Pint

open MaximalMunch (Rule Lexeme Scans Longest accepted)
open Scan (Text isDigit)

namespace Lexer

/-! ## Layouts -/

/-- The texts that are keywords, so no `NAMED_OB`. -/
def keywords : List Text := ["Bench".toList, "SMR".toList, "DMR".toList, "TMR".toList]

/-- How a token is written; an `EOL` may be a comment instead. -/
def spelling : Token → Text
  | .bench => "Bench".toList
  | .pSmr => "SMR".toList
  | .pDmr => "DMR".toList
  | .pTmr => "TMR".toList
  | .startPipe => "--".toList
  | .endPipe => "->".toList
  | .startVote => "(".toList
  | .endVote => ")".toList
  | .assign => ":=".toList
  | .delim => ",".toList
  | .varName s => s
  | .namedOb s => s
  | .numberVal s => s
  | .eol => "\n".toList

/-- The text of a token is one that it can have. -/
def Legal : Token → Prop
  | .varName s => isName isLower s = true
  | .namedOb s => isName isUpper s = true ∧ s ∉ keywords
  | .numberVal s => isNumber s = true
  | _ => True

/-- The character would belong to the token in front of it. -/
def goesOn : Token → Char → Bool
  | .bench | .pSmr | .pDmr | .pTmr | .varName _ | .namedOb _ => isLetter
  | .numberVal _ => isDigit
  | _ => fun _ => false

/-- A token, white space or a comment begins with the character. -/
def begins (c : Char) (behind : Option Char) : Bool :=
  c ∈ [' ', '\t', '\r', '\n', '(', ')', ','] || isDigit c
    || (isLower c || isUpper c) && behind.any isLetter
    || c = '-' && behind.any (fun d => d = '-' || d = '>' || isDigit d)
    || c = ':' && behind = some '='
    || c = '/' && behind = some '/'

/-- The tokens as they may stand in a text. -/
inductive Lays : List Token → Text → Prop where
  | nil : Lays [] []
  | blank {c : Char} {ts : List Token} {s : Text} (hc : isBlank [c] = true) (hs : Lays ts s) :
    Lays ts (c :: s)
  | token {t : Token} {ts : List Token} {s : Text} (ht : Legal t)
    (hend : ∀ c ∈ s.head?, goesOn t c = false) (hs : Lays ts s) :
    Lays (t :: ts) (spelling t ++ s)
  | comment {w : Text} {ts : List Token} {s : Text} (hw : '\n' ∉ w)
    (hend : ∀ c ∈ s.head?, c = '\n') (hs : Lays ts s) :
    Lays (.eol :: ts) ('/' :: '/' :: w ++ s)
  /-- A mystery character. -/
  | stray {c : Char} {ts : List Token} {s : Text} (hc : begins c s.head? = false)
    (hs : Lays ts s) : Lays ts (c :: s)

/-! ## Which texts some rule accepts -/

/-- The texts of the rules in front of the patterns. -/
def fixed : List Text :=
  [[' '], ['\t'], ['\r']] ++ keywords
    ++ ["--".toList, "->".toList, "(".toList, ")".toList, ":=".toList, ",".toList]

theorem accepted_iff (w : Text) :
    accepted rules w = true ↔ w ∈ fixed ∨ isName isLower w = true ∨ isName isUpper w = true
      ∨ isNumber w = true ∨ isComment w = true ∨ w = "\n".toList ∨ isAny w = true := by
  simp only [accepted, rules, List.any_cons, List.any_nil, literal, copied, isBlank, fixed,
    keywords, Bool.or_eq_true, decide_eq_true_eq, List.cons_append, List.nil_append,
    List.mem_cons, List.not_mem_nil, or_false, or_assoc, Bool.false_eq_true]

theorem isName_of_keyword : ∀ w ∈ keywords, isName isUpper w = true := by decide

theorem isName_cons {first : Char → Bool} {a : Char} {t : Text} :
    isName first (a :: t) = true ↔ first a = true ∧ t ≠ [] ∧ ∀ c ∈ t, isLetter c = true := by
  simp [isName, and_assoc]

theorem isNumber_cons {a : Char} {t : Text} :
    isNumber (a :: t) = true ↔
      a = '-' ∧ isDigits t = true ∨ isDigit a = true ∧ ∀ c ∈ t, isDigit c = true := by
  unfold isNumber
  split
  · rename_i heq
    cases heq
    simp [isDigit]
  · rename_i hne
    have hdash : a ≠ '-' := fun h => hne t (by rw [h])
    simp [isDigits, hdash]

theorem isComment_cons {a : Char} {t : Text} :
    isComment (a :: t) = true ↔ a = '/' ∧ ∃ u, t = '/' :: u ∧ '\n' ∉ u := by
  unfold isComment
  split
  · rename_i heq
    cases heq
    simp only [List.all_eq_true, decide_eq_true_eq, List.cons.injEq, true_and, exists_eq_left']
    exact ⟨fun h hmem => h _ hmem rfl, fun h c hc heq => h (heq ▸ hc)⟩
  · rename_i hne
    simp only [Bool.false_eq_true, false_iff, not_and, not_exists]
    rintro rfl u rfl
    exact absurd rfl (hne u)

theorem isAny_cons {a : Char} {t : Text} : isAny (a :: t) = true ↔ a ≠ '\n' ∧ t = [] := by
  cases t <;> simp [isAny]

theorem accepted_single (a : Char) : accepted rules [a] = true := by
  by_cases hline : a = '\n'
  · subst hline
    decide
  · have hany : isAny [a] = true := isAny_cons.mpr ⟨hline, rfl⟩
    exact (accepted_iff _).mpr (.inr (.inr (.inr (.inr (.inr (.inr hany))))))

/-- What the texts look like that some rule accepts. -/
theorem accepted_cons (a : Char) (t : Text) :
    accepted rules (a :: t) = true ↔ t = []
      ∨ a = '-' ∧ (t = ['-'] ∨ t = ['>'] ∨ isDigits t = true)
      ∨ a = ':' ∧ t = ['=']
      ∨ (isLower a = true ∨ isUpper a = true) ∧ (∀ c ∈ t, isLetter c = true)
      ∨ isDigit a = true ∧ (∀ c ∈ t, isDigit c = true)
      ∨ a = '/' ∧ ∃ u, t = '/' :: u ∧ '\n' ∉ u := by
  constructor
  · rw [accepted_iff, isName_cons, isName_cons, isNumber_cons, isComment_cons, isAny_cons]
    -- Rule by rule, in the order of the file.
    rintro (hfixed | hname | hname | hnumber | hcomment | hline | hany)
    · simp only [fixed, List.mem_append, or_assoc] at hfixed
      rcases hfixed with hblank | hkey | hfixed
      · simp at hblank
        grind
      · have := isName_cons.mp (isName_of_keyword _ hkey)
        grind
      · simp at hfixed
        grind
    · grind
    · grind
    · grind
    · grind
    · cases hline
      exact .inl rfl
    · exact .inl hany.2
  · by_cases ht : t = []
    · rw [ht]
      exact fun _ => accepted_single a
    · rw [accepted_iff, isName_cons, isName_cons, isNumber_cons, isComment_cons]
      rintro (hnil | ⟨rfl, rfl | rfl | hdigits⟩ | ⟨rfl, rfl⟩ | hletters | hdigits | hcomment)
      · exact absurd hnil ht
      · exact .inl (by decide)
      · exact .inl (by decide)
      · grind
      · exact .inl (by decide)
      · grind
      · grind
      · exact .inr (.inr (.inr (.inr (.inl hcomment))))

/-- No rule stops the scanner. -/
theorem rules_total : MaximalMunch.Total rules := accepted_single

/-! ## Where a piece ends -/

/-- A text that some rule accepts is all that the scanner takes, if it does not go on with the
next character. -/
theorem longest_cons {a : Char} {t rest : Text} (hacc : accepted rules (a :: t) = true)
    (hstop : ∀ c u, rest = c :: u → ∀ v, accepted rules (a :: (t ++ c :: v)) = false) :
    Longest rules (a :: t) rest := by
  refine Longest.of_head (List.cons_ne_nil _ _) hacc ?_
  rintro c v ⟨u, hu⟩
  exact hstop c (v ++ u) hu.symm v

/-- Something that is longer than a character begins with the two. -/
def Joins (a c : Char) : Prop :=
  a = '-' ∧ (c = '-' ∨ c = '>' ∨ isDigit c = true)
    ∨ a = ':' ∧ c = '='
    ∨ (isLower a = true ∨ isUpper a = true) ∧ isLetter c = true
    ∨ isDigit a = true ∧ isDigit c = true
    ∨ a = '/' ∧ c = '/'

theorem accepted_pair {a c : Char} (h : Joins a c) : accepted rules [a, c] = true := by
  rw [accepted_cons]
  simp only [isDigits, List.mem_singleton, forall_eq]
  rcases h with ⟨rfl, rfl | rfl | hc⟩ | ⟨rfl, rfl⟩ | hletter | hdigit | ⟨rfl, rfl⟩
  · simp
  · simp
  · simp [hc]
  · simp
  · exact .inr (.inr (.inr (.inl hletter)))
  · exact .inr (.inr (.inr (.inr (.inl hdigit))))
  · simp

/-- A single character that begins nothing longer with the one behind it. -/
theorem longest_single {a : Char} {rest : Text} (hstop : ∀ c ∈ rest.head?, ¬ Joins a c) :
    Longest rules [a] rest := by
  refine longest_cons (accepted_single a) ?_
  rintro c u rfl v
  have hc := hstop c rfl
  rw [List.nil_append, Bool.eq_false_iff, ne_eq, accepted_cons]
  rintro (hnil | ⟨rfl, hv | hv | hv⟩ | ⟨rfl, hv⟩ | ⟨ha, hv⟩ | ⟨ha, hv⟩ | ⟨rfl, w, hv, -⟩)
  · cases hnil
  · cases hv
    exact hc (.inl ⟨rfl, .inl rfl⟩)
  · cases hv
    exact hc (.inl ⟨rfl, .inr (.inl rfl)⟩)
  · have hdigit : isDigit c = true := by
      simp only [isDigits, List.all_cons, Bool.and_eq_true] at hv
      exact hv.2.1
    exact hc (.inl ⟨rfl, .inr (.inr hdigit)⟩)
  · cases hv
    exact hc (.inr (.inl ⟨rfl, rfl⟩))
  · exact hc (.inr (.inr (.inl ⟨ha, hv c List.mem_cons_self⟩)))
  · exact hc (.inr (.inr (.inr (.inl ⟨ha, hv c List.mem_cons_self⟩))))
  · cases hv
    exact hc (.inr (.inr (.inr (.inr ⟨rfl, rfl⟩))))

/-- A character that nothing longer begins with. -/
theorem longest_alone {a : Char} {rest : Text}
    (ha : a ∈ [' ', '\t', '\r', '\n', '(', ')', ',']) : Longest rules [a] rest := by
  refine longest_single fun c _ => ?_
  simp only [List.mem_cons, List.not_mem_nil, or_false] at ha
  rcases ha with rfl | rfl | rfl | rfl | rfl | rfl | rfl <;>
    simp [Joins, isLower, isUpper, isDigit]

theorem digit_not_letter {c : Char} (h : isDigit c = true) :
    isLower c = false ∧ isUpper c = false ∧ c ∉ ['-', ':', '/'] := by
  simp only [isDigit, isLower, isUpper, Bool.and_eq_true, decide_eq_true_eq, Bool.and_eq_false_iff,
    decide_eq_false_iff_not, Char.reduceToNat] at *
  refine ⟨by omega, by omega, ?_⟩
  intro hmem
  simp only [List.mem_cons, List.not_mem_nil, or_false] at hmem
  rcases hmem with rfl | rfl | rfl <;> simp at h

theorem letter_not_sign {c : Char} (h : isLower c = true ∨ isUpper c = true) :
    c ∉ ['-', ':', '/'] := by
  intro hmem
  simp only [List.mem_cons, List.not_mem_nil, or_false] at hmem
  rcases hmem with rfl | rfl | rfl <;> revert h <;> decide

theorem longest_word {w rest : Text} (hw : isName isLower w = true ∨ isName isUpper w = true)
    (hend : ∀ c ∈ rest.head?, isLetter c = false) : Longest rules w rest := by
  cases w with
  | nil => simp [isName] at hw
  | cons a t =>
    have hword : (isLower a = true ∨ isUpper a = true) ∧ ∀ c ∈ t, isLetter c = true := by
      rw [isName_cons, isName_cons] at hw
      rcases hw with ⟨ha, _, hall⟩ | ⟨ha, _, hall⟩
      · exact ⟨.inl ha, hall⟩
      · exact ⟨.inr ha, hall⟩
    refine longest_cons ((accepted_cons a t).mpr (.inr (.inr (.inr (.inl hword))))) ?_
    rintro c u rfl v
    have hsign := letter_not_sign hword.1
    have hmem : c ∈ t ++ c :: v := List.mem_append_right _ List.mem_cons_self
    rw [Bool.eq_false_iff, ne_eq, accepted_cons]
    rintro (hnil | ⟨rfl, _⟩ | ⟨rfl, _⟩ | ⟨_, hv⟩ | ⟨ha, _⟩ | ⟨rfl, _⟩)
    · exact absurd hnil (List.append_ne_nil_of_right_ne_nil _ (List.cons_ne_nil _ _))
    · exact hsign (by decide)
    · exact hsign (by decide)
    · exact Bool.false_ne_true ((hend c rfl).symm.trans (hv c hmem))
    · obtain ⟨hl, hu, _⟩ := digit_not_letter ha
      rw [hl, hu] at hword
      simp at hword
    · exact hsign (by decide)

theorem longest_number {w rest : Text} (hw : isNumber w = true)
    (hend : ∀ c ∈ rest.head?, isDigit c = false) : Longest rules w rest := by
  cases w with
  | nil => simp [isNumber, isDigits] at hw
  | cons a t =>
    have hacc : accepted rules (a :: t) = true := (accepted_iff _).mpr
      (.inr (.inr (.inr (.inl hw))))
    refine longest_cons hacc ?_
    rintro c u rfl v
    have hmem : c ∈ t ++ c :: v := List.mem_append_right _ List.mem_cons_self
    have hno : ¬ ∀ d ∈ t ++ c :: v, isDigit d = true := fun hall =>
      Bool.false_ne_true ((hend c rfl).symm.trans (hall c hmem))
    have hsign : a = '-' ∧ t ≠ [] ∧ (∀ d ∈ t, isDigit d = true) ∨ isDigit a = true := by
      rw [isNumber_cons] at hw
      simp only [isDigits, Bool.and_eq_true, decide_eq_true_eq, List.all_eq_true] at hw
      rcases hw with ⟨ha, hne, hall⟩ | ⟨ha, _⟩
      · exact .inl ⟨ha, hne, hall⟩
      · exact .inr ha
    rw [Bool.eq_false_iff, ne_eq, accepted_cons]
    rintro (hnil | ⟨ha, hv⟩ | ⟨ha, _⟩ | ⟨ha, _⟩ | ⟨_, hv⟩ | ⟨ha, _⟩)
    · exact absurd hnil (List.append_ne_nil_of_right_ne_nil _ (List.cons_ne_nil _ _))
    · -- The digits behind the sign do not stop.
      rcases hsign with ⟨_, hne, hall⟩ | hdigit
      · obtain ⟨b, t, rfl⟩ := List.exists_cons_of_ne_nil hne
        rcases hv with hv | hv | hv
        · exact absurd hv (by simp)
        · exact absurd hv (by simp)
        · simp only [isDigits, Bool.and_eq_true, List.all_eq_true] at hv
          exact hno hv.2
      · rw [ha] at hdigit
        exact absurd hdigit (by decide)
    · subst ha
      exact absurd hsign (by simp [isDigit])
    · rcases hsign with ⟨rfl, _⟩ | hdigit
      · exact absurd ha (by decide)
      · obtain ⟨hl, hu, _⟩ := digit_not_letter hdigit
        rw [hl, hu] at ha
        simp at ha
    · exact hno hv
    · subst ha
      exact absurd hsign (by simp [isDigit])

/-- The signs of two characters. -/
theorem longest_pair {w rest : Text} (hw : w ∈ [['-', '-'], ['-', '>'], [':', '=']]) :
    Longest rules w rest := by
  simp only [List.mem_cons, List.not_mem_nil, or_false] at hw
  rcases hw with rfl | rfl | rfl
  all_goals
    refine longest_cons (by decide) ?_
    rintro c u rfl v
    rw [Bool.eq_false_iff, ne_eq, accepted_cons]
    simp [isLower, isUpper, isDigit, isDigits]

theorem longest_comment {w rest : Text} (hw : '\n' ∉ w) (hend : ∀ c ∈ rest.head?, c = '\n') :
    Longest rules ('/' :: '/' :: w) rest := by
  have hcomment : isComment ('/' :: '/' :: w) = true := isComment_cons.mpr ⟨rfl, w, rfl, hw⟩
  refine longest_cons ((accepted_iff _).mpr (.inr (.inr (.inr (.inr (.inl hcomment)))))) ?_
  rintro c u rfl v
  obtain rfl := hend c rfl
  rw [Bool.eq_false_iff, ne_eq, accepted_cons]
  simp [isLower, isUpper, isDigit]

theorem longest_spelling {t : Token} {rest : Text} (ht : Legal t)
    (hend : ∀ c ∈ rest.head?, goesOn t c = false) : Longest rules (spelling t) rest := by
  cases t with
  | bench => exact longest_word (.inr (by decide)) hend
  | pSmr => exact longest_word (.inr (by decide)) hend
  | pDmr => exact longest_word (.inr (by decide)) hend
  | pTmr => exact longest_word (.inr (by decide)) hend
  | startPipe => exact longest_pair (by decide)
  | endPipe => exact longest_pair (by decide)
  | assign => exact longest_pair (by decide)
  | startVote => exact longest_alone (by decide)
  | endVote => exact longest_alone (by decide)
  | delim => exact longest_alone (by decide)
  | eol => exact longest_alone (by decide)
  | varName s => exact longest_word (.inl ht) hend
  | namedOb s => exact longest_word (.inr ht.1) hend
  | numberVal s => exact longest_number ht hend

/-! ## Which rule is taken -/

theorem not_pattern_of_fixed : ∀ w ∈ fixed, isName isLower w = false ∧ isNumber w = false
    ∧ isComment w = false ∧ (isName isUpper w = true → w ∈ keywords) := by decide

/-- No rule in front of the patterns is taken for a text that is not one of theirs. -/
theorem find_pattern {w : Text} (h : w ∉ fixed) :
    rules.find? (fun r => r.accepts w) = (rules.drop 11).find? fun r => r.accepts w := by
  have hfront : (rules.take 11).find? (fun r => r.accepts w) = none := by
    rw [List.find?_eq_none]
    intro r hr hacc
    apply h
    simp only [rules, List.take_succ_cons, List.take_zero, List.mem_cons, List.not_mem_nil,
      or_false] at hr
    rcases hr with rfl | rfl | rfl | rfl | rfl | rfl | rfl | rfl | rfl | rfl | rfl
    · simp only [isBlank, Bool.or_eq_true, decide_eq_true_eq, or_assoc] at hacc
      rcases hacc with rfl | rfl | rfl <;> decide
    all_goals
      obtain rfl := of_decide_eq_true hacc
      decide
  rw [← List.take_append_drop 11 rules, List.find?_append, hfront, Option.none_or]
  rfl

theorem drop_rules : rules.drop 11 = [copied (isName isLower) .varName,
    copied (isName isUpper) .namedOb, copied isNumber .numberVal,
    { accepts := isComment, action := fun _ => .return .eol }, literal "\n" .eol,
    { accepts := isAny, action := .mystery }] := rfl

theorem lower_ne_upper {c : Char} (h : isLower c = true) : isUpper c = false := by
  simp only [isLower, isUpper, Bool.and_eq_true, decide_eq_true_eq, Bool.and_eq_false_iff,
    decide_eq_false_iff_not, Char.reduceToNat] at *
  omega

theorem not_lower_name {w : Text} (h : isName isUpper w = true) : isName isLower w = false := by
  cases w with
  | nil => rfl
  | cons a t =>
    rw [Bool.eq_false_iff, ne_eq, isName_cons]
    rintro ⟨ha, _⟩
    exact Bool.false_ne_true ((lower_ne_upper ha).symm.trans (isName_cons.mp h).1)

theorem not_name_of_number {w : Text} (h : isNumber w = true) :
    isName isLower w = false ∧ isName isUpper w = false := by
  cases w with
  | nil => exact ⟨rfl, rfl⟩
  | cons a t =>
    have hletter : isLower a = false ∧ isUpper a = false := by
      rcases isNumber_cons.mp h with ⟨rfl, _⟩ | ⟨ha, _⟩
      · decide
      · exact ⟨(digit_not_letter ha).1, (digit_not_letter ha).2.1⟩
    simp [isName, hletter]

theorem find_spelling {t : Token} (ht : Legal t) :
    ∃ r, rules.find? (fun r => r.accepts (spelling t)) = some r
      ∧ r.action (spelling t) = .return t := by
  cases t with
  | varName s =>
    have hfixed : s ∉ fixed := fun hmem =>
      Bool.false_ne_true ((not_pattern_of_fixed s hmem).1.symm.trans ht)
    exact ⟨_, (find_pattern hfixed).trans (List.find?_cons_of_pos ht), rfl⟩
  | namedOb s =>
    have hfixed : s ∉ fixed := fun hmem => ht.2 ((not_pattern_of_fixed s hmem).2.2.2 ht.1)
    refine ⟨copied (isName isUpper) .namedOb, (find_pattern (w := s) hfixed).trans ?_, rfl⟩
    rw [drop_rules, List.find?_cons_of_neg (by simp [copied, not_lower_name ht.1])]
    exact List.find?_cons_of_pos ht.1
  | numberVal s =>
    have hfixed : s ∉ fixed := fun hmem =>
      Bool.false_ne_true ((not_pattern_of_fixed s hmem).2.1.symm.trans ht)
    obtain ⟨hlower, hupper⟩ := not_name_of_number ht
    refine ⟨copied isNumber .numberVal, (find_pattern (w := s) hfixed).trans ?_, rfl⟩
    rw [drop_rules, List.find?_cons_of_neg (by simp [copied, hlower]),
      List.find?_cons_of_neg (by simp [copied, hupper])]
    exact List.find?_cons_of_pos ht
  | _ => exact ⟨_, rfl, rfl⟩

/-- What a rule is taken for. -/
theorem find_cases {w : Text} {r : Rule Char LexAction}
    (h : rules.find? (fun r => r.accepts w) = some r) :
    isBlank w = true ∧ r.action w = .skip
      ∨ (∃ t, Legal t ∧ w = spelling t ∧ r.action w = .return t)
      ∨ isComment w = true ∧ r.action w = .return .eol
      ∨ isAny w = true ∧ w ∉ fixed ∧ isNumber w = false ∧ r.action w = .mystery w := by
  by_cases hfixed : w ∈ fixed
  · simp only [fixed, keywords, List.cons_append, List.nil_append, List.mem_cons,
      List.not_mem_nil, or_false] at hfixed
    -- A text that is spelled out in a rule is taken by that rule: it is the first that accepts it.
    rcases hfixed with rfl | rfl | rfl | rfl | rfl | rfl | rfl | rfl | rfl | rfl | rfl | rfl | rfl
    · exact .inl ⟨rfl, Option.some.inj h ▸ rfl⟩
    · exact .inl ⟨rfl, Option.some.inj h ▸ rfl⟩
    · exact .inl ⟨rfl, Option.some.inj h ▸ rfl⟩
    · exact .inr (.inl ⟨.bench, trivial, rfl, Option.some.inj h ▸ rfl⟩)
    · exact .inr (.inl ⟨.pSmr, trivial, rfl, Option.some.inj h ▸ rfl⟩)
    · exact .inr (.inl ⟨.pDmr, trivial, rfl, Option.some.inj h ▸ rfl⟩)
    · exact .inr (.inl ⟨.pTmr, trivial, rfl, Option.some.inj h ▸ rfl⟩)
    · exact .inr (.inl ⟨.startPipe, trivial, rfl, Option.some.inj h ▸ rfl⟩)
    · exact .inr (.inl ⟨.endPipe, trivial, rfl, Option.some.inj h ▸ rfl⟩)
    · exact .inr (.inl ⟨.startVote, trivial, rfl, Option.some.inj h ▸ rfl⟩)
    · exact .inr (.inl ⟨.endVote, trivial, rfl, Option.some.inj h ▸ rfl⟩)
    · exact .inr (.inl ⟨.assign, trivial, rfl, Option.some.inj h ▸ rfl⟩)
    · exact .inr (.inl ⟨.delim, trivial, rfl, Option.some.inj h ▸ rfl⟩)
  · have hkey : w ∉ keywords := fun hmem =>
      hfixed (List.mem_append_left _ (List.mem_append_right _ hmem))
    -- Any other text is left to the patterns, from the names down to the single character.
    rw [find_pattern hfixed, drop_rules] at h
    simp only [List.find?_cons] at h
    split at h
    · rename_i hname
      obtain rfl := Option.some.inj h
      exact .inr (.inl ⟨.varName w, hname, rfl, rfl⟩)
    split at h
    · rename_i hname
      obtain rfl := Option.some.inj h
      exact .inr (.inl ⟨.namedOb w, ⟨hname, hkey⟩, rfl, rfl⟩)
    split at h
    · rename_i hnumber
      obtain rfl := Option.some.inj h
      exact .inr (.inl ⟨.numberVal w, hnumber, rfl, rfl⟩)
    rename_i hnumber
    split at h
    · rename_i hcomment
      obtain rfl := Option.some.inj h
      exact .inr (.inr (.inl ⟨hcomment, rfl⟩))
    split at h
    · rename_i hline
      obtain rfl := Option.some.inj h
      exact .inr (.inl ⟨.eol, trivial, of_decide_eq_true hline, rfl⟩)
    split at h
    · rename_i hany
      obtain rfl := Option.some.inj h
      exact .inr (.inr (.inr ⟨hany, hfixed, hnumber, rfl⟩))
    cases h

/-- A character begins nothing with the text behind it. -/
theorem begins_eq_false {c : Char} {s : Text} : begins c s.head? = false ↔
    c ∉ [' ', '\t', '\r', '\n', '(', ')', ','] ∧ isDigit c = false
      ∧ ∀ d ∈ s.head?, ¬ Joins c d := by
  cases s with
  | nil => simp [begins]
  | cons d s =>
    simp only [begins, List.head?_cons, Option.any_some, Option.some.injEq, Bool.or_eq_false_iff,
      Bool.and_eq_false_iff, decide_eq_false_iff_not, Option.mem_def, forall_eq', Joins]
    cases isDigit c <;> cases isDigit d <;> cases isLower c <;> cases isUpper c <;>
      cases isLetter d <;> simp <;> grind

theorem find_stray {c : Char} {s : Text} (hc : begins c s.head? = false) :
    rules.find? (fun r => r.accepts [c]) = some ⟨isAny, .mystery⟩ := by
  obtain ⟨hmem, hdigit, _⟩ := begins_eq_false.mp hc
  have hfixed : [c] ∉ fixed := by
    intro h
    simp [fixed, keywords] at h
    simp only [List.mem_cons, List.not_mem_nil, or_false] at hmem
    grind
  have hnumber : isNumber [c] = false := by
    rw [Bool.eq_false_iff, ne_eq, isNumber_cons]
    simp [hdigit, isDigits]
  have hline : c ≠ '\n' := fun h => hmem (by rw [h]; decide)
  rw [find_pattern hfixed, drop_rules]
  simp [copied, hnumber, isName, isComment, literal, isAny, hline]

theorem find_comment {w : Text} (hw : '\n' ∉ w) :
    rules.find? (fun r => r.accepts ('/' :: '/' :: w))
      = some ⟨isComment, fun _ => .return .eol⟩ := by
  have hcomment : isComment ('/' :: '/' :: w) = true := isComment_cons.mpr ⟨rfl, w, rfl, hw⟩
  have hfixed : '/' :: '/' :: w ∉ fixed := fun hmem =>
    Bool.false_ne_true ((not_pattern_of_fixed _ hmem).2.2.1.symm.trans hcomment)
  have hnumber : isNumber ('/' :: '/' :: w) = false := by
    rw [Bool.eq_false_iff, ne_eq, isNumber_cons]
    simp [isDigit]
  rw [find_pattern hfixed, drop_rules]
  simp [copied, hnumber, hcomment, isName, isLower, isUpper]

/-! ## Whole texts -/

/-- The pieces of a layout. -/
theorem Lays.scans {ts : List Token} {s : Text} (h : Lays ts s) :
    ∃ xs, Scans rules s xs ∧ (xs.map Lexeme.value).filterMap token? = ts := by
  induction h with
  | nil => exact ⟨[], .nil, rfl⟩
  | @blank c ts s hc _ ih =>
    obtain ⟨xs, hxs, hts⟩ := ih
    have hmem : c ∈ [' ', '\t', '\r'] := by simpa [isBlank, or_assoc] using hc
    have hrule : rules.find? (fun r => r.accepts [c]) = some ⟨isBlank, fun _ => .skip⟩ :=
      List.find?_cons_of_pos hc
    have hlong : Longest rules [c] s := longest_alone (by
      simp only [List.mem_cons, List.not_mem_nil, or_false] at hmem ⊢
      grind)
    exact ⟨_, .cons hlong hrule hxs, hts⟩
  | @token t ts s ht hend _ ih =>
    obtain ⟨xs, hxs, hts⟩ := ih
    obtain ⟨r, hrule, haction⟩ := find_spelling ht
    refine ⟨_, .cons (longest_spelling ht hend) hrule hxs, ?_⟩
    simp [haction, token?, hts]
  | @comment w ts s hw hend _ ih =>
    obtain ⟨xs, hxs, hts⟩ := ih
    refine ⟨_, .cons (longest_comment hw hend) (find_comment hw) hxs, ?_⟩
    simp [token?, hts]
  | @stray c ts s hc _ ih =>
    obtain ⟨xs, hxs, hts⟩ := ih
    have hlong : Longest rules [c] s := longest_single (begins_eq_false.mp hc).2.2
    exact ⟨_, .cons hlong (find_stray hc) hxs, hts⟩

theorem accepted_word {w : Text} {c : Char}
    (hw : isName isLower w = true ∨ isName isUpper w = true) (hc : isLetter c = true) :
    accepted rules (w ++ [c]) = true := by
  cases w with
  | nil => simp [isName] at hw
  | cons a t =>
    rw [isName_cons, isName_cons] at hw
    refine (accepted_cons a _).mpr (.inr (.inr (.inr (.inl ⟨?_, ?_⟩))))
    · exact hw.imp And.left And.left
    · intro d hd
      rcases List.mem_append.mp hd with hd | hd
      · exact hw.elim (fun h => h.2.2 d hd) (fun h => h.2.2 d hd)
      · rw [List.mem_singleton.mp hd]
        exact hc

theorem accepted_number {w : Text} {c : Char} (hw : isNumber w = true) (hc : isDigit c = true) :
    accepted rules (w ++ [c]) = true := by
  refine (accepted_iff _).mpr (.inr (.inr (.inr (.inl ?_))))
  cases w with
  | nil => simp [isNumber, isDigits] at hw
  | cons a t =>
    rw [isNumber_cons] at hw
    rw [List.cons_append, isNumber_cons]
    simp only [isDigits, Bool.and_eq_true, decide_eq_true_eq, List.all_eq_true, List.mem_append,
      List.mem_singleton] at hw ⊢
    rcases hw with ⟨rfl, _, hall⟩ | ⟨ha, hall⟩
    · refine .inl ⟨rfl, List.append_ne_nil_of_right_ne_nil _ (List.cons_ne_nil _ _), ?_⟩
      rintro d (hd | rfl)
      · exact hall d hd
      · exact hc
    · refine .inr ⟨ha, ?_⟩
      rintro d (hd | rfl)
      · exact hall d hd
      · exact hc

theorem accepted_goesOn {t : Token} {c : Char} (ht : Legal t) (hc : goesOn t c = true) :
    accepted rules (spelling t ++ [c]) = true := by
  cases t with
  | bench => exact accepted_word (.inr (by decide)) hc
  | pSmr => exact accepted_word (.inr (by decide)) hc
  | pDmr => exact accepted_word (.inr (by decide)) hc
  | pTmr => exact accepted_word (.inr (by decide)) hc
  | varName s => exact accepted_word (.inl ht) hc
  | namedOb s => exact accepted_word (.inr ht.1) hc
  | numberVal s => exact accepted_number ht hc
  | _ => cases hc

/-- What is taken is not accepted with one more character. -/
theorem stops_head {w rest : Text} (hw : Longest rules w rest) {c : Char} (hc : c ∈ rest.head?) :
    accepted rules (w ++ [c]) = false := by
  cases rest with
  | nil => cases hc
  | cons d rest =>
    obtain rfl : d = c := Option.some.inj hc
    exact hw.stops [d] (List.cons_ne_nil _ _) ⟨rest, rfl⟩

/-- The tokens of the pieces are laid out in the text. -/
theorem lays_of_scans {xs : List (Lexeme Char LexAction)} {s : Text} (h : Scans rules s xs) :
    Lays ((xs.map Lexeme.value).filterMap token?) s := by
  induction h with
  | nil => exact .nil
  | @cons w rest r xs hw hr _ ih =>
    rw [List.map_cons]
    rcases find_cases hr with ⟨hblank, ha⟩ | ⟨t, ht, rfl, ha⟩ | ⟨hcomment, ha⟩ |
      ⟨hany, hfixed, hnumber, ha⟩
    · have hblank' : ∃ c, w = [c] := by
        simp only [isBlank, Bool.or_eq_true, decide_eq_true_eq, or_assoc] at hblank
        rcases hblank with rfl | rfl | rfl <;> exact ⟨_, rfl⟩
      obtain ⟨c, rfl⟩ := hblank'
      dsimp only
      rw [List.filterMap_cons, ha]
      exact .blank hblank ih
    · -- A token ends where no rule would go on, and that is what `Lays` asks.
      dsimp only
      rw [List.filterMap_cons, ha]
      refine .token ht (fun c hc => ?_) ih
      by_contra hgo
      exact Bool.false_ne_true ((stops_head hw hc).symm.trans
        (accepted_goesOn ht (eq_true_of_ne_false hgo)))
    · -- A comment goes on to the end of its line.
      obtain ⟨u, rfl, hu⟩ : ∃ u, w = '/' :: '/' :: u ∧ '\n' ∉ u := by
        cases w with
        | nil => cases hcomment
        | cons a t =>
          obtain ⟨rfl, u, rfl, hu⟩ := isComment_cons.mp hcomment
          exact ⟨u, rfl, hu⟩
      dsimp only
      rw [List.filterMap_cons, ha]
      refine .comment hu (fun c hc => ?_) ih
      by_contra hline
      have hacc : accepted rules ('/' :: '/' :: u ++ [c]) = true := by
        refine (accepted_cons _ _).mpr (.inr (.inr (.inr (.inr (.inr ⟨rfl, u ++ [c], rfl, ?_⟩)))))
        rw [List.mem_append, List.mem_singleton]
        exact fun h => h.elim hu fun h => hline h.symm
      exact Bool.false_ne_true ((stops_head hw hc).symm.trans hacc)
    · -- A stray character: nothing begins with it, and it is dropped.
      obtain ⟨c, rfl, hline⟩ : ∃ c, w = [c] ∧ c ≠ '\n' := by
        cases w with
        | nil => cases hany
        | cons c t =>
          obtain ⟨hline, rfl⟩ := isAny_cons.mp hany
          exact ⟨c, rfl, hline⟩
      dsimp only
      rw [List.filterMap_cons, ha]
      refine .stray (begins_eq_false.mpr ⟨?_, ?_, fun d hd hgo => ?_⟩) ih
      · intro hmem
        simp only [List.mem_cons, List.not_mem_nil, or_false] at hmem
        simp [fixed, keywords] at hfixed
        grind
      · have := hnumber
        rw [Bool.eq_false_iff, ne_eq, isNumber_cons] at this
        by_contra hdigit
        exact this (.inr ⟨eq_true_of_ne_false hdigit, by simp⟩)
      · exact Bool.false_ne_true ((stops_head hw hd).symm.trans (accepted_pair hgo))

/-- **Lines are laid out by themselves.** Nothing begins in one line and goes on in the next. -/
theorem Lays.line {ts us : List Token} {s t : Text} (h : Lays ts s) (h' : Lays us ('\n' :: t)) :
    Lays (ts ++ us) (s ++ '\n' :: t) := by
  have hhead : ∀ (s : Text) {P : Char → Prop}, P '\n' → (∀ c ∈ s.head?, P c) →
      ∀ c ∈ (s ++ '\n' :: t).head?, P c := by
    intro s P hline hs c hc
    cases s with
    | nil => exact Option.some.inj hc ▸ hline
    | cons d s => exact hs c hc
  induction h with
  | nil => exact h'
  | blank hc _ ih => exact .blank hc ih
  | @token t ts s ht hend _ ih =>
    rw [List.cons_append, List.append_assoc]
    refine .token ht (hhead s ?_ hend) ih
    cases t <;> rfl
  | @comment w ts s hw hend _ ih =>
    rw [List.cons_append, List.append_assoc]
    exact .comment hw (hhead s rfl hend) ih
  | @stray c ts s hc _ ih =>
    obtain ⟨hmem, hdigit, hjoins⟩ := begins_eq_false.mp hc
    refine .stray (begins_eq_false.mpr ⟨hmem, hdigit, hhead s ?_ hjoins⟩) ih
    unfold Joins
    simp [isDigit, isLetter, isLower, isUpper]

/-- **The scanner returns the tokens that the text is a layout of.** -/
theorem yylex_eq_iff {ts : List Token} {s : Text} : yylex s = ts ↔ Lays ts s := by
  constructor
  · rintro rfl
    exact lays_of_scans ((MaximalMunch.scan_eq_iff rules_total).mp rfl)
  · intro h
    obtain ⟨xs, hxs, hts⟩ := h.scans
    rw [← hts, yylex, actions, (MaximalMunch.scan_eq_iff rules_total).mpr hxs]

end Lexer

end Pint
