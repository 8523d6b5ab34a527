import Pint.Program.Grammar
import Pint.Proof.Lexing

/-!
# What the parser accepts

`Derives` and `Line` are the rules of the grammar. `statements_append` says that the statements
of a derivation are what the parser finds at the head of any text that begins with it, and
`line_or_broken` that a text is derived or broken. So the parser finds the statements of a
text that is derived (`statements_eq_iff`), and of any other it finds those in front of the
first line that is none, and the one that such a line begins with (`statements_broken_iff`).

That one statement more is the parser's doing: it reduces a statement as soon as it is whole, and
its action runs, before it has seen that the line goes on. `Broken.noEnd` is this case.

Which statement a list of tokens begins with is decided by the first four of them at most, so
there is one at most, and it is found (`Derives.statement_eq`, `derives_of_statement`). The rest
is an induction on the number of tokens, with the five cases of `Begins`: nothing, an empty line,
a statement with the end of its line or with something else behind it, or no statement.
-/

namespace Pint

open Scan (Text)

namespace Grammar

/-! ## The rules -/

/-- `VAR_NAME`, and `rep_name : START_VOTE VAR_NAME END_VOTE` -/
inductive Comp : List Token → CompName → Prop where
  | varName (name : Text) : Comp [.varName name] ⟨name, false⟩
  | repName (name : Text) : Comp [.startVote, .varName name, .endVote] ⟨name, true⟩

/-- `arrow : START_PIPE NAMED_OB END_PIPE` -/
def arrowTokens (str : Text) : List Token := [.startPipe, .namedOb str, .endPipe]

/-- `rep_strat : P_SMR | P_DMR | P_TMR` -/
inductive RepStrat : Token → Replication → Prop where
  | smr : RepStrat .pSmr .smr
  | dmr : RepStrat .pDmr .dmr
  | tmr : RepStrat .pTmr .tmr

/-- `declaration` and `relationship` -/
inductive Derives : List Token → Statement → Prop where
  | component (name value priority : Text) :
    Derives [.varName name, .assign, .namedOb value, .numberVal priority]
      (.component name value priority)
  | replicated (name value voterTimer priority : Text) {strat : Token} {r : Replication}
    (hr : RepStrat strat r) :
    Derives [.varName name, .assign, .startVote, .namedOb value, .endVote, strat, .delim,
      .numberVal voterTimer, .numberVal priority] (.replicated name value r voterTimer priority)
  | fromBench (str : Text) {w : List Token} {node : CompName} (hw : Comp w node) :
    Derives (.bench :: (arrowTokens str ++ w)) (.fromBench str node)
  | toBench (str : Text) {w : List Token} {node : CompName} (hw : Comp w node) :
    Derives (w ++ (arrowTokens str ++ [.bench])) (.toBench node str)
  | link (str : Text) {w w' : List Token} {a b : CompName} (hw : Comp w a) (hw' : Comp w' b) :
    Derives (w ++ (arrowTokens str ++ w')) (.link a str b)

/-- `line`, with the statements in it. -/
inductive Line : List Token → List Statement → Prop where
  | empty : Line [] []
  | statement {ts w : List Token} {ss : List Statement} {s : Statement} (hts : Line ts ss)
    (hw : Derives w s) : Line (ts ++ (w ++ [.eol])) (ss ++ [s])
  | eol {ts : List Token} {ss : List Statement} (hts : Line ts ss) : Line (ts ++ [.eol]) ss

/-- A text that is no `line`, with the statements whose actions run. -/
inductive Broken : List Token → List Statement → Prop where
  /-- Behind some lines there is something that no statement begins with. -/
  | noStatement {ts bad : List Token} {ss : List Statement} (hts : Line ts ss) (hne : bad ≠ [])
    (heol : bad.head? ≠ some .eol) (hbad : ∀ w s, Derives w s → ¬ w <+: bad) :
    Broken (ts ++ bad) ss
  /-- Behind some lines and a statement there is no end of the line. -/
  | noEnd {ts w rest : List Token} {ss : List Statement} {s : Statement} (hts : Line ts ss)
    (hw : Derives w s) (hrest : rest.head? ≠ some .eol) :
    Broken (ts ++ (w ++ rest)) (ss ++ [s])

/-! ## One statement -/

variable {ts w rest us : List Token} {s : Statement} {ss : List Statement} {node a b : CompName}
  {str : Text}

theorem Comp.compName (h : Comp w node) : compName (w ++ rest) = some (node, rest) := by
  cases h <;> rfl

theorem comp_of_compName (h : compName ts = some (node, rest)) :
    ∃ w, ts = w ++ rest ∧ Comp w node := by
  unfold Grammar.compName at h
  split at h
  · cases h
    exact ⟨_, rfl, .varName _⟩
  · cases h
    exact ⟨_, rfl, .repName _⟩
  · cases h

theorem arrow_append : arrow (arrowTokens str ++ rest) = some (str, rest) := rfl

theorem arrowTokens_of_arrow (h : arrow ts = some (str, rest)) : ts = arrowTokens str ++ rest := by
  unfold arrow at h
  split at h
  · cases h
    rfl
  · cases h

theorem relationship_comp (h : Comp w a) (us : List Token) :
    relationship (w ++ us) = (arrow us).bind fun r => target a r.1 r.2 := by
  cases h <;> rfl

theorem declaration_comp (h : Comp w a) (str : Text) (us : List Token) :
    declaration (w ++ (arrowTokens str ++ us)) = none := by
  cases h <;> rfl

theorem target_comp (h : Comp w b) : target a str (w ++ rest) = some (.link a str b, rest) := by
  cases h <;> rfl

/-- **A statement is found** in front of whatever follows it. -/
theorem Derives.statement_eq (h : Derives w s) : statement (w ++ rest) = some (s, rest) := by
  cases h with
  | component name value priority => rfl
  | replicated name value voterTimer priority hr => cases hr <;> rfl
  | @fromBench str w node hw =>
    have hnone : declaration (.bench :: (arrowTokens str ++ w) ++ rest) = none := rfl
    unfold statement
    rw [hnone]
    show relationship (.bench :: (arrowTokens str ++ w ++ rest)) = _
    rw [relationship, List.append_assoc, arrow_append]
    simp [hw.compName]
  | @toBench str w node hw =>
    unfold statement
    rw [List.append_assoc, List.append_assoc, declaration_comp hw, relationship_comp hw,
      arrow_append]
    rfl
  | @link str w w' a b hw hw' =>
    unfold statement
    rw [List.append_assoc, List.append_assoc, declaration_comp hw, relationship_comp hw,
      arrow_append]
    exact target_comp hw'

theorem derives_of_declaration (h : declaration ts = some (s, rest)) :
    ∃ w, ts = w ++ rest ∧ Derives w s := by
  unfold declaration at h
  split at h
  · cases h
    exact ⟨_, rfl, .component _ _ _⟩
  · rename_i name value strat voterTimer priority rest'
    obtain ⟨r, hr, heq⟩ := Option.map_eq_some_iff.mp h
    cases heq
    have hstrat : RepStrat strat r := by
      cases strat <;> cases hr
      · exact .smr
      · exact .dmr
      · exact .tmr
    exact ⟨_, rfl, .replicated name value voterTimer priority hstrat⟩
  · cases h

theorem derives_of_target (ha : Comp w a) (h : target a str us = some (s, rest)) :
    ∃ w', us = w' ++ rest ∧ Derives (w ++ (arrowTokens str ++ w')) s := by
  unfold target at h
  split at h
  · cases h
    exact ⟨[.bench], rfl, .toBench str ha⟩
  · obtain ⟨⟨b, rest'⟩, hb, heq⟩ := Option.map_eq_some_iff.mp h
    cases heq
    obtain ⟨w', rfl, hw'⟩ := comp_of_compName hb
    exact ⟨w', rfl, .link str ha hw'⟩

theorem derives_of_relationship (h : relationship ts = some (s, rest)) :
    ∃ w, ts = w ++ rest ∧ Derives w s := by
  unfold relationship at h
  split at h
  · simp only [Option.bind_eq_bind, Option.bind_eq_some_iff, Option.pure_def,
      Option.some.injEq, Prod.exists, Prod.mk.injEq] at h
    obtain ⟨str, us, hstr, node, rest', hnode, rfl, rfl⟩ := h
    obtain rfl := arrowTokens_of_arrow hstr
    obtain ⟨w, rfl, hw⟩ := comp_of_compName hnode
    exact ⟨_, by rw [List.cons_append, List.append_assoc], .fromBench str hw⟩
  · simp only [Option.bind_eq_bind, Option.bind_eq_some_iff, Prod.exists] at h
    obtain ⟨a, us, ha, str, us', hstr, htarget⟩ := h
    obtain ⟨w, rfl, hw⟩ := comp_of_compName ha
    obtain rfl := arrowTokens_of_arrow hstr
    obtain ⟨w', rfl, hderives⟩ := derives_of_target hw htarget
    exact ⟨_, by rw [List.append_assoc, List.append_assoc], hderives⟩

/-- **What is found is a statement**, and what is behind it. -/
theorem derives_of_statement (h : statement ts = some (s, rest)) :
    ∃ w, ts = w ++ rest ∧ Derives w s := by
  unfold statement at h
  cases hdecl : declaration ts with
  | some r =>
    rw [hdecl] at h
    cases h
    exact derives_of_declaration hdecl
  | none =>
    rw [hdecl] at h
    exact derives_of_relationship h

theorem statement_eq_none : statement ts = none ↔ ∀ w s, Derives w s → ¬ w <+: ts := by
  constructor
  · rintro hnone w s hw ⟨rest, rfl⟩
    rw [hw.statement_eq] at hnone
    cases hnone
  · intro h
    by_contra hsome
    obtain ⟨⟨s, rest⟩, hs⟩ := Option.ne_none_iff_exists'.mp hsome
    obtain ⟨w, rfl, hw⟩ := derives_of_statement hs
    exact h w s hw (List.prefix_append w rest)

/-- A statement does not begin with the end of a line. -/
theorem Derives.head (h : Derives w s) : ∃ t v, w = t :: v ∧ t ≠ .eol := by
  cases h with
  | component name value priority => exact ⟨_, _, rfl, by simp⟩
  | replicated name value voterTimer priority hr => exact ⟨_, _, rfl, by simp⟩
  | fromBench str hw => exact ⟨_, _, rfl, by simp⟩
  | toBench str hw => cases hw <;> exact ⟨_, _, rfl, by simp⟩
  | link str hw hw' => cases hw <;> exact ⟨_, _, rfl, by simp⟩

/-- An error is no statement of the grammar. -/
theorem Derives.ne_syntaxError (h : Derives w s) : s ≠ .syntaxError := by
  cases h <;> simp

/-! ## The lines of a text -/

/-- What a text begins with. -/
inductive Begins : List Token → Prop where
  | nil : Begins []
  | eol (rest : List Token) : Begins (.eol :: rest)
  | statement {w : List Token} {s : Statement} (hw : Derives w s) (rest : List Token) :
    Begins (w ++ .eol :: rest)
  | noEnd {w rest : List Token} {s : Statement} (hw : Derives w s)
    (hrest : rest.head? ≠ some .eol) : Begins (w ++ rest)
  | noStatement {ts : List Token} (hne : ts ≠ []) (heol : ts.head? ≠ some .eol)
    (hnone : statement ts = none) : Begins ts

theorem begins (ts : List Token) : Begins ts := by
  by_cases hne : ts = []
  · subst hne
    exact .nil
  by_cases heol : ts.head? = some .eol
  · obtain ⟨rest, rfl⟩ := List.head?_eq_some_iff.mp heol
    exact .eol rest
  cases hs : Grammar.statement ts with
  | none => exact .noStatement hne heol hs
  | some r =>
    obtain ⟨s, rest⟩ := r
    obtain ⟨w, rfl, hw⟩ := derives_of_statement hs
    by_cases hrest : rest.head? = some .eol
    · obtain ⟨rest, rfl⟩ := List.head?_eq_some_iff.mp hrest
      exact .statement hw rest
    · exact .noEnd hw hrest

section Lines

variable {n : Nat}

theorem lines_statement (hw : Derives w s) :
    lines (n + 1) (w ++ .eol :: rest) = s :: lines n rest := by
  have hs : statement (w ++ .eol :: rest) = _ := hw.statement_eq
  obtain ⟨t, v, rfl, ht⟩ := hw.head
  rw [List.cons_append] at hs ⊢
  cases t with
  | eol => exact absurd rfl ht
  | _ => simp only [lines, hs]

theorem lines_noEnd (hw : Derives w s) (hrest : rest.head? ≠ some .eol) :
    lines (n + 1) (w ++ rest) = [s, .syntaxError] := by
  have hs : statement (w ++ rest) = _ := hw.statement_eq
  obtain ⟨t, v, rfl, ht⟩ := hw.head
  rw [List.cons_append] at hs ⊢
  -- What is behind the statement is not `EOL`, so the third case of the parser is left.
  have hother : ∀ us, rest ≠ .eol :: us := fun us h => hrest (by rw [h]; rfl)
  cases t with
  | eol => exact absurd rfl ht
  | _ => simp only [lines, hs]

theorem lines_noStatement (hne : ts ≠ []) (heol : ts.head? ≠ some .eol)
    (hnone : statement ts = none) : lines (n + 1) ts = [.syntaxError] := by
  obtain ⟨t, v, rfl⟩ := List.exists_cons_of_ne_nil hne
  cases t with
  | eol => exact absurd rfl heol
  | _ => simp only [lines, hnone]

/-- As many turns as there are tokens are enough. -/
theorem lines_enough {m : Nat} (hn : ts.length ≤ n) (hm : ts.length ≤ m) :
    lines n ts = lines m ts := by
  induction n generalizing ts m with
  | zero =>
    obtain rfl := List.eq_nil_of_length_eq_zero (Nat.le_zero.mp hn)
    cases m <;> rfl
  | succ n ih =>
    cases m with
    | zero =>
      obtain rfl := List.eq_nil_of_length_eq_zero (Nat.le_zero.mp hm)
      rfl
    | succ m =>
      cases begins ts with
      | nil => rfl
      | eol rest =>
        rw [List.length_cons] at hn hm
        exact ih (by omega) (by omega)
      | statement hw rest =>
        rw [List.length_append, List.length_cons] at hn hm
        rw [lines_statement hw, lines_statement hw, ih (m := m) (by omega) (by omega)]
      | noEnd hw hrest => rw [lines_noEnd hw hrest, lines_noEnd hw hrest]
      | noStatement hne heol hnone =>
        rw [lines_noStatement hne heol hnone, lines_noStatement hne heol hnone]

end Lines

@[simp] theorem statements_nil : statements [] = [] := rfl

@[simp] theorem statements_eol : statements (.eol :: ts) = statements ts := rfl

theorem statements_statement (hw : Derives w s) :
    statements (w ++ .eol :: rest) = s :: statements rest := by
  unfold statements
  rw [List.length_append, List.length_cons, ← Nat.add_assoc, lines_statement hw,
    lines_enough (m := rest.length) (by omega) (Nat.le_refl _)]

theorem statements_noEnd (hw : Derives w s) (hrest : rest.head? ≠ some .eol) :
    statements (w ++ rest) = [s, .syntaxError] := by
  obtain ⟨t, v, rfl, ht⟩ := hw.head
  exact lines_noEnd hw hrest

theorem statements_noStatement (hne : ts ≠ []) (heol : ts.head? ≠ some .eol)
    (hnone : statement ts = none) : statements ts = [.syntaxError] := by
  obtain ⟨t, v, rfl⟩ := List.exists_cons_of_ne_nil hne
  exact lines_noStatement hne heol hnone

/-- **Lines are read to their end**, whatever follows them. -/
theorem statements_append (h : Line ts ss) (us : List Token) :
    statements (ts ++ us) = ss ++ statements us := by
  induction h generalizing us with
  | empty => rfl
  | statement _ hw ih =>
    rw [List.append_assoc, List.append_assoc, ih, List.singleton_append, statements_statement hw,
      List.append_assoc, List.singleton_append]
  | eol _ ih =>
    rw [List.append_assoc, List.singleton_append, ih, statements_eol]

theorem Line.statements_eq (h : Line ts ss) : statements ts = ss := by
  have := statements_append h []
  rwa [List.append_nil, statements_nil, List.append_nil] at this

theorem Line.no_error (h : Line ts ss) : .syntaxError ∉ ss := by
  induction h with
  | empty => exact List.not_mem_nil
  | statement _ hw ih =>
    rw [List.mem_append, List.mem_singleton]
    exact fun hmem => hmem.elim ih fun heq => hw.ne_syntaxError heq.symm
  | eol _ ih => exact ih

theorem Broken.statements_eq (h : Broken ts ss) : statements ts = ss ++ [.syntaxError] := by
  cases h with
  | noStatement hts hne heol hbad =>
    rw [statements_append hts, statements_noStatement hne heol (statement_eq_none.mpr hbad)]
  | noEnd hts hw hrest =>
    rw [statements_append hts, statements_noEnd hw hrest, List.append_assoc]
    rfl

/-- Lines behind lines. -/
theorem Line.append {us : List Token} {ss' : List Statement} (h : Line ts ss) (h' : Line us ss') :
    Line (ts ++ us) (ss ++ ss') := by
  induction h' with
  | empty =>
    rw [List.append_nil, List.append_nil]
    exact h
  | statement _ hw ih =>
    have hnext := Line.statement ih hw
    rw [List.append_assoc, List.append_assoc] at hnext
    exact hnext
  | eol _ ih =>
    rw [← List.append_assoc]
    exact .eol ih

theorem Broken.append {us : List Token} {ss' : List Statement} (h : Line ts ss)
    (h' : Broken us ss') : Broken (ts ++ us) (ss ++ ss') := by
  cases h' with
  | noStatement hts hne heol hbad =>
    rw [← List.append_assoc]
    exact .noStatement (h.append hts) hne heol hbad
  | noEnd hts hw hrest =>
    have hnext := Broken.noEnd (h.append hts) hw hrest
    rw [List.append_assoc, List.append_assoc] at hnext
    exact hnext

/-- **Every text is derived or broken.** -/
theorem line_or_broken (ts : List Token) : (∃ ss, Line ts ss) ∨ ∃ ss, Broken ts ss := by
  induction hlen : ts.length using Nat.strongRecOn generalizing ts with
  | ind n ih =>
    cases begins ts with
    | nil => exact .inl ⟨_, .empty⟩
    | eol rest =>
      have hline : Line [.eol] [] := .eol .empty
      rw [List.length_cons] at hlen
      rcases ih rest.length (by omega) rest rfl with ⟨ss, h⟩ | ⟨ss, h⟩
      · exact .inl ⟨_, hline.append h⟩
      · exact .inr ⟨_, .append hline h⟩
    | @statement w s hw rest =>
      have hline : Line (w ++ [.eol]) [s] := .statement .empty hw
      rw [List.length_append, List.length_cons] at hlen
      rw [List.append_cons]
      rcases ih rest.length (by omega) rest rfl with ⟨ss, h⟩ | ⟨ss, h⟩
      · exact .inl ⟨_, hline.append h⟩
      · exact .inr ⟨_, .append hline h⟩
    | noEnd hw hrest => exact .inr ⟨_, .noEnd .empty hw hrest⟩
    | noStatement hne heol hnone =>
      exact .inr ⟨_, .noStatement .empty hne heol (statement_eq_none.mp hnone)⟩

/-- **The parser finds the statements of a derivation, and nothing else is read to its end.** -/
theorem statements_eq_iff :
    statements ts = ss ∧ .syntaxError ∉ ss ↔ Line ts ss := by
  constructor
  · rintro ⟨rfl, hno⟩
    rcases line_or_broken ts with ⟨ss, h⟩ | ⟨ss, h⟩
    · rw [h.statements_eq]
      exact h
    · rw [h.statements_eq] at hno
      exact absurd (List.mem_append_right ss List.mem_cons_self) hno
  · exact fun h => ⟨h.statements_eq, h.no_error⟩

/-- **What is found in a text that is broken.** -/
theorem statements_broken_iff : statements ts = ss ++ [.syntaxError] ↔ Broken ts ss := by
  constructor
  · intro heq
    rcases line_or_broken ts with ⟨ss', h⟩ | ⟨ss', h⟩
    · rw [h.statements_eq] at heq
      exact absurd (heq ▸ List.mem_append_right ss List.mem_cons_self) h.no_error
    · rw [h.statements_eq] at heq
      rw [← List.append_cancel_right heq]
      exact h
  · exact Broken.statements_eq

/-! ## Texts -/

/-- **What the plumber reads in a configuration.** For every text: the statements are read to
its end if and only if it lays out the tokens of lines with these statements. And an error ends
them if and only if the tokens are broken behind these statements. -/
theorem config_is_read (text : Text) (ss : List Statement) :
    (statements (Lexer.yylex text) = ss ∧ .syntaxError ∉ ss
      ↔ ∃ ts, Lexer.Lays ts text ∧ Line ts ss) ∧
    (statements (Lexer.yylex text) = ss ++ [.syntaxError]
      ↔ ∃ ts, Lexer.Lays ts text ∧ Broken ts ss) := by
  constructor
  · rw [statements_eq_iff]
    constructor
    · exact fun h => ⟨_, Lexer.yylex_eq_iff.mp rfl, h⟩
    · rintro ⟨ts, htext, h⟩
      rw [Lexer.yylex_eq_iff.mpr htext]
      exact h
  · rw [statements_broken_iff]
    constructor
    · exact fun h => ⟨_, Lexer.yylex_eq_iff.mp rfl, h⟩
    · rintro ⟨ts, htext, h⟩
      rw [Lexer.yylex_eq_iff.mpr htext]
      exact h

end Grammar

end Pint
