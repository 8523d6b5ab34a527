import Pint.Proof.Graph

/-!
# What a faulty configuration launches

The plumber prints an error and goes on, or stops and launches what there is by then, or follows
a pointer that is null. So a configuration with a faulty statement launches nothing only if
nothing was declared when the parser stopped, and before a declaration there is only one kind of
statement that does no harm: a relationship between components for which there is no pipe.

What was declared stays (`action_ne_nil`), and everything that stays is launched, also what is
printed as an error. So the question is whether the list is empty when the parser stops, and from
the empty list there is little that can happen: `Inert` lists it, statement by statement, and
`yyparse_nil_iff` is an induction along the configuration with the number of calls of `pipe` so
far, since it is their answers that decide. A relationship with the Bench follows the null
pointer even then.

This is the plumber with its list of nodes. In memory that is clean it is the one with the chain
of cells (`Plumbing.main_eq`).
-/

namespace Pint

open Prog Plumber
open Scan (Text)

/-- What is asked of the plumber: it follows no null pointer and fills no slot that there is not,
and a faulty configuration starts no component. -/
structure Rejects (pipe : PipeCalls) (dataIn cmdOut : TypedPipe) (config : List Statement) :
    Prop where
  no_fault : ∃ ret s, (yyparse pipe config).run { dataIn, cmdOut } = .ok (ret, s)
  no_launch : AnyFaulty config → Plumber.main pipe dataIn cmdOut config = .ok []

/-- The parser stops before there is a component, and no component is looked for. -/
def Inert (pipe : PipeCalls) : Nat → List Statement → Prop
  | _, [] => True
  | _, .syntaxError :: _ => True
  | calls, .link _ arrow _ :: rest =>
    arrowType arrow = .commError ∨ pipe calls = none ∧ Inert pipe (calls + 1) rest
  | _, _ :: _ => False

section Nodes

variable {pipe : PipeCalls} {s : Plumber} {st : Statement} {config : List Statement}

/-- Looking for a node changes nothing but what was printed. -/
theorem wp_findNode_said {name : Text} {Q : Option Nat → Plumber → Prop} {E : Fault → Prop}
    (h : ∀ said, Q (Plumber.getNode s.nodes name) { s with said }) :
    wp (Plumber.findNode name) Q E s := by
  unfold Plumber.findNode Plumber.say
  rw [wp_bind, wp_get]
  dsimp only
  rw [wp_ite]
  by_cases hnode : Plumber.getNode s.nodes name = none
  · rw [if_pos hnode]
    exact h _
  · rw [if_neg hnode]
    exact h _

/-- A change of a node adds none and takes none away. -/
theorem updateNode_length (node : Option Nat) (f : PlumberNode → Except Fault PlumberNode) :
    wp (updateNode node f) (fun _ s' => s'.nodes.length = s.nodes.length) (fun _ => True) s := by
  unfold updateNode
  rw [wp_bind, wp_get]
  cases node with
  | none => trivial
  | some i =>
    dsimp only
    cases hn : s.nodes[i]? with
    | none => trivial
    | some n =>
      dsimp only
      rw [wp_bind]
      apply wp_lift
      · intro n' _
        rw [wp_set]
        exact List.length_set
      · intro _ _
        trivial

theorem linkNode_length (type : CommMessage) (fromNode toNode : Option Nat)
    (fromTimed toTimed : Bool) :
    wp (linkNode pipe type fromNode fromTimed toNode toTimed)
      (fun _ s' => s'.nodes.length = s.nodes.length) (fun _ => True) s := by
  unfold linkNode
  rw [wp_bind, wp_get, wp_bind, wp_set]
  cases hpipe : pipe s.pipeCalls with
  | none => rfl
  | some fds =>
    dsimp only
    rw [wp_bind]
    refine (updateNode_length fromNode _).imp ?_
    intro _ s₁ h₁
    refine (updateNode_length toNode _).imp ?_
    intro _ s₂ h₂
    exact h₂.trans h₁

theorem declare_ne_nil (name value : Text) (repType : Replication)
    (voterName voterTimer priority : Text) :
    wp (declare name value repType voterName voterTimer priority) (fun _ s' => s'.nodes ≠ [])
      (fun _ => False) s := by
  unfold declare Plumber.say
  rw [wp_bind, wp_get]
  dsimp only
  rw [wp_bind, wp_set, wp_ite]
  split
  · exact addNode_ne_nil
  · exact addNode_ne_nil

/-- **What was declared stays.** -/
theorem action_ne_nil (h : s.nodes ≠ []) :
    wp (action pipe st) (fun _ s' => s'.nodes ≠ []) (fun _ => True) s := by
  have hkept : ∀ s' : Plumber, s'.nodes.length = s.nodes.length → s'.nodes ≠ [] := by
    intro s' hlength hnil
    rw [hnil, List.length_nil] at hlength
    exact h (List.length_eq_zero_iff.mp hlength.symm)
  unfold action
  cases st with
  | component name value priority =>
    rw [wp_bind]
    exact (declare_ne_nil name value _ _ _ priority).mono (fun _ _ hs => hs) fun _ _ => trivial
  | replicated name value repStrat voterTimer priority =>
    rw [wp_bind]
    exact (declare_ne_nil name value _ _ _ priority).mono (fun _ _ hs => hs) fun _ _ => trivial
  | fromBench arrow node =>
    rw [wp_bind]
    apply wp_findNode_said
    intro said
    rw [wp_bind, wp_get, wp_bind]
    exact (updateNode_length _ _).imp fun _ s' hs => hkept s' hs
  | toBench node arrow =>
    rw [wp_bind]
    apply wp_findNode_said
    intro said
    rw [wp_bind, wp_get, wp_bind]
    exact (updateNode_length _ _).imp fun _ s' hs => hkept s' hs
  | link a arrow b =>
    rw [wp_bind]
    apply wp_findNode_said
    intro said
    rw [wp_bind]
    apply wp_findNode_said
    intro said'
    rw [wp_ite]
    split
    · exact h
    · rw [wp_bind]
      exact (linkNode_length _ _ _ _ _).imp fun _ s' hs => hkept s' hs
  | syntaxError => exact h

theorem yyparse_ne_nil (h : s.nodes ≠ []) :
    wp (yyparse pipe config) (fun _ s' => s'.nodes ≠ []) (fun _ => True) s := by
  induction config generalizing s with
  | nil => exact h
  | cons st rest ih =>
    unfold yyparse
    rw [wp_bind]
    refine (action_ne_nil h).imp ?_
    intro ret s' hs'
    cases ret with
    | none => exact ih hs'
    | some ret => exact hs'

/-- With a component, the parser does not end without one. -/
theorem not_yyparse_nil (h : s.nodes ≠ []) :
    ¬ wp (yyparse pipe config) (fun _ s' => s'.nodes = []) (fun _ => False) s := by
  intro hnil
  obtain ⟨ret, s', hrun, hs'⟩ := wp.exists_run hnil
  exact (yyparse_ne_nil h).of_run hrun hs'

/-- **Nothing is declared when the parser stops** exactly if the configuration is inert. -/
theorem yyparse_nil_iff (h : s.nodes = []) :
    wp (yyparse pipe config) (fun _ s' => s'.nodes = []) (fun _ => False) s
      ↔ Inert pipe s.pipeCalls config := by
  induction config generalizing s with
  | nil => simp [yyparse, Inert, h]
  | cons st rest ih =>
    -- A component is declared, and stays.
    have hdeclares : ∀ name value repType voterName voterTimer priority,
        ¬ wp (declare name value repType voterName voterTimer priority)
          (fun _ => wp (yyparse pipe rest) (fun _ s' => s'.nodes = []) fun _ => False)
          (fun _ => False) s := by
      intro name value repType voterName voterTimer priority hwp
      obtain ⟨_, s', hrun, hs'⟩ := wp.exists_run hwp
      exact not_yyparse_nil ((declare_ne_nil name value repType _ _ _).of_run hrun) hs'
    have hnone : ∀ name, Plumber.getNode [] name = none := fun _ => rfl
    unfold yyparse action
    cases st with
    | component name value priority =>
      simp only [wp_bind, Inert, iff_false]
      exact hdeclares name value _ _ _ priority
    | replicated name value repStrat voterTimer priority =>
      simp only [wp_bind, Inert, iff_false]
      exact hdeclares name value _ _ _ priority
    | fromBench arrow node =>
      simp [Plumber.findNode, Plumber.say, linkBench, updateNode, wp_throw, hnone, h, Inert]
    | toBench node arrow =>
      simp [Plumber.findNode, Plumber.say, linkBench, updateNode, wp_throw, hnone, h, Inert]
    | link a arrow b =>
      by_cases htype : arrowType arrow = .commError
      · simp [Plumber.findNode, Plumber.say, wp_map, hnone, htype, h, Inert]
      · cases hpipe : pipe s.pipeCalls with
        | none =>
          simp [Plumber.findNode, Plumber.say, linkNode, hnone, htype, hpipe, h, Inert, ih]
        | some fds =>
          simp [Plumber.findNode, Plumber.say, linkNode, updateNode, wp_throw, hnone, htype, hpipe,
            h, Inert]
    | syntaxError => simp [Plumber.say, wp_map, h, Inert]

end Nodes

/-- Every component that there is is started. -/
theorem launchNode_length {nodes : List PlumberNode} {launched : List (List Text)}
    (h : launchNode nodes = .ok launched) : launched.length = nodes.length := by
  induction nodes generalizing launched with
  | nil =>
    cases h
    rfl
  | cons curr next ih =>
    rw [launchNode] at h
    cases hargv : repArgv curr with
    | error e =>
      rw [hargv] at h
      cases h
    | ok argv =>
      cases hnext : launchNode next with
      | error e =>
        rw [hargv, hnext] at h
        cases h
      | ok rest =>
        rw [hargv, hnext] at h
        cases h
        rw [List.length_cons, List.length_cons, ih hnext]

/-- A configuration without a faulty statement can be carried out. -/
theorem AllSound.of_not_faulty {config : List Statement} (h : ¬ AnyFaulty config) :
    AllSound config := by
  intro before s after heq
  by_contra hsound
  exact h ⟨before, s, after, heq, Or.inl hsound⟩

/-- **What is asked holds** for the configurations that are not faulty, and for those of which
nothing was declared, and no pipe made, when the parser stops. -/
theorem rejects_iff (pipe : PipeCalls) (dataIn cmdOut : TypedPipe) (config : List Statement) :
    Rejects pipe dataIn cmdOut config ↔ ¬ AnyFaulty config ∨ Inert pipe 0 config := by
  have hinert := @yyparse_nil_iff pipe { dataIn, cmdOut } config rfl
  constructor
  · intro h
    by_cases hfaulty : AnyFaulty config
    · refine Or.inr (hinert.mp ?_)
      obtain ⟨ret, s, hrun⟩ := h.no_fault
      have hlaunch := h.no_launch hfaulty
      unfold Plumber.main at hlaunch
      rw [hrun] at hlaunch
      have hlength := launchNode_length hlaunch
      unfold wp
      rw [hrun]
      exact List.length_eq_zero_iff.mp hlength.symm
    · exact Or.inl hfaulty
  · intro h
    rcases h with hfaulty | hsilent
    · have hstart : Built pipe dataIn cmdOut [] { dataIn, cmdOut } := Built.start
      obtain ⟨ret, s, hrun, -⟩ := wp.exists_run (hstart.yyparse (AllSound.of_not_faulty hfaulty))
      exact ⟨⟨ret, s, hrun⟩, fun h => absurd h hfaulty⟩
    · obtain ⟨ret, s, hrun, hnil⟩ := wp.exists_run (hinert.mpr hsilent)
      refine ⟨⟨ret, s, hrun⟩, fun _ => ?_⟩
      unfold Plumber.main
      rw [hrun]
      dsimp only
      rw [hnil]
      rfl

/-- `artPot := ArtPot 10` and `Bench --RANGE_POSE-> artPot`: a relationship with the Bench, of a
type that there is not, does not stop the component that it is with. -/
theorem bench_type_is_not_checked :
    let config := [.component "artPot".toList "ArtPot".toList "10".toList,
      .fromBench "RANGE_POSE".toList ⟨"artPot".toList, false⟩]
    AnyFaulty config ∧
      ∀ pipe, Plumber.main pipe { fdIn := 3 } { fdOut := 4 } config
          = .ok [["ArtPot".toList, "10".toList, "1".toList, "COMM_ERROR:3:0".toList]] ∧
        ¬ Rejects pipe { fdIn := 3 } { fdOut := 4 } config := by
  intro config
  have hfaulty : AnyFaulty config := by
    refine ⟨[.component "artPot".toList "ArtPot".toList "10".toList], _, [], rfl, Or.inl ?_⟩
    intro hsound
    exact hsound.type "RANGE_POSE".toList rfl (by decide)
  refine ⟨hfaulty, ?_⟩
  intro pipe
  have hmain : Plumber.main pipe { fdIn := 3 } { fdOut := 4 } config
      = .ok [["ArtPot".toList, "10".toList, "1".toList, "COMM_ERROR:3:0".toList]] := by
    rfl
  refine ⟨hmain, ?_⟩
  intro h
  have hnone := h.no_launch hfaulty
  rw [hmain] at hnone
  cases hnone

end Pint
