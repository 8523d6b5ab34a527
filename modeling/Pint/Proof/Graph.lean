import Pint.Program.Plumber
import Pint.Proof.Launch

/-!
# The graph that a configuration describes

Every relationship has one or two ends, and each end becomes an entry in the list of pipes of
its component. `described` writes these entries down, statement by statement, and
`Built.action` is the step lemma: an action without a fault adds exactly the entries of its
statement to the nodes. `plumber_builds_graph` is what follows for a whole configuration.

`Built` is the invariant of the parser. Its core is `AllHold`: each node holds the entries of its
own name, in their order. It stays so because a node is found by its name, because no name is
there twice, and because there is room: a component has as many entries as it is an end, and
`Sound` counts these before they are made. `names` is what makes a relationship find its nodes,
and `calls` which pair of descriptors it gets.

What `described` has to do with the configuration is a second matter, with no program in it.
`IsGraph` says what the graph is without saying how it is computed: whose ends they are, in which
order, which descriptors they have, and that no two statements share a pipe. `described_isGraph`
shows that of the list, from fresh pipes.
-/

namespace Pint

open Prog Plumber
open Scan (Text)

/-! ## Configurations -/

/-- The name that a declaration declares. -/
def Statement.declares : Statement → Option Text
  | .component name _ _ => some name
  | .replicated name _ _ _ _ => some name
  | _ => none

/-- The components at the ends of a relationship, the source first. -/
def Statement.ends : Statement → List CompName
  | .fromBench _ node => [node]
  | .toBench node _ => [node]
  | .link a _ b => [a, b]
  | _ => []

/-- The message type of a relationship. -/
def Statement.arrow : Statement → Option Text
  | .fromBench arrow _ => some arrow
  | .toBench _ arrow => some arrow
  | .link _ arrow _ => some arrow
  | _ => none

def declared (config : List Statement) : List Text := config.filterMap Statement.declares

/-- How often a component is an end. -/
def occurrences (config : List Statement) (name : Text) : Nat :=
  ((config.flatMap Statement.ends).map CompName.name).count name

/-- A statement, behind others, can be carried out: it is none of a syntax error, a relationship
of a type that there is not, with a component that was not declared before or that would have more
than `PIPE_LIMIT` pipes. -/
structure Statement.Sound (before : List Statement) (s : Statement) : Prop where
  syntax_ok : s ≠ .syntaxError
  type : ∀ arrow ∈ s.arrow, arrowType arrow ≠ .commError
  known : ∀ e ∈ s.ends, e.name ∈ declared before
  room : ∀ e ∈ s.ends, occurrences (before ++ [s]) e.name ≤ pipeLimit

/-- Every statement can be carried out. -/
def AllSound (config : List Statement) : Prop :=
  ∀ before s after, config = before ++ s :: after → s.Sound before

instance (before : List Statement) (s : Statement) : Decidable (s.Sound before) :=
  decidable_of_iff (s ≠ .syntaxError ∧ (∀ arrow ∈ s.arrow, arrowType arrow ≠ .commError) ∧
    (∀ e ∈ s.ends, e.name ∈ declared before) ∧
    ∀ e ∈ s.ends, occurrences (before ++ [s]) e.name ≤ pipeLimit)
    ⟨fun ⟨hs, ht, hk, hr⟩ => ⟨hs, ht, hk, hr⟩, fun h => ⟨h.1, h.2, h.3, h.4⟩⟩

theorem AllSound.nil : AllSound [] := by
  intro before s after h
  simp at h

theorem AllSound.snoc {config : List Statement} {s : Statement} (h : AllSound config)
    (hs : s.Sound config) : AllSound (config ++ [s]) := by
  intro before t after heq
  rcases List.append_eq_append_iff.mp heq with ⟨rest, rfl, hrest⟩ | ⟨rest, hconfig, hrest⟩
  · cases rest with
    | nil =>
      obtain ⟨rfl, -⟩ := List.cons.inj hrest
      rw [List.append_nil]
      exact hs
    | cons u rest =>
      rw [List.cons_append, List.cons.injEq] at hrest
      simp at hrest
  · cases rest with
    | nil =>
      obtain ⟨rfl, -⟩ := List.cons.inj hrest
      rw [List.append_nil] at hconfig
      rw [← hconfig]
      exact hs
    | cons u rest =>
      obtain ⟨rfl, -⟩ := List.cons.inj hrest
      exact h before t rest hconfig

/-- A statement that cannot be carried out, or that declares a component again, is faulty. -/
def Statement.Faulty (before : List Statement) (s : Statement) : Prop :=
  ¬ s.Sound before ∨ ∃ name ∈ s.declares, name ∈ declared before

/-- Some statement is faulty. -/
def AnyFaulty (config : List Statement) : Prop :=
  ∃ before s after, config = before ++ s :: after ∧ s.Faulty before

/-! ## The graph -/

/-- An end of a relationship in the graph: the number of its statement, the component, what the
component gets for it, and whether it was in parentheses. -/
structure GraphEnd where
  statement : Nat
  component : Text
  pipe : TypedPipe
  timed : Bool

section Described

variable (pipe : PipeCalls) (dataIn cmdOut : TypedPipe)

/-- The ends of statement number `i`, if `pipe` was called so often before. -/
def Statement.graphEnds (calls i : Nat) : Statement → List GraphEnd
  | .fromBench arrow node =>
    [⟨i, node.name, { type := arrowType arrow, fdIn := dataIn.fdIn }, node.timed⟩]
  | .toBench node arrow =>
    [⟨i, node.name, { type := arrowType arrow, fdOut := cmdOut.fdOut }, node.timed⟩]
  | .link a arrow b =>
    match pipe calls with
    | none => []
    | some (rd, wr) =>
      [⟨i, a.name, { type := arrowType arrow, fdOut := wr }, a.timed⟩,
        ⟨i, b.name, { type := arrowType arrow, fdIn := rd }, b.timed⟩]
  | _ => []

/-- How often an action calls `pipe`. -/
def Statement.calls : Statement → Nat
  | .link _ _ _ => 1
  | _ => 0

def pipeCallsOf (config : List Statement) : Nat := (config.map Statement.calls).sum

/-- The ends of all statements, of which the first has number `i`. -/
def described (calls i : Nat) : List Statement → List GraphEnd
  | [] => []
  | s :: rest => s.graphEnds pipe dataIn cmdOut calls i ++ described (calls + s.calls) (i + 1) rest

/-- The pipes of one component, with their flags. -/
def pipesOf (ends : List GraphEnd) (name : Text) : List (TypedPipe × Bool) :=
  (ends.filter fun e => e.component = name).map fun e => (e.pipe, e.timed)

variable {pipe dataIn cmdOut}

theorem described_append (config : List Statement) (s : Statement) (calls i : Nat) :
    described pipe dataIn cmdOut calls i (config ++ [s])
      = described pipe dataIn cmdOut calls i config ++
        s.graphEnds pipe dataIn cmdOut (calls + pipeCallsOf config) (i + config.length) := by
  induction config generalizing calls i with
  | nil => simp [described, pipeCallsOf]
  | cons t rest ih =>
    rw [List.cons_append, described, described, ih, List.append_assoc]
    simp only [pipeCallsOf, List.map_cons, List.sum_cons, List.length_cons]
    congr 3
    · omega
    · omega

theorem pipesOf_append (ends ends' : List GraphEnd) (name : Text) :
    pipesOf (ends ++ ends') name = pipesOf ends name ++ pipesOf ends' name := by
  unfold pipesOf
  rw [List.filter_append, List.map_append]

theorem occurrences_append (config : List Statement) (s : Statement) (name : Text) :
    occurrences (config ++ [s]) name
      = occurrences config name + (s.ends.map CompName.name).count name := by
  unfold occurrences
  rw [List.flatMap_append, List.map_append, List.count_append]
  simp

theorem length_pipesOf_eq (ends : List GraphEnd) (name : Text) :
    (pipesOf ends name).length = (ends.map GraphEnd.component).count name := by
  unfold pipesOf
  rw [List.length_map, List.count_eq_countP, List.countP_map, List.countP_eq_length_filter]
  congr 1
  apply List.filter_congr
  intro e _
  exact (beq_eq_decide _ _).symm

/-- An end in the graph is one of the statement. -/
theorem graphEnds_sublist (s : Statement) (calls i : Nat) :
    ((s.graphEnds pipe dataIn cmdOut calls i).map GraphEnd.component).Sublist
      (s.ends.map CompName.name) := by
  cases s with
  | component name value priority => exact List.Sublist.refl _
  | replicated name value repStrat voterTimer priority => exact List.Sublist.refl _
  | fromBench arrow node => exact List.Sublist.refl _
  | toBench node arrow => exact List.Sublist.refl _
  | link a arrow b =>
    simp only [Statement.graphEnds]
    cases pipe calls with
    | none => exact List.nil_sublist _
    | some fds => exact List.Sublist.refl _
  | syntaxError => exact List.Sublist.refl _

/-- A component has at most as many pipes as it is an end. -/
theorem length_pipesOf (config : List Statement) (calls i : Nat) (name : Text) :
    (pipesOf (described pipe dataIn cmdOut calls i config) name).length
      ≤ occurrences config name := by
  have hsub : ((described pipe dataIn cmdOut calls i config).map GraphEnd.component).Sublist
      ((config.flatMap Statement.ends).map CompName.name) := by
    induction config generalizing calls i with
    | nil => exact List.Sublist.refl _
    | cons s rest ih =>
      rw [described, List.flatMap_cons, List.map_append, List.map_append]
      exact (graphEnds_sublist s calls i).append (ih _ _)
  rw [length_pipesOf_eq]
  exact hsub.count_le name

end Described

/-! ## Nodes -/

section Nodes

variable {nodes : List PlumberNode} {name : Text} {n n' : PlumberNode} {i : Nat}

/-- A new name is put at the end of the list. -/
theorem addNode_new {value : Text} {repType : Replication} {voterName voterTimer priority : Text}
    (hnew : name ∉ nodes.map PlumberNode.name) :
    Plumber.addNode name value repType voterName voterTimer priority nodes = (true, nodes ++
      [{ name, value, priority, repStrat := repType, voterName, voterTimer }]) := by
  induction nodes with
  | nil => rfl
  | cons current next ih =>
    rw [List.map_cons, List.mem_cons, not_or] at hnew
    rw [Plumber.addNode, if_neg hnew.1, ih hnew.2]
    rfl

/-- A known name changes nothing. -/
theorem addNode_known {value : Text} {repType : Replication} {voterName voterTimer priority : Text}
    (hknown : name ∈ nodes.map PlumberNode.name) :
    Plumber.addNode name value repType voterName voterTimer priority nodes = (false, nodes) := by
  induction nodes with
  | nil => cases hknown
  | cons current next ih =>
    rw [Plumber.addNode]
    by_cases hname : name = current.name
    · rw [if_pos hname]
    · rw [if_neg hname]
      rw [List.map_cons, List.mem_cons, or_iff_right hname] at hknown
      rw [ih hknown]

/-- Whatever the name, the list does not get shorter. -/
theorem addNode_ne_nil {value : Text} {repType : Replication}
    {voterName voterTimer priority : Text} :
    (Plumber.addNode name value repType voterName voterTimer priority nodes).2 ≠ [] := by
  cases nodes with
  | nil => simp [Plumber.addNode]
  | cons current next =>
    rw [Plumber.addNode]
    split <;> simp

theorem getNode_known (h : name ∈ nodes.map PlumberNode.name) :
    ∃ i n, Plumber.getNode nodes name = some i ∧ nodes[i]? = some n ∧ n.name = name := by
  induction nodes with
  | nil => cases h
  | cons current next ih =>
    rw [Plumber.getNode]
    by_cases hname : name = current.name
    · rw [if_pos hname]
      exact ⟨0, current, rfl, rfl, hname.symm⟩
    · rw [if_neg hname]
      rw [List.map_cons, List.mem_cons, or_iff_right hname] at h
      obtain ⟨i, n, hi, hn, heq⟩ := ih h
      refine ⟨i + 1, n, ?_, hn, heq⟩
      rw [hi]
      rfl

theorem getNode_unknown (h : name ∉ nodes.map PlumberNode.name) :
    Plumber.getNode nodes name = none := by
  induction nodes with
  | nil => rfl
  | cons current next ih =>
    rw [List.map_cons, List.mem_cons, not_or] at h
    rw [Plumber.getNode, if_neg h.1, ih h.2]
    rfl

/-- Where no name is there twice, a node is found by its name. -/
theorem getNode_of_getElem? {i : Nat} (hnodup : (nodes.map PlumberNode.name).Nodup)
    (h : (nodes.map PlumberNode.name)[i]? = some name) : Plumber.getNode nodes name = some i := by
  obtain ⟨hi, -⟩ := List.getElem?_eq_some_iff.mp h
  obtain ⟨j, n, hj, hn, hname⟩ := getNode_known (List.mem_of_getElem? h)
  have hjname : (nodes.map PlumberNode.name)[j]? = some name := by
    rw [List.getElem?_map, hn, ← hname]
    rfl
  rw [hj, (List.getElem?_inj hi hnodup).mp (h.trans hjname.symm)]

/-- Where a node is only depends on the names. -/
theorem getNode_congr {nodes' : List PlumberNode}
    (h : nodes'.map PlumberNode.name = nodes.map PlumberNode.name) :
    Plumber.getNode nodes' name = Plumber.getNode nodes name := by
  induction nodes generalizing nodes' with
  | nil =>
    obtain rfl := List.map_eq_nil_iff.mp h
    rfl
  | cons current next ih =>
    cases nodes' with
    | nil => cases h
    | cons current' next' =>
      rw [List.map_cons, List.map_cons, List.cons.injEq] at h
      rw [Plumber.getNode, Plumber.getNode, h.1, ih h.2]

/-- A node with room gets one entry more. -/
theorem PlumberNode.Holds.fillSlot {ps : List (TypedPipe × Bool)} (h : n.Holds ps)
    (hroom : ps.length < pipeLimit) (pipe : TypedPipe) (timed : Bool) :
    ∃ n', n.fillSlot pipe timed = .ok n' ∧ n'.name = n.name ∧ n'.Holds (ps ++ [(pipe, timed)]) := by
  obtain ⟨hcount, hlimit, hpipes, htimed, hget⟩ := h
  have hset := @CArray.set_eq _ n.pipes n.pipeCount (by omega) (by omega) pipe
  have hflag := @CArray.set_eq _ n.timed n.pipeCount (by omega) (by omega) (flag timed)
  unfold flag at hflag
  unfold PlumberNode.fillSlot
  simp only [hset, hflag, bind, Except.bind]
  refine ⟨_, rfl, rfl, ?_⟩
  refine ⟨?_, ?_, hpipes, htimed, ?_⟩
  · simp [hcount]
  · rw [List.length_append, List.length_singleton]
    exact hroom
  · intro j p hp
    dsimp only
    -- The slots before the new one are as they were.
    rcases Nat.lt_or_ge j ps.length with hlt | hge
    · rw [List.getElem?_append_left hlt] at hp
      rw [if_neg (by omega), if_neg (by omega)]
      exact hget j p hp
    · obtain ⟨hj, hlast⟩ := List.getElem?_eq_some_iff.mp hp
      have hj' : j = ps.length := by
        rw [List.length_append, List.length_singleton] at hj
        omega
      subst hj'
      rw [List.getElem_concat_length rfl] at hlast
      rw [if_pos hcount.symm, if_pos hcount.symm, ← hlast]
      exact ⟨rfl, rfl⟩

/-- A node is changed in something that is not looked at. -/
theorem map_set_same {β : Type} {f : PlumberNode → β} (hn : nodes[i]? = some n)
    (hsame : f n' = f n) : (nodes.set i n').map f = nodes.map f := by
  obtain ⟨hi, rfl⟩ := List.getElem?_eq_some_iff.mp hn
  have hlen : i < (nodes.map f).length := by rwa [List.length_map]
  rw [List.map_set, hsame, ← List.getElem_map f (h := hlen), List.set_getElem_self]

/-- The nodes hold these pipes, each its own. -/
def AllHold (nodes : List PlumberNode) (pipes : Text → List (TypedPipe × Bool)) : Prop :=
  ∀ n ∈ nodes, n.Holds (pipes n.name)

/-- **One slot is filled**, in the node that was found by its name. -/
theorem updateNode_fillSlot {s : Plumber} {pipes : Text → List (TypedPipe × Bool)}
    (hnames : (s.nodes.map PlumberNode.name).Nodup) (hknown : name ∈ s.nodes.map PlumberNode.name)
    (hholds : AllHold s.nodes pipes) (hroom : (pipes name).length < pipeLimit) (pipe : TypedPipe)
    (timed : Bool) :
    wp (updateNode (Plumber.getNode s.nodes name) fun n => n.fillSlot pipe timed)
      (fun _ s' => ∃ nodes, s' = { s with nodes } ∧
        nodes.map PlumberNode.name = s.nodes.map PlumberNode.name ∧
        AllHold nodes (Function.update pipes name (pipes name ++ [(pipe, timed)])))
      (fun _ => False) s := by
  obtain ⟨i, n, hi, hn, hname⟩ := getNode_known hknown
  have hmem : n ∈ s.nodes := List.mem_of_getElem? hn
  have hfits : (pipes n.name).length < pipeLimit := by rw [hname]; exact hroom
  obtain ⟨n', hfill, hsame, hholds'⟩ := (hholds n hmem).fillSlot hfits pipe timed
  unfold updateNode
  rw [wp_bind, wp_get, hi]
  dsimp only
  rw [hn]
  dsimp only
  rw [wp_bind, wp_lift_ok hfill, wp_set]
  have hmap := map_set_same (f := PlumberNode.name) hn hsame
  refine ⟨_, rfl, hmap, ?_⟩
  intro m hm
  obtain ⟨j, hj⟩ := List.mem_iff_getElem?.mp hm
  rw [List.getElem?_set] at hj
  by_cases hij : i = j
  · rw [if_pos hij] at hj
    split at hj
    · obtain rfl := Option.some.inj hj
      rw [hsame, hname, Function.update_self]
      rw [hname] at hholds'
      exact hholds'
    · cases hj
  · rw [if_neg hij] at hj
    -- Another node has another name.
    have hne : m.name ≠ name := by
      intro heq
      have hlt : i < (s.nodes.map PlumberNode.name).length := by
        rw [List.length_map]
        exact (List.getElem?_eq_some_iff.mp hn).1
      refine hij ((List.getElem?_inj hlt hnames).mp ?_)
      rw [List.getElem?_map, List.getElem?_map, hn, hj, Option.map_some, Option.map_some, hname,
        heq]
    rw [Function.update_of_ne hne]
    exact hholds m (List.mem_of_getElem? hj)

end Nodes

/-! ## Actions -/

theorem pipesOf_snoc (ends : List GraphEnd) (e : GraphEnd) :
    pipesOf (ends ++ [e]) = Function.update (pipesOf ends) e.component
      (pipesOf ends e.component ++ [(e.pipe, e.timed)]) := by
  funext name
  rw [pipesOf_append]
  by_cases hname : name = e.component
  · rw [hname, Function.update_self]
    simp [pipesOf]
  · rw [Function.update_of_ne hname]
    have hne : ¬ e.component = name := fun h => hname h.symm
    simp [pipesOf, hne]

/-- **What the statements so far have built.** -/
structure Built (pipe : PipeCalls) (dataIn cmdOut : TypedPipe) (config : List Statement)
    (s : Plumber) : Prop where
  names : ∀ name, name ∈ s.nodes.map PlumberNode.name ↔ name ∈ declared config
  nodup : (s.nodes.map PlumberNode.name).Nodup
  known : ∀ e ∈ described pipe dataIn cmdOut 0 0 config, e.component ∈ declared config
  holds : AllHold s.nodes (pipesOf (described pipe dataIn cmdOut 0 0 config))
  calls : s.pipeCalls = pipeCallsOf config
  dataIn : s.dataIn = dataIn
  cmdOut : s.cmdOut = cmdOut

section Action

variable {pipe : PipeCalls} {dataIn cmdOut : TypedPipe} {config : List Statement} {s : Plumber}
  {st : Statement}

theorem Built.start : Built pipe dataIn cmdOut [] { dataIn, cmdOut } where
  names name := Iff.rfl
  nodup := .nil
  known e he := by cases he
  holds n hn := by cases hn
  calls := rfl
  dataIn := rfl
  cmdOut := rfl

/-- A known node is found, and nothing is printed. -/
theorem wp_findNode {name : Text} {Q : Option Nat → Plumber → Prop} {E : Fault → Prop}
    (h : name ∈ s.nodes.map PlumberNode.name) :
    wp (Plumber.findNode name) Q E s ↔ Q (Plumber.getNode s.nodes name) s := by
  obtain ⟨i, n, hi, -⟩ := getNode_known h
  unfold Plumber.findNode
  rw [wp_bind, wp_get, hi]
  rfl

/-- There is room for one pipe more. -/
theorem Statement.Sound.room_for (h : st.Sound config) {e : CompName} (he : e ∈ st.ends) :
    (pipesOf (described pipe dataIn cmdOut 0 0 config) e.name).length < pipeLimit := by
  have hroom := h.room e he
  have hle := @length_pipesOf pipe dataIn cmdOut config 0 0 e.name
  have hpos : 0 < (st.ends.map CompName.name).count e.name :=
    List.count_pos_iff.mpr (List.mem_map_of_mem he)
  rw [occurrences_append] at hroom
  omega

/-- A statement that only declares adds its name to what is declared, and nothing else. -/
theorem Built.declared_snoc (h : Built pipe dataIn cmdOut config s) {name : Text}
    (hst : st.declares = some name) (hends : st.graphEnds pipe dataIn cmdOut
      (pipeCallsOf config) config.length = []) (hcalls : st.calls = 0) {nodes : List PlumberNode}
    {said : List PlumberMessage}
    (hnames : ∀ other, other ∈ nodes.map PlumberNode.name ↔ other ∈ declared config ++ [name])
    (hnodup : (nodes.map PlumberNode.name).Nodup)
    (hholds : AllHold nodes (pipesOf (described pipe dataIn cmdOut 0 0 config))) :
    Built pipe dataIn cmdOut (config ++ [st]) { s with nodes, said } := by
  have hdeclared : declared (config ++ [st]) = declared config ++ [name] := by
    unfold declared
    rw [List.filterMap_append]
    simp [hst]
  have hsame : described pipe dataIn cmdOut 0 0 (config ++ [st])
      = described pipe dataIn cmdOut 0 0 config := by
    rw [described_append, Nat.zero_add, Nat.zero_add, hends, List.append_nil]
  have hcount : pipeCallsOf (config ++ [st]) = pipeCallsOf config := by
    unfold pipeCallsOf
    rw [List.map_append, List.sum_append]
    simp [hcalls]
  refine ⟨?_, hnodup, ?_, ?_, h.calls.trans hcount.symm, h.dataIn, h.cmdOut⟩
  · rw [hdeclared]
    exact hnames
  · rw [hsame, hdeclared]
    exact fun e he => List.mem_append_left _ (h.known e he)
  · rw [hsame]
    exact hholds

/-- Nothing ends at a node that is not declared yet. -/
theorem Built.pipesOf_new (h : Built pipe dataIn cmdOut config s) {name : Text}
    (hnew : name ∉ declared config) :
    pipesOf (described pipe dataIn cmdOut 0 0 config) name = [] := by
  unfold pipesOf
  rw [List.map_eq_nil_iff, List.filter_eq_nil_iff]
  intro e he heq
  exact hnew ((of_decide_eq_true heq) ▸ h.known e he)

/-- **A declaration** adds a node without pipes, or nothing. -/
theorem Built.declare (h : Built pipe dataIn cmdOut config s)
    {name value : Text} {repType : Replication} {voterName voterTimer priority : Text}
    (hst : st.declares = some name) (hends : st.graphEnds pipe dataIn cmdOut
      (pipeCallsOf config) config.length = []) (hcalls : st.calls = 0) :
    wp (Plumber.declare name value repType voterName voterTimer priority)
      (fun _ s' => Built pipe dataIn cmdOut (config ++ [st]) s') (fun _ => False) s := by
  unfold Plumber.declare
  rw [wp_bind, wp_get]
  dsimp only
  -- A name that is known is reported, and the list stays; a new one gets a node with no pipes, and
  -- no statement before this one has named it.
  by_cases hnew : name ∈ declared config
  · rw [addNode_known ((h.names name).mpr hnew), wp_bind, wp_set, wp_ite, if_pos rfl]
    unfold Plumber.say
    rw [wp_modify]
    refine h.declared_snoc hst hends hcalls (fun other => ?_) h.nodup h.holds
    rw [List.mem_append, List.mem_singleton, h.names]
    constructor
    · exact Or.inl
    · intro hor
      rcases hor with hold | rfl
      · exact hold
      · exact hnew
  · have hfree : name ∉ s.nodes.map PlumberNode.name := fun hmem => hnew ((h.names name).mp hmem)
    rw [addNode_new hfree, wp_bind, wp_set, wp_ite, if_neg (by simp)]
    rw [wp_pure]
    refine h.declared_snoc hst hends hcalls (fun other => ?_) ?_ ?_
    · rw [List.map_append, List.mem_append, List.mem_append, h.names]
      rfl
    · rw [List.map_append]
      refine List.nodup_append.mpr ⟨h.nodup, List.pairwise_singleton _ _, ?_⟩
      intro a ha b hb heq
      obtain rfl := List.mem_singleton.mp hb
      exact hfree (heq ▸ ha)
    · intro n hn
      rcases List.mem_append.mp hn with hn | hn
      · exact h.holds n hn
      · rw [List.mem_singleton] at hn
        rw [hn, h.pipesOf_new hnew]
        exact ⟨rfl, Nat.zero_le _, rfl, rfl, fun i p hp => by cases hp⟩

/-- What an entry or two do to the nodes is what has been built with their statement. -/
theorem Built.relationship (h : Built pipe dataIn cmdOut config s) (hsound : st.Sound config)
    (hst : st.declares = none) {nodes : List PlumberNode} {ends : List GraphEnd}
    (hends : st.graphEnds pipe dataIn cmdOut (pipeCallsOf config) config.length = ends)
    (hnames : nodes.map PlumberNode.name = s.nodes.map PlumberNode.name)
    (hholds : AllHold nodes (pipesOf (described pipe dataIn cmdOut 0 0 config ++ ends)))
    {calls : Nat} (hcalls : calls = s.pipeCalls + st.calls) {said : List PlumberMessage} :
    Built pipe dataIn cmdOut (config ++ [st]) { s with nodes, pipeCalls := calls, said } := by
  have hdeclared : declared (config ++ [st]) = declared config := by
    unfold declared
    rw [List.filterMap_append]
    simp [hst]
  have hdescribed : described pipe dataIn cmdOut 0 0 (config ++ [st])
      = described pipe dataIn cmdOut 0 0 config ++ ends := by
    rw [described_append, Nat.zero_add, Nat.zero_add, hends]
  refine ⟨?_, ?_, ?_, ?_, ?_, h.dataIn, h.cmdOut⟩
  · intro name
    rw [hdeclared, ← h.names, hnames]
  · rw [hnames]
    exact h.nodup
  · rw [hdescribed, hdeclared]
    intro e he
    rcases List.mem_append.mp he with he | he
    · exact h.known e he
    · have hsub := @graphEnds_sublist pipe dataIn cmdOut st (pipeCallsOf config) config.length
      rw [hends] at hsub
      -- An end of the new pipe is at a component that the statement names.
      obtain ⟨c, hc, hname⟩ := List.mem_map.mp (hsub.subset (List.mem_map_of_mem he))
      rw [← hname]
      exact hsound.known c hc
  · rw [hdescribed]
    exact hholds
  · dsimp only
    rw [hcalls, h.calls, pipeCallsOf, pipeCallsOf, List.map_append, List.sum_append]
    simp

/-- **A relationship with the Bench** adds one entry. -/
theorem Built.linkBench (h : Built pipe dataIn cmdOut config s) (hsound : st.Sound config)
    (hst : st.declares = none) {node : CompName} (hnode : node ∈ st.ends) {type : CommMessage}
    {fdIn fdOut : Int} (hends : st.graphEnds pipe dataIn cmdOut (pipeCallsOf config) config.length
      = [⟨config.length, node.name, { type, fdIn, fdOut }, node.timed⟩]) (hcalls : st.calls = 0) :
    wp (Plumber.linkBench (Plumber.getNode s.nodes node.name) type fdIn fdOut node.timed)
      (fun _ s' => Built pipe dataIn cmdOut (config ++ [st]) s') (fun _ => False) s := by
  have hknown : node.name ∈ s.nodes.map PlumberNode.name :=
    (h.names node.name).mpr (hsound.known node hnode)
  refine (updateNode_fillSlot h.nodup hknown h.holds
    (hsound.room_for hnode) { type, fdIn, fdOut } node.timed).imp ?_
  rintro _ _ ⟨nodes, rfl, hnames, hholds⟩
  refine h.relationship hsound hst hends hnames ?_ (by rw [hcalls, Nat.add_zero])
  rw [pipesOf_snoc]
  exact hholds

/-- **A relationship between components** adds two entries, the source before the destination, or
none, if there is no pipe. -/
theorem Built.linkNode {a b : CompName} {arrow : Text} (h : Built pipe dataIn cmdOut config s)
    (hsound : (Statement.link a arrow b).Sound config) :
    wp (Plumber.linkNode pipe (arrowType arrow) (Plumber.getNode s.nodes a.name) a.timed
        (Plumber.getNode s.nodes b.name) b.timed)
      (fun _ s' => Built pipe dataIn cmdOut (config ++ [.link a arrow b]) s') (fun _ => False)
      s := by
  have ha : a ∈ (Statement.link a arrow b).ends := List.mem_cons_self
  have hb : b ∈ (Statement.link a arrow b).ends := by simp [Statement.ends]
  have hknowna : a.name ∈ s.nodes.map PlumberNode.name :=
    (h.names a.name).mpr (hsound.known a ha)
  have hknownb : b.name ∈ s.nodes.map PlumberNode.name :=
    (h.names b.name).mpr (hsound.known b hb)
  unfold Plumber.linkNode
  rw [wp_bind, wp_get, wp_bind, wp_set]
  cases hpipe : pipe s.pipeCalls with
  | none =>
    have hends : (Statement.link a arrow b).graphEnds pipe dataIn cmdOut (pipeCallsOf config)
        config.length = [] := by
      simp only [Statement.graphEnds]
      rw [← h.calls, hpipe]
    refine h.relationship hsound rfl hends rfl ?_ rfl
    rw [List.append_nil]
    exact h.holds
  | some fds =>
    obtain ⟨rd, wr⟩ := fds
    dsimp only
    rw [wp_bind]
    refine (updateNode_fillSlot (s := { s with pipeCalls := s.pipeCalls + 1 }) h.nodup hknowna
      h.holds (hsound.room_for ha) { type := arrowType arrow, fdOut := wr } a.timed).imp ?_
    rintro _ _ ⟨nodes, rfl, hnames, hholds⟩
    -- What is left of the room is enough for the other end, also in the same component.
    have hroom : (Function.update (pipesOf (described pipe dataIn cmdOut 0 0 config)) a.name
        (pipesOf (described pipe dataIn cmdOut 0 0 config) a.name
          ++ [({ type := arrowType arrow, fdOut := wr }, a.timed)]) b.name).length
        < pipeLimit := by
      have hle := @length_pipesOf pipe dataIn cmdOut config 0 0 b.name
      have hlimit := hsound.room b hb
      rw [occurrences_append] at hlimit
      by_cases hself : b.name = a.name
      · rw [hself, Function.update_self, List.length_append, List.length_singleton]
        rw [hself] at hle hlimit
        simp [Statement.ends, hself] at hlimit
        omega
      · rw [Function.update_of_ne hself]
        exact hsound.room_for hb
    rw [← getNode_congr hnames]
    refine (updateNode_fillSlot (s := { s with nodes, pipeCalls := s.pipeCalls + 1 })
      (by rw [hnames]; exact h.nodup) (by rw [hnames]; exact hknownb) hholds hroom
      { type := arrowType arrow, fdIn := rd } b.timed).imp ?_
    rintro _ _ ⟨nodes', rfl, hnames', hholds'⟩
    have hends : (Statement.link a arrow b).graphEnds pipe dataIn cmdOut (pipeCallsOf config)
        config.length
        = [⟨config.length, a.name, { type := arrowType arrow, fdOut := wr }, a.timed⟩,
          ⟨config.length, b.name, { type := arrowType arrow, fdIn := rd }, b.timed⟩] := by
      simp only [Statement.graphEnds]
      rw [← h.calls, hpipe]
    refine h.relationship hsound rfl hends (hnames'.trans hnames) ?_ rfl
    rw [List.append_cons, pipesOf_snoc, pipesOf_snoc]
    exact hholds'

/-- **A statement that is in order** builds what it describes, and the parser goes on. -/
theorem Built.action (h : Built pipe dataIn cmdOut config s) (hsound : st.Sound config) :
    wp (Plumber.action pipe st)
      (fun ret s' => ret = none ∧ Built pipe dataIn cmdOut (config ++ [st]) s') (fun _ => False)
      s := by
  have hknown : ∀ e ∈ st.ends, e.name ∈ s.nodes.map PlumberNode.name := by
    intro e he
    exact (h.names e.name).mpr (hsound.known e he)
  cases st with
  | component name value priority =>
    unfold Plumber.action
    rw [wp_bind]
    exact (h.declare rfl rfl rfl).imp fun _ _ hb => ⟨rfl, hb⟩
  | replicated name value repStrat voterTimer priority =>
    unfold Plumber.action
    rw [wp_bind]
    exact (h.declare rfl rfl rfl).imp fun _ _ hb => ⟨rfl, hb⟩
  | fromBench arrow node =>
    unfold Plumber.action
    rw [wp_bind, wp_findNode (hknown node List.mem_cons_self), wp_bind, wp_get, wp_bind, h.dataIn]
    refine (h.linkBench hsound rfl List.mem_cons_self rfl rfl).imp fun _ _ hb => ⟨rfl, hb⟩
  | toBench node arrow =>
    unfold Plumber.action
    rw [wp_bind, wp_findNode (hknown node List.mem_cons_self), wp_bind, wp_get, wp_bind, h.cmdOut]
    refine (h.linkBench hsound rfl List.mem_cons_self rfl rfl).imp fun _ _ hb => ⟨rfl, hb⟩
  | link a arrow b =>
    unfold Plumber.action
    rw [wp_bind, wp_findNode (hknown a List.mem_cons_self), wp_bind,
      wp_findNode (hknown b (by simp [Statement.ends])), wp_ite,
      if_neg (hsound.type arrow rfl), wp_bind]
    exact (h.linkNode hsound).imp fun _ _ hb => ⟨rfl, hb⟩
  | syntaxError => exact absurd rfl hsound.syntax_ok

/-- **A configuration that can be carried out** is built to its end. -/
theorem Built.yyparse {rest : List Statement} (h : Built pipe dataIn cmdOut config s)
    (hsound : ∀ before st after, rest = before ++ st :: after → st.Sound (config ++ before)) :
    wp (Plumber.yyparse pipe rest)
      (fun ret s' => ret = 0 ∧ Built pipe dataIn cmdOut (config ++ rest) s') (fun _ => False)
      s := by
  induction rest generalizing config s with
  | nil =>
    rw [List.append_nil]
    exact ⟨rfl, h⟩
  | cons st rest ih =>
    have hfirst : st.Sound config := by
      have := hsound [] st rest rfl
      rwa [List.append_nil] at this
    unfold Plumber.yyparse
    rw [wp_bind]
    refine (h.action hfirst).imp ?_
    rintro _ s' ⟨rfl, hbuilt⟩
    rw [List.append_cons]
    refine ih hbuilt ?_
    intro before st' after heq
    rw [List.append_assoc]
    exact hsound (st :: before) st' after (by rw [heq]; rfl)

end Action

/-! ## The graph as a whole -/

/-- The pipes that `pipe` makes are fresh: their ends are no zeros, no two are the same, and none
is in use. -/
structure FreshPipes (pipes : Nat → Int × Int) (inUse : List Int) : Prop where
  nonzero : ∀ k, (pipes k).1 ≠ 0 ∧ (pipes k).2 ≠ 0
  two : ∀ k, (pipes k).1 ≠ (pipes k).2
  apart : ∀ j k, j ≠ k → (pipes j).1 ≠ (pipes k).1 ∧ (pipes j).1 ≠ (pipes k).2 ∧
    (pipes j).2 ≠ (pipes k).2
  unused : ∀ k, ∀ fd ∈ inUse, (pipes k).1 ≠ fd ∧ (pipes k).2 ≠ fd

section Described

variable {pipe : PipeCalls} {dataIn cmdOut : TypedPipe} {config : List Statement}

theorem statement_of_graphEnds {st : Statement} {calls i : Nat} {e : GraphEnd}
    (he : e ∈ st.graphEnds pipe dataIn cmdOut calls i) : e.statement = i := by
  cases st with
  | component name value priority => cases he
  | replicated name value repStrat voterTimer priority => cases he
  | fromBench arrow node =>
    obtain rfl := List.mem_singleton.mp he
    rfl
  | toBench node arrow =>
    obtain rfl := List.mem_singleton.mp he
    rfl
  | link a arrow b =>
    simp only [Statement.graphEnds] at he
    cases hpipe : pipe calls with
    | none => simp [hpipe] at he
    | some fds =>
      simp only [hpipe, List.mem_cons, List.not_mem_nil, or_false] at he
      rcases he with rfl | rfl <;> rfl
  | syntaxError => cases he

/-- An end is one of its statement. -/
theorem mem_described {calls i : Nat} {e : GraphEnd}
    (he : e ∈ described pipe dataIn cmdOut calls i config) :
    ∃ j st, config[j]? = some st ∧ e.statement = i + j ∧
      e ∈ st.graphEnds pipe dataIn cmdOut (calls + pipeCallsOf (config.take j)) (i + j) := by
  induction config generalizing calls i with
  | nil => cases he
  | cons st rest ih =>
    rw [described] at he
    rcases List.mem_append.mp he with he | he
    · exact ⟨0, st, rfl, statement_of_graphEnds he, he⟩
    · obtain ⟨j, st', hj, hstatement, hmem⟩ := ih he
      refine ⟨j + 1, st', hj, by omega, ?_⟩
      have hcalls : calls + pipeCallsOf ((st :: rest).take (j + 1))
          = calls + st.calls + pipeCallsOf (rest.take j) := by
        simp only [pipeCallsOf, List.take_succ_cons, List.map_cons, List.sum_cons]
        omega
      rw [hcalls, show i + (j + 1) = i + 1 + j by omega]
      exact hmem

/-- **The ends of one statement**, picked out of all. -/
theorem filter_described {calls i j : Nat} {st : Statement} (hj : config[j]? = some st) :
    (described pipe dataIn cmdOut calls i config).filter (fun e => e.statement = i + j)
      = st.graphEnds pipe dataIn cmdOut (calls + pipeCallsOf (config.take j)) (i + j) := by
  induction config generalizing calls i j with
  | nil => cases hj
  | cons st' rest ih =>
    rw [described, List.filter_append]
    cases j with
    | zero =>
      obtain rfl := Option.some.inj hj
      have hown : (st'.graphEnds pipe dataIn cmdOut calls i).filter (fun e => e.statement = i + 0)
          = st'.graphEnds pipe dataIn cmdOut calls i := by
        rw [List.filter_eq_self]
        intro e he
        exact decide_eq_true (statement_of_graphEnds he)
      have hothers : (described pipe dataIn cmdOut (calls + st'.calls) (i + 1) rest).filter
          (fun e => e.statement = i + 0) = [] := by
        rw [List.filter_eq_nil_iff]
        intro e he heq
        obtain ⟨j, -, -, hstatement, -⟩ := mem_described he
        have := of_decide_eq_true heq
        omega
      rw [hown, hothers, List.append_nil]
      rfl
    | succ j =>
      have hfirst : (st'.graphEnds pipe dataIn cmdOut calls i).filter
          (fun e => e.statement = i + (j + 1)) = [] := by
        rw [List.filter_eq_nil_iff]
        intro e he heq
        have := of_decide_eq_true heq
        have := statement_of_graphEnds he
        omega
      have hcalls : calls + pipeCallsOf ((st' :: rest).take (j + 1))
          = calls + st'.calls + pipeCallsOf (rest.take j) := by
        simp only [pipeCallsOf, List.take_succ_cons, List.map_cons, List.sum_cons]
        omega
      rw [hfirst, List.nil_append, hcalls, show i + (j + 1) = i + 1 + j by omega]
      exact ih hj

/-- The statements come in their order. -/
theorem described_ordered (calls i : Nat) :
    (described pipe dataIn cmdOut calls i config).Pairwise
      (fun e e' => e.statement ≤ e'.statement) := by
  induction config generalizing calls i with
  | nil => exact .nil
  | cons st rest ih =>
    rw [described, List.pairwise_append]
    refine ⟨?_, ih _ _, ?_⟩
    · apply List.pairwise_of_forall_mem_list
      intro e he e' he'
      rw [statement_of_graphEnds he, statement_of_graphEnds he']
    · intro e he e' he'
      obtain ⟨j, -, -, hstatement, -⟩ := mem_described he'
      rw [statement_of_graphEnds he, hstatement]
      omega

/-- Two relationships between components call `pipe` at different times. -/
theorem pipeCallsOf_lt {i j : Nat} (hij : i < j) {st : Statement} (hi : config[i]? = some st) :
    pipeCallsOf (config.take i) + st.calls ≤ pipeCallsOf (config.take j) := by
  have hsplit : config.take j = config.take i ++ (st :: (config.take j).drop (i + 1)) := by
    have hget : (config.take j)[i]? = some st := by
      rw [List.getElem?_take_of_lt hij]
      exact hi
    have hcons := List.drop_eq_getElem_cons (List.getElem?_eq_some_iff.mp hget).1
    rw [(List.getElem?_eq_some_iff.mp hget).2] at hcons
    have htake : (config.take j).take i = config.take i := by
      rw [List.take_take, Nat.min_eq_left hij.le]
    rw [← hcons, ← htake, List.take_append_drop]
  rw [hsplit]
  simp only [pipeCallsOf, List.map_append, List.sum_append, List.map_cons, List.sum_cons]
  omega

end Described

/-- **The graph that a configuration describes**, when `pipe` makes these pipes: the ends of a
statement behind those of the statements before it, and what they are. -/
structure IsGraph (pipes : Nat → Int × Int) (dataIn cmdOut : TypedPipe) (config : List Statement)
    (ends : List GraphEnd) : Prop where
  ordered : ends.Pairwise fun e e' => e.statement ≤ e'.statement
  components : ends.map GraphEnd.component = (config.flatMap Statement.ends).map CompName.name
  fromBench : ∀ i arrow node, config[i]? = some (.fromBench arrow node) →
    ends.filter (fun e => e.statement = i)
      = [⟨i, node.name, { type := arrowType arrow, fdIn := dataIn.fdIn, fdOut := 0 }, node.timed⟩]
  toBench : ∀ i node arrow, config[i]? = some (.toBench node arrow) →
    ends.filter (fun e => e.statement = i)
      = [⟨i, node.name, { type := arrowType arrow, fdIn := 0, fdOut := cmdOut.fdOut }, node.timed⟩]
  link : ∀ i a arrow b, config[i]? = some (.link a arrow b) →
    ∃ k rd wr, pipes k = (rd, wr) ∧ rd ≠ 0 ∧ wr ≠ 0 ∧ rd ≠ wr ∧
      ends.filter (fun e => e.statement = i)
        = [⟨i, a.name, { type := arrowType arrow, fdIn := 0, fdOut := wr }, a.timed⟩,
          ⟨i, b.name, { type := arrowType arrow, fdIn := rd, fdOut := 0 }, b.timed⟩] ∧
      -- No end of another statement has a descriptor of this pipe.
      ∀ e ∈ ends, e.statement ≠ i →
        e.pipe.fdIn ≠ rd ∧ e.pipe.fdIn ≠ wr ∧ e.pipe.fdOut ≠ rd ∧ e.pipe.fdOut ≠ wr

section Graph

variable {pipes : Nat → Int × Int} {dataIn cmdOut : TypedPipe} {config : List Statement}

/-- The ends that a statement has are its ends in the graph. -/
theorem components_described (calls i : Nat) :
    (described (fun k => some (pipes k)) dataIn cmdOut calls i config).map GraphEnd.component
      = (config.flatMap Statement.ends).map CompName.name := by
  induction config generalizing calls i with
  | nil => rfl
  | cons st rest ih =>
    rw [described, List.flatMap_cons, List.map_append, List.map_append, ih]
    cases st <;> rfl

/-- The descriptors of an end are zero, of the Bench or of the pipe of its statement. -/
theorem fds_of_graphEnds {st : Statement} {calls i : Nat} {e : GraphEnd}
    (he : e ∈ st.graphEnds (fun k => some (pipes k)) dataIn cmdOut calls i) {fd : Int}
    (hfd : fd = e.pipe.fdIn ∨ fd = e.pipe.fdOut) :
    fd = 0 ∨ fd ∈ [dataIn.fdIn, cmdOut.fdOut] ∨
      st.calls = 1 ∧ (fd = (pipes calls).1 ∨ fd = (pipes calls).2) := by
  cases st with
  | component name value priority => cases he
  | replicated name value repStrat voterTimer priority => cases he
  | fromBench arrow node =>
    obtain rfl := List.mem_singleton.mp he
    rcases hfd with rfl | rfl
    · exact Or.inr (Or.inl List.mem_cons_self)
    · exact Or.inl rfl
  | toBench node arrow =>
    obtain rfl := List.mem_singleton.mp he
    rcases hfd with rfl | rfl
    · exact Or.inl rfl
    · exact Or.inr (Or.inl (List.mem_cons_of_mem _ List.mem_cons_self))
  | link a arrow b =>
    simp only [Statement.graphEnds, List.mem_cons, List.not_mem_nil, or_false] at he
    rcases he with rfl | rfl
    · rcases hfd with rfl | rfl
      · exact Or.inl rfl
      · exact Or.inr (Or.inr ⟨rfl, Or.inr rfl⟩)
    · rcases hfd with rfl | rfl
      · exact Or.inr (Or.inr ⟨rfl, Or.inl rfl⟩)
      · exact Or.inl rfl
  | syntaxError => cases he

/-- **A pipe is of one statement only.** -/
theorem pipe_of_one_statement (hfresh : FreshPipes pipes [dataIn.fdIn, cmdOut.fdOut]) {i : Nat}
    {a b : CompName} {arrow : Text} (hi : config[i]? = some (.link a arrow b)) {e : GraphEnd}
    (he : e ∈ described (fun k => some (pipes k)) dataIn cmdOut 0 0 config)
    (hother : e.statement ≠ i) {fd : Int} (hfd : fd = e.pipe.fdIn ∨ fd = e.pipe.fdOut) :
    fd ≠ (pipes (pipeCallsOf (config.take i))).1 ∧
      fd ≠ (pipes (pipeCallsOf (config.take i))).2 := by
  obtain ⟨j, st, hj, hstatement, hmem⟩ := mem_described he
  rw [Nat.zero_add] at hstatement
  rw [Nat.zero_add] at hmem
  rw [hstatement] at hother
  rcases fds_of_graphEnds hmem hfd with hzero | huse | ⟨hcalls, hpipe⟩
  · rw [hzero]
    have := hfresh.nonzero (pipeCallsOf (config.take i))
    exact ⟨this.1.symm, this.2.symm⟩
  · have := hfresh.unused (pipeCallsOf (config.take i)) fd huse
    exact ⟨this.1.symm, this.2.symm⟩
  · -- Each link makes its own call of `pipe`, and the statements before it have made fewer.
    have hne : pipeCallsOf (config.take j) ≠ pipeCallsOf (config.take i) := by
      rcases Nat.lt_or_gt_of_ne hother with hlt | hgt
      · have := pipeCallsOf_lt hlt hj
        omega
      · have hle := pipeCallsOf_lt hgt hi
        have : (Statement.link a arrow b).calls = 1 := rfl
        omega
    have hapart := hfresh.apart _ _ hne
    have hcross := (hfresh.apart _ _ hne.symm).2.1.symm
    rcases hpipe with rfl | rfl
    · exact ⟨hapart.1, hapart.2.1⟩
    · exact ⟨hcross, hapart.2.2⟩

/-- **What was written down is the graph.** -/
theorem described_isGraph (hfresh : FreshPipes pipes [dataIn.fdIn, cmdOut.fdOut]) :
    IsGraph pipes dataIn cmdOut config
      (described (fun k => some (pipes k)) dataIn cmdOut 0 0 config) where
  ordered := described_ordered 0 0
  components := components_described 0 0
  fromBench i arrow node hi := by
    have h := @filter_described (fun k => some (pipes k)) dataIn cmdOut config 0 0 i _ hi
    rw [Nat.zero_add] at h
    exact h
  toBench i node arrow hi := by
    have h := @filter_described (fun k => some (pipes k)) dataIn cmdOut config 0 0 i _ hi
    rw [Nat.zero_add] at h
    exact h
  link i a arrow b hi := by
    have h := @filter_described (fun k => some (pipes k)) dataIn cmdOut config 0 0 i _ hi
    rw [Nat.zero_add, Nat.zero_add] at h
    obtain ⟨hrd, hwr⟩ := hfresh.nonzero (pipeCallsOf (config.take i))
    refine ⟨pipeCallsOf (config.take i), _, _, rfl, hrd, hwr, hfresh.two _, h, ?_⟩
    intro e he hother
    have hin := pipe_of_one_statement hfresh hi he hother (Or.inl rfl)
    have hout := pipe_of_one_statement hfresh hi he hother (Or.inr rfl)
    exact ⟨hin.1, hin.2, hout.1, hout.2⟩

end Graph

/-- **The plumber builds the graph that is described.** For every configuration of declarations
and relationships that can be carried out, the parser comes to its end, and what a declared
component holds are its ends of the graph, in their order, with their flags. -/
theorem plumber_builds_graph (config : List Statement) (hsound : AllSound config)
    (pipes : Nat → Int × Int) (dataIn cmdOut : TypedPipe)
    (hfresh : FreshPipes pipes [dataIn.fdIn, cmdOut.fdOut]) :
    ∃ s ends, (yyparse (fun k => some (pipes k)) config).run { dataIn, cmdOut } = .ok (0, s) ∧
      IsGraph pipes dataIn cmdOut config ends ∧
      (∀ name, name ∈ declared config ↔ ∃ n ∈ s.nodes, n.name = name) ∧
      (s.nodes.map PlumberNode.name).Nodup ∧
      ∀ n ∈ s.nodes, n.Holds (pipesOf ends n.name) ∧
        (pipesOf ends n.name).length = occurrences config n.name := by
  have hstart : Built (fun k => some (pipes k)) dataIn cmdOut [] { dataIn, cmdOut } := Built.start
  have hrun := hstart.yyparse (fun before st after heq => hsound before st after heq)
  obtain ⟨ret, s, hs, rfl, hbuilt⟩ := wp.exists_run hrun
  refine ⟨s, _, hs, described_isGraph hfresh, ?_, hbuilt.nodup, ?_⟩
  · intro name
    have := hbuilt.names name
    rw [List.mem_map] at this
    exact this.symm
  · intro n hn
    refine ⟨hbuilt.holds n hn, ?_⟩
    rw [length_pipesOf_eq, components_described]
    rfl

/-- A filter that feeds itself and the Bench. -/
theorem plumber_builds_graph_filter :
    let filter : CompName := ⟨"Filter".toList, true⟩
    let config := [.replicated filter.name "filter".toList .dmr "400".toList "10".toList,
      .fromBench "RANGE_POSE_DATA".toList filter, .link filter "MAP_UPDATE".toList filter,
      .toBench { filter with timed := false } "MOV_CMD".toList]
    let pipes := fun k : Nat => ((2 * k + 5 : Int), (2 * k + 6 : Int))
    AllSound config ∧ FreshPipes pipes [3, 4] ∧
      ∃ s ends, (yyparse (fun k => some (pipes k)) config).run
          { dataIn := { fdIn := 3 }, cmdOut := { fdOut := 4 } } = .ok (0, s) ∧
        IsGraph pipes { fdIn := 3 } { fdOut := 4 } config ends ∧
        (∀ name, name ∈ declared config ↔ ∃ n ∈ s.nodes, n.name = name) ∧
        (s.nodes.map PlumberNode.name).Nodup ∧
        ∀ n ∈ s.nodes, n.Holds (pipesOf ends n.name) ∧
          (pipesOf ends n.name).length = occurrences config n.name := by
  intro filter config pipes
  have hsound : AllSound config :=
    (((AllSound.nil.snoc (by decide)).snoc (by decide)).snoc (by decide)).snoc (by decide)
  have hfresh : FreshPipes pipes [3, 4] := by
    constructor
    · intro k
      dsimp only [pipes]
      omega
    · intro k
      dsimp only [pipes]
      omega
    · intro j k hjk
      dsimp only [pipes]
      omega
    · intro k fd hfd
      simp only [List.mem_cons, List.not_mem_nil, or_false] at hfd
      dsimp only [pipes]
      omega
  exact ⟨hsound, hfresh,
    plumber_builds_graph config hsound pipes { fdIn := 3 } { fdOut := 4 } hfresh⟩

end Pint
