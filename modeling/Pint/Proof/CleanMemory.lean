import Pint.Proof.NodeTable

/-!
# The plumber in clean memory

`Program/Plumber.lean` keeps the components in a list, and `Plumbing` in the chain of cells that
`add_node` builds in what `malloc` returns. The two do the same in memory that is clean: where the
texts of every new component fit and the cell behind it is zero. That is the condition under
which the chain is a table (`PlumberHeap.behaves_start_iff`); here it is carried through a whole
configuration, with the actions that fill the nodes in between.

The invariant is `Mirrors`. The chain is linked and ends, so `get_node` finds what it finds in the
list. The nodes are the same as far as anything reads them: their arrays are not cleared, and may
differ behind the pipes that were counted (`SameNode`). That is enough, because `pipe_count` is
cleared, every slot is written before it is counted, and a command line is made of the counted
slots alone (`SameNode.repArgv`).

Both sides are programs, and `Matches` says that they answer alike and keep the relation, so the
proofs follow the source: one lemma for each call, and `Matches.bind` puts them behind one another.
What is asked of the memory shrinks as the configuration is read (`Mirrors.yyparse`): it has to
suit the components that are still to be declared.
-/

namespace Pint

open Prog
open Scan (Text)

/-- The component of a declaration. -/
def Statement.declaration : Statement → Option Component
  | .component name value priority => some ⟨name, value, .none, [], [], priority⟩
  | .replicated name value repStrat voterTimer priority =>
    some ⟨name, value, repStrat, "VoterD".toList, voterTimer, priority⟩
  | _ => none

/-- The components that these statements declare. -/
def components (config : List Statement) : List Component :=
  config.filterMap Statement.declaration

theorem components_cons (st : Statement) (rest : List Statement) :
    components (st :: rest) = st.declaration.toList ++ components rest := by
  unfold components
  cases hst : st.declaration with
  | none => rw [List.filterMap_cons_none hst]; rfl
  | some c => rw [List.filterMap_cons_some hst]; rfl

/-- **Clean memory** for these statements: it suits every component that is added, and the two
arrays of a node are as long as its struct says. -/
structure Memory.Clean (mem : Memory) (config : List Statement) : Prop where
  suits : ∀ i c, (OrderedTable.empty.addAll (components config) :
    PlumberHeap.Declared).entries[i]? = some c → mem.Suits i c
  sized : ∀ i, (mem.node i).pipes.size = pipeLimit ∧ (mem.node i).timed.size = pipeLimit

/-! ## Nodes -/

/-- Two arrays that are the same in front of `n`. -/
structure SameUpTo {α : Type} (n : Int) (a b : CArray α) : Prop where
  size : a.size = b.size
  cells : ∀ i, 0 ≤ i → i < n → a.cells i = b.cells i

/-- A node in memory, and one in the list, that nobody can tell apart. Where there are no replicas
nobody looks for a voter. -/
inductive SameNode : PlumberNode → PlumberNode → Prop where
  | intro {n : PlumberNode} {voterName voterTimer : Text} {pipes : CArray TypedPipe}
      {timed : CArray Int}
      (hvoter : n.repStrat ≠ .none → voterName = n.voterName ∧ voterTimer = n.voterTimer)
      (hpipes : SameUpTo n.pipeCount pipes n.pipes) (htimed : SameUpTo n.pipeCount timed n.timed) :
      SameNode { n with voterName, voterTimer, pipes, timed } n

section Nodes

variable {α : Type} {a b : CArray α} {k : Int} {m n : PlumberNode}

theorem SameUpTo.get (h : SameUpTo k a b) {i : Int} (hi : i < k) : a.get i = b.get i := by
  unfold CArray.get
  rw [h.size]
  by_cases hin : 0 ≤ i ∧ i < (b.size : Int)
  · rw [if_pos hin, if_pos hin, h.cells i hin.1 hi]
  · rw [if_neg hin, if_neg hin]

/-- The next cell is set, or there is none. -/
theorem SameUpTo.set (h : SameUpTo k a b) (x : α) :
    (∃ a' b', a.set k x = .ok a' ∧ b.set k x = .ok b' ∧ SameUpTo (k + 1) a' b') ∨
      (a.set k x = .error .outOfRange ∧ b.set k x = .error .outOfRange) := by
  unfold CArray.set
  rw [h.size]
  by_cases hin : 0 ≤ k ∧ k < (b.size : Int)
  · refine Or.inl ⟨_, _, if_pos hin, if_pos hin, rfl, fun i h0 hi => ?_⟩
    dsimp only
    by_cases hik : i = k
    · rw [if_pos hik, if_pos hik]
    · rw [if_neg hik, if_neg hik]
      exact h.cells i h0 (by omega)
  · exact Or.inr ⟨if_neg hin, if_neg hin⟩

/-- **A slot is filled** in both, or in neither. -/
theorem SameNode.fillSlot (h : SameNode m n) (pipe : TypedPipe) (timed : Bool) :
    (∃ m' n', m.fillSlot pipe timed = .ok m' ∧ n.fillSlot pipe timed = .ok n' ∧
      m'.name = m.name ∧ SameNode m' n') ∨
      (m.fillSlot pipe timed = .error .outOfRange ∧
        n.fillSlot pipe timed = .error .outOfRange) := by
  obtain ⟨hvoter, hpipes, htimed⟩ := h
  unfold PlumberNode.fillSlot
  dsimp only
  rcases hpipes.set pipe with ⟨ps, qs, hps, hqs, hpipes'⟩ | ⟨hps, hqs⟩
  · rcases htimed.set (if timed then 1 else 0) with ⟨fs, gs, hfs, hgs, htimed'⟩ | ⟨hfs, hgs⟩
    · simp only [hps, hqs, hfs, hgs, ok_bind]
      refine Or.inl ⟨_, _, rfl, rfl, rfl, ?_⟩
      exact .intro (n := { n with pipes := qs, timed := gs, pipeCount := n.pipeCount + 1 })
        hvoter hpipes' htimed'
    · simp only [hps, hqs, hfs, hgs, ok_bind]
      exact Or.inr ⟨rfl, rfl⟩
  · simp only [hps, hqs]
    exact Or.inr ⟨rfl, rfl⟩

theorem SameNode.pipeArgs (h : SameNode m n) (k : Nat) {i : Int}
    (hk : 0 < k → i + k ≤ n.pipeCount) : Pint.pipeArgs m k i = Pint.pipeArgs n k i := by
  obtain ⟨-, hpipes, htimed⟩ := h
  induction k generalizing i with
  | zero => rfl
  | succ k ih =>
    have hi : i < n.pipeCount := by
      have := hk (Nat.succ_pos k)
      omega
    unfold Pint.pipeArgs
    dsimp only
    rw [hpipes.get hi, htimed.get hi, ih (fun hpos => by omega)]

/-- **They are launched with the same command line.** -/
theorem SameNode.repArgv (h : SameNode m n) : Pint.repArgv m = Pint.repArgv n := by
  have hargs : Pint.pipeArgs m n.pipeCount.toNat 0 = Pint.pipeArgs n n.pipeCount.toNat 0 :=
    h.pipeArgs _ fun hpos => by omega
  obtain ⟨hvoter, -, -⟩ := h
  unfold Pint.repArgv
  dsimp only
  rw [hargs]
  by_cases hrep : n.repStrat = .none
  · simp only [if_pos hrep]
  · obtain ⟨rfl, rfl⟩ := hvoter hrep
    rfl

theorem launchNode_same {ms ns : List PlumberNode} (h : List.Forall₂ SameNode ms ns) :
    Plumber.launchNode ms = Plumber.launchNode ns := by
  induction h with
  | nil => rfl
  | cons hmn _ ih => rw [Plumber.launchNode, Plumber.launchNode, hmn.repArgv, ih]

theorem names_same {ms ns : List PlumberNode} (h : List.Forall₂ SameNode ms ns) :
    ms.map PlumberNode.name = ns.map PlumberNode.name := by
  induction h with
  | nil => rfl
  | cons hmn _ ih =>
    obtain ⟨-, -, -⟩ := hmn
    rw [List.map_cons, List.map_cons, ih]

/-- The new node of a component, in memory and in the list. -/
theorem same_declared {c : Component} {new : PlumberNode} (hpipes : new.pipes.size = pipeLimit)
    (htimed : new.timed.size = pipeLimit) : SameNode (c.node new) c.declared := by
  refine .intro (n := c.declared) (fun hrep => ⟨if_neg hrep, if_neg hrep⟩) ⟨hpipes, ?_⟩ ⟨htimed, ?_⟩
  · exact fun i h0 hi => absurd hi (not_lt.mpr h0)
  · exact fun i h0 hi => absurd hi (not_lt.mpr h0)

end Nodes

/-! ## The two plumbers -/

/-- Two plumbers that are the same but for the arrays of their nodes, which have these names. -/
structure SamePlumber (names : List Text) (s t : Plumber) : Prop where
  nodes : List.Forall₂ SameNode s.nodes t.nodes
  rest : t = { s with nodes := t.nodes }
  names : s.nodes.map PlumberNode.name = names

section SamePlumber

variable {names : List Text} {s t : Plumber}

theorem SamePlumber.say (h : SamePlumber names s t) (m : PlumberMessage) :
    Matches (SamePlumber names) (Plumber.say m) (Plumber.say m) s t := by
  refine .of_ok rfl rfl ⟨h.nodes, ?_, h.names⟩
  rw [h.rest]

/-- A change of a node, as a step. -/
theorem updateNode_run (s : Plumber) (i : Nat) (f : PlumberNode → Except Fault PlumberNode) :
    (Plumber.updateNode (some i) f).run s = match s.nodes[i]? with
      | none => .error .nullPointer
      | some n => (f n).map fun n' => ((), { s with nodes := s.nodes.set i n' }) := by
  unfold Plumber.updateNode
  simp only [StateT.run_bind, StateT.run_get, pure_bind]
  cases s.nodes[i]? with
  | none => rfl
  | some n =>
    dsimp only
    rw [StateT.run_bind]
    cases f n <;> rfl

theorem forall₂_getElem? {α β : Type} {R : α → β → Prop} {as : List α} {bs : List β}
    (h : List.Forall₂ R as bs) (i : Nat) :
    (as[i]? = none ∧ bs[i]? = none) ∨ ∃ a b, as[i]? = some a ∧ bs[i]? = some b ∧ R a b := by
  induction h generalizing i with
  | nil => exact Or.inl ⟨rfl, rfl⟩
  | cons hab _ ih =>
    cases i with
    | zero => exact Or.inr ⟨_, _, rfl, rfl, hab⟩
    | succ i => exact ih i

theorem forall₂_set {α β : Type} {R : α → β → Prop} {as : List α} {bs : List β} {a : α} {b : β}
    (h : List.Forall₂ R as bs) (hab : R a b) (i : Nat) :
    List.Forall₂ R (as.set i a) (bs.set i b) := by
  induction h generalizing i with
  | nil => exact .nil
  | cons hcd hrest ih =>
    cases i with
    | zero => exact .cons hab hrest
    | succ i => exact .cons hcd (ih i)

/-- A slot of the same node is filled. -/
theorem SamePlumber.fillSlot (h : SamePlumber names s t) (node : Option Nat) (pipe : TypedPipe)
    (timed : Bool) :
    Matches (SamePlumber names) (Plumber.updateNode node fun n => n.fillSlot pipe timed)
      (Plumber.updateNode node fun n => n.fillSlot pipe timed) s t := by
  cases node with
  | none => exact .of_error rfl rfl
  | some i =>
    have hleft := updateNode_run s i fun n => n.fillSlot pipe timed
    have hright := updateNode_run t i fun n => n.fillSlot pipe timed
    rcases forall₂_getElem? h.nodes i with ⟨hm, hn⟩ | ⟨m, n, hm, hn, hsame⟩
    · rw [hm] at hleft
      rw [hn] at hright
      exact .of_error hleft hright
    · rw [hm] at hleft
      rw [hn] at hright
      dsimp only at hleft hright
      rcases hsame.fillSlot pipe timed with ⟨m', n', hm', hn', hname, hsame'⟩ | ⟨hm', hn'⟩
      · rw [hm'] at hleft
        rw [hn'] at hright
        refine .of_ok hleft hright ⟨forall₂_set h.nodes hsame' i, ?_, ?_⟩
        · rw [h.rest]
        · rw [← h.names]
          exact map_set_same hm hname
      · rw [hm'] at hleft
        rw [hn'] at hright
        exact .of_error hleft hright

/-- A link for which `pipe` answers something. -/
theorem linkNode_some {pipe : Plumber.PipeCalls} {u : Plumber} {fds : Int × Int}
    (h : pipe u.pipeCalls = some fds) (type : CommMessage) (fromNode toNode : Option Nat)
    (fromTimed toTimed : Bool) :
    (Plumber.linkNode pipe type fromNode fromTimed toNode toTimed).run u = (do
      Plumber.updateNode fromNode fun n =>
        n.fillSlot { type, fdIn := 0, fdOut := fds.2 } fromTimed
      Plumber.updateNode toNode fun n =>
        n.fillSlot { type, fdIn := fds.1, fdOut := 0 } toTimed : Plumber.M Unit).run
          { u with pipeCalls := u.pipeCalls + 1 } := by
  unfold Plumber.linkNode
  simp only [StateT.run_bind, StateT.run_get, StateT.run_set, pure_bind, h]

theorem linkNode_none {pipe : Plumber.PipeCalls} {u : Plumber} (h : pipe u.pipeCalls = none)
    (type : CommMessage) (fromNode toNode : Option Nat) (fromTimed toTimed : Bool) :
    (Plumber.linkNode pipe type fromNode fromTimed toNode toTimed).run u
      = (Plumber.say .pipeError).run { u with pipeCalls := u.pipeCalls + 1 } := by
  unfold Plumber.linkNode
  simp only [StateT.run_bind, StateT.run_get, StateT.run_set, pure_bind, h]

/-- Both ends of a new pipe are given to the same nodes. -/
theorem SamePlumber.linkNode (h : SamePlumber names s t) (pipe : Plumber.PipeCalls)
    (type : CommMessage) (fromNode toNode : Option Nat) (fromTimed toTimed : Bool) :
    Matches (SamePlumber names) (Plumber.linkNode pipe type fromNode fromTimed toNode toTimed)
      (Plumber.linkNode pipe type fromNode fromTimed toNode toTimed) s t := by
  have hcalls : t.pipeCalls = s.pipeCalls := by rw [h.rest]
  have h' : SamePlumber names { s with pipeCalls := s.pipeCalls + 1 }
      { t with pipeCalls := t.pipeCalls + 1 } := by
    refine ⟨h.nodes, ?_, h.names⟩
    rw [h.rest]
  cases hpipe : pipe s.pipeCalls with
  | none =>
    have hpipe' : pipe t.pipeCalls = none := by rwa [hcalls]
    exact .of_run (linkNode_none hpipe ..) (linkNode_none hpipe' ..) (h'.say _)
  | some fds =>
    have hpipe' : pipe t.pipeCalls = some fds := by rwa [hcalls]
    refine .of_run (linkNode_some hpipe ..) (linkNode_some hpipe' ..) ?_
    exact (h'.fillSlot fromNode _ _).bind fun _ _ _ hnext => hnext.fillSlot toNode _ _

end SamePlumber

/-! ## The list in memory -/

/-- The plumber in memory and the one with the list, after these components were added. -/
structure Mirrors (table : PlumberHeap.Declared) (s : Plumbing) (t : Plumber) : Prop
    extends SamePlumber table.keys s.toPlumber t where
  linked : s.heap.Linked
  ended : s.heap.Ended

section Mirrors

variable {mem : Memory} {table : PlumberHeap.Declared} {s : Plumbing} {t : Plumber}
  {c : Component} {α : Type}

theorem Mirrors.start {dataIn cmdOut : TypedPipe} :
    Mirrors OrderedTable.empty { dataIn, cmdOut } { dataIn, cmdOut } where
  nodes := .nil
  rest := rfl
  names := rfl
  linked := PlumberHeap.linked_start
  ended := PlumberHeap.ended_start

theorem Mirrors.length_eq (h : Mirrors table s t) : s.nodes.length = table.entries.length := by
  have hlength := congrArg List.length h.names
  rw [List.length_map] at hlength
  rw [hlength]
  exact List.length_map _

/-- What leaves the list alone goes on side by side. -/
theorem Mirrors.onNodes {x : Plumber.M α} (h : Mirrors table s t)
    (hx : Matches (SamePlumber table.keys) x x s.toPlumber t) :
    Matches (Mirrors table) (Plumbing.onNodes x) x s t := by
  cases hrun : x.run s.toPlumber with
  | error e =>
    refine .of_error ?_ (hx.stops e hrun)
    unfold Plumbing.onNodes
    simp only [StateT.run_bind, StateT.run_get, pure_bind, hrun]
    rfl
  | ok r =>
    obtain ⟨a, s'⟩ := r
    obtain ⟨t', ht', hsame⟩ := hx.answers a s' hrun
    have hsize : s'.nodes.length = s.nodes.length := by
      have hnames := congrArg List.length (hsame.names.trans h.names.symm)
      rwa [List.length_map, List.length_map] at hnames
    refine .of_ok (u := { s with toPlumber := s' }) ?_ ht' ⟨hsame, ⟨?_, ?_⟩, ?_⟩
    · unfold Plumbing.onNodes
      simp only [StateT.run_bind, StateT.run_get, pure_bind, hrun]
      rfl
    · exact h.linked.length.trans (congrArg (· + 1) hsize.symm)
    · intro i hi
      exact h.linked.cell i (Nat.lt_of_lt_of_eq hi hsize)
    · obtain ⟨next, hnext⟩ := h.ended
      refine ⟨next, ?_⟩
      show s.lists[s'.nodes.length]? = _
      rw [hsize]
      exact hnext

/-- **`get_node`** finds the node at the same number. -/
theorem Mirrors.findNode (h : Mirrors table s t) (name : Text) :
    Matches (Mirrors table) (Plumbing.findNode name) (Plumber.findNode name) s t := by
  have hnode : s.heap.getNode name s.lists.length PlumberHeap.allNodes
      = .ok (Plumber.getNode t.nodes name) := by
    rw [getNode_congr (names_same h.nodes).symm]
    exact PlumberHeap.getNode_all h.linked h.ended
  unfold Plumbing.findNode Plumber.findNode
  refine .get_bind (.lift_bind hnode ?_)
  dsimp only
  by_cases hnone : Plumber.getNode t.nodes name = none
  · rw [if_pos hnone, if_pos hnone]
    exact (h.onNodes (h.say _)).bind fun _ _ _ h' => .pure h'
  · rw [if_neg hnone, if_neg hnone]
    exact .pure h

/-- **`add_node`** adds the component to both, if the memory suits. -/
theorem Mirrors.declare (h : Mirrors table s t) (hsuits : c.name ∉ table.keys →
      mem.Suits table.entries.length c)
    (hsized : ∀ i, (mem.node i).pipes.size = pipeLimit ∧ (mem.node i).timed.size = pipeLimit) :
    Matches (Mirrors (table.add c).2) (Plumbing.declare mem c)
      (Plumber.declare c.name c.value c.repType c.voterName c.voterTimer c.priority) s t := by
  have hcalls : s.lists.length = s.nodes.length + 1 := h.linked.length
  unfold Plumbing.declare Plumber.declare
  refine .get_bind ?_
  -- A name that is known is found before the end of the list, and nothing is allocated.
  by_cases hnew : c.name ∈ table.keys
  · rw [OrderedTable.add_known hnew]
    have hmem : c.name ∈ s.nodes.map PlumberNode.name := by rwa [h.names]
    have hadd : PlumberHeap.addNode mem c s.lists.length s.heap PlumberHeap.allNodes
        = .ok (false, s.heap) := by
      rw [hcalls]
      exact PlumberHeap.addNode_known h.linked (Nat.zero_le _) (Nat.lt_succ_self _) hmem
    refine .lift_bind hadd ?_
    rw [addNode_known (by rwa [← names_same h.nodes])]
    dsimp only
    exact Matches.of_run (f := Plumbing.onNodes (Plumber.say (.redefining c.name)))
      (g := Plumber.say (.redefining c.name)) rfl rfl (h.onNodes (h.say _))
  · rw [OrderedTable.add_new hnew]
    -- A new one fills the end. The memory is clean for exactly this node: its texts fit, and the
    -- new end is zero.
    obtain ⟨hfits, hzero⟩ := hsuits hnew
    rw [← h.length_eq] at hzero
    have hmem : c.name ∉ s.nodes.map PlumberNode.name := by rwa [h.names]
    have hadd : PlumberHeap.addNode mem c s.lists.length s.heap PlumberHeap.allNodes
        = .ok (true, s.heap.fill mem (some s.nodes.length) (c.node (mem.node s.nodes.length))) := by
      have hcall : PlumberHeap.addNode mem c (s.nodes.length + 1) s.heap (some 0) = _ :=
        PlumberHeap.addNode_new h.linked h.ended (Nat.zero_le _) (Nat.lt_succ_self _) hmem
      rw [newNode_fits hfits] at hcall
      rw [hcalls]
      exact hcall
    refine .lift_bind hadd ?_
    rw [addNode_new (by rwa [← names_same h.nodes])]
    dsimp only
    refine .of_ok rfl rfl ⟨⟨?_, ?_, ?_⟩, h.linked.fill _, ?_⟩
    · refine List.rel_append h.nodes (.cons ?_ .nil)
      exact same_declared (hsized _).1 (hsized _).2
    · rw [h.rest]
    · show (s.nodes ++ [c.node _]).map PlumberNode.name = (table.entries ++ [c]).map Component.name
      rw [List.map_append, List.map_append, h.names]
      rfl
    · exact (h.linked.ended_fill_iff _).mpr hzero

/-- **A statement** does the same in both, if the memory suits the component that it declares. -/
theorem Mirrors.action (h : Mirrors table s t) {st : Statement} (hsuits : ∀ c ∈ st.declaration,
      c.name ∉ table.keys → mem.Suits table.entries.length c)
    (hsized : ∀ i, (mem.node i).pipes.size = pipeLimit ∧ (mem.node i).timed.size = pipeLimit)
    (pipe : Plumber.PipeCalls) :
    Matches (Mirrors (table.addAll st.declaration.toList)) (Plumbing.action mem pipe st)
      (Plumber.action pipe st) s t := by
  unfold Plumbing.action Plumber.action
  cases st with
  | component name value priority =>
    exact (h.declare (hsuits _ rfl) hsized).bind fun _ _ _ h' => .pure h'
  | replicated name value repStrat voterTimer priority =>
    exact (h.declare (hsuits _ rfl) hsized).bind fun _ _ _ h' => .pure h'
  | fromBench arrow node =>
    refine (h.findNode node.name).bind fun nodeA s' t' h' => .get_bind ?_
    rw [show t'.dataIn = s'.dataIn by rw [h'.rest]]
    exact (h'.onNodes (h'.fillSlot nodeA _ _)).bind fun _ _ _ h'' => .pure h''
  | toBench node arrow =>
    refine (h.findNode node.name).bind fun nodeA s' t' h' => .get_bind ?_
    rw [show t'.cmdOut = s'.cmdOut by rw [h'.rest]]
    exact (h'.onNodes (h'.fillSlot nodeA _ _)).bind fun _ _ _ h'' => .pure h''
  | link a arrow b =>
    refine (h.findNode a.name).bind fun nodeA s' t' h' => ?_
    refine (h'.findNode b.name).bind fun nodeB s'' t'' h'' => ?_
    -- A relationship of an unknown type is reported after both nodes were looked up.
    by_cases htype : Plumber.arrowType arrow = .commError
    · rw [if_pos htype, if_pos htype]
      exact (h''.onNodes (h''.say _)).bind fun _ _ _ hsaid => .pure hsaid
    · rw [if_neg htype, if_neg htype]
      exact (h''.onNodes (h''.linkNode pipe _ nodeA nodeB _ _)).bind fun _ _ _ hlinked =>
        .pure hlinked
  | syntaxError => exact (h.onNodes (h.say _)).bind fun _ _ _ h' => .pure h'

/-- **A configuration** is read side by side, in memory that suits the components that are still
new. -/
theorem Mirrors.yyparse {config : List Statement} (h : Mirrors table s t)
    (hsuits : ∀ i c, table.entries.length ≤ i →
      (table.addAll (components config)).entries[i]? = some c → mem.Suits i c)
    (hsized : ∀ i, (mem.node i).pipes.size = pipeLimit ∧ (mem.node i).timed.size = pipeLimit)
    (pipe : Plumber.PipeCalls) :
    Matches (fun s' t' => ∃ table', Mirrors table' s' t') (Plumbing.yyparse mem pipe config)
      (Plumber.yyparse pipe config) s t := by
  induction config generalizing table s t with
  | nil => exact .pure ⟨table, h⟩
  | cons st rest ih =>
    have hall : table.addAll (components (st :: rest))
        = (table.addAll st.declaration.toList).addAll (components rest) := by
      unfold OrderedTable.addAll
      rw [← List.foldl_append, components_cons]
    rw [hall] at hsuits
    unfold Plumbing.yyparse Plumber.yyparse
    refine Matches.bind (h.action (fun c hc hnew => ?_) hsized pipe) fun ret s' t' h' => ?_
    · -- If the statement declares a new name, that is the next entry of the table, and stays it.
      have hdecl : st.declaration = some c := hc
      have hlast :
          (table.addAll st.declaration.toList).entries[table.entries.length]? = some c := by
        show (st.declaration.toList.foldl (fun t a => (t.add a).2) table).entries[_]? = some c
        rw [hdecl]
        show (table.add c).2.entries[_]? = some c
        rw [OrderedTable.add_new hnew]
        exact List.getElem?_concat_length
      exact hsuits _ c (le_refl _) (OrderedTable.getElem?_addAll hlast)
    · cases ret with
      | some ret => exact .pure ⟨_, h'⟩
      | none =>
        have hfront := OrderedTable.entries_addAll (t := table) st.declaration.toList
        exact ih h' fun i c hi hc => hsuits i c (hfront.length_le.trans hi) hc

end Mirrors

/-- **In clean memory the plumber starts what the one with the list starts**, with the same faults
and the same messages on the way. -/
theorem Plumbing.main_eq {mem : Memory} {config : List Statement} (h : mem.Clean config)
    (pipe : Plumber.PipeCalls) (dataIn cmdOut : TypedPipe) :
    Plumbing.main mem pipe dataIn cmdOut config = Plumber.main pipe dataIn cmdOut config := by
  have hstart : Mirrors OrderedTable.empty ({ dataIn, cmdOut } : Plumbing) { dataIn, cmdOut } :=
    Mirrors.start
  obtain ⟨hanswers, hstops⟩ := hstart.yyparse (fun i c _ hc => h.suits i c hc) h.sized pipe
  unfold Plumbing.main Plumber.main
  cases hrun : (Plumbing.yyparse mem pipe config).run { dataIn, cmdOut } with
  | error e => rw [hstops e hrun]
  | ok r =>
    obtain ⟨ret, s⟩ := r
    obtain ⟨t, ht, table, hmirrors⟩ := hanswers ret s hrun
    rw [ht]
    dsimp only
    have hlaunch : s.heap.launchNode s.lists.length PlumberHeap.allNodes = _ :=
      PlumberHeap.launchNode_all hmirrors.linked hmirrors.ended
    rw [hlaunch, ← launchNode_same hmirrors.nodes]
    cases hargvs : Plumber.launchNode s.nodes with
    | error e =>
      have hnone : Plumber.launchNode s.heap.nodes = .error e := hargvs
      rw [hnone]
      rfl
    | ok argvs =>
      have hsome : Plumber.launchNode s.heap.nodes = .ok argvs := hargvs
      rw [hsome]
      exact congrArg Except.ok (List.map_snd_zip (by rw [List.length_range]))

end Pint
