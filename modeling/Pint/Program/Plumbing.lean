import Pint.Program.Plumber

/-!
# `plumbing.c` — the list of components in memory

The end of the list is a cell without a node. `add_node` fills it, and takes a new cell for the
end from `malloc`, which it leaves as it is. `Program/Plumber.lean` takes that memory to be zero;
here it may be anything.

Cells and nodes are numbered as they are allocated, and a pointer is null or such a number. One
that is followed to where nothing was allocated is a fault. The three functions call themselves
with the next cell; they are given so many calls to make.

`Plumbing` is the plumber with this list: its actions are those of `Program/Plumber.lean`, but
`add_node`, `get_node` and `launch_node` are the ones in memory. It lets them make as many calls
as there are cells, since a chain of more cells than there are is a ring, and never ends.
-/

namespace Pint

open Scan (Text)

/-- `struct nodelist` -/
structure NodeList where
  current : Option Nat := none
  next : Option Nat := none
deriving DecidableEq, Repr

/-- What `add_node` is called with. -/
structure Component where
  name : Text
  value : Text
  repType : Replication
  voterName : Text
  voterTimer : Text
  priority : Text
deriving DecidableEq, Repr

/-- What `malloc` gives: what is in the memory for a cell or a node, and how many bytes can be
stored where so many were asked for. -/
structure Memory where
  nodelist : Nat → NodeList
  node : Nat → PlumberNode
  room : Nat → Nat

/-- `strcpy` into `malloc(strlen(s))`. -/
def Memory.strcpy (mem : Memory) (s : Text) : Except Fault Text :=
  if s.length + 1 ≤ mem.room s.length then .ok s else .error .outOfRange

/-- The node that `add_node` makes, out of what was in its memory. -/
def Component.newNode (c : Component) (mem : Memory) (new : PlumberNode) :
    Except Fault PlumberNode := do
  let name ← mem.strcpy c.name
  let value ← mem.strcpy c.value
  -- Set replication strategy and voter name (if one)
  let new := { new with name, value, pipeCount := 0, repStrat := c.repType }
  let new ←
    if c.repType ≠ .none then do
      let voterName ← mem.strcpy c.voterName
      let voterTimer ← mem.strcpy c.voterTimer
      pure { new with voterName, voterTimer }
    else pure { new with voterName := [], voterTimer := [] } -- NULL
  return { new with priority := ← mem.strcpy c.priority }

/-- The memory that the list is in. -/
structure PlumberHeap where
  lists : List NodeList
  nodes : List PlumberNode

namespace PlumberHeap

/-- `all_nodes`, which is zero at first, is cell 0. -/
def start : PlumberHeap := ⟨[{}], []⟩

def allNodes : Option Nat := some 0

def listAt (h : PlumberHeap) : Option Nat → Except Fault NodeList
  | none => .error .nullPointer
  | some a =>
    match h.lists[a]? with
    | some list => .ok list
    | none => .error .outOfRange

def nodeAt (h : PlumberHeap) (a : Nat) : Except Fault PlumberNode :=
  match h.nodes[a]? with
  | some node => .ok node
  | none => .error .outOfRange

/-- `nodes->current = new_node`, `nodes->next = malloc(sizeof(struct nodelist))` -/
def fill (h : PlumberHeap) (mem : Memory) (nodes : Option Nat) (new : PlumberNode) :
    PlumberHeap where
  lists := h.lists.set (nodes.getD 0) ⟨some h.nodes.length, some h.lists.length⟩
    ++ [mem.nodelist h.lists.length]
  nodes := h.nodes ++ [new]

def addNode (mem : Memory) (c : Component) :
    Nat → PlumberHeap → Option Nat → Except Fault (Bool × PlumberHeap)
  | 0, _, _ => .error .hung
  | calls + 1, h, nodes => do
    let list ← h.listAt nodes
    match list.current with
    | none => -- if current is null, add new node
      let new ← c.newNode mem (mem.node h.nodes.length)
      return (true, h.fill mem nodes new)
    | some current =>
      if c.name = (← h.nodeAt current).name then return (false, h) -- Node already exists, bail
      else addNode mem c calls h list.next

def getNode (h : PlumberHeap) (name : Text) : Nat → Option Nat → Except Fault (Option Nat)
  | 0, _ => .error .hung
  | calls + 1, nodes => do
    let list ← h.listAt nodes
    match list.current with
    | none => return none
    | some current =>
      if name = (← h.nodeAt current).name then return some current
      else getNode h name calls list.next

/-- `launch_node`: the nodes that it comes to, and their command lines. -/
def launchNode (h : PlumberHeap) : Nat → Option Nat → Except Fault (List (Nat × List Text))
  | 0, _ => .error .hung
  | calls + 1, nodes => do
    let list ← h.listAt nodes
    match list.current with
    | none => return [] -- curr == NULL, okay.
    | some curr =>
      let argv ← repArgv (← h.nodeAt curr)
      return (curr, argv) :: (← launchNode h calls list.next)

end PlumberHeap

/-! ## The plumber -/

/-- The nodes are those of the heap, by their numbers. -/
structure Plumbing extends Plumber where
  lists : List NodeList := [{}]

namespace Plumbing

open Prog Plumber

abbrev M := Program Plumbing Fault

/-- The list of components. -/
def heap (s : Plumbing) : PlumberHeap := ⟨s.lists, s.nodes⟩

/-- What is done to the nodes, and not to the list. -/
def onNodes {α : Type} (x : Plumber.M α) : M α := do
  let s ← get
  let (a, plumber) ← x.run s.toPlumber
  set { s with toPlumber := plumber }
  return a

variable (mem : Memory)

/-- A call of `add_node`, whose result is not looked at. -/
def declare (c : Component) : M Unit := do
  let s ← get
  let (added, h) ← PlumberHeap.addNode mem c s.lists.length s.heap PlumberHeap.allNodes
  set { s with lists := h.lists, nodes := h.nodes }
  if added = false then onNodes (Plumber.say (.redefining c.name))

/-- `get_node`, with what it prints. -/
def findNode (name : Text) : M (Option Nat) := do
  let s ← get
  let node ← s.heap.getNode name s.lists.length PlumberHeap.allNodes
  if node = none then onNodes (Plumber.say (.noNode name))
  return node

variable (pipe : PipeCalls)

/-- The action of a statement, and what it makes `yyparse` return, if it does. -/
def action : Statement → M (Option Int)
  | .component name value priority => do
    declare mem ⟨name, value, .none, [], [], priority⟩
    return none
  | .replicated name value repStrat voterTimer priority => do
    declare mem ⟨name, value, repStrat, "VoterD".toList, voterTimer, priority⟩
    return none
  | .fromBench arrow node => do
    let nodeA ← findNode node.name
    let s ← get
    onNodes (linkBench nodeA (arrowType arrow) s.dataIn.fdIn 0 node.timed)
    return none
  | .toBench node arrow => do
    let nodeA ← findNode node.name
    let s ← get
    onNodes (linkBench nodeA (arrowType arrow) 0 s.cmdOut.fdOut node.timed)
    return none
  | .link a arrow b => do
    let nodeA ← findNode a.name
    let nodeB ← findNode b.name
    if arrowType arrow = .commError then
      onNodes (Plumber.say (.commType arrow))
      return some (-1)
    else
      onNodes (linkNode pipe (arrowType arrow) nodeA a.timed nodeB b.timed)
      return none
  | .syntaxError => do
    onNodes (Plumber.say .syntaxError)
    return some 1

def yyparse : List Statement → M Int
  | [] => return 0
  | s :: rest => do
    match ← action mem pipe s with
    | some ret => return ret
    | none => yyparse rest

/-- `main`, as in `Plumber.main`. -/
def main (dataIn cmdOut : TypedPipe) (config : List Statement) :
    Except Fault (List (List Text)) :=
  match (yyparse mem pipe config).run { dataIn, cmdOut } with
  | .ok (_, s) =>
    (s.heap.launchNode s.lists.length PlumberHeap.allNodes).map fun visits => visits.map Prod.snd
  | .error e => .error e

end Plumbing

end Pint
