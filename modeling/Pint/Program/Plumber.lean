import Pint.Program.CommandLine

/-!
# `plumber` — from a configuration to components

The grammar of `pb.y` and the functions of `plumbing.c` that its actions call. A configuration
is a list of statements; what a statement's tokens are is not here, and a `syntaxError` stands
where the tokens are no statement. `yyparse` stops there and at an action that returns, and
`main` launches what was declared by then, without a look at what `yyparse` returned.

A null pointer that is followed and a slot behind the arrays of a node are faults. The memory
that `add_node` allocates is taken to be clean: the new end of the list is zero, and the copies of
the texts fit. `Program/Plumbing.lean` is the same plumber in any memory, and where the memory is
clean it starts what this one does (`Plumbing.main_eq`).
-/

namespace Pint

open Prog
open Scan (Text)

/-! ## Statements -/

/-- A component as an end of a relationship: a `VAR_NAME`, or a `rep_name`, which is one in
parentheses. -/
structure CompName where
  name : Text
  timed : Bool
deriving DecidableEq, Repr

/-- A `declaration` or a `relationship`. -/
inductive Statement where
  /-- `VAR_NAME ASSIGN NAMED_OB NUMBER_VAL` -/
  | component (name value priority : Text)
  /-- `VAR_NAME ASSIGN rep_comp rep_strat DELIM NUMBER_VAL NUMBER_VAL` -/
  | replicated (name value : Text) (repStrat : Replication) (voterTimer priority : Text)
  /-- `BENCH arrow VAR_NAME`, `BENCH arrow rep_name` -/
  | fromBench (arrow : Text) (node : CompName)
  /-- `VAR_NAME arrow BENCH`, `rep_name arrow BENCH` -/
  | toBench (node : CompName) (arrow : Text)
  /-- The four forms with a `VAR_NAME` or a `rep_name` on both sides. -/
  | link (nodeA : CompName) (arrow : Text) (nodeB : CompName)
  | syntaxError
deriving DecidableEq, Repr

/-- What the plumber prints. -/
inductive PlumberMessage where
  /-- `"PLUMBING ERROR: Re-defining component: %s\n"` -/
  | redefining (name : Text)
  /-- `"PLUMBING ERROR: get_node, request nodes doesn't exist: %s\n"` -/
  | noNode (name : Text)
  /-- `"Comm type doesn't exist! %s\n"` -/
  | commType (arrow : Text)
  /-- `"Plumber pipe error\n"` -/
  | pipeError
  /-- `"error: %s\n"` of `yyerror` -/
  | syntaxError
deriving DecidableEq, Repr

/-! ## `plumbing.c` -/

namespace Plumber

/-- `add_node`, in clean memory (`PlumberHeap.addNode` is the one in any memory): whether the name
is new, and the list afterwards. -/
def addNode (name value : Text) (repType : Replication) (voterName voterTimer priority : Text) :
    List PlumberNode → Bool × List PlumberNode
  | [] => (true, [{ name, value, priority, repStrat := repType, voterName, voterTimer }])
  | current :: next =>
    if name = current.name then (false, current :: next) -- Node already exists, bail
    else
      let (added, next) := addNode name value repType voterName voterTimer priority next
      (added, current :: next)

/-- `get_node`: where the node is, if it is there. -/
def getNode : List PlumberNode → Text → Option Nat
  | [], _ => none
  | current :: next, name => if name = current.name then some 0 else (getNode next name).map (· + 1)

end Plumber

/-- The next slot of a node is filled, and counted. -/
def PlumberNode.fillSlot (n : PlumberNode) (pipe : TypedPipe) (timed : Bool) :
    Except Fault PlumberNode := do
  let pipes ← n.pipes.set n.pipeCount pipe
  let timed ← n.timed.set n.pipeCount (if timed then 1 else 0)
  return { n with pipes, timed, pipeCount := n.pipeCount + 1 }

structure Plumber where
  /-- `all_nodes` -/
  nodes : List PlumberNode := []
  dataIn : TypedPipe
  cmdOut : TypedPipe
  /-- How often `pipe` was called. -/
  pipeCalls : Nat := 0
  said : List PlumberMessage := []

namespace Plumber

abbrev M := Program Plumber Fault

def say (m : PlumberMessage) : M Unit := modify fun s => { s with said := s.said ++ [m] }

/-- `get_node`, with what it prints. -/
def findNode (name : Text) : M (Option Nat) := do
  let s ← get
  let node := getNode s.nodes name
  if node = none then say (.noNode name)
  return node

/-- The node behind a pointer is changed. -/
def updateNode (node : Option Nat) (f : PlumberNode → Except Fault PlumberNode) : M Unit := do
  let s ← get
  match node with
  | none => throw .nullPointer
  | some i =>
    match s.nodes[i]? with
    | none => throw .nullPointer
    | some n => do
      let n ← f n
      set { s with nodes := s.nodes.set i n }

/-- `link_bench`: Bench already has fds, one passed in should be 0. -/
def linkBench (n : Option Nat) (type : CommMessage) (fdIn fdOut : Int) (timed : Bool) : M Unit :=
  updateNode n fun n => n.fillSlot { type, fdIn, fdOut } timed

/-- What the calls of `pipe` answer: the read end and the write end, or nothing for -1. -/
abbrev PipeCalls := Nat → Option (Int × Int)

variable (pipe : PipeCalls)

def linkNode (type : CommMessage) (fromNode : Option Nat) (fromTimed : Bool)
    (toNode : Option Nat) (toTimed : Bool) : M Unit := do
  let s ← get
  set { s with pipeCalls := s.pipeCalls + 1 }
  match pipe s.pipeCalls with
  | none => say .pipeError
  | some (rd, wr) => do
    -- give half to fromNode
    updateNode fromNode fun n => n.fillSlot { type, fdIn := 0, fdOut := wr } fromTimed
    -- other half to toNode
    updateNode toNode fun n => n.fillSlot { type, fdIn := rd, fdOut := 0 } toTimed

/-! ## `pb.y` -/

/-- `commToEnum` of the text of an arrow. -/
def arrowType (arrow : Text) : CommMessage := commToEnum (String.ofList arrow)

/-- A call of `add_node`, whose result is not looked at. -/
def declare (name value : Text) (repType : Replication) (voterName voterTimer priority : Text) :
    M Unit := do
  let s ← get
  let (added, nodes) := addNode name value repType voterName voterTimer priority s.nodes
  set { s with nodes }
  if added = false then say (.redefining name)

/-- The action of a statement, and what it makes `yyparse` return, if it does. -/
def action : Statement → M (Option Int)
  | .component name value priority => do
    declare name value .none [] [] priority
    return none
  | .replicated name value repStrat voterTimer priority => do
    declare name value repStrat "VoterD".toList voterTimer priority
    return none
  | .fromBench arrow node => do
    let nodeA ← findNode node.name
    let s ← get
    linkBench nodeA (arrowType arrow) s.dataIn.fdIn 0 node.timed
    return none
  | .toBench node arrow => do
    let nodeA ← findNode node.name
    let s ← get
    linkBench nodeA (arrowType arrow) 0 s.cmdOut.fdOut node.timed
    return none
  | .link a arrow b => do
    let nodeA ← findNode a.name
    let nodeB ← findNode b.name
    if arrowType arrow = .commError then
      say (.commType arrow)
      return some (-1)
    else
      linkNode pipe (arrowType arrow) nodeA a.timed nodeB b.timed
      return none
  | .syntaxError => do
    say .syntaxError
    return some 1

def yyparse : List Statement → M Int
  | [] => return 0
  | s :: rest => do
    match ← action pipe s with
    | some ret => return ret
    | none => yyparse rest

/-- `launch_node`: the command lines of the components that are started. `fork` is taken to
succeed. In memory that is not clean the list may go on behind the last node
(`PlumberHeap.launchNode`). -/
def launchNode : List PlumberNode → Except Fault (List (List Text))
  | [] => return []
  | curr :: next => do
    let argv ← repArgv curr
    return argv :: (← launchNode next)

/-- `main`, with the pipes to the Bench that it was given, and a configuration that could be
opened. -/
def main (dataIn cmdOut : TypedPipe) (config : List Statement) :
    Except Fault (List (List Text)) :=
  match (yyparse pipe config).run { dataIn, cmdOut } with
  | .ok (_, s) => launchNode s.nodes
  | .error e => .error e

end Plumber

end Pint
