import Pint.Program.CommTypes
import Pint.Program.Mapping

/-!
# `a_star.c` — the planner

The search of `command` first: `genNeighbors`, one pass of the loop over the neighbours
(`visitNeighbor`), one pass of the loop over the open set (`searchTurn`), and the loop itself
with a bound on its passes (`searchLoop`). The search reads the obstacle map through a
function `obs`, so that it can be run on the array `obstacle_map` (`Grid.get`) and on a map
without a border.

Then the controller: its globals, what it does with a map update and with a waypoint
request, and one pass of `enterLoop` after `select`.
-/

namespace Pint

open Prog

variable {R : Type} [Double R]

/-! ## The search -/

section Search

/-- How the search reads the obstacle map. -/
abbrev Obstacles := Int → Int → Except Fault Bool

/-- Whether `genNeighbors` takes the cell at offset `(i, j)`. -/
def takesNeighbor (obs : Obstacles) (x y i j : Int) : Except Fault Bool := do
  let nX := x + i
  let nY := y + j
  if j = 0 ∧ i = 0 then return false -- skip
  else if i.natAbs + j.natAbs = 2 then -- corner
    if ← obs nX nY then return false
    -- Need to check two adjacent (no jumping gaps!).
    else if !(← obs nX y) then return true
    else return !(← obs x nY)
  else return !(← obs nX nY)

/-- The offsets in the order of the two loops. -/
def offsets : List (Int × Int) :=
  [(-1, -1), (-1, 0), (-1, 1), (0, -1), (0, 0), (0, 1), (1, -1), (1, 0), (1, 1)]

/-- The loops of `genNeighbors`. -/
def addNeighbors (obs : Obstacles) (x y : Int) :
    List (Int × Int) → LList R → Except Fault (LList R)
  | [], list => return list
  | (i, j) :: rest, list => do
    if ← takesNeighbor obs x y i j then
      addNeighbors obs x y rest (← addNode list (newNode (x + i) (y + j) 0.0) 0.0)
    else addNeighbors obs x y rest list

def genNeighbors (obs : Obstacles) (node : Node R) : Except Fault (LList R) :=
  addNeighbors obs node.x node.y offsets newList

/-- straight line distance -/
def estDistance (x1 y1 x2 y2 : Int) : R :=
  Double.sqrt (((x1 - x2) * (x1 - x2) + (y1 - y2) * (y1 - y2) : Int) : R)

/-- straight line distance from goal -/
def estDistanceG (goal : PointI) (x y : Int) : R := estDistance x y goal.x goal.y

/-- One pass of the loop over the neighbours: the open set afterwards. -/
def visitNeighbor (goal : PointI) (closedSet : LList R) (current currNeigh : Node R)
    (openSet : LList R) : Except Fault (LList R) :=
  match findNode closedSet currNeigh with
  | some _ => return openSet -- if neighbor in closed - already explored so skip
  | none =>
    let tentGScore := current.gScore + estDistance currNeigh.x currNeigh.y current.x current.y
    let better := match findNode openSet currNeigh with
      | none => true
      | some neighFromOpen => decide (tentGScore < neighFromOpen.gScore)
    if better then
      let currNeigh := { currNeigh with backLink := some current, gScore := tentGScore }
      let fScore := tentGScore + estDistanceG goal currNeigh.x currNeigh.y
      -- remove so g_score and f_score are updated.
      addNode (removeNode openSet currNeigh) currNeigh fScore
    else return openSet

/-- The loop over the neighbours, of which at most `n` are there. -/
def visitNeighbors (goal : PointI) (closedSet : LList R) (current : Node R) :
    Nat → LList R → LList R → Except Fault (LList R)
  | 0, _, openSet => return openSet
  | n + 1, neighbors, openSet => do
    match ← pop neighbors with
    | (none, _) => return openSet
    | (some currNeigh, neighbors) =>
      visitNeighbors goal closedSet current n neighbors
        (← visitNeighbor goal closedSet current currNeigh openSet)

/-- The two sets of the search. -/
structure Search (R : Type) where
  openSet : LList R
  closedSet : LList R

/-- What one pass of the loop over the open set does. -/
inductive SearchTurn (R : Type) where
  /-- `solution = true`, at this node -/
  | solved (current : Node R)
  /-- `solution = false`, and out of the loop -/
  | failed
  | next (s : Search R)

def searchTurn (obs : Obstacles) (goal : PointI) (s : Search R) :
    Except Fault (SearchTurn R) :=
  match s.openSet with
  | [] => return .failed
  | _ => do
    match ← pop s.openSet with
    | (none, _) => return .failed
    | (some current, openSet) =>
      if nodeEqauls current (newNode goal.x goal.y 0.0) then return .solved current
      else do
        -- add current to closedset
        let closedSet ← addNode s.closedSet current (estDistanceG goal current.x current.y)
        let neighbors ← genNeighbors obs current
        let openSet ← visitNeighbors goal closedSet current 9 neighbors openSet
        return .next { openSet, closedSet }

/-- The loop of `command`, if it ends within `n` passes: the goal node, or none. -/
def searchLoop (obs : Obstacles) (goal : PointI) :
    Nat → Search R → Except Fault (Option (Option (Node R)))
  | 0, _ => return none
  | n + 1, s => do
    match ← searchTurn obs goal s with
    | .solved current => return some (some current)
    | .failed => return some none
    | .next s => searchLoop obs goal n s

/-- What the search starts with. -/
def searchStart (pose goal : PointI) : Except Fault (Search R) := do
  let openSet ← addNode newList (newNode pose.x pose.y 0.0) (estDistanceG goal pose.x pose.y)
  return { openSet, closedSet := newList }

/-- `while (current != NULL) push`: the path, from the start to this node. -/
def extractPath (path : LList R) : Node R → LList R
  | ⟨x, y, gScore, none⟩ => push path ⟨x, y, gScore, none⟩
  | ⟨x, y, gScore, some node⟩ => extractPath (push path ⟨x, y, gScore, some node⟩) node

end Search

/-! ## The controller -/

/-- The pipes of an AStar and the places of the four types among them. -/
structure AStarPipes where
  pipes : CArray TypedPipe := .filled 4 {}
  updatesIndex : Int := 0
  ackIndex : Int := 0
  wayReqIndex : Int := 0
  wayResIndex : Int := 0

/-- One turn of the loop of `setPipeIndexes`. -/
def AStarPipes.setPipeIndex (c : AStarPipes) (i : Int) : AStarPipes :=
  match (c.pipes.cells i).type with
  | .mapUpdate => { c with updatesIndex := i }
  | .commAck => { c with ackIndex := i }
  | .wayRes => { c with wayResIndex := i }
  | .wayReq => { c with wayReqIndex := i }
  | _ => c

def AStarPipes.setPipeIndexes (c : AStarPipes) : AStarPipes :=
  [0, 1, 2, 3].foldl AStarPipes.setPipeIndex c

structure AStar (R : Type) extends AStarPipes where
  obstacleMap : Grid Bool := fun _ _ => false
  goal : PointI
  pose : PointI
  goalPath : LList R
  currentGoal : Option (Node R) := none
  nCurrentGoal : Option (Node R) := none
  fakeHash : Int := 42
  /-- Both arrays have 200 integers. -/
  recvMapUpdate : CommMapUpdate := { obsX := .filled 200 0, obsY := .filled 200 0 }
  insertSDC : Bool := false
  insertCFE : Bool := false
  writes : Writes R := []

namespace AStar

abbrev M (R : Type) := Program (AStar R) Fault

omit [Double R] in
/-- A `commSend…` on one of the pipes. -/
def send (index : Int) (msg : TypedPipe → Writes R) : M R Unit := do
  let s ← get
  let pipe ← s.pipes.get index
  modify fun s => { s with writes := s.writes ++ msg pipe }

def sendWaypoints : M R Unit := do
  modify fun s => { s with currentGoal := none, nCurrentGoal := none }
  let s ← get
  let (currentGoal, goalPath) ← pop s.goalPath
  set { s with currentGoal, goalPath }
  match currentGoal with
  | none => -- these contingences never happen.
    send s.wayResIndex fun pipe => commSendWaypoints pipe 7.0 7.0 0.0 7.0 7.0 0.0
  | some current =>
    let goalP : PointD R := degridify current.x current.y
    let (nCurrentGoal, goalPath) ← pop goalPath
    modify fun s => { s with nCurrentGoal, goalPath }
    match nCurrentGoal with
    | none => pure () -- At goal! (Err... right next to it) Just hang out I suppose.
    | some next =>
      let nGoalP : PointD R := degridify next.x next.y
      send s.wayResIndex fun pipe =>
        commSendWaypoints pipe goalP.x goalP.y 0.0 nGoalP.x nGoalP.y 0.0

/-- More passes than cells: the loop of `command` has ended by then. -/
def searchBound : Nat := gridNum * gridNum + 1

def command : M R Unit := do
  let s ← get
  let search ← (searchStart s.pose s.goal : Except Fault (Search R))
  match ← searchLoop s.obstacleMap.get s.goal searchBound search with
  | none => throw .hung
  | some none => pure () -- Not sure what to do in this case
  | some (some goalNode) =>
    -- erase old path, and extract the new one
    let goalPath := extractPath (← eraseList s.goalPath) goalNode
    set { s with goalPath }
    -- check if new path is different then old
    if nodeEqaulsPtr (peek goalPath 0) s.currentGoal
        && nodeEqaulsPtr (peek goalPath 1) s.nCurrentGoal then
      pure () -- don't send
    else sendWaypoints

omit [Double R] in
/-- The loop over the obstacles of an update, with `n` turns to go. -/
def applyObstacles (msg : CommMapUpdate) :
    Nat → Int → Grid Bool → Except Fault (Grid Bool)
  | 0, _, obstacleMap => return obstacleMap
  | n + 1, index, obstacleMap => do
    let x ← msg.obsX.get index
    let y ← msg.obsY.get index
    applyObstacles msg n (index + 1) (← obstacleMap.set x y true)

/-- What `enterLoop` does when there is something on the pipe of the updates, given what the
two calls of `read` in `commRecvMapUpdate` answer. -/
def onUpdate (header : ReadResult) (obstacles : Int → ReadResult) : M R Unit := do
  let s ← get
  let (readRet, msg) ← commRecvMapUpdate (← s.pipes.get s.updatesIndex) s.recvMapUpdate header
    obstacles
  set { s with recvMapUpdate := msg }
  if readRet > 0 then
    modify fun s => { s with pose := ⟨msg.poseX, msg.poseY⟩ }
    let obstacleMap ← applyObstacles msg msg.obsCount.toNat 0 s.obstacleMap
    modify fun s => { s with
      obstacleMap
      insertSDC := false
      fakeHash := if s.insertSDC then s.fakeHash + 1 else s.fakeHash }
    let s ← get
    send s.ackIndex fun pipe => commSendAck pipe s.fakeHash
    if msg.obsCount > 0 then -- New obstacle arrived
      command

/-- What `enterLoop` does when there is something on the pipe of the requests, given what
`read` returned. -/
def onWayReq (readRet : Int) : M R Unit := do
  if readRet > 0 then
    let s ← get
    match s.goalPath with
    | [] => throw .nullPointer
    | c :: _ =>
      if c.head.isNone then
        send s.wayResIndex fun pipe => commSendWaypoints pipe 7.0 7.0 0.0 7.0 7.0 0.0
      else sendWaypoints

/-- One pass of the loop of `enterLoop`: what was ready after `select`, and what `read` then
answered. -/
def turn (updates : Option (ReadResult × (Int → ReadResult))) (wayReq : Option Int) :
    M R Unit := do
  let s ← get
  if s.insertCFE then throw .hung
  match updates with
  | some (header, obstacles) => onUpdate header obstacles
  | none => pure ()
  match wayReq with
  | some readRet => onWayReq readRet
  | none => pure ()

/-- The process after `main` has set it up. `pose` is allocated and not set; the first
update sets it. -/
def start (pipes : CArray TypedPipe) (pose : PointI) : AStar R :=
  { ({ pipes } : AStarPipes).setPipeIndexes with
    goal := gridify (⟨7.0, 7.0⟩ : PointD R)
    pose
    goalPath := newList }

end AStar

end Pint
