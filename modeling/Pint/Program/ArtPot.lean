import Pint.Program.CommTypes

/-!
# `art_pot.c` — the controller that drives

The configuration parameters are those of `GRID_NUM == 80`. With a planner the controller
has four pipes, without one only the first two types; `PIPE_COUNT == pipe_count` tells which.
-/

namespace Pint

open Prog

/-- The pipes of an ArtPot and the places of the four types among them. -/
structure ArtPotPipes where
  pipes : CArray TypedPipe := .filled 4 {}
  pipeCount : Int := 4
  dataIndex : Int := 0
  outIndex : Int := 0
  wayReqIndex : Int := 0
  wayResIndex : Int := 0

/-- One turn of the loop of `setPipeIndexes`. -/
def ArtPotPipes.setPipeIndex (c : ArtPotPipes) (i : Int) : Except Fault ArtPotPipes := do
  let pipe ← c.pipes.get i
  match pipe.type with
  | .rangePoseData => return { c with dataIndex := i }
  | .movCmd => return { c with outIndex := i }
  | .wayRes => return { c with wayResIndex := i }
  | .wayReq => return { c with wayReqIndex := i }
  | _ => return c

def ArtPotPipes.setPipeIndexes (c : ArtPotPipes) : Except Fault ArtPotPipes :=
  (List.range c.pipeCount.toNat).foldlM (fun c (i : Nat) => c.setPipeIndex i)
    { c with wayReqIndex := -1, wayResIndex := -1 }

structure ArtPot (R : Type) extends ArtPotPipes where
  goal : Fin 3 → R
  nextGoal : Fin 3 → R
  pos : Fin 3 → R
  ranges : Fin 16 → R
  insertSDC : Bool := false
  insertCFE : Bool := false
  writes : Writes R := []

namespace ArtPot

variable {R : Type} [Double R]

abbrev M (R : Type) := Program (ArtPot R) Fault

/-- `VEL_SCALE` -/
def velScale : R := ((2 : Int) : R)

/-- `DIST_EPSILON` -/
def distEpsilon : R := 0.6

/-- `GOAL_RADIUS` -/
def goalRadius : R := ((0 : Int) : R)

/-- `GOAL_EXTENT` -/
def goalExtent : R := 0.5

/-- `GOAL_SCALE` -/
def goalScale : R := ((1 : Int) : R)

/-- `OBST_RADIUS` -/
def obstRadius : R := 0.3

/-- `OBST_EXTENT` -/
def obstExtent : R := 0.5

/-- `OBST_SCALE` -/
def obstScale : R := ((1 : Int) : R)

/-- `sqrt(pow(x, 2) + pow(y, 2))` -/
def hypot (x y : R) : R :=
  Double.sqrt (Double.pow x ((2 : Int) : R) + Double.pow y ((2 : Int) : R))

/-- `dist`, to the goal. -/
def goalDist (goal pos : Fin 3 → R) : R := hypot (goal 0 - pos 0) (goal 1 - pos 1)

/-- `theta`, to the goal. -/
def goalTheta (goal pos : Fin 3 → R) : R :=
  Double.atan2 (goal 1 - pos 1) (goal 0 - pos 0) - pos 2

/-- `delta_x`, `delta_y` and `total_factors`. -/
structure Pull (R : Type) where
  deltaX : R
  deltaY : R
  totalFactors : Int

/-- The pull of the goal. -/
def goalPull (dist theta : R) : Pull R :=
  if dist < goalRadius then ⟨((0 : Int) : R), ((0 : Int) : R), 0⟩
  else if goalRadius ≤ dist ∧ dist ≤ goalExtent + goalRadius then
    let v := goalScale * (dist - goalRadius)
    ⟨v * Double.cos theta, v * Double.sin theta, 1⟩
  else
    let v : R := goalScale
    ⟨v * Double.cos theta, v * Double.sin theta, 1⟩

/-- One turn of the loop over the ranges: what an obstacle adds. -/
def obstaclePush (ranges : Fin 16 → R) (pull : Pull R) (i : Fin 16) : Pull R :=
  -- figure out location of the obstacle...
  let tao : R := (((2 : Int) : R) * Double.pi * ((i.val : Int) : R)) / ((16 : Int) : R)
  let obsX := ranges i * Double.cos tao
  let obsY := ranges i * Double.sin tao
  let dist := hypot obsX obsY
  let theta := Double.atan2 obsY obsX
  if dist ≤ obstExtent + obstRadius then
    let push := -obstScale * (obstExtent + obstRadius - dist)
    ⟨pull.deltaX + push * Double.cos theta, pull.deltaY + push * Double.sin theta,
      pull.totalFactors + 1⟩
  else pull

/-- `vel_cmd`, before a fault is injected. -/
def velCmd (ranges : Fin 16 → R) (dist theta : R) : R × R :=
  let pull := goalPull dist theta
  if distEpsilon < dist then
    -- Makes the assumption that scans are evenly spaced around the robot.
    let pull := (List.finRange 16).foldl (obstaclePush ranges) pull
    let deltaX := pull.deltaX / (pull.totalFactors : R)
    let deltaY := pull.deltaY / (pull.totalFactors : R)
    let vel0 := hypot deltaX deltaY
    let vel1 := Double.atan2 deltaY deltaX
    -- Only go forward if mostly pointed at goal
    (if Double.fabs vel1 < ((1 : Int) : R) then velScale * vel0 else 0.0, velScale * vel1)
  else (0.0, 0.0) -- within distance epsilon. And already tried next goal.

omit [Double R] in
/-- A `commSend…` on one of the pipes. -/
def send (index : Int) (msg : TypedPipe → Writes R) : M R Unit := do
  let s ← get
  let pipe ← s.pipes.get index
  modify fun s => { s with writes := s.writes ++ msg pipe }

def command : M R Unit := do
  let s ← get
  -- Try next goal
  let requestWay : Bool := decide (goalDist s.goal s.pos ≤ distEpsilon)
  let goal := if requestWay then s.nextGoal else s.goal
  let vel := velCmd s.ranges (goalDist goal s.pos) (goalTheta goal s.pos)
  let vel0 := if s.insertSDC then vel.1 + ((1 : Int) : R) else vel.1
  set { s with goal, insertSDC := false }
  if requestWay then
    send s.wayReqIndex commSendWaypointRequest
  -- Write move command
  send s.outIndex fun pipe => commSendMoveCommand pipe vel0 vel.2

/-- What `enterLoop` does when there is something on the pipe of the data. -/
def onData (data : Received (CommRangePoseData R)) : M R Unit := do
  match data with
  | .whole msg =>
    modify fun s => { s with ranges := msg.ranges, pos := msg.pose }
    -- Calculates and sends the new command
    command
  | .part _ => pure () -- reported

omit [Double R] in
/-- What `enterLoop` does when there is something on the pipe of the waypoints. -/
def onWayRes (wayRes : Received (CommWayRes R)) : M R Unit := do
  match wayRes with
  | .whole msg => modify fun s => { s with goal := msg.point, nextGoal := msg.nPoint }
  | .part _ => pure () -- reported

/-- One pass of the loop of `enterLoop`: what was ready after `select`, and what was read. -/
def turn (data : Option (Received (CommRangePoseData R)))
    (wayRes : Option (Received (CommWayRes R))) : M R Unit := do
  let s ← get
  if s.insertCFE then throw .hung
  match data with
  | some got => onData got
  | none => pure ()
  if s.pipeCount = 4 then
    match wayRes with
    | some got => onWayRes got
    | none => pure ()

omit [Double R] in
/-- The descriptors that a pass of `enterLoop` hands to `select`. -/
def selectSet : M R (List Int) := do
  let s ← get
  let data ← s.pipes.get s.dataIndex
  if s.pipeCount = 4 then
    let wayRes ← s.pipes.get s.wayResIndex
    return [data.fdIn, wayRes.fdIn]
  else return [data.fdIn]

/-- `turn`, with what comes before it. -/
def pass (data : Option (Received (CommRangePoseData R)))
    (wayRes : Option (Received (CommWayRes R))) : M R Unit := do
  let s ← get
  if s.insertCFE then throw .hung
  discard selectSet
  turn data wayRes

/-- The process after `main` has set it up. -/
def start (pipes : CArray TypedPipe) (pipeCount : Int) : Except Fault (ArtPot R) := do
  let c ← ({ pipes, pipeCount } : ArtPotPipes).setPipeIndexes
  let zero : Fin 3 → R := fun _ => 0.0
  let s : ArtPot R :=
    { c with goal := zero, nextGoal := zero, pos := zero, ranges := fun _ => 0.0 }
  if pipeCount = 4 then
    return { s with writes := commSendWaypointRequest (← s.pipes.get s.wayReqIndex) }
  else return { s with goal := ![7.0, 7.0, 0.0] }

end ArtPot

end Pint
