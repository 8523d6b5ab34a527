import Pint.Program.CommTypes
import Pint.Program.Mapping

/-!
# `mapper.c` — the controller that builds the map

`Mapper` is the state of the process: its globals, and what it has written. One pass of the
loop of `enterLoop` after `select` is `Mapper.turn`, given what was ready and what `read`
answered. `insertSDC` and `insertCFE` are set from outside to inject faults.
-/

namespace Pint

open Prog

/-- `OBS_THRES` -/
def obsThres : Int := 2

/-- The pipes of a Mapper and the places of the three types among them. -/
structure MapperPipes where
  pipes : CArray TypedPipe := .filled 3 {}
  dataIndex : Int := 0
  updateIndex : Int := 0
  ackIndex : Int := 0

/-- One turn of the loop of `setPipeIndexes`. -/
def MapperPipes.setPipeIndex (c : MapperPipes) (i : Int) : MapperPipes :=
  match (c.pipes.cells i).type with
  | .rangePoseData => { c with dataIndex := i }
  | .mapUpdate => { c with updateIndex := i }
  | .commAck => { c with ackIndex := i }
  | _ => c

def MapperPipes.setPipeIndexes (c : MapperPipes) : MapperPipes :=
  [0, 1, 2].foldl MapperPipes.setPipeIndex c

structure Mapper (R : Type) extends MapperPipes where
  currentPose : Option PointI := none
  obstacleMap : Grid Int := fun _ _ => 0
  /-- Both arrays are allocated with 128 integers. -/
  sendMsg : CommMapUpdate := { obsX := .filled 128 0, obsY := .filled 128 0 }
  insertSDC : Bool := false
  insertCFE : Bool := false
  writes : Writes R := []

namespace Mapper

variable {R : Type}

abbrev M (R : Type) := Program (Mapper R) Fault

/-- `addObstacle`: true if something changed. -/
def addObstacle (obs : PointI) : M R Bool := do
  if obs.x < 0 ∨ obs.x > gridNum ∨ obs.y < 0 ∨ obs.y > gridNum then
    return false -- erroneous, ignore
  let s ← get
  let count ← s.obstacleMap.get obs.x obs.y
  if count > obsThres then
    return false -- obstacle already there
  else
    let obstacleMap ← s.obstacleMap.set obs.x obs.y (count + 1)
    set { s with obstacleMap }
    if count + 1 > obsThres then
      let obsX ← s.sendMsg.obsX.set s.sendMsg.obsCount obs.x
      let obsY ← s.sendMsg.obsY.set s.sendMsg.obsCount obs.y
      modify fun s => { s with
        sendMsg := { s.sendMsg with obsX, obsY, obsCount := s.sendMsg.obsCount + 1 } }
    return true

variable [Double R]

/-- The point that reading `i` of a scan sees, in global coordinates. -/
def obstacleOf (data : CommRangePoseData R) (i : Fin 16) : PointD R :=
  let pose : PointD R := ⟨data.pose 0, data.pose 1⟩
  let thetaPose := data.pose 2
  -- obstacle location relative to the robot
  let tao : R := (2.0 * Double.pi * ((i.val : Int) : R)) / ((16 : Int) : R)
  let obstacleL : PointD R :=
    ⟨data.ranges i * Double.cos tao, data.ranges i * Double.sin tao⟩
  -- obstacle location in global coords
  { x := obstacleL.x * Double.cos thetaPose - obstacleL.y * Double.sin thetaPose + pose.x
    y := obstacleL.x * Double.sin thetaPose + obstacleL.y * Double.cos thetaPose + pose.y }

/-- The loop of `updateMap` over the readings. -/
def addObstacles (data : CommRangePoseData R) : List (Fin 16) → M R Unit
  | [] => return
  | i :: rest => do
    discard <| addObstacle (gridify (obstacleOf data i))
    addObstacles data rest

def updateMap (data : CommRangePoseData R) : M R Unit := do
  let pose := gridify (⟨data.pose 0, data.pose 1⟩ : PointD R)
  modify fun s => { s with
    currentPose := some pose
    sendMsg := { s.sendMsg with obsCount := 0 } }
  -- Convert ranges absolute positions
  addObstacles data (List.finRange 16)
  let s ← get
  let pose : PointI := if s.insertSDC then { pose with x := pose.x + 1 } else pose
  let sendMsg := { s.sendMsg with poseX := pose.x, poseY := pose.y }
  set { s with insertSDC := false, currentPose := some pose, sendMsg }
  let sent ← commSendMapUpdate (← s.pipes.get s.updateIndex) sendMsg
  modify fun s => { s with writes := s.writes ++ sent }

/-- One pass of the loop of `enterLoop`: what was ready after `select`, and what was read. -/
def turn (data : Option (Received (CommRangePoseData R))) (ack : Option (Received CommAck)) :
    M R Unit := do
  let s ← get
  if s.insertCFE then throw .hung
  match data with
  | some (.whole msg) => updateMap msg
  | some (.part _) => pure () -- reported
  | none => pure ()
  match ack with
  | some (.whole _) => pure () -- Do nothing
  | some (.part _) => pure () -- reported
  | none => pure ()

/-- The process after `main` has set it up. -/
def start (pipes : CArray TypedPipe) : Mapper R :=
  { ({ pipes } : MapperPipes).setPipeIndexes with }

end Mapper

end Pint
