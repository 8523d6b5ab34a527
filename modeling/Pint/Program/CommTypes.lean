import Pint.Lib.Scan
import Pint.Program.Clib
import Pint.Program.VoteBuff
import Mathlib.Data.Fin.VecNotation

/-!
# `commtypes.c` — typed pipes and their messages

A `typed_pipe` is a descriptor and the type of the messages on it. The `commSend…` functions
check both and `write` one message; `write` is taken to take all of it. A message is the
struct that is written, except for `MAP_UPDATE`, which is written as a block of integers of
varying length and read back with two calls of `read`.
-/

namespace Pint

/-- `comm_message_t` -/
inductive CommMessage where
  | commError
  | wayReq
  | wayRes
  | movCmd
  | rangePoseData
  | mapUpdate
  | commAck
  | msgBuffer
deriving DecidableEq, Repr

/-- `MESSAGE_T` -/
def messageT : CommMessage → String
  | .commError => "COMM_ERROR"
  | .wayReq => "WAY_REQ"
  | .wayRes => "WAY_RES"
  | .movCmd => "MOV_CMD"
  | .rangePoseData => "RANGE_POSE_DATA"
  | .mapUpdate => "MAP_UPDATE"
  | .commAck => "COMM_ACK"
  | .msgBuffer => "MSG_BUFFER"

def commToEnum (name : String) : CommMessage :=
  if name = "WAY_REQ" then .wayReq
  else if name = "WAY_RES" then .wayRes
  else if name = "MOV_CMD" then .movCmd
  else if name = "RANGE_POSE_DATA" then .rangePoseData
  else if name = "MAP_UPDATE" then .mapUpdate
  else if name = "COMM_ACK" then .commAck
  else if name = "MSG_BUFFER" then .msgBuffer
  else .commError

/-- `struct typed_pipe`; only one of the descriptors is set at a time. -/
structure TypedPipe where
  type : CommMessage := .commError
  fdIn : Int := 0
  fdOut : Int := 0
deriving DecidableEq, Repr

instance : Inhabited TypedPipe := ⟨{}⟩

/-! ## Pipes as text -/

open Scan (Text)

/-- `serializePipe`: `"%s:%d:%d"` -/
def serializePipe (pipe : TypedPipe) : Text :=
  if pipe.fdIn = 0 then
    (messageT pipe.type).toList ++ Scan.printInts ':' [0, pipe.fdOut]
  else (messageT pipe.type).toList ++ Scan.printInts ':' [pipe.fdIn, 0]

/-- `deserializePipe`: `sscanf(serial, "%m[^:]:%d:%d", &type, &in, &out)`, where `in` and `out`
are 0 before. -/
def deserializePipe (serial : Text) : Except Fault TypedPipe :=
  match Scan.scanNot ':' serial with
  | none => .error .uninitialised
  | some (type, rest) =>
    let ints := Scan.scanInts ':' 2 rest
    return {
      type := commToEnum (String.ofList type)
      fdIn := ints.getD 0 0
      fdOut := ints.getD 1 0 }

/-- `convertVoteToTyped`: the first `pipe_count` pipes. -/
def convertVoteToTyped (extPipes : Nat → VotePipe) (pipeCount : Nat) : List TypedPipe :=
  (List.range pipeCount).map fun i =>
    { type := commToEnum (extPipes i).repInfo
      fdIn := (extPipes i).fdIn
      fdOut := (extPipes i).fdOut }

/-! ## Messages -/

/-- The coordinates of a point are numbered from 0. -/
instance coordinates : NeZero 3 := ⟨by decide⟩

/-- `struct comm_way_res` -/
structure CommWayRes (R : Type) where
  point : Fin 3 → R
  nPoint : Fin 3 → R

/-- `struct comm_mov_cmd` -/
structure CommMovCmd (R : Type) where
  velCmd : Fin 2 → R

/-- `struct comm_range_pose_data` -/
structure CommRangePoseData (R : Type) where
  ranges : Fin 16 → R
  pose : Fin 3 → R

/-- `struct comm_map_update`, with the two arrays it points to. -/
structure CommMapUpdate where
  poseX : Int := 0
  poseY : Int := 0
  obsCount : Int := 0
  obsX : CArray Int
  obsY : CArray Int

/-- `struct comm_ack` -/
structure CommAck where
  hash : Int

/-- What a controller writes with one call of `write`. -/
inductive Comm (R : Type) where
  | wayReq
  | wayRes (msg : CommWayRes R)
  | movCmd (msg : CommMovCmd R)
  | mapUpdate (buffer : List Int)
  | commAck (msg : CommAck)

/-- Calls of `write`: the descriptor and the message. -/
abbrev Writes (R : Type) := List (Int × Comm R)

section Send

variable {R : Type}

/-- The test at the start of every `commSend…`; where it fails, nothing is written. -/
def sendOn (pipe : TypedPipe) (type : CommMessage) (msg : Comm R) : Writes R :=
  if pipe.fdOut = 0 ∨ pipe.type ≠ type then [] else [(pipe.fdOut, msg)]

def commSendWaypoints (pipe : TypedPipe) (wayX wayY wayA nWayX nWayY nWayA : R) : Writes R :=
  sendOn pipe .wayRes (.wayRes { point := ![wayX, wayY, wayA], nPoint := ![nWayX, nWayY, nWayA] })

def commSendWaypointRequest (pipe : TypedPipe) : Writes R := sendOn pipe .wayReq .wayReq

def commSendMoveCommand (pipe : TypedPipe) (vel0 vel1 : R) : Writes R :=
  sendOn pipe .movCmd (.movCmd { velCmd := ![vel0, vel1] })

def commSendAck (pipe : TypedPipe) (stateHash : Int) : Writes R :=
  sendOn pipe .commAck (.commAck { hash := stateHash })

/-! ## `MAP_UPDATE` -/

/-- `MAX_TYPED_PIPE_BUFF`, in bytes; an `int` has 4. -/
def maxTypedPipeBuff : Nat := 4096

/-- The loop of `commSendMapUpdate`, with `n` turns to go. -/
def fillObstacles (msg : CommMapUpdate) :
    Nat → Int → CArray Int → Int → Except Fault (CArray Int × Int)
  | 0, _, buffer, buffCount => return (buffer, buffCount)
  | n + 1, index, buffer, buffCount => do
    let buffer ← buffer.set buffCount (← msg.obsX.get index)
    let buffer ← buffer.set (buffCount + 1) (← msg.obsY.get index)
    if (buffCount + 2) * 4 > maxTypedPipeBuff then
      return (buffer, buffCount + 2) -- an error is printed
    else fillObstacles msg n (index + 1) buffer (buffCount + 2)

def commSendMapUpdate (pipe : TypedPipe) (msg : CommMapUpdate) : Except Fault (Writes R) :=
  if pipe.fdOut = 0 ∨ pipe.type ≠ .mapUpdate then return []
  else do
    let buffer := CArray.filled (maxTypedPipeBuff / 4) 0
    let buffer ← buffer.set 0 msg.poseX
    let buffer ← buffer.set 1 msg.poseY
    let buffer ← buffer.set 2 msg.obsCount
    let (buffer, buffCount) ← fillObstacles msg msg.obsCount.toNat 0 buffer 3
    if buffCount ≤ buffer.size then
      return [(pipe.fdOut,
        .mapUpdate ((List.range buffCount.toNat).map fun i : Nat => buffer.cells i))]
    else .error .outOfRange

/-- The bytes of an `int`, least significant first. -/
def intBytes (x : Int) : List Byte :=
  let u := (x % 4294967296).toNat
  [.ofNat u, .ofNat (u / 256), .ofNat (u / 65536), .ofNat (u / 16777216)]

/-- The `int` that four bytes stand for. -/
def intOfBytes (bytes : List Byte) : Int :=
  let u := bytes.foldr (fun b acc => (b.toNat : Int) + 256 * acc) 0
  if u < 2147483648 then u else u - 4294967296

/-- `recv_msg_buffer[i]`, of an array given by its bytes. -/
def intAt (buffer : List Byte) (i : Int) : Except Fault Int :=
  if 0 ≤ i ∧ 4 * i + 4 ≤ buffer.length then
    .ok (intOfBytes ((buffer.drop (4 * i).toNat).take 4))
  else .error .outOfRange

/-- What `read` leaves in an array when it stores `bytes` from the byte `at` on. -/
def storeBytes (buffer : List Byte) (start : Nat) (bytes : List Byte) :
    Except Fault (List Byte) :=
  if start + bytes.length ≤ buffer.length then
    .ok (buffer.take start ++ bytes ++ buffer.drop (start + bytes.length))
  else .error .outOfRange

/-- The loop of `commRecvMapUpdate` that copies the coordinates, with `n` turns to go. -/
def copyObstacles (buffer : List Byte) :
    Nat → Int → CommMapUpdate → Except Fault CommMapUpdate
  | 0, _, msg => return msg
  | n + 1, index, msg => do
    let obsX ← msg.obsX.set index (← intAt buffer (3 + index * 2))
    let obsY ← msg.obsY.set index (← intAt buffer (3 + (index * 2 + 1)))
    copyObstacles buffer n (index + 1) { msg with obsX, obsY }

/-- `commRecvMapUpdate`, given what its two calls of `read` answered (the second is asked for
`2 * obs_count` integers, and is only made if that is positive): the value returned and the
message afterwards. -/
def commRecvMapUpdate (pipe : TypedPipe) (msg : CommMapUpdate) (header : ReadResult)
    (obstacles : Int → ReadResult) : Except Fault (Int × CommMapUpdate) :=
  if pipe.fdIn = 0 ∨ pipe.type ≠ .mapUpdate then return (0, msg)
  else do
    let buffer : List Byte := List.replicate maxTypedPipeBuff 0
    match header with
    | .failed => return (-1, msg)
    | .data bytes =>
      let buffer ← storeBytes buffer 0 bytes
      if bytes.length = 12 then
        let msg := { msg with
          poseX := ← intAt buffer 0
          poseY := ← intAt buffer 1
          obsCount := ← intAt buffer 2 }
        if msg.obsCount > 0 then -- read obstacles
          match obstacles msg.obsCount with
          | .failed => return (-1, msg)
          | .data bytes =>
            let buffer ← storeBytes buffer 12 bytes
            if (bytes.length : Int) = 8 * msg.obsCount then
              return (bytes.length, ← copyObstacles buffer msg.obsCount.toNat 0 msg)
            else return (bytes.length, msg)
        else return (bytes.length, msg)
      else return (bytes.length, msg)

/-- What the two calls of `read` answer if the pipe holds these bytes. -/
def mapUpdateReads (unread : List Byte) : ReadResult × (Int → ReadResult) :=
  (.data (unread.take 12), fun obsCount => .data ((unread.drop 12).take (8 * obsCount).toNat))

/-- How many bytes these calls take out of the pipe: where the header is not there whole, the
second one is not made. -/
def mapUpdateTaken (pipe : TypedPipe) (unread : List Byte) : Nat :=
  if pipe.fdIn = 0 ∨ pipe.type ≠ .mapUpdate then 0
  else
    match intAt (unread.take 12) 2 with
    | .error _ => unread.length
    | .ok obsCount => min (12 + (8 * obsCount).toNat) unread.length

/-- What a `commRecvMapUpdate` leaves behind. -/
structure MapUpdateRecv where
  readRet : Int
  msg : CommMapUpdate
  /-- The bytes still in the pipe. -/
  unread : List Byte

/-- `commRecvMapUpdate` on a pipe that holds these bytes. -/
def recvMapUpdate (pipe : TypedPipe) (msg : CommMapUpdate) (unread : List Byte) :
    Except Fault MapUpdateRecv := do
  let (readRet, msg) ←
    commRecvMapUpdate pipe msg (mapUpdateReads unread).1 (mapUpdateReads unread).2
  return { readRet, msg, unread := unread.drop (mapUpdateTaken pipe unread) }

/-- So many calls in a row, each into the same struct, and what is in the pipe afterwards. -/
def recvMapUpdates (pipe : TypedPipe) :
    Nat → CommMapUpdate → List Byte → Except Fault (List MapUpdateRecv × List Byte)
  | 0, _, unread => return ([], unread)
  | n + 1, msg, unread => do
    let got ← recvMapUpdate pipe msg unread
    let (gots, rest) ← recvMapUpdates pipe n got.msg got.unread
    return (got :: gots, rest)

end Send

/-! ## `MSG_BUFFER` -/

/-- A `char*`: nothing was stored in it yet, or null, or it points to an array of these bytes. -/
inductive CharPtr where
  | unset
  | null
  | array (bytes : List Byte)
deriving DecidableEq, Repr

/-- The array that is pointed to. -/
def CharPtr.bytes : CharPtr → Except Fault (List Byte)
  | .unset => .error .uninitialised
  | .null => .error .nullPointer
  | .array bytes => .ok bytes

def CharPtr.free : CharPtr → Except Fault Unit
  | .unset => .error .uninitialised
  | _ => .ok ()

/-- `malloc(n)`, of memory that holds these bytes. As a `size_t` a negative `n` is more than
there is. -/
def malloc (fresh : Nat → Byte) (n : Int) : CharPtr :=
  if n < 0 then .null else .array ((List.range n.toNat).map fresh)

/-- `struct comm_msg_buffer` -/
structure CommMsgBuffer where
  length : Int := 0
  message : CharPtr := .unset
deriving DecidableEq, Repr

/-- `commSendMsgBuffer`: the bytes that it writes. -/
def commSendMsgBuffer (pipe : TypedPipe) (fresh : Nat → Byte) (msg : CommMsgBuffer) :
    Except Fault (List Byte) :=
  if pipe.fdOut = 0 ∨ pipe.type ≠ .msgBuffer then return []
  else do
    let buffer ← (malloc fresh (4 + msg.length)).bytes
    let buffer ← storeBytes buffer 0 (intBytes msg.length)
    let message ← msg.message.bytes
    if msg.length ≤ message.length then
      storeBytes buffer 4 (message.take msg.length.toNat)
    else .error .outOfRange

/-- `commRecvMsgBuffer`, given what its two calls of `read` answered, as for
`commRecvMapUpdate`. -/
def commRecvMsgBuffer (pipe : TypedPipe) (fresh : Nat → Byte) (msg : CommMsgBuffer)
    (header : ReadResult) (body : Int → ReadResult) : Except Fault (Int × CommMsgBuffer) :=
  if pipe.fdIn = 0 ∨ pipe.type ≠ .msgBuffer then return (0, msg)
  else
    match header with
    | .failed => return (-1, msg)
    | .data bytes => do
      let length := intOfBytes (← storeBytes (intBytes msg.length) 0 bytes)
      if bytes.length = 4 then
        let message := malloc fresh length
        if length > 0 then
          match body length with
          | .failed => return (-1, { length, message })
          | .data bytes =>
            let buffer ← storeBytes (← message.bytes) 0 bytes
            return (bytes.length, { length, message := .array buffer })
        else return (bytes.length, { length, message })
      else return (bytes.length, { msg with length })

/-- What the two calls of `read` answer if the pipe holds these bytes. -/
def msgBufferReads (unread : List Byte) : ReadResult × (Int → ReadResult) :=
  (.data (unread.take 4), fun length => .data ((unread.drop 4).take length.toNat))

/-- How many bytes these calls take out of the pipe. -/
def msgBufferTaken (pipe : TypedPipe) (unread : List Byte) : Nat :=
  if pipe.fdIn = 0 ∨ pipe.type ≠ .msgBuffer then 0
  else if unread.length < 4 then unread.length
  else min (4 + (intOfBytes (unread.take 4)).toNat) unread.length

/-- What a `commRecvMsgBuffer` leaves behind. -/
structure MsgBufferRecv where
  readRet : Int
  msg : CommMsgBuffer
  /-- The bytes still in the pipe. -/
  unread : List Byte

/-- `commRecvMsgBuffer` on a pipe that holds these bytes. -/
def recvMsgBuffer (pipe : TypedPipe) (fresh : Nat → Byte) (msg : CommMsgBuffer)
    (unread : List Byte) : Except Fault MsgBufferRecv := do
  let (readRet, msg) ←
    commRecvMsgBuffer pipe fresh msg (msgBufferReads unread).1 (msgBufferReads unread).2
  return { readRet, msg, unread := unread.drop (msgBufferTaken pipe unread) }

end Pint
