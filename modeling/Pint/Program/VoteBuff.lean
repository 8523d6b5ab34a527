import Pint.Lib.RingBuffer

/-!
# `vote_buff.c` — vote pipes

A `vote_pipe` is one end of a kernel pipe together with a circular buffer of
`MAX_VOTE_PIPE_BUFF` bytes: the `buff_count` bytes from cell `buff_index` on, modulo the
size, have been read from a replica and not yet been forwarded.

The C integers are `Int`, and `%` is C's remainder (`Int.tmod`), so nothing about the two
counters is true by their type. A block copy that would leave an array is the stop
`outOfRange`, the model's reading of undefined behaviour, so "every access is in range" is
the theorem that the stop is never taken. What the functions print is part of their answer.
-/

namespace Pint

abbrev Byte := UInt8

/-- `MAX_VOTE_PIPE_BUFF`: the cells of a vote buffer. -/
def maxVotePipeBuff : Nat := 4096

/-- `PIPE_LIMIT`: the pipes of one component. -/
def pipeLimit : Nat := 10

/-- Why a program does not go on: an access outside an array, or a `read` of an open pipe
that holds nothing. -/
inductive Stop where
  | outOfRange
  | blocked
deriving DecidableEq, Repr

/-- What the voter prints, each constructor with the text in the source. -/
inductive Message where
  /-- `"Vote_buff overflow!!!\n"` -/
  | buffOverflow
  /-- `"Vote_buff read error.\n"` -/
  | buffReadError
  /-- `"Vote_buff buffToPipe: requested bigger write than available\n"` -/
  | biggerWrite
  /-- `"Vote_buff compareBuffs: buffers do not have the same index!\n"` -/
  | indexMismatch
  /-- `"Voting disagreement: caught SDC in DMR but can't do anything about it.\n"` -/
  | votingDisagreement
  /-- `"VoterD: TMR no two replicas agreed.\n"` -/
  | noTwoAgreed
  /-- `"Voter - Controller %s, rep %d, pipe %d\n"`, `"Voter - read problem on internal pipe"` -/
  | internalPipe (rep pipe : Nat)
  /-- `"Voter - Controller %s pipe %d\n"`, `"Voter - read error on external pipe"` -/
  | externalPipe (pipe : Nat)
  /-- `"Voter - Controller %s pipe %d\n"`, `"Voter - read == 0 on external pipe"` -/
  | externalPipeZero (pipe : Nat)
  /-- `"Voter for %s, pipe %d, bytes written: %d\texpected: %d\n"`, `"Voter wrote partial
  message"` -/
  | partialWrite (fd : Int)
  /-- `"Voter for %s failed write fd: %d\n"`, `"Voter write"` -/
  | failedWrite (fd : Int)
  /-- `"Voter wrote == 0 for %s fd: %d\n"` -/
  | wroteZero (fd : Int)
  /-- `"Voter error stealing pipe"` -/
  | stealingPipe
  /-- `"Voter error call sched_set_policy in restartReplica for %s, priority %d\n"` -/
  | schedSetPolicy (priority : Int)
deriving DecidableEq, Repr

/-- `replication_t` -/
inductive Replication where
  | none
  | smr
  | dmr
  | tmr
  | repTypeError
deriving DecidableEq, Repr

def reptypeToEnum (type : String) : Replication :=
  if type = "NONE" then .none
  else if type = "SMR" then .smr
  else if type = "DMR" then .dmr
  else if type = "TMR" then .tmr
  else .repTypeError

def reptypeToCount : Replication → Nat
  | .smr => 1
  | .dmr => 2
  | .tmr => 3
  | _ => 0

/-- `struct vote_pipe` -/
structure VotePipe where
  repInfo : String := ""
  fdIn : Int := 0
  fdOut : Int := 0
  timed : Bool := false
  buffCount : Int := 0
  buffIndex : Int := 0
  buffer : Nat → Byte := fun _ => 0

instance : Inhabited VotePipe := ⟨{}⟩

/-! ## The C library on byte arrays -/

/-- `memcpy(&dst[d], &src[s], n)` between arrays of `dstSize` and `srcSize` bytes. -/
def memcpy (dst : Nat → Byte) (dstSize : Nat) (d : Int) (src : Nat → Byte) (srcSize : Nat)
    (s n : Int) : Except Stop (Nat → Byte) :=
  if 0 ≤ d ∧ 0 ≤ s ∧ 0 ≤ n ∧ d + n ≤ dstSize ∧ s + n ≤ srcSize then
    .ok (RingBuffer.blit dst d.toNat src s.toNat n.toNat)
  else .error .outOfRange

/-- The `n` bytes at `&src[s]` of an array of `srcSize` bytes, as `write` reads them. -/
def readBlock (src : Nat → Byte) (srcSize : Nat) (s n : Int) : Except Stop (List Byte) :=
  if 0 ≤ s ∧ 0 ≤ n ∧ s + n ≤ srcSize then .ok (RingBuffer.block src s.toNat n.toNat)
  else .error .outOfRange

/-- Zero when the lists are equal, else the sign of the first difference. -/
def cmpBytes : List Byte → List Byte → Int
  | x :: xs, y :: ys => if x = y then cmpBytes xs ys else if x < y then -1 else 1
  | _, _ => 0

/-- `memcmp(&a[i], &b[j], n)` between arrays of `size` bytes. -/
def memcmp (a : Nat → Byte) (i : Int) (b : Nat → Byte) (j : Int) (size : Nat) (n : Int) :
    Except Stop Int := do
  let xs ← readBlock a size i n
  let ys ← readBlock b size j n
  return cmpBytes xs ys

/-- What `read` answered: an error, or the bytes it put into the caller's array. -/
inductive ReadResult where
  | failed
  | data (bytes : List Byte)

/-- The value `read` returns. -/
def ReadResult.count : ReadResult → Int
  | .failed => -1
  | .data bytes => bytes.length

/-- The caller's array after the call. -/
def ReadResult.array : ReadResult → Nat → Byte
  | .failed, _ => 0
  | .data bytes, k => bytes.getD k 0

/-! ## The functions -/

/-- `resetVotePipe`. The two `close` calls are made where the descriptors live
(`Program/Replicas.lean`). -/
def resetVotePipe (pipe : VotePipe) : VotePipe :=
  { pipe with fdIn := 0, fdOut := 0, buffCount := 0, buffIndex := 0 }

/-- `pipeToBuff`, given what its `read` answered: the value returned, the pipe afterwards,
and what was printed. -/
def pipeToBuff (pipe : VotePipe) (got : ReadResult) :
    Except Stop (Int × VotePipe × List Message) :=
  let readCount := got.count
  if readCount > 0 then
    if readCount < maxVotePipeBuff - pipe.buffCount then do
      let endIndex := (pipe.buffIndex + pipe.buffCount).tmod maxVotePipeBuff
      let buffer ←
        if endIndex > (endIndex + readCount).tmod maxVotePipeBuff then do
          -- need to wrap back to the beginning, two copies
          let partRead := readCount - (endIndex + readCount).tmod maxVotePipeBuff
          let buffer ← memcpy pipe.buffer maxVotePipeBuff endIndex got.array maxVotePipeBuff
            0 partRead
          memcpy buffer maxVotePipeBuff 0 got.array maxVotePipeBuff partRead
            (readCount - partRead)
        else
          memcpy pipe.buffer maxVotePipeBuff endIndex got.array maxVotePipeBuff 0 readCount
      return (0, { pipe with buffer, buffCount := pipe.buffCount + readCount }, [])
    else return (-1, pipe, [.buffOverflow])
  else return (-1, pipe, [.buffReadError])

/-- `fakeToPipe`: advances the buffer, but no need to write. -/
def fakeToPipe (pipe : VotePipe) (n : Int) : VotePipe :=
  { pipe with
    buffIndex := (pipe.buffIndex + n).tmod maxVotePipeBuff
    buffCount := pipe.buffCount - n }

/-- `buffToPipe`: the value returned, the pipe afterwards, the bytes passed to `write` and
what was printed. -/
def buffToPipe (pipe : VotePipe) (n : Int) :
    Except Stop (Int × VotePipe × List Byte × List Message) :=
  if n > pipe.buffCount then
    return (-1, pipe, [], [.biggerWrite])
  else do
    let bytes ←
      if pipe.buffIndex + n < maxVotePipeBuff then
        readBlock pipe.buffer maxVotePipeBuff pipe.buffIndex n
      else do
        let tempBuffer : Nat → Byte := fun _ => 0
        let partWrite := maxVotePipeBuff - pipe.buffIndex
        let tempBuffer ← memcpy tempBuffer n.toNat 0 pipe.buffer maxVotePipeBuff
          pipe.buffIndex partWrite
        let tempBuffer ← memcpy tempBuffer n.toNat partWrite pipe.buffer maxVotePipeBuff
          0 (n - partWrite)
        readBlock tempBuffer n.toNat 0 n
    return (0, fakeToPipe pipe n, bytes, [])

/-- `compareBuffs`: the value returned and what was printed. -/
def compareBuffs (pipeA pipeB : VotePipe) (n : Int) : Except Stop (Int × List Message) :=
  if pipeA.buffIndex ≠ pipeB.buffIndex then
    return (-1, [.indexMismatch])
  else if pipeA.buffIndex + n < maxVotePipeBuff then do
    let result ← memcmp pipeA.buffer pipeA.buffIndex pipeB.buffer pipeB.buffIndex
      maxVotePipeBuff n
    return (result, [])
  else do
    let partCmp := maxVotePipeBuff - pipeA.buffIndex
    let result ← memcmp pipeA.buffer pipeA.buffIndex pipeB.buffer pipeB.buffIndex
      maxVotePipeBuff partCmp
    if result ≠ 0 then return (result, [])
    else do
      let result ← memcmp pipeA.buffer 0 pipeB.buffer 0 maxVotePipeBuff (n - partCmp)
      return (result, [])

/-- `copyPipe`: the destination afterwards. -/
def copyPipe (dest src : VotePipe) : Except Stop VotePipe := do
  let dest := { dest with buffCount := src.buffCount, buffIndex := src.buffIndex }
  let buffer ←
    if src.buffIndex + src.buffCount < maxVotePipeBuff then
      memcpy dest.buffer maxVotePipeBuff dest.buffIndex src.buffer maxVotePipeBuff
        src.buffIndex src.buffCount
    else do
      let partCpy := maxVotePipeBuff - src.buffIndex
      let buffer ← memcpy dest.buffer maxVotePipeBuff dest.buffIndex src.buffer
        maxVotePipeBuff src.buffIndex partCpy
      memcpy buffer maxVotePipeBuff 0 src.buffer maxVotePipeBuff 0 (src.buffCount - partCpy)
  return { dest with buffer }

end Pint
