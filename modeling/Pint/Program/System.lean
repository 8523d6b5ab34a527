import Pint.Program.Machine
import Pint.Program.CommTypes

/-!
# The replicas behind the voter

How a replica comes by its ends of the pipes: the voter sends them over a socket
(`fd_server.c`), a new process receives them (`fd_client.c`), and a process that is told to
clone itself forks and lets the child ask for its own (`restartHandler` of `controller.c`).
`System` is the main loop of the voter with its replicas, each of which has a descriptor table
of its own, and with whoever writes to the external pipes.

What a controller computes is left open. A `RepProcess` remembers what it has read and written,
which stands for the memory that a `fork` copies, and the moves say what it reads and writes
next. It uses no descriptors but those in its `pipes`; that it also inherited the voter's is
part of its table.
-/

namespace Pint

open DescriptorTable

/-! ## Sending descriptors -/

/-- What `sendFDS` puts on the socket: the bytes, and what the numbers of the control message
stand for. -/
structure FDSMessage where
  sendPipes : List TypedPipe
  files : List PipeEnd
deriving DecidableEq, Repr

/-- The number that goes into the control message. -/
def VotePipe.sentFd (pipe : VotePipe) : Int := if pipe.fdIn ≠ 0 then pipe.fdIn else pipe.fdOut

/-- `sendFDS`. `sendmsg` fails if one of the numbers is not open. -/
def sendFDS (kernel : Kernel) (pipes : Nat → VotePipe) (pipeCount : Nat) : Option FDSMessage := do
  let files ← (List.range pipeCount).mapM fun i => kernel.lookup (pipes i).sentFd
  return { sendPipes := convertVoteToTyped pipes pipeCount, files }

/-- `requestFDS` puts the number that was received where the sender had one. -/
def TypedPipe.recover (pipe : TypedPipe) (fd : Nat) : TypedPipe :=
  if pipe.fdIn ≠ 0 then { pipe with fdIn := fd } else { pipe with fdOut := fd }

/-! ## A replica -/

structure RepProcess where
  fds : Table PipeEnd := []
  pipes : List TypedPipe := []
  /-- For each pipe, all bytes that were read from it. -/
  consumed : Nat → List Byte := fun _ => []
  /-- For each pipe, all bytes that were written to it. -/
  emitted : Nat → List Byte := fun _ => []

namespace RepProcess

def lookup (proc : RepProcess) (fd : Int) : Option PipeEnd :=
  if 0 ≤ fd then DescriptorTable.lookup proc.fds fd.toNat else none

def close (proc : RepProcess) (fd : Int) : RepProcess :=
  if 0 ≤ fd then { proc with fds := DescriptorTable.close proc.fds fd.toNat } else proc

/-- What `resetPipe` closes. -/
def resetPipe (proc : RepProcess) (pipe : TypedPipe) : RepProcess :=
  let proc := if pipe.fdIn ≠ 0 then proc.close pipe.fdIn else proc
  if pipe.fdOut ≠ 0 then proc.close pipe.fdOut else proc

/-- `requestFDS`. `recvmsg` overwrites `pipes`, and opens the files in their order. -/
def requestFDS (proc : RepProcess) (msg : FDSMessage) : RepProcess :=
  { proc with
    fds := (insertAll proc.fds msg.files).2
    pipes := List.zipWith TypedPipe.recover msg.sendPipes (insertAll proc.fds msg.files).1 }

/-- `connectRecvFDS`: the socket is opened first and closed last. -/
def connectRecvFDS (proc : RepProcess) (msg : FDSMessage) : RepProcess :=
  let sockFd := lowestFree proc.fds
  let proc := requestFDS { proc with fds := insert proc.fds .other } msg
  { proc with fds := DescriptorTable.close proc.fds sockFd }

/-- `restartHandler`, in the child. -/
def restartHandler (proc : RepProcess) (msg : FDSMessage) : RepProcess :=
  -- clean up pipes
  let child := proc.pipes.foldl resetPipe proc
  connectRecvFDS { child with pipes := proc.pipes.map fun _ => {} } msg

/-- The process after a `read` of `bytes` from pipe `p`. -/
def took (proc : RepProcess) (p : Nat) (bytes : List Byte) : RepProcess :=
  { proc with consumed := Function.update proc.consumed p (proc.consumed p ++ bytes) }

/-- The process after a `write` of `bytes` to pipe `p`. -/
def put (proc : RepProcess) (p : Nat) (bytes : List Byte) : RepProcess :=
  { proc with emitted := Function.update proc.emitted p (proc.emitted p ++ bytes) }

@[simp] theorem took_consumed_self (proc : RepProcess) (p : Nat) (bytes : List Byte) :
    (proc.took p bytes).consumed p = proc.consumed p ++ bytes := Function.update_self _ _ _

theorem took_consumed_ne {proc : RepProcess} {p q : Nat} {bytes : List Byte} (h : q ≠ p) :
    (proc.took p bytes).consumed q = proc.consumed q := Function.update_of_ne h _ _

@[simp] theorem put_emitted_self (proc : RepProcess) (p : Nat) (bytes : List Byte) :
    (proc.put p bytes).emitted p = proc.emitted p ++ bytes := Function.update_self _ _ _

theorem put_emitted_ne {proc : RepProcess} {p q : Nat} {bytes : List Byte} (h : q ≠ p) :
    (proc.put p bytes).emitted q = proc.emitted q := Function.update_of_ne h _ _

/-- A child of `forkReplicas`, when its `parseArgs` has asked for descriptors. It starts with
the table of the voter. -/
def launch (kernel : Kernel) (msg : FDSMessage) : RepProcess :=
  connectRecvFDS { fds := kernel.fds } msg

end RepProcess

/-! ## The system -/

structure System where
  m : Machine
  procs : Nat → RepProcess
  /-- For each external input pipe, all bytes that were written to it. -/
  fed : Nat → List Byte := fun _ => []

inductive SystemMove where
  /-- Somebody writes to an external input pipe. -/
  | feed (p : Nat) (bytes : List Byte)
  /-- The voter's next piece. -/
  | voter
  /-- Replica `i` reads at most `n` bytes. -/
  | read (i p n : Nat)
  /-- Replica `i` writes. -/
  | write (i p : Nat) (bytes : List Byte)
deriving DecidableEq, Repr

namespace System

variable (cfg : Config) (env : Env)

/-- The voter's answer to the process that connects as replica `i`. -/
def message (v : Voter) (i : Nat) : Option FDSMessage :=
  sendFDS v.kernel (v.replicas i).repPipes (v.replicas i).pipeCount

/-- The main loop is about to start, and the replicas have their pipes. A replica that got no
message would have none. What is in the external input pipes was written to them before. -/
def start (v : Voter) : System where
  m := { v }
  procs i := ((message v i).map (RepProcess.launch v.kernel)).getD {}
  fed p := if (v.extPipes p).fdIn ≠ 0 then v.kernel.waiting (v.extPipes p).fdIn else []

/-- The kernel pipe `id` holds these bytes from now on. -/
def setUnread (s : System) (id : Nat) (bytes : List Byte) : System :=
  { s with m := { s.m with v := { s.m.v with kernel := { s.m.v.kernel with
    unread := Function.update s.m.v.kernel.unread id bytes } } } }

def setProc (s : System) (i : Nat) (proc : RepProcess) : System :=
  { s with procs := Function.update s.procs i proc }

def feed (p : Nat) (bytes : List Byte) (s : System) : System :=
  if p < cfg.pipeCount ∧ (s.m.v.extPipes p).fdIn ≠ 0 then
    match s.m.v.kernel.lookup (s.m.v.extPipes p).fdIn with
    | some (.readEnd k) =>
      { s.setUnread k (s.m.v.kernel.unread k ++ bytes) with
        fed := Function.update s.fed p (s.fed p ++ bytes) }
    | _ => s
  else s

/-- A `read` of replica `i`. What blocks changes nothing. -/
def read (i p n : Nat) (s : System) : System :=
  let proc := s.procs i
  let pipe := proc.pipes.getD p {}
  if pipe.fdIn ≠ 0 then
    match proc.lookup pipe.fdIn with
    | some (.readEnd k) =>
      let bytes := s.m.v.kernel.unread k
      (s.setUnread k (bytes.drop n)).setProc i (proc.took p (bytes.take n))
    | _ => s
  else s

/-- A `write` of replica `i`. -/
def write (i p : Nat) (bytes : List Byte) (s : System) : System :=
  let proc := s.procs i
  let pipe := proc.pipes.getD p {}
  if pipe.fdOut ≠ 0 then
    match proc.lookup pipe.fdOut with
    | some (.writeEnd k) =>
      (s.setUnread k (s.m.v.kernel.unread k ++ bytes)).setProc i (proc.put p bytes)
    | _ => s
  else s

/-- The voter restarted a replica: its restarter forked, and the child takes its place. -/
def clone (s : System) (restart : Nat × Nat) : System :=
  s.setProc restart.1
    (((message s.m.v restart.1).map (s.procs restart.2).restartHandler).getD {})

/-- One piece of the main loop, with what it does to the replicas. There is at most one
restart in a piece, and nothing in it changes the pipes of the restarted replica afterwards. -/
def voter (s : System) : Except Stop System :=
  match s.m.go cfg env with
  | .ok m =>
    .ok ((m.v.log.restarts.drop s.m.v.log.restarts.length).foldl clone { s with m })
  | .error e => .error e

def step : SystemMove → System → Except Stop System
  | .feed p bytes, s => .ok (s.feed cfg p bytes)
  | .voter, s => s.voter cfg env
  | .read i p n, s => .ok (s.read i p n)
  | .write i p bytes, s => .ok (s.write i p bytes)

end System

end Pint
