import Pint.Lib.Wp
import Pint.Lib.DescriptorTable
import Pint.Program.VoteBuff
import Mathlib.Logic.Function.Basic

/-!
# The voter process and what is around it

`Voter` is the mutable state of one `VoterD`: the globals of `voterd.c` that change while it
runs, the part of the kernel it can see, and a log of what an observer sees it do. The
globals that `parseArgs` sets once are in `Config`.

What the system answers is in `Env`. Each call that asks the system something is numbered
by `Voter.tick`, and `Env` maps the number to the answer: a clock reading, whether a
priority could be set, which child was reaped, which number a new process got. A theorem
that holds for every `Env` holds for every behaviour of the system. `pipe`, `fork` and the
descriptor hand-over are taken to succeed, and a `write` to take all the bytes it is given.

The log is written and never read by the program, so it changes nothing the program does.
-/

namespace Pint

open Prog

/-- `struct replica` -/
structure Replica where
  pid : Int := 0
  priority : Int := 0
  name : String := ""
  pipeCount : Nat := 0
  votPipes : Nat → VotePipe := fun _ => {}
  voterRepInCopy : Nat → Int := fun _ => 0
  repPipes : Nat → VotePipe := fun _ => {}

instance : Inhabited Replica := ⟨{}⟩

/-! ## The kernel -/

/-- What a descriptor of the voter stands for: an end of a kernel pipe, or something else
(a terminal, the socket of the descriptor server). -/
inductive PipeEnd where
  | readEnd (id : Nat)
  | writeEnd (id : Nat)
  | other
deriving DecidableEq, Repr

/-- The voter's descriptor table, and the unread bytes of each kernel pipe. -/
structure Kernel where
  fds : DescriptorTable.Table PipeEnd := []
  unread : Nat → List Byte := fun _ => []
  /-- How many kernel pipes were made; the next one gets this number. -/
  pipes : Nat := 0

def Kernel.lookup (k : Kernel) (fd : Int) : Option PipeEnd :=
  if 0 ≤ fd then DescriptorTable.lookup k.fds fd.toNat else none

/-- `close`; closing a number that is not open does nothing. -/
def Kernel.close (k : Kernel) (fd : Int) : Kernel :=
  if 0 ≤ fd then { k with fds := DescriptorTable.close k.fds fd.toNat } else k

/-- Opens something at the lowest free number. -/
def Kernel.open (k : Kernel) (what : PipeEnd) : Int × Kernel :=
  (DescriptorTable.lowestFree k.fds, { k with fds := DescriptorTable.insert k.fds what })

/-- `pipe`: the read end, the write end and the kernel afterwards. -/
def Kernel.pipe (k : Kernel) : Int × Int × Kernel :=
  let (rd, k') := k.open (.readEnd k.pipes)
  let (wr, k'') := k'.open (.writeEnd k.pipes)
  (rd, wr, { k'' with unread := Function.update k.unread k.pipes [], pipes := k.pipes + 1 })

/-- Some process writes to a kernel pipe. -/
def Kernel.deliver (k : Kernel) (id : Nat) (bytes : List Byte) : Kernel :=
  { k with unread := Function.update k.unread id (k.unread id ++ bytes) }

/-- The bytes waiting behind a descriptor. -/
def Kernel.waiting (k : Kernel) (fd : Int) : List Byte :=
  match k.lookup fd with
  | some (.readEnd id) => k.unread id
  | _ => []

/-! ## What an observer sees -/

/-- The signals the voter sends. -/
inductive Signal where
  | SIGKILL
  | RESTART_SIGNAL
deriving DecidableEq, Repr

/-- The calls of `voterRestartHandler`, and what goes with them. -/
inductive Call where
  /-- The watchdog ran out, read at this time; the handler is called. -/
  | expired (time : Nat)
  /-- `waitpid` reaped `pid` while `current` was the pid of replica 0; the handler is
  called. -/
  | exited (pid current : Int)
  /-- DMR and TMR: the handler chose these two. -/
  | picked (restartee restarter : Nat)
  /-- The handler returned at this time. -/
  | returned (time : Nat)
deriving DecidableEq, Repr

structure Log where
  /-- What was printed. -/
  said : List Message := []
  /-- For each external output pipe, all bytes written to it. -/
  sent : Nat → List Byte := fun _ => []
  /-- For each replica and pipe, all bytes `pipeToBuff` accepted from it. -/
  accepted : Nat → Nat → List Byte := fun _ _ => []
  /-- The same, except that a restarted replica takes over what was accepted from its
  restarter. -/
  stream : Nat → Nat → List Byte := fun _ _ => []
  /-- The calls of `restart_prep`: restartee and restarter. -/
  restarts : List (Nat × Nat) := []
  calls : List Call := []
  signals : List (Int × Signal) := []

/-! ## The voter -/

/-- The globals that are set at start-up and then only read. `timer_start_index` and
`timer_stop_index` are 0 until a timed pipe sets them. -/
structure Config where
  controllerName : String := ""
  repType : Replication
  pipeCount : Nat
  timerStartIndex : Nat := 0
  timerStopIndex : Nat := 0
  votingTimeout : Int
  voterPriority : Int

def Config.repCount (cfg : Config) : Nat := reptypeToCount cfg.repType

/-- `replica_priority`: replicas run with a -5 offset (`VOTER_PRIO_OFFSET`). -/
def Config.replicaPriority (cfg : Config) : Int := cfg.voterPriority - 5

structure Env where
  /-- The clock in microseconds. -/
  clock : Nat → Nat
  /-- Whether `sched_set_policy(pid, priority)` succeeds. -/
  schedOk : Nat → Int → Int → Bool
  /-- The child `waitpid` reaps; 0 for none. -/
  waitpid : Nat → Int
  /-- The number a new process is given. -/
  pid : Nat → Int
  /-- How many of the waiting bytes a `read` takes. -/
  readCount : Nat → Nat

structure Voter where
  timerStarted : Bool := false
  watchdog : Nat := 0
  lastDead : Int := -1
  replicas : Nat → Replica := fun _ => {}
  extPipes : Nat → VotePipe := fun _ => {}
  kernel : Kernel := {}
  /-- The children of the voter that were not reaped yet. -/
  children : List Int := []
  tick : Nat := 0
  log : Log := {}

/-- A function of the voter: it reads and writes the state, or stops. -/
abbrev M := Program Voter Stop

/-! ## Field updates -/

def Voter.setReplica (v : Voter) (i : Nat) (rep : Replica) : Voter :=
  { v with replicas := Function.update v.replicas i rep }

def Replica.setVot (rep : Replica) (p : Nat) (pipe : VotePipe) : Replica :=
  { rep with votPipes := Function.update rep.votPipes p pipe }

def Replica.setRep (rep : Replica) (p : Nat) (pipe : VotePipe) : Replica :=
  { rep with repPipes := Function.update rep.repPipes p pipe }

/-- Replaces the voter's end of pipe `p` of replica `i`. -/
def Voter.setVot (v : Voter) (i p : Nat) (pipe : VotePipe) : Voter :=
  v.setReplica i ((v.replicas i).setVot p pipe)

def Voter.setExt (v : Voter) (p : Nat) (pipe : VotePipe) : Voter :=
  { v with extPipes := Function.update v.extPipes p pipe }

def Voter.vot (v : Voter) (i p : Nat) : VotePipe := (v.replicas i).votPipes p

def Voter.say (v : Voter) (ms : List Message) : Voter :=
  { v with log := { v.log with said := v.log.said ++ ms } }

def Voter.note (v : Voter) (c : Call) : Voter :=
  { v with log := { v.log with calls := v.log.calls ++ [c] } }

def say (ms : List Message) : M Unit := modify fun v => v.say ms

def note (c : Call) : M Unit := modify fun v => v.note c

/-! ## System calls -/

/-- The number of the next question to the system. -/
def nextTick : M Nat := do
  let v ← get
  set { v with tick := v.tick + 1 }
  return v.tick

/-- `generate_timestamp`, in microseconds. -/
def generateTimestamp (env : Env) : M Nat := do
  let t ← nextTick
  return env.clock t

/-- `diff_time` of the build for x86-64, in microseconds. -/
def diffTime (current last : Nat) : Nat := if current > last then current - last else 0

def schedSetPolicy (env : Env) (pid priority : Int) : M Int := do
  let t ← nextTick
  return if env.schedOk t pid priority then 0 else -1

def kill (pid : Int) (sig : Signal) : M Unit :=
  modify fun v => { v with log := { v.log with signals := v.log.signals ++ [(pid, sig)] } }

def close (fd : Int) : M Unit := modify fun v => { v with kernel := v.kernel.close fd }

def pipe : M (Int × Int) := do
  let v ← get
  let (rd, wr, k) := v.kernel.pipe
  set { v with kernel := k }
  return (rd, wr)

/-- `read(fd, ., n)`: at least one byte and at most `n` of those waiting. A pipe that holds
nothing blocks; a number that is not the read end of a pipe is an error. -/
def read (env : Env) (fd : Int) (n : Nat) : M ReadResult := do
  let v ← get
  match v.kernel.lookup fd with
  | some (.readEnd id) =>
    match v.kernel.unread id with
    | [] => throw .blocked
    | bytes => do
      let t ← nextTick
      let most := min n bytes.length
      let count := if 1 ≤ env.readCount t ∧ env.readCount t ≤ most then env.readCount t else most
      modify fun v => { v with kernel := { v.kernel with
        unread := Function.update v.kernel.unread id (bytes.drop count) } }
      return .data (bytes.take count)
  | _ => return .failed

/-- `read(fd, ., 0)` moves nothing; it answers 0, or -1 when `fd` cannot be read. -/
def readNothing (fd : Int) : M Int := do
  let v ← get
  match v.kernel.lookup fd with
  | some (.readEnd _) => return 0
  | _ => return -1

/-- `write(fd, bytes, .)` -/
def write (fd : Int) (bytes : List Byte) : M Int := do
  let v ← get
  match v.kernel.lookup fd with
  | some (.writeEnd id) => do
    set { v with kernel := v.kernel.deliver id bytes }
    return bytes.length
  | _ => return -1

/-- `select` for reading: those of the watched descriptors that have unread data. -/
def select (watched : List Int) : M (List Int) := do
  let v ← get
  return watched.filter fun fd => v.kernel.waiting fd ≠ []

/-- A number that no unreaped child carries: the one offered, if it is such a number. -/
def freshPid (children : List Int) (offered : Int) : Int :=
  if 0 < offered ∧ offered ∉ children then offered else children.foldr max 0 + 1

/-- `fork` -/
def fork (env : Env) : M Int := do
  let t ← nextTick
  let v ← get
  let pid := freshPid v.children (env.pid t)
  set { v with children := pid :: v.children }
  return pid

/-- `waitpid(-1, NULL, WNOHANG)`: reaps at most one child, any that has exited or was
killed. -/
def waitpid (env : Env) : M Int := do
  let t ← nextTick
  let v ← get
  if env.waitpid t ∈ v.children then do
    set { v with children := v.children.filter (· ≠ env.waitpid t) }
    return env.waitpid t
  else return 0

/-- `accept`, `sendmsg` and `read` in `acceptSendFDS`: the pid the connecting process
sends. The connection's descriptor is closed again before anything else is opened. -/
def acceptSendFDS (env : Env) : M Int := do
  let t ← nextTick
  return env.pid t

/-- `createFDS`: the listening socket of the descriptor server. -/
def createFDS : M Unit :=
  modify fun v => { v with kernel := (v.kernel.open .other).2 }

end Pint
