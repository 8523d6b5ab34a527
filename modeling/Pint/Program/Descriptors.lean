import Pint.Lib.Ledger
import Mathlib.Data.Finset.Preimage

/-!
# The descriptors of `replicas.c`

What the functions of `replicas.c` do to the voter's descriptors, and to nothing else: signals,
priorities, pids and names are in `Program/Replicas.lean`, and none of the calls for them opens or
closes anything. The open descriptors are a set. Closing a number that is not open does nothing,
and which numbers `pipe` and `accept` hand out is up to an `Allocator`, that is, to any system
that hands out what is not open.

For whom a number was opened is written down, and so is what each call of `close` closed. The
program does not see either.
-/

namespace Pint

/-- The descriptors of a `struct vote_pipe`; 0 for none. -/
structure Fds where
  fdIn : Int := 0
  fdOut : Int := 0
deriving DecidableEq, Repr

/-- The descriptors of a `struct replica`. -/
structure ReplicaFds where
  pipeCount : Nat := 0
  votPipes : Nat → Fds := fun _ => {}
  voterRepInCopy : Nat → Int := fun _ => 0
  repPipes : Nat → Fds := fun _ => {}

/-- Which numbers are handed out, given what is open and how often something was opened before. -/
structure Allocator where
  pipe : Finset Int → Nat → Int × Int
  accept : Finset Int → Nat → Int
  pipe_fresh : ∀ openFds k, (pipe openFds k).1 ∉ openFds ∧ (pipe openFds k).2 ∉ openFds ∧
    (pipe openFds k).1 ≠ (pipe openFds k).2
  accept_fresh : ∀ openFds k, accept openFds k ∉ openFds

namespace Allocator

/-- The lowest number that is not open. -/
def lowestFree (openFds : Finset Int) : Int :=
  Nat.find (p := fun n : Nat => (n : Int) ∉ openFds) (by
    obtain ⟨n, hn⟩ := Infinite.exists_notMem_finset
      (openFds.preimage ((↑) : Nat → Int) fun _ _ _ _ heq => Int.ofNat_inj.mp heq)
    exact ⟨n, fun hmem => hn (Finset.mem_preimage.mpr hmem)⟩)

theorem lowestFree_notMem (openFds : Finset Int) : lowestFree openFds ∉ openFds :=
  Nat.find_spec (p := fun n : Nat => (n : Int) ∉ openFds) _

/-- The system hands out the lowest numbers that are free. -/
def lowest : Allocator where
  pipe openFds _ := (lowestFree openFds, lowestFree (insert (lowestFree openFds) openFds))
  accept openFds _ := lowestFree openFds
  pipe_fresh openFds _ := by
    have hfree := lowestFree_notMem (insert (lowestFree openFds) openFds)
    rw [Finset.mem_insert, not_or] at hfree
    exact ⟨lowestFree_notMem openFds, hfree.2, fun heq => hfree.1 heq.symm⟩
  accept_fresh openFds _ := lowestFree_notMem openFds

end Allocator

/-- What a descriptor was opened for. -/
inductive Owner where
  /-- The external pipes, the server's socket and what else was open before. -/
  | outside
  | connection
  | replica (i : Nat)
deriving DecidableEq, Repr

/-- A call of `close`. -/
structure CloseCall where
  /-- Whose descriptor it is meant to close. -/
  of : Owner
  /-- Whose descriptor it closed, if the number was open. -/
  closed : Option Owner
deriving DecidableEq, Repr

structure Descriptors where
  openFds : Finset Int
  owner : Int → Owner := fun _ => .outside
  /-- How often `pipe` and `accept` were called. -/
  calls : Nat := 0
  closes : List CloseCall := []
  replicas : Nat → ReplicaFds := fun _ => {}

namespace Descriptors

variable (alloc : Allocator) (extPipes : Nat → Fds)

def setReplica (d : Descriptors) (i : Nat) (rep : ReplicaFds) : Descriptors :=
  { d with replicas := Function.update d.replicas i rep }

def close (d : Descriptors) (of : Owner) (fd : Int) : Descriptors :=
  { d with
    openFds := d.openFds.erase fd
    closes := d.closes ++ [⟨of, if fd ∈ d.openFds then some (d.owner fd) else none⟩] }

/-- `resetVotePipe`: what it closes, for replica `i`. -/
def closeVotePipe (d : Descriptors) (i : Nat) (pipe : Fds) : Descriptors :=
  let d := if pipe.fdIn ≠ 0 then d.close (.replica i) pipe.fdIn else d
  if pipe.fdOut ≠ 0 then d.close (.replica i) pipe.fdOut else d

/-- `resetVotePipe(&(reps[i].vot_pipes[p]))` -/
def resetVotPipe (d : Descriptors) (i p : Nat) : Descriptors :=
  let d := d.closeVotePipe i ((d.replicas i).votPipes p)
  d.setReplica i { d.replicas i with
    votPipes := Function.update (d.replicas i).votPipes p { fdIn := 0, fdOut := 0 } }

/-- `resetVotePipe(&(reps[i].rep_pipes[p]))` -/
def resetRepPipe (d : Descriptors) (i p : Nat) : Descriptors :=
  let d := d.closeVotePipe i ((d.replicas i).repPipes p)
  d.setReplica i { d.replicas i with
    repPipes := Function.update (d.replicas i).repPipes p { fdIn := 0, fdOut := 0 } }

/-- One pass of the loop of `initReplicas`. -/
def initReplica (d : Descriptors) (i : Nat) : Descriptors :=
  -- clean up pipes if this replica is not fresh
  let d := (List.range (d.replicas i).pipeCount).foldl
    (fun d p => (d.resetVotPipe i p).resetRepPipe i p) d
  d.setReplica i { d.replicas i with pipeCount := 0 }

def initReplicas (d : Descriptors) (first num : Nat) : Descriptors :=
  (List.range num).foldl (fun d index => d.initReplica (first + index)) d

/-- One pass of the loop of `cleanupReplica`. -/
def cleanupPipe (d : Descriptors) (i p : Nat) : Descriptors :=
  let rep := d.replicas i
  let d := if (rep.votPipes p).fdIn > 0 then d.close (.replica i) (rep.votPipes p).fdIn else d
  let d := if (rep.votPipes p).fdOut > 0 then d.close (.replica i) (rep.votPipes p).fdOut else d
  let d := if (rep.repPipes p).fdIn > 0 then d.close (.replica i) (rep.repPipes p).fdIn else d
  if (rep.repPipes p).fdOut > 0 then d.close (.replica i) (rep.repPipes p).fdOut else d

/-- `cleanupReplica`; the numbers stay in the fields. -/
def cleanupReplica (d : Descriptors) (i : Nat) : Descriptors :=
  (List.range (d.replicas i).pipeCount).foldl (fun d p => d.cleanupPipe i p) d

/-- `pipe`, for replica `i`. -/
def pipe (d : Descriptors) (i : Nat) : Int × Int × Descriptors :=
  let (rd, wr) := alloc.pipe d.openFds d.calls
  (rd, wr, { d with
    openFds := insert rd (insert wr d.openFds)
    owner := Function.update (Function.update d.owner wr (.replica i)) rd (.replica i)
    calls := d.calls + 1 })

/-- One pass of the inner loop of `createPipes`. -/
def createPipe (d : Descriptors) (i p : Nat) : Descriptors :=
  let (rd, wr, d) := d.pipe alloc i
  let rep := d.replicas i
  if (extPipes p).fdIn ≠ 0 then -- This pipe is incoming
    d.setReplica i
      { votPipes := Function.update rep.votPipes p { fdIn := 0, fdOut := wr }
        repPipes := Function.update rep.repPipes p { fdIn := rd, fdOut := 0 }
        voterRepInCopy := Function.update rep.voterRepInCopy p rd
        pipeCount := p + 1 }
  else -- This pipe is outgoing
    d.setReplica i
      { votPipes := Function.update rep.votPipes p { fdIn := rd, fdOut := 0 }
        repPipes := Function.update rep.repPipes p { fdIn := 0, fdOut := wr }
        voterRepInCopy := Function.update rep.voterRepInCopy p 0
        pipeCount := p + 1 }

def createPipes (d : Descriptors) (first num pipeCount : Nat) : Descriptors :=
  (List.range num).foldl (fun d index =>
    (List.range pipeCount).foldl (fun d p => d.createPipe alloc extPipes (first + index) p) d) d

/-- `acceptSendFDS`: a connection is opened and closed. -/
def acceptSendFDS (d : Descriptors) : Descriptors :=
  let connection := alloc.accept d.openFds d.calls
  let d := { d with
    openFds := insert connection d.openFds
    owner := Function.update d.owner connection .connection
    calls := d.calls + 1 }
  d.close .connection connection

def restartReplica (d : Descriptors) (restarter restartee : Nat) : Descriptors :=
  let d := d.cleanupReplica restartee
  -- re-init failed rep, create pipes
  let d := d.initReplicas restartee 1
  let d := d.createPipes alloc extPipes restartee 1 (d.replicas restarter).pipeCount
  d.acceptSendFDS alloc

def startReplicas (d : Descriptors) (num pipeCount : Nat) : Descriptors :=
  let d := d.initReplicas 0 num
  let d := d.createPipes alloc extPipes 0 num pipeCount
  (List.range num).foldl (fun d _ => d.acceptSendFDS alloc) d

/-- The case `SMR` of `voterRestartHandler`. -/
def coldRestart (d : Descriptors) (num pipeCount : Nat) : Descriptors :=
  (d.cleanupReplica 0).startReplicas alloc extPipes num pipeCount

/-- One of the two kinds of restarts. -/
inductive Restart where
  | warm (restarter restartee : Nat)
  | cold
deriving DecidableEq, Repr

/-- The two replicas of a restart are two, and are there. -/
def Restart.Possible (num : Nat) : Restart → Prop
  | .warm restarter restartee => restarter < num ∧ restartee < num ∧ restartee ≠ restarter
  | .cold => 0 < num

def restart (num pipeCount : Nat) (d : Descriptors) : Restart → Descriptors
  | .warm restarter restartee => d.restartReplica alloc extPipes restarter restartee
  | .cold => d.coldRestart alloc extPipes num pipeCount

/-- The voter's life: it starts with some descriptors open, starts the replicas, and restarts
them. -/
def life (inUse : Finset Int) (num pipeCount : Nat) (restarts : List Restart) : Descriptors :=
  restarts.foldl (restart alloc extPipes num pipeCount)
    (startReplicas alloc extPipes { openFds := inUse } num pipeCount)

end Descriptors

end Pint
