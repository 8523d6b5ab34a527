import Pint.Program.State

/-!
# `replicas.c` — the group of replicas

The array `reps[]` is `Voter.replicas`. A call with `&(reps[i]), 1` passes `first := i` and
`num := 1` here. Loops over the replicas and over the pipes run in the order of the source.
-/

namespace Pint

open Prog

/-- The two `close` calls of `resetVotePipe`. -/
def closeVotePipe (pipe : VotePipe) : M Unit := do
  if pipe.fdIn ≠ 0 then close pipe.fdIn
  if pipe.fdOut ≠ 0 then close pipe.fdOut

/-- `resetVotePipe(&(reps[i].vot_pipes[p]))` -/
def resetVotPipe (i p : Nat) : M Unit := do
  let v ← get
  closeVotePipe (v.vot i p)
  modify fun v => v.setVot i p (resetVotePipe (v.vot i p))

/-- `resetVotePipe(&(reps[i].rep_pipes[p]))` -/
def resetRepPipe (i p : Nat) : M Unit := do
  let v ← get
  closeVotePipe ((v.replicas i).repPipes p)
  modify fun v =>
    v.setReplica i ((v.replicas i).setRep p (resetVotePipe ((v.replicas i).repPipes p)))

def initReplicas (first num : Nat) (name : String) (priority : Int) : M Unit :=
  loop num fun index => do
    let i := first + index
    modify fun v => v.setReplica i { v.replicas i with name, pid := -1, priority }
    -- clean up pipes if this replica is not fresh
    let v ← get
    loop (v.replicas i).pipeCount fun p => do
      resetVotPipe i p
      resetRepPipe i p
    modify fun v => v.setReplica i { v.replicas i with pipeCount := 0 }

/-- One pipe's four `if (fd > 0) close(fd)` in `cleanupReplica`. -/
def cleanupPipe (i p : Nat) : M Unit := do
  let v ← get
  let rep := v.replicas i
  if (rep.votPipes p).fdIn > 0 then close (rep.votPipes p).fdIn
  if (rep.votPipes p).fdOut > 0 then close (rep.votPipes p).fdOut
  if (rep.repPipes p).fdIn > 0 then close (rep.repPipes p).fdIn
  if (rep.repPipes p).fdOut > 0 then close (rep.repPipes p).fdOut

def cleanupReplica (i : Nat) : M Unit := do
  let v ← get
  kill (v.replicas i).pid .SIGKILL
  loop (v.replicas i).pipeCount (cleanupPipe i)

/-! ## Counting -/

def bytesReady (reps : Nat → Replica) (num pipeNum : Nat) : Int :=
  (List.range num).foldl
    (fun min r =>
      if ((reps r).votPipes pipeNum).buffCount < min then ((reps r).votPipes pipeNum).buffCount
      else min)
    maxVotePipeBuff

def aheadRep (reps : Nat → Replica) (num pipeNum : Nat) : Nat :=
  (List.range num).foldl
    (fun mostAhead r =>
      if ((reps r).votPipes pipeNum).buffCount > ((reps mostAhead).votPipes pipeNum).buffCount
      then r else mostAhead)
    0

/-- One turn of the loop of `behindRep`. -/
def behindStep (reps : Nat → Replica) (pipeNum mostBehind r : Nat) : Nat :=
  if ((reps r).votPipes pipeNum).buffCount < ((reps mostBehind).votPipes pipeNum).buffCount then r
  else if ((reps r).votPipes pipeNum).buffCount
      = ((reps mostBehind).votPipes pipeNum).buffCount then
    if (reps r).priority > (reps mostBehind).priority then r else mostBehind
  else mostBehind

/-- `behindRep`: the index of the replica that is furthest behind in voting. -/
def behindRep (reps : Nat → Replica) (num pipeNum : Nat) : Nat :=
  (List.range' 1 (num - 1)).foldl (behindStep reps pipeNum) 0

def repGap (reps : Nat → Replica) (num repNum : Nat) : Int :=
  (List.range (reps 0).pipeCount).foldl
    (fun gap p =>
      if ((reps 0).votPipes p).fdIn ≠ 0 then -- out from the rep, in to the voter
        gap + (((reps (aheadRep reps num p)).votPipes p).buffCount
          - ((reps repNum).votPipes p).buffCount)
      else gap)
    0

/-- One turn of the first loop of `balanceReps`: `starting` and `second`. -/
def balanceStep (reps : Nat → Replica) (num : Nat) (acc : Nat × Nat) (index : Nat) :
    Nat × Nat :=
  if repGap reps num index > repGap reps num acc.1 then (index, acc.2)
  else if repGap reps num index > repGap reps num acc.2 then
    if index ≠ acc.1 then (acc.1, index) else acc
  else acc

/-- The most behind replica gets data first; it might be dead, so second to go is up next. -/
def balanceOrder (reps : Nat → Replica) (num : Nat) : Nat × Nat :=
  (List.range num).foldl (balanceStep reps num) (0, 1)

/-- Asks for a priority; where the system refuses, the old one stays recorded. -/
def setPriority (env : Env) (i : Nat) (priority : Int) : M Int := do
  let v ← get
  let ret ← schedSetPolicy env (v.replicas i).pid priority
  if ret < 0 then return ret
  else do
    modify fun v => v.setReplica i { v.replicas i with priority }
    return ret

def balanceReps (env : Env) (num : Nat) (defaultPriority : Int) : M Unit := do
  let v ← get
  let order := balanceOrder v.replicas num
  loop num fun index => do
    let priority :=
      if index = order.1 then defaultPriority + 2
      else if index = order.2 then defaultPriority + 1
      else defaultPriority
    -- Will fail when the replica is already dead.
    discard <| setPriority env index priority

/-! ## Starting and restarting -/

/-- One pass of the inner loop of `createPipes`. -/
def createPipe (i p : Nat) : M Unit := do
  let (rd, wr) ← pipe
  modify fun v =>
    let rep := v.replicas i
    let ext := v.extPipes p
    if ext.fdIn ≠ 0 then -- This pipe is incoming
      v.setReplica i
        { rep with
          votPipes := Function.update rep.votPipes p
            { rep.votPipes p with repInfo := ext.repInfo, fdIn := 0, fdOut := wr }
          repPipes := Function.update rep.repPipes p
            { rep.repPipes p with repInfo := ext.repInfo, fdIn := rd, fdOut := 0 }
          voterRepInCopy := Function.update rep.voterRepInCopy p rd
          pipeCount := p + 1 }
    else -- This pipe is outgoing
      v.setReplica i
        { rep with
          votPipes := Function.update rep.votPipes p
            { rep.votPipes p with repInfo := ext.repInfo, fdIn := rd, fdOut := 0 }
          repPipes := Function.update rep.repPipes p
            { rep.repPipes p with repInfo := ext.repInfo, fdIn := 0, fdOut := wr }
          voterRepInCopy := Function.update rep.voterRepInCopy p 0
          pipeCount := p + 1 }

def createPipes (first num pipeCount : Nat) : M Unit :=
  loop num fun index => loop pipeCount (createPipe (first + index))

/-- `restartReplica`. The restarter forks itself when it handles the signal; the process
that then connects to the descriptor server is the clone. -/
def restartReplica (env : Env) (num restarter restartee : Nat) (defaultPriority : Int) :
    M Unit := do
  cleanupReplica restartee
  -- Make the restarter the most special of all the replicas
  loop num fun i => do
    if i ≠ restartee then
      let priority := if i = restarter then defaultPriority + 2 else defaultPriority
      let ret ← setPriority env i priority
      if ret < 0 then say [.schedSetPolicy priority]
  let v ← get
  kill (v.replicas restarter).pid .RESTART_SIGNAL
  -- re-init failed rep, create pipes
  initReplicas restartee 1 (v.replicas restarter).name defaultPriority
  let v ← get
  createPipes restartee 1 (v.replicas restarter).pipeCount
  let pid ← acceptSendFDS env
  modify fun v => v.setReplica restartee { v.replicas restartee with pid }
  balanceReps env num defaultPriority

/-- What a replica that is still at work writes to its output pipes: so many bytes to each. -/
def replicaWrites (i : Nat) (bytes : Nat → List Byte) : M Unit := do
  let v ← get
  loop (v.replicas i).pipeCount fun p => do
    if ((v.replicas i).repPipes p).fdOut ≠ 0 then
      discard <| write ((v.replicas i).repPipes p).fdOut (bytes p)

/-- `restartReplica` once more, of a restarter that is at work until the signal reaches it:
`meanwhile` is what it does. The voter does not look at the restarter's output pipes before the
signal, so whatever is written to them since the call may as well be written here. -/
def restartReplicaWhile (env : Env) (num restarter restartee : Nat) (defaultPriority : Int)
    (meanwhile : M Unit) : M Unit := do
  cleanupReplica restartee
  -- Make the restarter the most special of all the replicas
  loop num fun i => do
    if i ≠ restartee then
      let priority := if i = restarter then defaultPriority + 2 else defaultPriority
      let ret ← setPriority env i priority
      if ret < 0 then say [.schedSetPolicy priority]
  meanwhile
  let v ← get
  kill (v.replicas restarter).pid .RESTART_SIGNAL
  -- re-init failed rep, create pipes
  initReplicas restartee 1 (v.replicas restarter).name defaultPriority
  let v ← get
  createPipes restartee 1 (v.replicas restarter).pipeCount
  let pid ← acceptSendFDS env
  modify fun v => v.setReplica restartee { v.replicas restartee with pid }
  balanceReps env num defaultPriority

/-- `forkReplicas`, with no additional arguments. -/
def forkReplicas (env : Env) (num : Nat) : M Unit :=
  loop num fun index => do
    let pid ← fork env
    modify fun v => v.setReplica index { v.replicas index with pid }

/-- `startReplicas`. Every child connects once and sends its own pid, so the `acceptSendFDS`
calls at the end leave the pids as `forkReplicas` recorded them, up to a renumbering of
processes that are still all alike. -/
def startReplicas (env : Env) (num : Nat) (name : String) (pipeCount : Nat)
    (defaultPriority : Int) : M Unit := do
  initReplicas 0 num name defaultPriority
  createPipes 0 num pipeCount
  forkReplicas env num

end Pint
