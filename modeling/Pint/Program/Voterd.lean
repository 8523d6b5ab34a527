import Pint.Program.Replicas

/-!
# `voterd.c` — the voter

The functions of `voterd.c`, in an order where each comes after what it calls. `doOneUpdate`
is cut where another process can act in between: everything up to its `select`
(`beforeSelect`), one turn of the loop over the external pipes (`serveExternal`) and one
turn of the loop over the replicas (`serveReplica`).

The sections under `TIME_RESTART_REPLICA`, `PIPE_SMASH`, `TIME_WAITPID` and
`DEBUG_PRINT` are compiled out by `bench_config.h` and are not here. How long `select` may
wait (`select_timeout`) is not here either: it returns when the environment lets it.
-/

namespace Pint

open Prog

variable (cfg : Config) (env : Env)

/-- `writeBuffer(fd_out, buffer, buff_count)`, where `buffer` is the bytes that `write` will
take from the array. -/
def writeBuffer (fdOut : Int) (buffer : List Byte) (buffCount : Int) : M Unit := do
  let retval ← if buffCount < 0 then pure (-1) else write fdOut buffer
  if retval = buffCount then return -- success, do nothing
  else if retval > 0 then say [.partialWrite fdOut]
  else if retval < 0 then say [.failedWrite fdOut]
  else say [.wroteZero fdOut]

/-! ## Stealing what a replica has not read -/

/-- The second loop of `stealPipes`, over the pipes of the list. -/
def stealReady (rep : Replica) (ready : List Int) :
    List Nat → (Nat → List Byte) → M (Nat → List Byte)
  | [], buffer => return buffer
  | i :: rest, buffer => do
    if rep.voterRepInCopy i ∈ ready then
      match ← read env (rep.voterRepInCopy i) maxVotePipeBuff with
      | .data bytes => stealReady rep ready rest (Function.update buffer i bytes)
      | .failed => do
        say [.stealingPipe]
        stealReady rep ready rest buffer
    else stealReady rep ready rest buffer

/-- `stealPipes`: for each pipe, what was taken from it. -/
def stealPipes (repNum : Nat) : M (Nat → List Byte) := do
  let v ← get
  let rep := v.replicas repNum
  let ready ← select (((List.range rep.pipeCount).map rep.voterRepInCopy).filter (· ≠ 0))
  stealReady env rep ready (List.range rep.pipeCount) fun _ => []

/-- `returnPipes`: writes the stolen bytes to the input pipes of a replica. -/
def returnPipes (repNum : Nat) (buffer : Nat → List Byte) : M Unit := do
  let v ← get
  loop (v.replicas repNum).pipeCount fun i => do
    if buffer i ≠ [] then
      let v ← get
      writeBuffer (v.vot repNum i).fdOut (buffer i) (buffer i).length

/-! ## Voting -/

/-- `compareBuffs(&(replicas[a].vot_pipes[pipe_num]), &(replicas[b]...), n)` -/
def compareReplicas (pipeNum a b : Nat) (n : Int) : M Int := do
  let v ← get
  let (result, said) ← compareBuffs (v.vot a pipeNum) (v.vot b pipeNum) n
  say said
  return result

/-- The log entry of bytes written to an external pipe. -/
def Voter.forward (v : Voter) (p : Nat) (bytes : List Byte) : Voter :=
  { v with log := { v.log with
    sent := Function.update v.log.sent p (v.log.sent p ++ bytes) } }

/-- One turn of the loop of `sendPipe`. -/
def sendTurn (pipeNum replicaNum : Nat) (bytesAvail : Int) (r : Nat) : M Unit := do
  let v ← get
  if replicaNum = r then
    let (ret, pipe, bytes, said) ← buffToPipe (v.vot r pipeNum) bytesAvail
    say said
    if ret = 0 then
      discard <| write (v.extPipes pipeNum).fdOut bytes
    modify fun v => (v.setVot r pipeNum pipe).forward pipeNum bytes
  else
    modify fun v => v.setVot r pipeNum (fakeToPipe (v.vot r pipeNum) bytesAvail)

def sendPipe (pipeNum replicaNum : Nat) : M Unit := do
  let v ← get
  let bytesAvail := bytesReady v.replicas cfg.repCount pipeNum
  if bytesAvail = 0 then return
  if pipeNum = cfg.timerStopIndex then
    modify fun v => { v with timerStarted := false }
  loop cfg.repCount (sendTurn pipeNum replicaNum bytesAvail)

/-- One turn of the loop of `restart_prep` that hands the buffered votes over. -/
def handOver (restartee restarter i : Nat) : M Unit := do
  let v ← get
  if (v.vot restarter i).fdIn ≠ 0 then
    let pipe ← copyPipe (v.vot restartee i) (v.vot restarter i)
    modify fun v => v.setVot restartee i pipe
    sendPipe cfg i restarter

/-- `restart_prep` -/
def restartPrep (restartee restarter : Nat) : M Unit := do
  modify fun v =>
    { v with log := { v.log with restarts := v.log.restarts ++ [(restartee, restarter)] } }
  -- Steal the pipes from healthy reps. This stops them from processing mid restart
  let buffer ← stealPipes env restarter
  -- reset timer
  modify fun v => { v with timerStarted := false }
  restartReplica env cfg.repCount restarter restartee cfg.replicaPriority
  modify fun v => { v with log := { v.log with
    stream := Function.update v.log.stream restartee (v.log.stream restarter) } }
  let v ← get
  loop (v.replicas restarter).pipeCount (handOver cfg restartee restarter)
  -- Give the buffers back
  returnPipes restartee buffer
  returnPipes restarter buffer

/-- `restart_prep` once more, with what the restarter does until the signal reaches it. -/
def restartPrepWhile (restartee restarter : Nat) (meanwhile : M Unit) : M Unit := do
  modify fun v =>
    { v with log := { v.log with restarts := v.log.restarts ++ [(restartee, restarter)] } }
  -- Steal the pipes from healthy reps. This stops them from processing mid restart
  let buffer ← stealPipes env restarter
  -- reset timer
  modify fun v => { v with timerStarted := false }
  restartReplicaWhile env cfg.repCount restarter restartee cfg.replicaPriority meanwhile
  modify fun v => { v with log := { v.log with
    stream := Function.update v.log.stream restartee (v.log.stream restarter) } }
  let v ← get
  loop (v.replicas restarter).pipeCount (handOver cfg restartee restarter)
  -- Give the buffers back
  returnPipes restartee buffer
  returnPipes restarter buffer

/-- The loop of `checkSDC` in TMR: send the solution that at least two agree on. -/
def checkTmr (pipeNum : Nat) (bytesAvail : Int) : List Nat → M Unit
  | [] => say [.noTwoAgreed]
  | r :: rest => do
    let next ← compareReplicas pipeNum r ((r + 1) % cfg.repCount) bytesAvail
    if next = 0 then
      -- If the third doesn't agree, it should be restarted.
      let third ← compareReplicas pipeNum r ((r + 2) % cfg.repCount) bytesAvail
      if third ≠ 0 then restartPrep cfg env ((r + 2) % cfg.repCount) r
      else sendPipe cfg pipeNum r
    else checkTmr pipeNum bytesAvail rest

def checkSDC (pipeNum : Nat) : M Unit := do
  let v ← get
  let bytesAvail := bytesReady v.replicas cfg.repCount pipeNum
  if bytesAvail = 0 then return
  match cfg.repType with
  | .smr => sendPipe cfg pipeNum 0
  | .dmr => do
    let result ← compareReplicas pipeNum 0 1 bytesAvail
    if result ≠ 0 then say [.votingDisagreement]
    sendPipe cfg pipeNum 0
  | .tmr => checkTmr cfg env pipeNum bytesAvail (List.range cfg.repCount)
  | _ => return

/-- The log entries of bytes accepted from a replica. -/
def Voter.accept (v : Voter) (r p : Nat) (bytes : List Byte) : Voter :=
  { v with log := { v.log with
    accepted := Function.update v.log.accepted r
      (Function.update (v.log.accepted r) p (v.log.accepted r p ++ bytes))
    stream := Function.update v.log.stream r
      (Function.update (v.log.stream r) p (v.log.stream r p ++ bytes)) } }

def ReadResult.bytes : ReadResult → List Byte
  | .failed => []
  | .data bytes => bytes

/-- `processFromRep` -/
def processFromRep (replicaNum pipeNum : Nat) : M Unit := do
  let v ← get
  let got ← read env (v.vot replicaNum pipeNum).fdIn maxVotePipeBuff
  let (ret, pipe, said) ← pipeToBuff (v.vot replicaNum pipeNum) got
  say said
  modify fun v => v.setVot replicaNum pipeNum pipe
  if ret = 0 then
    modify fun v => v.accept replicaNum pipeNum got.bytes
    balanceReps env cfg.repCount cfg.replicaPriority
    checkSDC cfg env pipeNum
  else say [.internalPipe replicaNum pipeNum]

/-! ## Input, and the watchdog -/

/-- The first `buff_count` bytes of an external pipe's buffer. -/
def VotePipe.payload (pipe : VotePipe) : List Byte :=
  RingBuffer.block pipe.buffer 0 pipe.buffCount.toNat

/-- `processData(&(ext_pipes[pipe_index]), pipe_index)` -/
def processData (pipeIndex : Nat) : M Unit := do
  let v ← get
  if pipeIndex = cfg.timerStartIndex then
    if v.timerStarted = false then
      let now ← generateTimestamp env
      modify fun v => { v with timerStarted := true, watchdog := now }
  balanceReps env cfg.repCount cfg.replicaPriority
  loop cfg.repCount fun r => do
    let v ← get
    writeBuffer (v.vot r pipeIndex).fdOut (v.extPipes pipeIndex).payload
      (v.extPipes pipeIndex).buffCount

/-- `voterRestartHandler` -/
def voterRestartHandler : M Unit := do
  match cfg.repType with
  | .smr => do
    -- Need to cold restart the replica
    let v ← get
    modify fun w => { w with lastDead := (v.replicas 0).pid }
    cleanupReplica 0
    startReplicas env cfg.repCount cfg.controllerName cfg.pipeCount cfg.replicaPriority
    -- Resend last data
    loop cfg.pipeCount fun p => do
      let v ← get
      if (v.extPipes p).fdIn ≠ 0 then processData cfg env p
  | .dmr | .tmr => do
    -- The failed rep should be the one behind on the timer pipe
    let v ← get
    let restartee := behindRep v.replicas cfg.repCount cfg.timerStopIndex
    let restarter := (restartee + (cfg.repCount - 1)) % cfg.repCount
    note (.picked restartee restarter)
    restartPrep cfg env restartee restarter
  | _ => pure ()
  let now ← generateTimestamp env
  note (.returned now)

/-- `checkSync`: for each pipe, each replica has the same number of votes. -/
def checkSync (v : Voter) : Bool :=
  (List.range cfg.pipeCount).all fun p =>
    (List.range' 1 (cfg.repCount - 1)).all fun r =>
      (v.vot 0 p).buffCount = (v.vot r p).buffCount

/-- `doOneUpdate`, first part: detects a replica that exited on its own. -/
def reapExit : M Unit := do
  if cfg.repType = .smr then
    let exitPid ← waitpid env
    let v ← get
    if exitPid > 0 ∧ exitPid ≠ v.lastDead then
      note (.exited exitPid (v.replicas 0).pid)
      voterRestartHandler cfg env
      modify fun v => { v with timerStarted := false }

/-- `doOneUpdate`, second part: the watchdog. -/
def checkWatchdog : M Unit := do
  let v ← get
  if v.timerStarted = true then
    let current ← generateTimestamp env
    let remaining := cfg.votingTimeout - diffTime current v.watchdog
    if remaining > 0 then return
    else do
      note (.expired current)
      voterRestartHandler cfg env

/-- `doOneUpdate`, third part: the descriptors to watch. -/
def watchSet : M (List Int) := do
  let v ← get
  let checkInputs := checkSync cfg v
  if checkInputs = false ∧ cfg.voterPriority < 5 ∧ v.timerStarted = false then
    -- non-RT controller is now lagging behind.
    let now ← generateTimestamp env
    modify fun v => { v with timerStarted := true, watchdog := now }
  let externals :=
    if checkInputs then
      ((List.range cfg.pipeCount).map fun p => (v.extPipes p).fdIn).filter (· ≠ 0)
    else []
  let internals := (List.range cfg.pipeCount).flatMap fun p =>
    ((List.range cfg.repCount).map fun r => (v.vot r p).fdIn).filter (· ≠ 0)
  return externals ++ internals

/-- `doOneUpdate` up to its `select`. -/
def beforeSelect : M (List Int) := do
  reapExit cfg env
  checkWatchdog cfg env
  watchSet cfg env

/-- The external pipe after a `read` into its buffer. -/
def VotePipe.received (pipe : VotePipe) : ReadResult → VotePipe
  | .failed => { pipe with buffCount := -1 }
  | .data bytes =>
    { pipe with
      buffCount := bytes.length
      buffer := RingBuffer.blit pipe.buffer 0 (ReadResult.data bytes).array 0 bytes.length }

/-- One turn of the loop over the external pipes. -/
def serveExternal (ready : List Int) (p : Nat) : M Unit := do
  let v ← get
  let readFd := (v.extPipes p).fdIn
  if readFd ≠ 0 ∧ readFd ∈ ready then
    let got ← read env readFd maxVotePipeBuff
    modify fun v => v.setExt p ((v.extPipes p).received got)
    if got.count > 0 then processData cfg env p
    else if got.count < 0 then say [.externalPipe p]
    else say [.externalPipeZero p]

/-- One turn of the loops over the replicas. -/
def serveReplica (ready : List Int) (p r : Nat) : M Unit := do
  let v ← get
  let fdIn := (v.vot r p).fdIn
  if fdIn ≠ 0 ∧ fdIn ∈ ready then processFromRep cfg env r p

/-- The turns of the loops over the replicas, in order: pipe, then replica. -/
def slots : List (Nat × Nat) :=
  (List.range cfg.pipeCount).flatMap fun p => (List.range cfg.repCount).map fun r => (p, r)

/-- `doOneUpdate`, with nothing happening outside while it runs. -/
def doOneUpdate : M Unit := do
  let watched ← beforeSelect cfg env
  let ready ← select watched
  if ready ≠ [] then
    (List.range cfg.pipeCount).forM (serveExternal cfg env ready)
    (slots cfg).forM fun s => serveReplica cfg env ready s.1 s.2

/-- `initVoterD`. The reads of length 0 are there to cause page faults. -/
def initVoterD : M Unit := do
  createFDS
  startReplicas env cfg.repCount cfg.controllerName cfg.pipeCount cfg.replicaPriority
  loop cfg.pipeCount fun p => do
    let v ← get
    if (v.extPipes p).fdIn ≠ 0 then
      let count ← readNothing (v.extPipes p).fdIn
      modify fun v => v.setExt p { v.extPipes p with buffCount := count }
  loop cfg.repCount fun r => do
    let v ← get
    loop (v.replicas r).pipeCount fun p => do
      let v ← get
      if (v.vot r p).fdIn ≠ 0 then
        let count ← readNothing (v.vot r p).fdIn
        modify fun v => v.setVot r p { v.vot r p with buffCount := count }

/-- The loop of `parseArgs` that picks the timed pipes: `timer_start_index` and
`timer_stop_index`. -/
def timerIndexes (pipeCount : Nat) (extPipes : Nat → VotePipe) : Nat × Nat :=
  (List.range pipeCount).foldl
    (fun acc i =>
      if (extPipes i).timed then
        if (extPipes i).fdIn ≠ 0 then (i, acc.2) else (acc.1, i)
      else acc)
    (0, 0)

end Pint
