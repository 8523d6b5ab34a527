import Pint.Program.CommTypes
import Pint.Program.Voterd

/-!
# From the plumber's node to the voter's pipes

What `launch_node` of `plumbing.c` puts on the command line of a component, and what
`parseArgs` of `voterd.c` makes of it. `fork` and `execv` hand the command line over as it is.
-/

namespace Pint

open Scan (Text)

/-- `REP_TYPE_T` -/
def repTypeT : Replication → String
  | .none => "NONE"
  | .smr => "SMR"
  | .dmr => "DMR"
  | .tmr => "TMR"
  | .repTypeError => "REP_TYPE_ERROR"

/-- `struct node` of the plumber: one component. -/
structure PlumberNode where
  name : Text
  value : Text
  priority : Text
  repStrat : Replication
  voterName : Text
  voterTimer : Text
  pipeCount : Int := 0
  /-- Used only for Voters. -/
  timed : CArray Int := .filled pipeLimit 0
  pipes : CArray TypedPipe := .filled pipeLimit {}

/-- The loop of `launch_node` that writes the pipes, with `n` turns to go. -/
def pipeArgs (curr : PlumberNode) : Nat → Int → Except Fault (List Text)
  | 0, _ => return []
  | n + 1, i => do
    let pipe ← curr.pipes.get i
    let arg ←
      if curr.repStrat = .none then pure (serializePipe pipe)
      else do
        let timed ← curr.timed.get i
        pure (serializePipe pipe ++ Scan.printInts ':' [timed])
    return arg :: (← pipeArgs curr n (i + 1))

/-- `rep_argv` of `launch_node`, without the null pointer at its end. -/
def repArgv (curr : PlumberNode) : Except Fault (List Text) := do
  let pipes ← pipeArgs curr curr.pipeCount.toNat 0
  if curr.repStrat = .none then
    return curr.value :: curr.priority :: Scan.printInt curr.pipeCount :: pipes
  else
    return curr.voterName :: curr.value :: (repTypeT curr.repStrat).toList :: curr.voterTimer
      :: curr.priority :: pipes

/-- `parsePipe`: `sscanf(serial, "%m[^:]:%d:%d:%d", …)`; nothing is set before. -/
def parsePipe (serial : Text) : Except Fault VotePipe :=
  match Scan.scanNot ':' serial with
  | none => .error .uninitialised
  | some (repInfo, rest) =>
    match Scan.scanInts ':' 3 rest with
    | [fdIn, fdOut, timed] =>
      return { repInfo := String.ofList repInfo, fdIn, fdOut, timed := timed ≠ 0 }
    | _ => .error .uninitialised

/-- `PERIOD_USEC` -/
def periodUsec : Int := 120

/-- `atoi`, which is `(int)strtol(s, NULL, 10)`: a number that is no `int` is cut down to the low
32 bits of a `long`. -/
def atoi (s : Text) : Int := wrapInt (clampLong (((Scan.scanInt s).map Prod.fst).getD 0))

/-- `parseArgs`: the globals that it sets, and `ext_pipes`. At most `PIPE_LIMIT` pipes are
parsed. -/
def parseArgs (argv : List Text) : Except Fault (Config × (Nat → VotePipe)) :=
  match argv with
  | _ :: controllerName :: repType :: timeout :: priority :: args => do
    let pipes ← (args.take pipeLimit).mapM parsePipe
    let extPipes : Nat → VotePipe := fun i => pipes.getD i {}
    let timers := timerIndexes pipes.length extPipes
    return ({
      controllerName := String.ofList controllerName
      repType := reptypeToEnum (String.ofList repType)
      pipeCount := pipes.length
      timerStartIndex := timers.1
      timerStopIndex := timers.2
      votingTimeout := if atoi timeout = 0 then periodUsec else atoi timeout
      voterPriority := atoi priority }, extPipes)
  | _ => .error .nullPointer

end Pint
