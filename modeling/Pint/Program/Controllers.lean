import Pint.Program.CommandLine

/-!
# How a controller gets its pipes

`parseArgs` of `art_pot.c`, `a_star.c`, `mapper.c`, `filter.c`, `empty.c` and
`generic_empty.c`. A controller that the plumber starts finds its pipes on its command line. A
replica is started by its voter with a shorter one, and asks the voter for descriptors. Which
of the two it is, a controller tells from `argc` alone.
-/

namespace Pint

open Scan (Text)

/-- Where the pipes of a controller come from. -/
inductive PipeSource where
  /-- `connectRecvFDS(getpid(), pipes, n, name)` -/
  | request (n : Int)
  /-- The command line. -/
  | given (pipes : List TypedPipe)
deriving DecidableEq, Repr

/-- Arguments behind `argv[2]` that are read if `argc` is at least `required`, up to the size
of the array `pipes`; else `requested` pipes are asked for. -/
def parsePipes (required pipeLimit : Nat) (requested : Int → Int) :
    List Text → Except Fault PipeSource
  | name :: priority :: pipeNum :: args =>
    if (name :: priority :: pipeNum :: args).length < required then
      return .request (requested (atoi pipeNum))
    else
      return .given (← (args.take pipeLimit).mapM deserializePipe)
  | _ => .error .nullPointer

/-- `parseArgs` of `art_pot.c` -/
def ArtPot.parseArgs : List Text → Except Fault PipeSource := parsePipes 5 4 fun n => n

/-- `parseArgs` of `a_star.c` -/
def AStar.parseArgs : List Text → Except Fault PipeSource := parsePipes 6 4 fun n => n

/-- `parseArgs` of `mapper.c`; `PIPE_COUNT` pipes are asked for. It exits where the others
would follow a null pointer. -/
def Mapper.parseArgs : List Text → Except Fault PipeSource := parsePipes 6 3 fun _ => 3

/-- `parseArgs` of `empty.c` and of `generic_empty.c`, with `pipe_count` set to 2. Neither
looks at `argv[2]`. -/
def Empty.parseArgs : List Text → Except Fault PipeSource
  | name :: priority :: args =>
    if (name :: priority :: args).length < 5 then return .request 2
    else
      return .given (← ((args.drop 1).take 2).mapM deserializePipe)
  | _ => .error .nullPointer

/-- The loop of `parseArgs` of `filter.c`, with `n` arguments to go; they are as many as
`argv[2]` says, wherever the command line ends, and there is room for `room` pipes. -/
def Filter.parseOuts : Nat → Nat → List Text → Except Fault (List TypedPipe)
  | 0, _, _ => return []
  | _ + 1, _, [] => .error .nullPointer
  | _ + 1, 0, _ => .error .outOfRange
  | n + 1, room + 1, arg :: args => do
    return (← deserializePipe arg) :: (← parseOuts n room args)

/-- `parseArgs` of `filter.c` -/
def Filter.parseArgs : List Text → Except Fault PipeSource
  | name :: priority :: pipeNum :: args =>
    if (name :: priority :: pipeNum :: args).length < 5 then return .request (atoi pipeNum)
    else
      match args with
      | [] => .error .nullPointer
      | arg :: args => do
        return .given ((← deserializePipe arg)
          :: (← parseOuts (atoi pipeNum - 1).toNat 3 args))
  | _ => .error .nullPointer

end Pint
