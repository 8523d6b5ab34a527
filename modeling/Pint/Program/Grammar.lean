import Pint.Program.Lexer
import Pint.Program.Plumbing

/-!
# The sentences of a configuration (`pb.y`)

`statements` is what the tokens are read as: the list of the statements whose actions `yyparse`
runs if all of them let it go on. This is the syntactic reading. That the action of a relationship
of an unknown type returns -1, so that nothing behind it is read, is in `Plumber.yyparse`, which
runs the list. The parser reduces a whole declaration or relationship before it looks at the next
token, so the action of a statement has run when what follows it turns out not to be the end of its
line. An error is not recovered from.
-/

namespace Pint

open Scan (Text)

namespace Grammar

/-- `rep_strat` -/
def repStrat : Token → Option Replication
  | .pSmr => some .smr
  | .pDmr => some .dmr
  | .pTmr => some .tmr
  | _ => none

/-- `declaration`, and what is behind it. -/
def declaration : List Token → Option (Statement × List Token)
  | .varName name :: .assign :: .namedOb value :: .numberVal priority :: rest =>
    some (.component name value priority, rest)
  | .varName name :: .assign :: .startVote :: .namedOb value :: .endVote :: strat :: .delim
      :: .numberVal voterTimer :: .numberVal priority :: rest =>
    (repStrat strat).map fun r => (.replicated name value r voterTimer priority, rest)
  | _ => none

/-- A `VAR_NAME` or a `rep_name`. -/
def compName : List Token → Option (CompName × List Token)
  | .varName name :: rest => some (⟨name, false⟩, rest)
  | .startVote :: .varName name :: .endVote :: rest => some (⟨name, true⟩, rest)
  | _ => none

def arrow : List Token → Option (Text × List Token)
  | .startPipe :: .namedOb str :: .endPipe :: rest => some (str, rest)
  | _ => none

/-- What is behind the arrow of a relationship that does not begin at the Bench. -/
def target (nodeA : CompName) (str : Text) : List Token → Option (Statement × List Token)
  | .bench :: rest => some (.toBench nodeA str, rest)
  | ts => (compName ts).map fun (nodeB, rest) => (.link nodeA str nodeB, rest)

def relationship : List Token → Option (Statement × List Token)
  | .bench :: ts => do
    let (str, ts) ← arrow ts
    let (node, rest) ← compName ts
    return (.fromBench str node, rest)
  | ts => do
    let (nodeA, ts) ← compName ts
    let (str, ts) ← arrow ts
    target nodeA str ts

def statement (ts : List Token) : Option (Statement × List Token) :=
  declaration ts <|> relationship ts

/-- `line`, with at most as many statements as there are tokens. -/
def lines : Nat → List Token → List Statement
  | _, [] => []
  | 0, _ => []
  | n + 1, .eol :: ts => lines n ts
  | n + 1, ts =>
    match statement ts with
    | none => [.syntaxError]
    | some (s, .eol :: rest) => s :: lines n rest
    | some (s, _) => [s, .syntaxError]

def statements (ts : List Token) : List Statement := lines ts.length ts

end Grammar

/-- `main`, with the text of `config_plumber.cfg`. -/
def Plumber.mainText (pipe : PipeCalls) (dataIn cmdOut : TypedPipe) (config : Text) :
    Except Fault (List (List Text)) :=
  main pipe dataIn cmdOut (Grammar.statements (Lexer.yylex config))

/-- The same with the list of components in this memory. -/
def Plumbing.mainText (mem : Memory) (pipe : Plumber.PipeCalls) (dataIn cmdOut : TypedPipe)
    (config : Text) : Except Fault (List (List Text)) :=
  main mem pipe dataIn cmdOut (Grammar.statements (Lexer.yylex config))

end Pint
