import Pint.Lib.MaximalMunch
import Pint.Program.Plumber

/-!
# The words of a configuration (`pb.l`)

The rules of the scanner, in their order. `flex` takes the longest text that a rule accepts,
and of the rules that accept it the first, so a keyword is one only if no letter follows it,
and a name has at least two letters. A character that no other rule accepts is printed and
ignored.
-/

namespace Pint

open MaximalMunch (Rule Lexeme)
open Scan (Text)

/-- What `yylex` returns, with `yylval`. -/
inductive Token where
  | bench
  | pSmr
  | pDmr
  | pTmr
  | startPipe
  | endPipe
  | startVote
  | endVote
  | assign
  | delim
  | varName (str : Text)
  | namedOb (str : Text)
  | numberVal (str : Text)
  | eol
deriving DecidableEq, Repr

/-- What the action of a rule does. -/
inductive LexAction where
  /-- White space has no action. -/
  | skip
  | return (t : Token)
  /-- `"Mystery character %c, %s\n"` -/
  | mystery (c : Text)
deriving DecidableEq, Repr

namespace Lexer

/-! ## Patterns -/

/-- `[a-z]` -/
def isLower (c : Char) : Bool := 'a'.toNat ≤ c.toNat && c.toNat ≤ 'z'.toNat

/-- `[A-Z]` -/
def isUpper (c : Char) : Bool := 'A'.toNat ≤ c.toNat && c.toNat ≤ 'Z'.toNat

/-- `[a-zA-Z_]` -/
def isLetter (c : Char) : Bool := isLower c || isUpper c || c = '_'

/-- `[a-zA-Z_]+` behind a first letter. -/
def isName (first : Char → Bool) : Text → Bool
  | [] => false
  | a :: s => first a && s ≠ [] && s.all isLetter

/-- `[0-9]+` -/
def isDigits (s : Text) : Bool := s ≠ [] && s.all Scan.isDigit

/-- `-?[0-9]+` -/
def isNumber : Text → Bool
  | '-' :: s => isDigits s
  | s => isDigits s

/-- `"//".*` -/
def isComment : Text → Bool
  | '/' :: '/' :: s => s.all (· ≠ '\n')
  | _ => false

/-- `[ \t\r]` -/
def isBlank (s : Text) : Bool := s = [' '] || s = ['\t'] || s = ['\r']

/-- `.` -/
def isAny : Text → Bool
  | [c] => c ≠ '\n'
  | _ => false

/-! ## Rules -/

/-- A text in quotes. -/
def literal (s : String) (t : Token) : Rule Char LexAction where
  accepts w := w = s.toList
  action _ := .return t

/-- A pattern whose token has a copy of the text. -/
def copied (accepts : Text → Bool) (t : Text → Token) : Rule Char LexAction where
  accepts := accepts
  action yytext := .return (t yytext)

def rules : List (Rule Char LexAction) :=
  [ { accepts := isBlank, action := fun _ => .skip },
    literal "Bench" .bench,
    literal "SMR" .pSmr,
    literal "DMR" .pDmr,
    literal "TMR" .pTmr,
    literal "--" .startPipe,
    literal "->" .endPipe,
    literal "(" .startVote,
    literal ")" .endVote,
    literal ":=" .assign,
    literal "," .delim,
    copied (isName isLower) .varName,
    copied (isName isUpper) .namedOb,
    copied isNumber .numberVal,
    { accepts := isComment, action := fun _ => .return .eol },
    literal "\n" .eol,
    { accepts := isAny, action := .mystery } ]

/-- What the calls of `yylex` do until the end of the file. -/
def actions (text : Text) : List LexAction :=
  (MaximalMunch.scan rules text).map Lexeme.value

/-- What an action returns. -/
def token? : LexAction → Option Token
  | .return t => some t
  | _ => none

/-- What the calls of `yylex` return until the end of the file. -/
def yylex (text : Text) : List Token := (actions text).filterMap token?

end Lexer

end Pint
