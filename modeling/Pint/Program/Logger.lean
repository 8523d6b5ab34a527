import Pint.Program.CommTypes

/-!
# `logger.c` and `load.c` — texts on their way to the log

Load writes a text with `asprintf` and sends it as a `MSG_BUFFER`. Logger keeps what comes on its
first pipe for itself; what comes on the others it prints into the log.
-/

namespace Pint

/-! ## Load -/

/-- `msg_buff.length = asprintf(&(msg_buff.message), ...)`, for a format that gives this text. A
length that is no `int` is an error. -/
def asprintf (text : List Byte) : CommMsgBuffer :=
  if text.length < 2147483648 then { length := text.length, message := .array (text ++ [0]) }
  else { length := -1 }

/-- What `perCyclePedestrian` sends to the log, if this is the text. -/
def perCyclePedestrian (pipe : TypedPipe) (fresh : Nat → Byte) (text : List Byte) :
    Except Fault (List Byte) := do
  let msgBuff := asprintf text
  let written ← commSendMsgBuffer pipe fresh msgBuff
  msgBuff.message.free
  return written

/-! ## Logger -/

/-- What `%s` prints of an array: the bytes before the first 0. -/
def cString : List Byte → Except Fault (List Byte)
  | [] => .error .outOfRange
  | b :: bytes => if b = 0 then return [] else return b :: (← cString bytes)

/-- The part of `logger.c` that the texts use. -/
structure Logger where
  finished : Bool := false
  logFile : List (List Byte) := []

/-- `"LOGGED MSG: %s"` -/
def loggedMsg (message : List Byte) : List Byte :=
  ("LOGGED MSG: ".toList.map fun c => .ofNat c.toNat) ++ message

/-- What `enterLoop` does with a pipe that is ready, if it holds these bytes. -/
def Logger.onMsgBuffer (pipe : TypedPipe) (fresh : Nat → Byte) (s : Logger) (unread : List Byte) :
    Except Fault (Logger × List Byte) := do
  -- `struct comm_msg_buffer msg;`
  let got ← recvMsgBuffer pipe fresh {} unread
  let s ←
    if s.finished then pure s
    else do
      let printed ← cString (← got.msg.message.bytes)
      pure { s with logFile := s.logFile ++ [loggedMsg printed] }
  got.msg.message.free
  return (s, got.unread)

/-- So many passes of `enterLoop` that find the pipe ready, and what is in it afterwards. -/
def Logger.onMsgBuffers (pipe : TypedPipe) (fresh : Nat → Nat → Byte) :
    Nat → Logger → List Byte → Except Fault (Logger × List Byte)
  | 0, s, unread => return (s, unread)
  | n + 1, s, unread => do
    let (s, unread) ← s.onMsgBuffer pipe (fresh n) unread
    onMsgBuffers pipe fresh n s unread

end Pint
