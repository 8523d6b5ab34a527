import Pint.Lib.Framing
import Pint.Program.Machine

/-!
# A replica that reads messages

`enterLoop` of `filter.c` and of `art_pot.c` waits in `select`, makes one `read` of the size
of the message it expects, and uses what it got only if it got as much; what is shorter is
reported and dropped. `Feed` is the voter's main loop with such a replica behind it, and
somebody who writes messages to the external pipe in front of it.
-/

namespace Pint

open Prog Framing

/-- `sizeof(struct comm_range_pose_data)`: 16 ranges and a pose of 3, each a `double`. -/
def sizeofRangePoseData : Nat := (16 + 3) * 8

/-- An external pipe, the pipe of one replica on which the voter passes it on, and the size of
the messages that the replica reads there. -/
structure Channel where
  /-- The kernel pipe behind the external pipe. -/
  ext : Nat
  /-- The kernel pipe that the replica reads. -/
  rep : Nat
  size : Nat
  size_pos : 0 < size

/-- The voter, and the messages that were written to a channel and that were processed. -/
structure Feed (size : Nat) where
  m : Machine
  written : List (Block Byte size) := []
  processed : List (Block Byte size) := []

inductive FeedMove (size : Nat) where
  /-- Somebody writes a message to the external pipe. -/
  | send (msg : Block Byte size)
  /-- Somebody writes to another kernel pipe. -/
  | deliver (id : Nat) (bytes : List Byte)
  /-- The voter's next piece. -/
  | voter
  /-- The replica comes to its `select`. -/
  | enterLoop
deriving DecidableEq

namespace Feed

variable {size : Nat}

/-- The kernel pipe `id` holds these bytes from now on. -/
def setUnread (s : Feed size) (id : Nat) (bytes : List Byte) : Feed size :=
  { s with m := { s.m with v := { s.m.v with kernel := { s.m.v.kernel with
    unread := Function.update s.m.v.kernel.unread id bytes } } } }

/-- One pass of `enterLoop`. -/
def enterLoop (rep : Nat) (s : Feed size) : Feed size :=
  let bytes := s.m.v.kernel.unread rep
  if bytes = [] then s -- `select` has nothing to report
  else
    let recvMsg := bytes.take size
    let s' := s.setUnread rep (bytes.drop size)
    if h : recvMsg.length = size then
      { s' with processed := s'.processed ++ [⟨recvMsg, h⟩] }
    else s' -- did not match expected size

def step (cfg : Config) (env : Env) (c : Channel) :
    FeedMove c.size → Feed c.size → Except Stop (Feed c.size)
  | .send msg, s => .ok
    { s.setUnread c.ext (s.m.v.kernel.unread c.ext ++ msg.toList) with
      written := s.written ++ [msg] }
  | .deliver id bytes, s =>
    -- The two pipes of the channel have no other writers.
    if id = c.ext ∨ id = c.rep then .ok s
    else .ok (s.setUnread id (s.m.v.kernel.unread id ++ bytes))
  | .voter, s =>
    match s.m.go cfg env with
    | .ok m => .ok { s with m }
    | .error e => .error e
  | .enterLoop, s => .ok (s.enterLoop c.rep)

end Feed

end Pint
