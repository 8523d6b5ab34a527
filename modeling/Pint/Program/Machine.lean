import Pint.Lib.Run
import Pint.Program.Voterd

/-!
# The voter among other processes

`main` calls `doOneUpdate` for ever. `Machine` is that loop with a program counter, so that
other processes can write to the kernel pipes between any two of its pieces: a run is a
list of moves, `go` for the voter's next piece and `deliver` for a write by somebody else.
`doOneUpdate_go` connects the two: a call of `doOneUpdate` is a run of `go`s once around
the loop.

`perform` is the coarser view, the calls the loop makes without the order it makes them in.
What holds after any list of calls holds in particular for the loop.
-/

namespace Pint

open Prog

variable (cfg : Config) (env : Env)

/-- The state after a call that answers nothing. -/
def exec (x : M Unit) (v : Voter) : Except Stop Voter :=
  match x.run v with
  | .ok (_, v') => .ok v'
  | .error e => .error e

/-! ## Starting -/

/-- What `VoterD` finds when it starts: the globals as the compiler initialises them, the
external pipes and the timed ones among them as `parseArgs` recorded them, descriptor 0 and
the external pipes open, and no children. -/
structure Boot (v : Voter) : Prop where
  timerStarted : v.timerStarted = false
  lastDead : v.lastDead = -1
  replicas : ∀ i, v.replicas i = {}
  children : v.children = []
  log : v.log = {}
  timers : (cfg.timerStartIndex, cfg.timerStopIndex) = timerIndexes cfg.pipeCount v.extPipes
  stdin : v.kernel.lookup 0 ≠ none
  ext : ∀ p, p < cfg.pipeCount → v.kernel.lookup (v.extPipes p).fdIn ≠ none ∧
    v.kernel.lookup (v.extPipes p).fdOut ≠ none
  ends : ∀ fd id, v.kernel.lookup fd = some (.readEnd id) ∨
    v.kernel.lookup fd = some (.writeEnd id) → id < v.kernel.pipes

/-- The voter at the head of its main loop for the first time. -/
def Started (v : Voter) : Prop := ∃ b, Boot cfg b ∧ (initVoterD cfg env).run b = .ok ((), v)

/-! ## Calls in any order -/

/-- Something that happens to the voter. -/
inductive Action where
  /-- Another process writes to a kernel pipe. -/
  | deliver (id : Nat) (bytes : List Byte)
  /-- The voter reads replica `r` on pipe `p`. -/
  | processFromRep (r p : Nat)
  /-- The watchdog runs out. -/
  | watchdog
deriving DecidableEq, Repr

/-- `processFromRep`, behind the test that `doOneUpdate` makes. -/
def tryProcessFromRep (r p : Nat) : M Unit := do
  let v ← get
  if r < cfg.repCount ∧ p < cfg.pipeCount ∧ (v.vot r p).fdIn ≠ 0 then
    processFromRep cfg env r p

def perform : Action → Voter → Except Stop Voter
  | .deliver id bytes, v => .ok { v with kernel := v.kernel.deliver id bytes }
  | .processFromRep r p, v => exec (tryProcessFromRep cfg env r p) v
  | .watchdog, v => exec (voterRestartHandler cfg env) v

/-! ## The main loop -/

/-- Where the main loop is. -/
inductive Pc where
  /-- At the start of `doOneUpdate`. -/
  | top
  /-- In `select`, watching these descriptors. -/
  | atSelect (watched : List Int)
  /-- In the loop over the external pipes, with these still to come. -/
  | externals (ready : List Int) (rest : List Nat)
  /-- In the loops over the replicas, with these turns still to come. -/
  | replicas (ready : List Int) (rest : List (Nat × Nat))
deriving DecidableEq, Repr

structure Machine where
  pc : Pc := .top
  v : Voter

inductive Move where
  | deliver (id : Nat) (bytes : List Byte)
  | go
deriving DecidableEq, Repr

/-- The voter's next piece. -/
def Machine.go (m : Machine) : Except Stop Machine :=
  match m.pc with
  | .top =>
    match (beforeSelect cfg env).run m.v with
    | .ok (watched, v) => .ok ⟨.atSelect watched, v⟩
    | .error e => .error e
  | .atSelect watched =>
    let ready := watched.filter fun fd => m.v.kernel.waiting fd ≠ []
    if ready ≠ [] then .ok ⟨.externals ready (List.range cfg.pipeCount), m.v⟩
    else .ok ⟨.top, m.v⟩
  | .externals ready (p :: rest) =>
    match exec (serveExternal cfg env ready p) m.v with
    | .ok v => .ok ⟨.externals ready rest, v⟩
    | .error e => .error e
  | .externals ready [] => .ok ⟨.replicas ready (slots cfg), m.v⟩
  | .replicas ready ((p, r) :: rest) =>
    match exec (serveReplica cfg env ready p r) m.v with
    | .ok v => .ok ⟨.replicas ready rest, v⟩
    | .error e => .error e
  | .replicas _ [] => .ok ⟨.top, m.v⟩

def Machine.step : Move → Machine → Except Stop Machine
  | .deliver id bytes, m => .ok { m with v := { m.v with kernel := m.v.kernel.deliver id bytes } }
  | .go, m => m.go cfg env

/-! ## `doOneUpdate` is once around the loop -/

theorem exec_of_run {x : M Unit} {v v' : Voter} (h : x.run v = .ok ((), v')) :
    exec x v = .ok v' := by
  unfold exec
  rw [h]

/-- A sequence that answered is its two halves, each of which answered. -/
theorem run_bind_ok {α β : Type} {x : M α} {f : α → M β} {v v' : Voter} {b : β}
    (h : (x >>= f).run v = .ok (b, v')) :
    ∃ a u, x.run v = .ok (a, u) ∧ (f a).run u = .ok (b, v') := by
  rw [StateT.run_bind] at h
  cases hx : x.run v with
  | error e =>
    rw [hx] at h
    cases h
  | ok r =>
    rw [hx] at h
    exact ⟨r.1, r.2, rfl, h⟩

variable {cfg env}

/-- The loop over the external pipes, turn by turn. -/
theorem externals_go {ready : List Int} {rest : List Nat} {v v' : Voter}
    (h : (rest.forM (serveExternal cfg env ready)).run v = .ok ((), v')) :
    ∃ moves, runAll (Machine.step cfg env) moves ⟨.externals ready rest, v⟩
      = .ok ⟨.externals ready [], v'⟩ := by
  induction rest generalizing v with
  | nil =>
    obtain rfl : v = v' := congrArg Prod.snd (Except.ok.inj h)
    exact ⟨[], rfl⟩
  | cons p rest ih =>
    obtain ⟨_, u, hp, hrest⟩ := run_bind_ok h
    obtain ⟨moves, hm⟩ := ih hrest
    refine ⟨.go :: moves, runAll_cons.mpr ⟨_, ?_, hm⟩⟩
    simp only [Machine.step, Machine.go, exec_of_run hp]

/-- The loops over the replicas, turn by turn. -/
theorem replicas_go {ready : List Int} {rest : List (Nat × Nat)} {v v' : Voter}
    (h : (rest.forM fun s => serveReplica cfg env ready s.1 s.2).run v = .ok ((), v')) :
    ∃ moves, runAll (Machine.step cfg env) moves ⟨.replicas ready rest, v⟩
      = .ok ⟨.replicas ready [], v'⟩ := by
  induction rest generalizing v with
  | nil =>
    obtain rfl : v = v' := congrArg Prod.snd (Except.ok.inj h)
    exact ⟨[], rfl⟩
  | cons s rest ih =>
    obtain ⟨_, u, hs, hrest⟩ := run_bind_ok h
    obtain ⟨moves, hm⟩ := ih hrest
    refine ⟨.go :: moves, runAll_cons.mpr ⟨_, ?_, hm⟩⟩
    simp only [Machine.step, Machine.go, exec_of_run hs]

/-- **A call of `doOneUpdate` is a run of the machine once around its loop.** -/
theorem doOneUpdate_go {v v' : Voter} (h : (doOneUpdate cfg env).run v = .ok ((), v')) :
    ∃ moves, runAll (Machine.step cfg env) moves ⟨.top, v⟩ = .ok ⟨.top, v'⟩ := by
  obtain ⟨watched, u, hb, h⟩ := run_bind_ok h
  obtain ⟨ready, w, hsel, h⟩ := run_bind_ok h
  have hr : (watched.filter fun fd => u.kernel.waiting fd ≠ [], u) = (ready, w) :=
    Except.ok.inj hsel
  obtain ⟨hready, rfl⟩ := Prod.mk.inj hr
  have htop : Machine.step cfg env .go ⟨.top, v⟩ = .ok ⟨.atSelect watched, u⟩ := by
    simp only [Machine.step, Machine.go, hb]
  by_cases hne : ready = []
  · rw [if_neg (not_not.mpr hne)] at h
    obtain rfl : u = v' := congrArg Prod.snd (Except.ok.inj h)
    refine ⟨[.go, .go], runAll_cons.mpr ⟨_, htop, runAll_cons.mpr ⟨_, ?_, rfl⟩⟩⟩
    simp only [Machine.step, Machine.go, hready]
    rw [if_neg (not_not.mpr hne)]
  · rw [if_pos hne] at h
    obtain ⟨_, w, he, h⟩ := run_bind_ok h
    obtain ⟨ms₁, hms₁⟩ := externals_go he
    obtain ⟨ms₂, hms₂⟩ := replicas_go h
    have hgo : Machine.step cfg env .go ⟨.atSelect watched, u⟩
        = .ok ⟨.externals ready (List.range cfg.pipeCount), u⟩ := by
      simp only [Machine.step, Machine.go, hready]
      rw [if_pos hne]
    refine ⟨.go :: .go :: (ms₁ ++ .go :: (ms₂ ++ [.go])),
      runAll_cons.mpr ⟨_, htop, runAll_cons.mpr ⟨_, hgo, runAll_append.mpr
        ⟨_, hms₁, runAll_cons.mpr ⟨_, rfl, runAll_append.mpr ⟨_, hms₂, rfl⟩⟩⟩⟩⟩⟩

end Pint
