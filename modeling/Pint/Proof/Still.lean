import Pint.Program.Machine

/-!
# What most calls leave alone

Most functions of the voter only talk to the system: they set priorities, read the clock,
send signals, print, or write to a pipe. `Still` says what such a call leaves as it was,
namely everything the vote depends on, and `Kept` is the part of it that also survives the
calls which move votes. A later proof crosses a quiet call by one lemma from here and never
unfolds it.

What a call does to the unread bytes of the kernel pipes is stated next to `Still`, because
it differs: `balanceReps` touches none, and a write touches the pipe it writes to.
-/

namespace Pint

open Prog

/-! ## System calls -/

section SystemCalls

variable {env : Env} {E : Stop → Prop} {v : Voter}

@[simp] theorem wp_say {ms : List Message} {Q : Unit → Voter → Prop} :
    wp (say ms) Q E v ↔ Q () (v.say ms) := Iff.rfl

@[simp] theorem wp_note {c : Call} {Q : Unit → Voter → Prop} :
    wp (note c) Q E v ↔ Q () (v.note c) := Iff.rfl

@[simp] theorem wp_generateTimestamp {Q : Nat → Voter → Prop} :
    wp (generateTimestamp env) Q E v ↔ Q (env.clock v.tick) { v with tick := v.tick + 1 } :=
  Iff.rfl

@[simp] theorem wp_schedSetPolicy {pid priority : Int} {Q : Int → Voter → Prop} :
    wp (schedSetPolicy env pid priority) Q E v ↔
      Q (if env.schedOk v.tick pid priority then 0 else -1) { v with tick := v.tick + 1 } :=
  Iff.rfl

@[simp] theorem wp_kill {pid : Int} {sig : Signal} {Q : Unit → Voter → Prop} :
    wp (kill pid sig) Q E v ↔
      Q () { v with log := { v.log with signals := v.log.signals ++ [(pid, sig)] } } := Iff.rfl

@[simp] theorem wp_close {fd : Int} {Q : Unit → Voter → Prop} :
    wp (close fd) Q E v ↔ Q () { v with kernel := v.kernel.close fd } := Iff.rfl

@[simp] theorem wp_select {watched : List Int} {Q : List Int → Voter → Prop} :
    wp (select watched) Q E v ↔ Q (watched.filter fun fd => v.kernel.waiting fd ≠ []) v :=
  Iff.rfl

@[simp] theorem wp_acceptSendFDS {Q : Int → Voter → Prop} :
    wp (acceptSendFDS env) Q E v ↔ Q (env.pid v.tick) { v with tick := v.tick + 1 } := Iff.rfl

end SystemCalls

/-! ## The two frames -/

/-- The messages that would mean the buffers are out of step. -/
def Message.alarm : Message → Bool
  | .indexMismatch | .biggerWrite => true
  | _ => false

/-- Which descriptors and processes there are, and what the voter knows of them. -/
structure Kept (v v' : Voter) : Prop where
  lastDead : v'.lastDead = v.lastDead
  children : v'.children = v.children
  tick : v.tick ≤ v'.tick
  fds : v'.kernel.fds = v.kernel.fds
  pipes : v'.kernel.pipes = v.kernel.pipes
  ext : ∀ p, (v'.extPipes p).fdIn = (v.extPipes p).fdIn ∧
    (v'.extPipes p).fdOut = (v.extPipes p).fdOut
  pid : ∀ i, (v'.replicas i).pid = (v.replicas i).pid
  pipeCount : ∀ i, (v'.replicas i).pipeCount = (v.replicas i).pipeCount
  repPipes : ∀ i, (v'.replicas i).repPipes = (v.replicas i).repPipes
  inCopy : ∀ i, (v'.replicas i).voterRepInCopy = (v.replicas i).voterRepInCopy
  fd : ∀ i p, (v'.vot i p).fdIn = (v.vot i p).fdIn ∧ (v'.vot i p).fdOut = (v.vot i p).fdOut

/-- All of that, and the votes, the timer and the log of the vote. -/
structure Still (v v' : Voter) : Prop extends Kept v v' where
  timerStarted : v'.timerStarted = v.timerStarted
  watchdog : v'.watchdog = v.watchdog
  extPipes : v'.extPipes = v.extPipes
  vot : ∀ i p, v'.vot i p = v.vot i p
  log : v'.log = { v.log with said := v'.log.said, signals := v'.log.signals }
  alarms : ∀ m : Message, m.alarm = true → m ∈ v'.log.said → m ∈ v.log.said

section Frames

variable {v v' v'' : Voter}

theorem Kept.refl (v : Voter) : Kept v v :=
  ⟨rfl, rfl, Nat.le_refl _, rfl, rfl, fun _ => ⟨rfl, rfl⟩, fun _ => rfl, fun _ => rfl,
    fun _ => rfl, fun _ => rfl, fun _ _ => ⟨rfl, rfl⟩⟩

theorem Kept.trans (h : Kept v v') (h' : Kept v' v'') : Kept v v'' where
  lastDead := h'.lastDead.trans h.lastDead
  children := h'.children.trans h.children
  tick := Nat.le_trans h.tick h'.tick
  fds := h'.fds.trans h.fds
  pipes := h'.pipes.trans h.pipes
  ext p := ⟨(h'.ext p).1.trans (h.ext p).1, (h'.ext p).2.trans (h.ext p).2⟩
  pid i := (h'.pid i).trans (h.pid i)
  pipeCount i := (h'.pipeCount i).trans (h.pipeCount i)
  repPipes i := (h'.repPipes i).trans (h.repPipes i)
  inCopy i := (h'.inCopy i).trans (h.inCopy i)
  fd i p := ⟨(h'.fd i p).1.trans (h.fd i p).1, (h'.fd i p).2.trans (h.fd i p).2⟩

theorem Kept.lookup (h : Kept v v') (fd : Int) : v'.kernel.lookup fd = v.kernel.lookup fd := by
  unfold Kernel.lookup
  rw [h.fds]

theorem Still.refl (v : Voter) : Still v v :=
  { Kept.refl v with
    timerStarted := rfl
    watchdog := rfl
    extPipes := rfl
    vot := fun _ _ => rfl
    log := rfl
    alarms := fun _ _ h => h }

theorem Still.trans (h : Still v v') (h' : Still v' v'') : Still v v'' :=
  { h.toKept.trans h'.toKept with
    timerStarted := h'.timerStarted.trans h.timerStarted
    watchdog := h'.watchdog.trans h.watchdog
    extPipes := h'.extPipes.trans h.extPipes
    vot := fun i p => (h'.vot i p).trans (h.vot i p)
    log := by rw [h'.log, h.log]
    alarms := fun m hm hmem => h.alarms m hm (h'.alarms m hm hmem) }

/-- Fields of the log that a quiet call does not write. -/
theorem Still.sent (h : Still v v') : v'.log.sent = v.log.sent := by rw [h.log]

theorem Still.accepted (h : Still v v') : v'.log.accepted = v.log.accepted := by rw [h.log]

theorem Still.stream (h : Still v v') : v'.log.stream = v.log.stream := by rw [h.log]

theorem Still.restarts (h : Still v v') : v'.log.restarts = v.log.restarts := by rw [h.log]

theorem Still.calls (h : Still v v') : v'.log.calls = v.log.calls := by rw [h.log]

theorem still_tick (v : Voter) : Still v { v with tick := v.tick + 1 } :=
  { Still.refl v with tick := Nat.le_succ _ }

theorem still_signal (v : Voter) (signals : List (Int × Signal)) :
    Still v { v with log := { v.log with signals } } := { Still.refl v with log := rfl }

/-- New bytes in kernel pipes, or bytes taken from them. -/
theorem still_unread (v : Voter) (unread : Nat → List Byte) :
    Still v { v with kernel := { v.kernel with unread } } := { Still.refl v with }

theorem still_say (v : Voter) {ms : List Message} (h : ∀ m ∈ ms, m.alarm = false) :
    Still v (v.say ms) :=
  { Still.refl v with
    log := rfl
    alarms := fun m hm hmem => by
      rcases List.mem_append.mp hmem with hmem | hmem
      · exact hmem
      · exact absurd hm (by simp [h m hmem]) }

/-- Changing a priority is not seen by anything the frame keeps. -/
theorem still_priority (v : Voter) (i : Nat) (priority : Int) :
    Still v (v.setReplica i { v.replicas i with priority }) := by
  have hrep : ∀ j, (v.setReplica i { v.replicas i with priority }).replicas j
      = { v.replicas j with
          priority := ((v.setReplica i { v.replicas i with priority }).replicas j).priority } := by
    intro j
    unfold Voter.setReplica
    by_cases hj : j = i
    · subst hj
      simp only [Function.update_self]
    · simp only [Function.update_of_ne hj]
  have hvot : ∀ j p, (v.setReplica i { v.replicas i with priority }).vot j p = v.vot j p := by
    intro j p
    unfold Voter.vot
    rw [hrep j]
  exact
    { Still.refl v with
      pid := fun j => by rw [hrep j]
      pipeCount := fun j => by rw [hrep j]
      repPipes := fun j => by rw [hrep j]
      inCopy := fun j => by rw [hrep j]
      fd := fun j p => by rw [hvot j p]; exact ⟨rfl, rfl⟩
      vot := hvot }

end Frames

/-! ## The quiet calls -/

section Calls

variable {cfg : Config} {env : Env} {E : Stop → Prop} {v : Voter}

/-- After a loop of quiet turns. -/
theorem wp_loop_still {n : Nat} {body : Nat → M Unit} {P : Voter → Voter → Prop}
    (hrefl : ∀ v, P v v) (htrans : ∀ v v' v'', P v v' → P v' v'' → P v v'')
    (h : ∀ k v', k < n → Still v v' → wp (body k) (fun _ v'' => Still v' v'' ∧ P v' v'') E v') :
    wp (loop n body) (fun _ v' => Still v v' ∧ P v v') E v :=
  wp_loop_const (fun v' => Still v v' ∧ P v v') ⟨Still.refl v, hrefl v⟩ fun k v' hk hv' =>
    (h k v' hk hv'.1).imp fun _ _ hv'' =>
      ⟨hv'.1.trans hv''.1, htrans _ _ _ hv'.2 hv''.2⟩

/-- Kernels are equal in every respect. -/
def SameKernel (v v' : Voter) : Prop := v'.kernel = v.kernel

theorem setPriority_still (i : Nat) (priority : Int) :
    wp (setPriority env i priority) (fun _ v' => Still v v' ∧ SameKernel v v') E v := by
  unfold setPriority
  simp only [wp_bind, wp_get, wp_schedSetPolicy, wp_ite, wp_pure, wp_modify]
  split
  · exact ⟨(still_tick v).trans (still_priority { v with tick := v.tick + 1 } i priority), rfl⟩
  · exact ⟨still_tick v, rfl⟩

theorem balanceReps_still (num : Nat) (defaultPriority : Int) :
    wp (balanceReps env num defaultPriority) (fun _ v' => Still v v' ∧ SameKernel v v') E v := by
  unfold balanceReps
  rw [wp_bind, wp_get]
  refine wp_loop_still (fun _ => rfl) (fun _ _ _ h h' => h'.trans h) fun k v' _ _ => ?_
  dsimp only
  rw [wp_discard]
  exact setPriority_still k _

/-- It prints and logs nothing. -/
theorem balanceReps_log (num : Nat) (defaultPriority : Int) :
    wp (balanceReps env num defaultPriority) (fun _ v' => v'.log = v.log) E v := by
  have hset : ∀ (i : Nat) (priority : Int) (u : Voter),
      wp (setPriority env i priority) (fun _ v' => v'.log = u.log) E u := by
    intro i priority u
    unfold setPriority
    rw [wp_bind, wp_get, wp_bind, wp_schedSetPolicy, wp_ite (c := _ < (0 : Int))]
    split
    · exact rfl
    · rw [wp_bind, wp_modify]
      exact rfl
  unfold balanceReps
  rw [wp_bind, wp_get]
  refine wp_loop_const (fun v' : Voter => v'.log = v.log) rfl ?_
  intro k u _ hu
  dsimp only
  rw [wp_discard]
  exact (hset k _ u).imp fun _ v' hv' => hv'.trans hu

/-- Nothing was written to a pipe that `fd` is not the write end of. -/
def OnlyWrote (fds : Int → Prop) (v v' : Voter) : Prop :=
  ∀ id, (∀ fd, fds fd → v.kernel.lookup fd ≠ some (.writeEnd id)) →
    v'.kernel.unread id = v.kernel.unread id

/-- A `write` changes the unread bytes of one kernel pipe, if anything. -/
theorem write_spec (fd : Int) (bytes : List Byte) :
    wp (write fd bytes) (fun _ v' => OnlyWrote (· = fd) v v' ∧
      ∃ unread, v' = { v with kernel := { v.kernel with unread } }) E v := by
  unfold write
  rw [wp_bind, wp_get]
  split
  · rename_i id hid
    simp only [wp_bind, wp_set, wp_pure]
    refine ⟨fun x hx => ?_, _, rfl⟩
    have hne : x ≠ id := by
      rintro rfl
      exact hx fd rfl hid
    exact Function.update_of_ne hne _ _
  · exact ⟨fun _ _ => rfl, v.kernel.unread, rfl⟩

theorem writeBuffer_still (fdOut : Int) (buffer : List Byte) (buffCount : Int) :
    wp (writeBuffer fdOut buffer buffCount)
      (fun _ v' => Still v v' ∧ OnlyWrote (· = fdOut) v v') E v := by
  have hrest : ∀ (retval : Int) (v' : Voter), Still v v' → OnlyWrote (· = fdOut) v v' →
      wp (if retval = buffCount then pure ()
        else if retval > 0 then say [.partialWrite fdOut]
        else if retval < 0 then say [.failedWrite fdOut]
        else say [.wroteZero fdOut] : M Unit)
        (fun _ v'' => Still v v'' ∧ OnlyWrote (· = fdOut) v v'') E v' := by
    intro retval v' hs ho
    have hsay : ∀ m : Message, m.alarm = false →
        Still v (v'.say [m]) ∧ OnlyWrote (· = fdOut) v (v'.say [m]) := fun m hm =>
      ⟨hs.trans (still_say v' (by simpa using hm)), ho⟩
    split
    · exact ⟨hs, ho⟩
    · split
      · exact hsay _ rfl
      · split
        · exact hsay _ rfl
        · exact hsay _ rfl
  unfold writeBuffer
  dsimp only
  rw [wp_ite]
  split
  · exact hrest _ v (Still.refl v) fun _ _ => rfl
  · rw [wp_bind]
    refine (write_spec fdOut buffer).imp fun retval v' h => ?_
    obtain ⟨ho, unread, rfl⟩ := h
    exact hrest retval _ (still_unread v unread) ho

/-- How many of `bytes` the read of `n` bytes that asks question `t` takes. -/
def Env.taken (env : Env) (t n : Nat) (bytes : List Byte) : Nat :=
  if 1 ≤ env.readCount t ∧ env.readCount t ≤ min n bytes.length then env.readCount t
  else min n bytes.length

theorem Env.taken_le (env : Env) (t n : Nat) (bytes : List Byte) :
    env.taken t n bytes ≤ n ∧ env.taken t n bytes ≤ bytes.length := by
  unfold Env.taken
  split
  · rename_i h
    exact Nat.le_min.mp h.2
  · exact ⟨Nat.min_le_left _ _, Nat.min_le_right _ _⟩

theorem Env.taken_pos (env : Env) (t : Nat) {n : Nat} {bytes : List Byte} (hn : 0 < n)
    (hb : bytes ≠ []) : 0 < env.taken t n bytes := by
  have hlen := List.length_pos_of_ne_nil hb
  unfold Env.taken
  split
  · rename_i h
    exact h.1
  · exact Nat.lt_min.mpr ⟨hn, hlen⟩

/-- A `read` of a pipe that is not empty returns something. -/
theorem Env.take_taken_pos (env : Env) (t : Nat) {n : Nat} {bytes : List Byte} (hn : 0 < n)
    (hb : bytes ≠ []) : 0 < (bytes.take (env.taken t n bytes)).length := by
  rw [List.length_take, Nat.min_eq_left (env.taken_le t n bytes).2]
  exact env.taken_pos t hn hb

/-- The state after a `read` that left these bytes in a pipe. -/
def Voter.drained (v : Voter) (id : Nat) (left : List Byte) : Voter :=
  { v with
    tick := v.tick + 1
    kernel := { v.kernel with unread := Function.update v.kernel.unread id left } }

theorem still_drained (v : Voter) (id : Nat) (left : List Byte) : Still v (v.drained id left) :=
  (still_tick v).trans (still_unread { v with tick := v.tick + 1 } _)

/-- A `read` of a pipe that holds nothing blocks; else it takes some of what is there. -/
theorem read_spec {fd : Int} {n id : Nat} {Q : ReadResult → Voter → Prop}
    (hl : v.kernel.lookup fd = some (.readEnd id)) (hE : v.kernel.unread id = [] → E .blocked)
    (hQ : v.kernel.unread id ≠ [] →
      let count := env.taken v.tick n (v.kernel.unread id)
      Q (.data ((v.kernel.unread id).take count))
        (v.drained id ((v.kernel.unread id).drop count))) :
    wp (read env fd n) Q E v := by
  unfold read
  rw [wp_bind, wp_get]
  simp only [hl]
  split
  · rename_i h
    exact hE h
  · rename_i h
    exact hQ h

/-- A descriptor that is not the read end of a pipe cannot be read. -/
theorem read_failed {fd : Int} {n : Nat} {e : PipeEnd} {Q : ReadResult → Voter → Prop}
    (hl : v.kernel.lookup fd = some e) (hne : ∀ id, e ≠ .readEnd id) (hQ : Q .failed v) :
    wp (read env fd n) Q E v := by
  unfold read
  rw [wp_bind, wp_get]
  simp only [hl]
  cases e with
  | readEnd id => exact absurd rfl (hne id)
  | writeEnd id => exact hQ
  | other => exact hQ

/-- A set of descriptors that a quiet call does not change the meaning of. -/
theorem OnlyWrote.trans {fds : Int → Prop} {v v' v'' : Voter} (hk : Kept v v')
    (h : OnlyWrote fds v v') (h' : OnlyWrote fds v' v'') : OnlyWrote fds v v'' := by
  intro id hid
  rw [h' id (fun fd hfd => by rw [hk.lookup]; exact hid fd hfd), h id hid]

/-- The write ends of the voter for pipe `p` of the first `n` replicas. -/
def Voter.toReplicas (v : Voter) (n p : Nat) (fd : Int) : Prop :=
  ∃ r, r < n ∧ fd = (v.vot r p).fdOut

/-- The state in which `processData` starts its work: the timer is armed if the pipe is the
timed one and no timer runs. -/
def Voter.arm (v : Voter) (cfg : Config) (env : Env) (p : Nat) : Voter :=
  if p = cfg.timerStartIndex ∧ v.timerStarted = false then
    { v with tick := v.tick + 1, timerStarted := true, watchdog := env.clock v.tick }
  else v

/-- `processData` is arming the timer, balancing, and writing to each replica. -/
theorem wp_processData {p : Nat} {Q : Unit → Voter → Prop} :
    wp (processData cfg env p) Q E v ↔
      wp (do
        balanceReps env cfg.repCount cfg.replicaPriority
        loop cfg.repCount fun r => do
          let v ← get
          writeBuffer (v.vot r p).fdOut (v.extPipes p).payload (v.extPipes p).buffCount)
        Q E (v.arm cfg env p) := by
  unfold processData Voter.arm
  rw [wp_bind, wp_get]
  by_cases hp : p = cfg.timerStartIndex
  · rw [if_pos hp]
    by_cases ht : v.timerStarted = false
    · rw [if_pos ht, if_pos (And.intro hp ht), wp_bind, wp_generateTimestamp, wp_bind, wp_modify]
    · have hno : ¬ (p = cfg.timerStartIndex ∧ v.timerStarted = false) := fun h => ht h.2
      rw [if_neg ht, if_neg hno]
  · have hno : ¬ (p = cfg.timerStartIndex ∧ v.timerStarted = false) := fun h => hp h.1
    rw [if_neg hp, if_neg hno]

theorem arm_same (v : Voter) (p : Nat) : (v.arm cfg env p).kernel = v.kernel ∧
    (v.arm cfg env p).replicas = v.replicas ∧ (v.arm cfg env p).extPipes = v.extPipes := by
  unfold Voter.arm
  split <;> exact ⟨rfl, rfl, rfl⟩

/-- **`processData` arms the timer and is quiet otherwise.** -/
theorem processData_still (p : Nat) :
    wp (processData cfg env p)
      (fun _ v' => Still (v.arm cfg env p) v' ∧ OnlyWrote (v.toReplicas cfg.repCount p) v v')
      E v := by
  obtain ⟨hkernel, hreplicas, -⟩ : (v.arm cfg env p).kernel = v.kernel ∧ _ := arm_same v p
  rw [wp_processData]
  obtain ⟨w, hw⟩ : ∃ w, w = v.arm cfg env p := ⟨_, rfl⟩
  rw [← hw] at hkernel hreplicas ⊢
  have hvot : ∀ i q, w.vot i q = v.vot i q := by
    intro i q
    unfold Voter.vot
    rw [hreplicas]
  rw [wp_bind]
  refine (balanceReps_still _ _).imp fun _ u hu => ?_
  have hu' : OnlyWrote (v.toReplicas cfg.repCount p) v u := by
    intro id _
    rw [hu.2, hkernel]
  refine wp_loop_const (fun v' => Still w v' ∧ OnlyWrote (v.toReplicas cfg.repCount p) v v')
    ⟨hu.1, hu'⟩ fun r v' hr hv' => ?_
  rw [wp_bind, wp_get]
  refine (writeBuffer_still _ _ _).imp fun _ v'' h => ⟨hv'.1.trans h.1, fun id hid => ?_⟩
  rw [h.2 id ?_, hv'.2 id hid]
  rintro fd rfl
  rw [hv'.1.toKept.lookup, (hv'.1.fd r p).2, hvot]
  unfold Kernel.lookup at hid ⊢
  rw [hkernel]
  exact hid _ ⟨r, hr, rfl⟩

end Calls

end Pint
