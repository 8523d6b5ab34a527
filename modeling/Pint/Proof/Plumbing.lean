import Pint.Proof.Kernel

/-!
# The pipes between the voter and its replicas

Each replica has one kernel pipe for each external pipe, and the voter holds *both* ends of
it: one end is in `vot_pipes`, the other in `rep_pipes`, to be handed to the replica. `Wired`
says that this is so and that nothing else is mixed up with it.

A restart closes all descriptors of one replica and opens as many again. `Packed` is what
makes the outcome predictable: no number below a descriptor in use is free, so the numbers
that were closed are handed out again, in the same order. **The descriptor numbers of a
replica never change**, only the kernel pipes behind them do; a `Plan` is those numbers.

So there are two indexings of the same slots. The plan is for the life of the voter. The kernel
pipes, `id`, are those of the present generation, and every restart chooses new ones for one
replica; they are counted upwards and never used again, which is why a pipe of before can be
told from one of after. Nearly all that is shown of the main loop is about `id`, because bytes
are in kernel pipes; the plan says how the voter gets at them.

`Plumbed` is the part that is true of some of the slots already, so the same lemma makes the
pipes of a start and of a restart, one at a time (`Plumbed.piped`).
-/

namespace Pint

open Prog

/-- The descriptor numbers, chosen when the voter starts, and how many kernel pipes there
were before. -/
structure Plan where
  base : Nat
  rd : Nat → Nat → Nat
  wr : Nat → Nat → Nat

/-- Not an end of a pipe that the voter made. -/
def PipeEnd.old (base : Nat) : PipeEnd → Prop
  | .readEnd id => id < base
  | .writeEnd id => id < base
  | .other => True

/-- External pipe `p` brings data in, so it is written to the replicas. -/
def Voter.IsInput (v : Voter) (p : Nat) : Prop := (v.extPipes p).fdIn ≠ 0

/-- Where the two ends of one pipe are recorded. -/
structure Joined (input : Prop) (vp rp : VotePipe) (copy : Int) (rd wr : Nat) : Prop where
  inward : input → vp.fdIn = 0 ∧ vp.fdOut = wr ∧ rp.fdIn = rd ∧ rp.fdOut = 0 ∧ copy = rd
  outward : ¬ input → vp.fdIn = rd ∧ vp.fdOut = 0 ∧ rp.fdIn = 0 ∧ rp.fdOut = wr ∧ copy = 0

/-- The slots in `D` are connected, each to a kernel pipe of its own; the external pipes,
and descriptor 0, are none of these. -/
structure Plumbed (D : Nat → Nat → Prop) (m : Nat) (plan : Plan) (id : Nat → Nat → Nat)
    (v : Voter) : Prop where
  zero : ∃ e, v.kernel.lookup 0 = some e ∧ e.old plan.base
  ext : ∀ p, p < m →
    (∃ e, v.kernel.lookup (v.extPipes p).fdIn = some e ∧ e.old plan.base) ∧
      ∃ e, v.kernel.lookup (v.extPipes p).fdOut = some e ∧ e.old plan.base
  base_le : plan.base ≤ v.kernel.pipes
  joined : ∀ i p, D i p → Joined (v.IsInput p) (v.vot i p) ((v.replicas i).repPipes p)
    ((v.replicas i).voterRepInCopy p) (plan.rd i p) (plan.wr i p)
  rd : ∀ i p, D i p → v.kernel.lookup (plan.rd i p : Int) = some (.readEnd (id i p))
  wr : ∀ i p, D i p → v.kernel.lookup (plan.wr i p : Int) = some (.writeEnd (id i p))
  id_ge : ∀ i p, D i p → plan.base ≤ id i p
  id_lt : ∀ i p, D i p → id i p < v.kernel.pipes
  id_inj : ∀ i p j q, D i p → D j q → id i p = id j q → i = j ∧ p = q

/-- The descriptors of a replica are in the order of its pipes, with none free below. -/
structure Packed (D : Nat → Nat → Prop) (plan : Plan) (v : Voter) : Prop where
  rd_lt : ∀ i p, D i p → plan.rd i p < plan.wr i p
  wr_lt : ∀ i p q, D i p → D i q → p < q → plan.wr i p < plan.rd i q
  full : ∀ i p, D i p → ∀ x : Nat, x ≤ plan.wr i p → v.kernel.lookup (x : Int) ≠ none

/-- The slots of a component. -/
def Config.Slot (cfg : Config) (i p : Nat) : Prop := i < cfg.repCount ∧ p < cfg.pipeCount

/-- All pipes of all replicas are connected. -/
structure Wired (cfg : Config) (plan : Plan) (id : Nat → Nat → Nat) (v : Voter) : Prop
    extends Plumbed cfg.Slot cfg.pipeCount plan id v, Packed cfg.Slot plan v where
  count : ∀ i, i < cfg.repCount → (v.replicas i).pipeCount = cfg.pipeCount

section Invariants

variable {D : Nat → Nat → Prop} {m : Nat} {plan : Plan} {id : Nat → Nat → Nat} {v v' : Voter}
  {cfg : Config}

theorem Kept.isInput (h : Kept v v') (p : Nat) : v'.IsInput p ↔ v.IsInput p := by
  unfold Voter.IsInput
  rw [(h.ext p).1]

/-- A call that keeps the descriptors keeps them connected. -/
theorem Plumbed.kept (hp : Plumbed D m plan id v) (h : Kept v v') : Plumbed D m plan id v' where
  zero := by
    rw [h.lookup]
    exact hp.zero
  ext p hpm := by
    rw [h.lookup, h.lookup, (h.ext p).1, (h.ext p).2]
    exact hp.ext p hpm
  base_le := by
    rw [h.pipes]
    exact hp.base_le
  joined i p hD := by
    have hj := hp.joined i p hD
    rw [h.repPipes, h.inCopy]
    constructor
    · intro hin
      rw [(h.fd i p).1, (h.fd i p).2]
      exact hj.inward ((h.isInput p).mp hin)
    · intro hout
      rw [(h.fd i p).1, (h.fd i p).2]
      exact hj.outward fun hin => hout ((h.isInput p).mpr hin)
  rd i p hD := by
    rw [h.lookup]
    exact hp.rd i p hD
  wr i p hD := by
    rw [h.lookup]
    exact hp.wr i p hD
  id_ge := hp.id_ge
  id_lt i p hD := by
    rw [h.pipes]
    exact hp.id_lt i p hD
  id_inj := hp.id_inj

theorem Packed.kept (hp : Packed D plan v) (h : Kept v v') : Packed D plan v' where
  rd_lt := hp.rd_lt
  wr_lt := hp.wr_lt
  full i p hD x hx := by
    rw [h.lookup]
    exact hp.full i p hD x hx

theorem Wired.kept (hw : Wired cfg plan id v) (h : Kept v v') : Wired cfg plan id v' where
  toPlumbed := hw.toPlumbed.kept h
  toPacked := hw.toPacked.kept h
  count i hi := by
    rw [h.pipeCount]
    exact hw.count i hi

/-- Two records of a replica that is connected by the same pipes and has the same votes. -/
structure SamePipes (rep rep' : Replica) : Prop where
  votPipes : rep'.votPipes = rep.votPipes
  repPipes : rep'.repPipes = rep.repPipes
  inCopy : rep'.voterRepInCopy = rep.voterRepInCopy
  pipeCount : rep'.pipeCount = rep.pipeCount

theorem Still.samePipes {v v' : Voter} (h : Still v v') (i : Nat) :
    SamePipes (v.replicas i) (v'.replicas i) :=
  ⟨funext (h.vot i), h.repPipes i, h.inCopy i, h.pipeCount i⟩

/-- The same pipes and descriptors, whatever else changed. -/
theorem Wired.samePipes (hw : Wired cfg plan id v) (hk : v'.kernel = v.kernel)
    (hext : ∀ p, (v'.extPipes p).fdIn = (v.extPipes p).fdIn ∧
      (v'.extPipes p).fdOut = (v.extPipes p).fdOut)
    (hp : ∀ i, SamePipes (v.replicas i) (v'.replicas i)) : Wired cfg plan id v' where
  zero := by rw [hk]; exact hw.zero
  ext p hpm := by
    rw [hk, (hext p).1, (hext p).2]
    exact hw.ext p hpm
  base_le := by rw [hk]; exact hw.base_le
  joined j q hs := by
    have hin : v'.IsInput q = v.IsInput q := by
      unfold Voter.IsInput
      rw [(hext q).1]
    unfold Voter.vot
    rw [hin, (hp j).votPipes, (hp j).repPipes, (hp j).inCopy]
    exact hw.joined j q hs
  rd j q hs := by rw [hk]; exact hw.rd j q hs
  wr j q hs := by rw [hk]; exact hw.wr j q hs
  id_ge := hw.id_ge
  id_lt j q hs := by rw [hk]; exact hw.id_lt j q hs
  id_inj := hw.id_inj
  rd_lt := hw.rd_lt
  wr_lt := hw.wr_lt
  full j q hs := by rw [hk]; exact hw.full j q hs
  count j hj := by
    rw [(hp j).pipeCount]
    exact hw.count j hj

/-- A descriptor that stands for something old is not one of a replica. -/
theorem Plumbed.old_ne (hp : Plumbed D m plan id v) {fd : Int} {e : PipeEnd} {i p : Nat}
    (h : v.kernel.lookup fd = some e) (hold : e.old plan.base) (hD : D i p) :
    fd ≠ plan.rd i p ∧ fd ≠ plan.wr i p := by
  constructor
  · rintro rfl
    rw [hp.rd i p hD] at h
    obtain rfl := Option.some.inj h
    exact absurd hold (Nat.not_lt.mpr (hp.id_ge i p hD))
  · rintro rfl
    rw [hp.wr i p hD] at h
    obtain rfl := Option.some.inj h
    exact absurd hold (Nat.not_lt.mpr (hp.id_ge i p hD))

theorem Plumbed.rd_ne_zero (hp : Plumbed D m plan id v) {i p : Nat} (hD : D i p) :
    (plan.rd i p : Int) ≠ 0 := by
  obtain ⟨e, he, hold⟩ := hp.zero
  exact fun h => (hp.old_ne he hold hD).1 h.symm

theorem Plumbed.wr_ne_zero (hp : Plumbed D m plan id v) {i p : Nat} (hD : D i p) :
    (plan.wr i p : Int) ≠ 0 := by
  obtain ⟨e, he, hold⟩ := hp.zero
  exact fun h => (hp.old_ne he hold hD).2 h.symm

/-- Different slots have different descriptors. -/
theorem Plumbed.fd_ne (hp : Plumbed D m plan id v) {i p j q : Nat} (hD : D i p) (hD' : D j q)
    (hne : ¬ (i = j ∧ p = q)) :
    plan.rd i p ≠ plan.rd j q ∧ plan.rd i p ≠ plan.wr j q ∧
      plan.wr i p ≠ plan.rd j q ∧ plan.wr i p ≠ plan.wr j q := by
  have hid : id i p ≠ id j q := fun h => hne (hp.id_inj i p j q hD hD' h)
  have h1 := hp.rd i p hD
  have h2 := hp.wr i p hD
  have h3 := hp.rd j q hD'
  have h4 := hp.wr j q hD'
  refine ⟨fun h => ?_, fun h => ?_, fun h => ?_, fun h => ?_⟩
  · rw [h, h3] at h1
    exact hid (PipeEnd.readEnd.inj (Option.some.inj h1)).symm
  · rw [h, h4] at h1
    exact absurd (Option.some.inj h1) (by simp)
  · rw [h, h3] at h2
    exact absurd (Option.some.inj h2) (by simp)
  · rw [h, h4] at h2
    exact hid (PipeEnd.writeEnd.inj (Option.some.inj h2)).symm

/-- The voter reads a replica exactly on its output pipes. -/
theorem Plumbed.fdIn_ne_zero (hp : Plumbed D m plan id v) {i p : Nat} (hD : D i p) :
    (v.vot i p).fdIn ≠ 0 ↔ ¬ v.IsInput p := by
  constructor
  · intro hne hin
    exact hne ((hp.joined i p hD).inward hin).1
  · intro hout
    rw [((hp.joined i p hD).outward hout).1]
    exact hp.rd_ne_zero hD

theorem Plumbed.fdIn_eq (hp : Plumbed D m plan id v) {i p : Nat} (hD : D i p)
    (hout : ¬ v.IsInput p) : (v.vot i p).fdIn = plan.rd i p :=
  ((hp.joined i p hD).outward hout).1

/-- The bytes in flight on an output pipe. -/
theorem Plumbed.waiting_eq (hp : Plumbed D m plan id v) {i p : Nat} (hD : D i p)
    (hout : ¬ v.IsInput p) :
    v.kernel.waiting (v.vot i p).fdIn = v.kernel.unread (id i p) := by
  rw [hp.fdIn_eq hD hout, Kernel.waiting_readEnd (hp.rd i p hD)]

/-- The voter does not write to the output pipes of its replicas: not through their vote
pipes, and not through the external pipes. -/
theorem Plumbed.vot_fdOut_ne (hp : Plumbed D m plan id v) {i p j q : Nat} (hD : D i p)
    (hD' : D j q) (hout : ¬ v.IsInput p) :
    v.kernel.lookup (v.vot j q).fdOut ≠ some (.writeEnd (id i p)) := by
  by_cases hin : v.IsInput q
  · have hne : ¬ (j = i ∧ q = p) := by
      rintro ⟨_, rfl⟩
      exact hout hin
    rw [((hp.joined j q hD').inward hin).2.1, hp.wr j q hD']
    intro h
    exact hne (hp.id_inj j q i p hD' hD (PipeEnd.writeEnd.inj (Option.some.inj h)))
  · obtain ⟨e, he, hold⟩ := hp.zero
    rw [((hp.joined j q hD').outward hin).2.1, he]
    intro h
    obtain rfl := Option.some.inj h
    exact absurd hold (Nat.not_lt.mpr (hp.id_ge i p hD))

theorem Plumbed.ext_fdOut_ne (hp : Plumbed D m plan id v) {i p q : Nat} (hD : D i p)
    (hq : q < m) : v.kernel.lookup (v.extPipes q).fdOut ≠ some (.writeEnd (id i p)) := by
  obtain ⟨-, e, he, hold⟩ := hp.ext q hq
  rw [he]
  intro h
  obtain rfl := Option.some.inj h
  exact absurd hold (Nat.not_lt.mpr (hp.id_ge i p hD))

/-- The bytes in flight from the replicas were not touched. -/
def SameFlight (cfg : Config) (id : Nat → Nat → Nat) (v v' : Voter) : Prop :=
  ∀ i p, cfg.Slot i p → ¬ v.IsInput p → v'.kernel.unread (id i p) = v.kernel.unread (id i p)

theorem SameFlight.refl : SameFlight cfg id v v := fun _ _ _ _ => rfl

theorem SameFlight.trans {v'' : Voter} (h : SameFlight cfg id v v') (hk : Kept v v')
    (h' : SameFlight cfg id v' v'') : SameFlight cfg id v v'' := fun i p hs hout => by
  rw [h' i p hs (fun hin => hout ((hk.isInput p).mp hin)), h i p hs hout]

/-- What the voter writes to its replicas and to the outside is not in flight from them. -/
theorem Wired.sameFlight (hw : Wired cfg plan id v) {fds : Int → Prop}
    (h : OnlyWrote fds v v')
    (hfds : ∀ fd, fds fd → (∃ j q, cfg.Slot j q ∧ fd = (v.vot j q).fdOut) ∨
      ∃ q, q < cfg.pipeCount ∧ fd = (v.extPipes q).fdOut) : SameFlight cfg id v v' := by
  intro i p hs hout
  refine h _ fun fd hfd => ?_
  rcases hfds fd hfd with ⟨j, q, hjq, rfl⟩ | ⟨q, hq, rfl⟩
  · exact hw.vot_fdOut_ne hs hjq hout
  · exact hw.ext_fdOut_ne hs hq

end Invariants

/-! ## `createPipe` -/

/-- The state after `createPipe i p`. -/
def Voter.piped (v : Voter) (i p : Nat) : Voter :=
  let rep := v.replicas i
  let ext := v.extPipes p
  let rd : Int := v.kernel.rdNext
  let wr : Int := v.kernel.wrNext
  let w := { v with kernel := v.kernel.piped }
  if ext.fdIn ≠ 0 then
    w.setReplica i
      { rep with
        votPipes := Function.update rep.votPipes p
          { rep.votPipes p with repInfo := ext.repInfo, fdIn := 0, fdOut := wr }
        repPipes := Function.update rep.repPipes p
          { rep.repPipes p with repInfo := ext.repInfo, fdIn := rd, fdOut := 0 }
        voterRepInCopy := Function.update rep.voterRepInCopy p rd
        pipeCount := p + 1 }
  else
    w.setReplica i
      { rep with
        votPipes := Function.update rep.votPipes p
          { rep.votPipes p with repInfo := ext.repInfo, fdIn := rd, fdOut := 0 }
        repPipes := Function.update rep.repPipes p
          { rep.repPipes p with repInfo := ext.repInfo, fdIn := 0, fdOut := wr }
        voterRepInCopy := Function.update rep.voterRepInCopy p 0
        pipeCount := p + 1 }

/-- What a call leaves alone that only remakes replicas: everything but the replicas and
the kernel, and a log entry or two. -/
structure Outside (v v' : Voter) : Prop where
  timerStarted : v'.timerStarted = v.timerStarted
  watchdog : v'.watchdog = v.watchdog
  lastDead : v'.lastDead = v.lastDead
  extPipes : v'.extPipes = v.extPipes
  tick : v.tick ≤ v'.tick
  log : v'.log = { v.log with said := v'.log.said, signals := v'.log.signals }
  alarms : ∀ m : Message, m.alarm = true → m ∈ v'.log.said → m ∈ v.log.said

theorem Outside.refl (v : Voter) : Outside v v :=
  ⟨rfl, rfl, rfl, rfl, Nat.le_refl _, rfl, fun _ _ h => h⟩

theorem Outside.trans {v v' v'' : Voter} (h : Outside v v') (h' : Outside v' v'') :
    Outside v v'' where
  timerStarted := h'.timerStarted.trans h.timerStarted
  watchdog := h'.watchdog.trans h.watchdog
  lastDead := h'.lastDead.trans h.lastDead
  extPipes := h'.extPipes.trans h.extPipes
  tick := Nat.le_trans h.tick h'.tick
  log := by rw [h'.log, h.log]
  alarms m hm hmem := h.alarms m hm (h'.alarms m hm hmem)

section CreatePipe

variable {v : Voter} {i p : Nat}

@[simp] theorem wp_createPipe {Q : Unit → Voter → Prop} {E : Stop → Prop} :
    wp (createPipe i p) Q E v ↔ Q () (v.piped i p) := Iff.rfl

theorem piped_kernel : (v.piped i p).kernel = v.kernel.piped := by
  unfold Voter.piped
  dsimp only
  split <;> rfl

theorem piped_outside : Outside v (v.piped i p) := by
  unfold Voter.piped
  dsimp only
  split <;> exact { Outside.refl v with }

theorem piped_children : (v.piped i p).children = v.children := by
  unfold Voter.piped
  dsimp only
  split <;> rfl

theorem piped_replicas_ne {j : Nat} (h : j ≠ i) :
    (v.piped i p).replicas j = v.replicas j := by
  unfold Voter.piped
  dsimp only
  split <;> exact Function.update_of_ne h _ _

theorem piped_pipeCount : ((v.piped i p).replicas i).pipeCount = p + 1 := by
  unfold Voter.piped
  dsimp only
  split <;> simp only [Voter.setReplica, Function.update_self]

theorem piped_pid (j : Nat) : ((v.piped i p).replicas j).pid = (v.replicas j).pid := by
  by_cases h : j = i
  · subst h
    unfold Voter.piped
    dsimp only
    split <;> simp only [Voter.setReplica, Function.update_self]
  · rw [piped_replicas_ne h]

/-- The other pipes of the replica. -/
theorem piped_ne {q : Nat} (h : q ≠ p) :
    (v.piped i p).vot i q = v.vot i q ∧
      ((v.piped i p).replicas i).repPipes q = (v.replicas i).repPipes q ∧
      ((v.piped i p).replicas i).voterRepInCopy q = (v.replicas i).voterRepInCopy q := by
  unfold Voter.piped Voter.vot
  dsimp only
  split <;>
  · simp only [Voter.setReplica, Function.update_self]
    exact ⟨Function.update_of_ne h _ _, Function.update_of_ne h _ _, Function.update_of_ne h _ _⟩

/-- The other slots. -/
theorem piped_slot_ne {j q : Nat} (h : ¬ (j = i ∧ q = p)) :
    (v.piped i p).vot j q = v.vot j q ∧
      ((v.piped i p).replicas j).repPipes q = (v.replicas j).repPipes q ∧
      ((v.piped i p).replicas j).voterRepInCopy q = (v.replicas j).voterRepInCopy q := by
  by_cases hj : j = i
  · subst hj
    exact piped_ne fun hq => h ⟨rfl, hq⟩
  · unfold Voter.vot
    rw [piped_replicas_ne hj]
    exact ⟨rfl, rfl, rfl⟩

/-- A new pipe does not touch the votes. -/
theorem piped_votes (j q : Nat) :
    ((v.piped i p).vot j q).buffCount = (v.vot j q).buffCount ∧
      ((v.piped i p).vot j q).buffIndex = (v.vot j q).buffIndex ∧
      ((v.piped i p).vot j q).buffer = (v.vot j q).buffer := by
  by_cases hjq : j = i ∧ q = p
  · obtain ⟨rfl, rfl⟩ := hjq
    unfold Voter.piped Voter.vot
    dsimp only
    split <;> simp [Voter.setReplica]
  · rw [(piped_slot_ne hjq).1]
    exact ⟨rfl, rfl, rfl⟩

theorem piped_joined :
    Joined (v.IsInput p) ((v.piped i p).vot i p) (((v.piped i p).replicas i).repPipes p)
      (((v.piped i p).replicas i).voterRepInCopy p) v.kernel.rdNext v.kernel.wrNext := by
  unfold Voter.IsInput Voter.piped Voter.vot
  constructor
  · intro hin
    dsimp only
    rw [if_pos hin]
    simp [Voter.setReplica]
  · intro hout
    dsimp only
    rw [if_neg hout]
    simp [Voter.setReplica]

/-- A function of slots with a new value at one slot. -/
def atSlot (f : Nat → Nat → Nat) (i p x : Nat) : Nat → Nat → Nat :=
  fun j q => if j = i ∧ q = p then x else f j q

@[simp] theorem atSlot_self {f : Nat → Nat → Nat} {x : Nat} : atSlot f i p x i p = x := by
  simp [atSlot]

theorem atSlot_ne {f : Nat → Nat → Nat} {x j q : Nat} (h : ¬ (j = i ∧ q = p)) :
    atSlot f i p x j q = f j q := by
  simp [atSlot, h]

/-- A slot that already holds the value. -/
theorem atSlot_of_eq {f : Nat → Nat → Nat} {x : Nat} (h : x = f i p) : atSlot f i p x = f := by
  funext j q
  by_cases hjq : j = i ∧ q = p
  · rw [hjq.1, hjq.2, atSlot_self, h]
  · rw [atSlot_ne hjq]

/-- What holds of two functions at the old slots, and of their new values, holds at all. -/
theorem forall_atSlot {D : Nat → Nat → Prop} {P : Nat → Nat → Prop} {f g : Nat → Nat → Nat}
    {x y : Nat} (hnew : ¬ D i p) (hold : ∀ j q, D j q → P (f j q) (g j q)) (hself : P x y)
    (j q : Nat) (h : D j q ∨ (j = i ∧ q = p)) : P (atSlot f i p x j q) (atSlot g i p y j q) := by
  by_cases hjq : j = i ∧ q = p
  · obtain ⟨rfl, rfl⟩ := hjq
    rw [atSlot_self, atSlot_self]
    exact hself
  · rw [atSlot_ne hjq, atSlot_ne hjq]
    exact hold j q (h.resolve_right hjq)

/-- A value that no old slot has leaves the slots apart. -/
theorem atSlot_inj {D : Nat → Nat → Prop} {f : Nat → Nat → Nat} {x j q j' q' : Nat}
    (hf : ∀ j q j' q', D j q → D j' q' → f j q = f j' q' → j = j' ∧ q = q')
    (hx : ∀ j q, D j q → f j q ≠ x) (h : D j q ∨ (j = i ∧ q = p))
    (h' : D j' q' ∨ (j' = i ∧ q' = p)) (heq : atSlot f i p x j q = atSlot f i p x j' q') :
    j = j' ∧ q = q' := by
  by_cases hjq : j = i ∧ q = p <;> by_cases hjq' : j' = i ∧ q' = p
  · exact ⟨hjq.1.trans hjq'.1.symm, hjq.2.trans hjq'.2.symm⟩
  · rw [atSlot_ne hjq', hjq.1, hjq.2, atSlot_self] at heq
    exact absurd heq.symm (hx j' q' (h'.resolve_right hjq'))
  · rw [atSlot_ne hjq, hjq'.1, hjq'.2, atSlot_self] at heq
    exact absurd heq (hx j q (h.resolve_right hjq))
  · rw [atSlot_ne hjq, atSlot_ne hjq'] at heq
    exact hf j q j' q' (h.resolve_right hjq) (h'.resolve_right hjq') heq

/-- The numbers of the new pipe, at its slot. -/
def Plan.add (plan : Plan) (i p : Nat) (k : Kernel) : Plan :=
  { plan with rd := atSlot plan.rd i p k.rdNext, wr := atSlot plan.wr i p k.wrNext }

variable {D : Nat → Nat → Prop} {m : Nat} {plan : Plan} {id : Nat → Nat → Nat}

/-- One pipe more of replica `n`, slot by slot. -/
theorem slot_succ {D : Nat → Nat → Prop} {n k j q : Nat} (h : D j q ∨ (j = n ∧ q < k + 1)) :
    (D j q ∨ (j = n ∧ q < k)) ∨ (j = n ∧ q = k) := by
  rcases h with hc | ⟨rfl, hq⟩
  · exact Or.inl (Or.inl hc)
  · rcases Nat.lt_succ_iff_lt_or_eq.mp hq with hlt | rfl
    · exact Or.inl (Or.inr ⟨rfl, hlt⟩)
    · exact Or.inr ⟨rfl, rfl⟩

/-- The new pipe joins its slot, and the others are joined as before. -/
theorem Plumbed.joined_piped (hp : Plumbed D m plan id v) {j q : Nat}
    (h : D j q ∨ (j = i ∧ q = p)) :
    Joined ((v.piped i p).IsInput q) ((v.piped i p).vot j q) (((v.piped i p).replicas j).repPipes q)
      (((v.piped i p).replicas j).voterRepInCopy q) ((plan.add i p v.kernel).rd j q)
      ((plan.add i p v.kernel).wr j q) := by
  have hin : (v.piped i p).IsInput q = v.IsInput q := by
    unfold Voter.IsInput
    rw [piped_outside.extPipes]
  rw [hin]
  show Joined _ _ _ _ (atSlot plan.rd i p _ j q) (atSlot plan.wr i p _ j q)
  by_cases hjq : j = i ∧ q = p
  · obtain ⟨rfl, rfl⟩ := hjq
    rw [atSlot_self, atSlot_self]
    exact piped_joined
  · obtain ⟨hvot, hrep, hcopy⟩ := piped_slot_ne (v := v) hjq
    rw [atSlot_ne hjq, atSlot_ne hjq, hvot, hrep, hcopy]
    exact hp.joined j q (h.resolve_right hjq)

/-- **`createPipe` connects one more slot.** -/
theorem Plumbed.piped (hp : Plumbed D m plan id v) (hnew : ¬ D i p) :
    Plumbed (fun j q => D j q ∨ (j = i ∧ q = p)) m (plan.add i p v.kernel)
      (atSlot id i p v.kernel.pipes) (v.piped i p) := by
  have hk : (v.piped i p).kernel = v.kernel.piped := piped_kernel
  have hext : (v.piped i p).extPipes = v.extPipes := piped_outside.extPipes
  have hpipes : (v.piped i p).kernel.pipes = v.kernel.pipes + 1 := by
    rw [hk]
    rfl
  refine
    { zero := ?_
      ext := fun q hq => ?_
      base_le := ?_
      joined := fun j q h => hp.joined_piped h
      rd := ?_
      wr := ?_
      id_ge := ?_
      id_lt := ?_
      id_inj := fun j q j' q' h h' heq =>
        atSlot_inj hp.id_inj (fun j q hD => Nat.ne_of_lt (hp.id_lt j q hD)) h h' heq }
  · -- What is open stays open, and descriptor 0 is one of these, so the new numbers are not 0.
    obtain ⟨e, he, hold⟩ := hp.zero
    rw [hk]
    exact ⟨e, Kernel.lookup_piped_of_open he, hold⟩
  · obtain ⟨⟨e, he, hold⟩, e', he', hold'⟩ := hp.ext q hq
    rw [hk, hext]
    exact ⟨⟨e, Kernel.lookup_piped_of_open he, hold⟩,
      e', Kernel.lookup_piped_of_open he', hold'⟩
  · rw [hpipes]
    exact Nat.le_succ_of_le hp.base_le
  · rw [hk]
    exact forall_atSlot
      (P := fun fd x => v.kernel.piped.lookup (fd : Int) = some (.readEnd x)) hnew
      (fun j q hD => Kernel.lookup_piped_of_open (hp.rd j q hD)) (Kernel.lookup_piped_rdNext _)
  · rw [hk]
    exact forall_atSlot
      (P := fun fd x => v.kernel.piped.lookup (fd : Int) = some (.writeEnd x)) hnew
      (fun j q hD => Kernel.lookup_piped_of_open (hp.wr j q hD)) (Kernel.lookup_piped_wrNext _)
  · exact forall_atSlot (P := fun x _ => plan.base ≤ x) (g := id) (y := 0) hnew hp.id_ge hp.base_le
  · rw [hpipes]
    exact forall_atSlot (P := fun x _ => x < v.kernel.pipes + 1) (g := id) (y := 0) hnew
      (fun j q hD => Nat.lt_succ_of_lt (hp.id_lt j q hD)) (Nat.lt_succ_self _)

end CreatePipe

end Pint
