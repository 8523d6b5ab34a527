import Pint.Lib.Wp
import Pint.Program.Descriptors
import Mathlib.Data.List.Flatten

/-!
# The books of the descriptors

The descriptors that are recorded in `vot_pipes` and `rep_pipes` are a ledger. `cleanupReplica`
closes what is recorded and leaves the numbers in the fields, so from then on the records of that
replica are stale; `initReplicas` closes the numbers again and strikes them out. Nothing is opened
in between, so the second `close` hits nothing. `createPipes` only opens when no records are stale.

`Tidy` is the invariant, with the replicas whose records are stale as a parameter: a number that
is recorded twice is recorded by the same replica, all that is open is recorded or was open from the
start, and no call of `close` so far has hit what was not meant. A function is either for stale
records or for none, and the order of the calls in `restartReplica` is what makes the
stale ones end where the new ones begin. `Settled` is what holds between the calls of the voter,
and `settled_life` the run lemma.

The results are for every system that hands out numbers which are not open, the lowest or
others. They need standard input to stay open, since a field that is 0 means that there is none.
-/

namespace Pint

open Prog

/-! ## What is recorded -/

/-- The fields that are not 0. -/
def Fds.recorded (pipe : Fds) : List Int := [pipe.fdIn, pipe.fdOut].filter (· ≠ 0)

namespace ReplicaFds

/-- The descriptors of pipe `p`. -/
def slot (rep : ReplicaFds) (p : Nat) : List Int :=
  (rep.votPipes p).recorded ++ (rep.repPipes p).recorded

/-- The descriptors that are recorded in `vot_pipes` and `rep_pipes`. -/
def recorded (rep : ReplicaFds) : List Int := (List.range rep.pipeCount).flatMap rep.slot

variable {rep : ReplicaFds} {p : Nat} {fd : Int}

theorem mem_recorded : fd ∈ rep.recorded ↔ ∃ p < rep.pipeCount, fd ∈ rep.slot p := by
  unfold recorded
  simp [List.mem_flatMap]

theorem recorded_empty (h : rep.pipeCount = 0) : rep.recorded = [] := by
  unfold recorded
  rw [h]
  rfl

end ReplicaFds

theorem Fds.mem_recorded {pipe : Fds} {fd : Int} :
    fd ∈ pipe.recorded ↔ fd ≠ 0 ∧ (fd = pipe.fdIn ∨ fd = pipe.fdOut) := by
  unfold Fds.recorded
  simp [List.mem_filter, and_comm]

namespace Descriptors

def ledger (d : Descriptors) : Ledger Nat Int where
  opened := d.openFds
  owner fd := match d.owner fd with
    | .replica i => some i
    | _ => none
  recorded i := (d.replicas i).recorded

/-- **The books are kept**, and no call of `close` closed what was not its own. -/
structure Tidy (inUse : Finset Int) (stale : Nat → Prop) (d : Descriptors) : Prop where
  kept : d.ledger.Kept inUse stale
  closes : ∀ c ∈ d.closes, c.of ≠ .outside ∧ (c.closed = none ∨ c.closed = some c.of)

variable {inUse : Finset Int} {stale stale' : Nat → Prop} {d : Descriptors} {i j p : Nat} {fd : Int}

/-! ## Closing -/

theorem owner_of_ledger (h : d.ledger.owner fd = some i) : d.owner fd = .replica i := by
  unfold ledger at h
  dsimp only at h
  cases howner : d.owner fd with
  | outside =>
    rw [howner] at h
    cases h
  | connection =>
    rw [howner] at h
    cases h
  | replica j =>
    rw [howner] at h
    cases h
    rfl

/-- A call of `close` whose number is recorded. -/
theorem Tidy.close (h : d.Tidy inUse stale) (hi : stale i) (hfd : fd ∈ (d.replicas i).recorded) :
    (d.close (.replica i) fd).Tidy inUse stale := by
  refine ⟨h.kept.release hfd hi, ?_⟩
  intro c hc
  rcases List.mem_append.mp hc with hc | hc
  · exact h.closes c hc
  · rw [List.mem_singleton] at hc
    subst hc
    refine ⟨by simp, ?_⟩
    by_cases hopen : fd ∈ d.openFds
    · refine Or.inr ?_
      dsimp only
      rw [if_pos hopen, owner_of_ledger (h.kept.own i fd hfd hopen)]
    · exact Or.inl (if_neg hopen)

theorem Tidy.closeIf (h : d.Tidy inUse stale) (hi : stale i) {c : Prop} [Decidable c]
    (hfd : c → fd ∈ (d.replicas i).recorded) :
    (if c then d.close (.replica i) fd else d).Tidy inUse stale := by
  split
  · rename_i hc
    exact h.close hi (hfd hc)
  · exact h

theorem replicas_closeIf {of : Owner} {c : Prop} [Decidable c] :
    (if c then d.close of fd else d).replicas = d.replicas := by
  split <;> rfl

theorem mem_closeIf {of : Owner} {c : Prop} [Decidable c] {fd' : Int} :
    fd' ∈ (if c then d.close of fd else d).openFds ↔ fd' ∈ d.openFds ∧ ¬ (c ∧ fd' = fd) := by
  split
  · rename_i hc
    simp [close, hc, and_comm]
  · rename_i hc
    simp [hc]

theorem replicas_closeVotePipe (pipe : Fds) : (d.closeVotePipe i pipe).replicas = d.replicas := by
  unfold closeVotePipe
  dsimp only
  rw [replicas_closeIf, replicas_closeIf]

theorem Tidy.closeVotePipe (h : d.Tidy inUse stale) (hi : stale i) {pipe : Fds}
    (hpipe : ∀ fd ∈ pipe.recorded, fd ∈ (d.replicas i).recorded) :
    (d.closeVotePipe i pipe).Tidy inUse stale := by
  unfold Descriptors.closeVotePipe
  refine (h.closeIf hi ?_).closeIf hi ?_
  · intro hne
    exact hpipe _ (Fds.mem_recorded.mpr ⟨hne, Or.inl rfl⟩)
  · intro hne
    rw [replicas_closeIf]
    exact hpipe _ (Fds.mem_recorded.mpr ⟨hne, Or.inr rfl⟩)

/-- What is still open is not of the pipe. -/
theorem mem_closeVotePipe {pipe : Fds} (hfd : fd ∈ (d.closeVotePipe i pipe).openFds) :
    fd ∈ d.openFds ∧ fd ∉ pipe.recorded := by
  unfold closeVotePipe at hfd
  rw [mem_closeIf, mem_closeIf] at hfd
  obtain ⟨⟨hopen, hin⟩, hout⟩ := hfd
  refine ⟨hopen, ?_⟩
  rw [Fds.mem_recorded]
  rintro ⟨hne, rfl | rfl⟩
  · exact hin ⟨hne, rfl⟩
  · exact hout ⟨hne, rfl⟩

/-! ## `initReplicas` and `cleanupReplica` -/

theorem ledger_setReplica (rep : ReplicaFds) :
    (d.setReplica i rep).ledger = d.ledger.record i rep.recorded := by
  have hrecorded : (d.setReplica i rep).ledger.recorded
      = Function.update d.ledger.recorded i rep.recorded := by
    funext j
    by_cases hj : j = i
    · subst hj
      simp [setReplica, ledger]
    · simp [setReplica, ledger, hj]
  unfold Ledger.record
  rw [← hrecorded]
  rfl

/-- **One `resetVotePipe`**: what is struck out is closed. -/
theorem Tidy.resetPipe (h : d.Tidy inUse stale) (hi : stale i) (hp : p < (d.replicas i).pipeCount)
    {pipe : Fds} (hpipe : ∀ fd ∈ pipe.recorded, fd ∈ (d.replicas i).slot p) {rep : ReplicaFds}
    (hcount : rep.pipeCount = (d.replicas i).pipeCount)
    (hothers : ∀ q, q ≠ p → rep.slot q = (d.replicas i).slot q)
    (hsub : (rep.slot p).Sublist ((d.replicas i).slot p))
    (hrest : ∀ fd ∈ (d.replicas i).slot p, fd ∉ pipe.recorded → fd ∈ rep.slot p) :
    ((d.closeVotePipe i pipe).setReplica i rep).Tidy inUse stale := by
  have hclose := h.closeVotePipe hi fun fd hfd =>
    ReplicaFds.mem_recorded.mpr ⟨p, hp, hpipe fd hfd⟩
  have hsame : (d.closeVotePipe i pipe).ledger.recorded i = (d.replicas i).recorded := by
    unfold ledger
    rw [replicas_closeVotePipe]
  refine ⟨?_, hclose.closes⟩
  rw [ledger_setReplica]
  apply hclose.kept.forget
  · rw [hsame]
    unfold ReplicaFds.recorded
    rw [hcount]
    apply List.Sublist.flatMap_right
    intro q _
    by_cases hq : q = p
    · rw [hq]
      exact hsub
    · rw [hothers q hq]
  · intro fd hfd hopen
    rw [hsame, ReplicaFds.mem_recorded] at hfd
    obtain ⟨q, hq, hslot⟩ := hfd
    rw [ReplicaFds.mem_recorded, hcount]
    refine ⟨q, hq, ?_⟩
    by_cases hqp : q = p
    · rw [hqp] at hslot ⊢
      exact hrest fd hslot (mem_closeVotePipe hopen).2
    · rw [hothers q hqp]
      exact hslot

theorem replicas_resetVotPipe :
    (d.resetVotPipe i p).replicas = Function.update d.replicas i { d.replicas i with
      votPipes := Function.update (d.replicas i).votPipes p { fdIn := 0, fdOut := 0 } } := by
  unfold resetVotPipe setReplica
  dsimp only
  rw [replicas_closeVotePipe]

theorem replicas_resetRepPipe :
    (d.resetRepPipe i p).replicas = Function.update d.replicas i { d.replicas i with
      repPipes := Function.update (d.replicas i).repPipes p { fdIn := 0, fdOut := 0 } } := by
  unfold resetRepPipe setReplica
  dsimp only
  rw [replicas_closeVotePipe]

theorem Tidy.resetVotPipe (h : d.Tidy inUse stale) (hi : stale i)
    (hp : p < (d.replicas i).pipeCount) : (d.resetVotPipe i p).Tidy inUse stale := by
  unfold Descriptors.resetVotPipe
  dsimp only
  rw [replicas_closeVotePipe]
  refine h.resetPipe hi hp ?_ rfl ?_ ?_ ?_
  · intro fd hfd
    exact List.mem_append_left _ hfd
  · intro q hq
    simp [ReplicaFds.slot, hq]
  · simp only [ReplicaFds.slot, Function.update_self]
    exact List.sublist_append_right _ _
  · intro fd hfd hnot
    simp only [ReplicaFds.slot, Function.update_self]
    rcases List.mem_append.mp hfd with hvot | hrep
    · exact absurd hvot hnot
    · exact List.mem_append_right _ hrep

theorem Tidy.resetRepPipe (h : d.Tidy inUse stale) (hi : stale i)
    (hp : p < (d.replicas i).pipeCount) : (d.resetRepPipe i p).Tidy inUse stale := by
  unfold Descriptors.resetRepPipe
  dsimp only
  rw [replicas_closeVotePipe]
  refine h.resetPipe hi hp ?_ rfl ?_ ?_ ?_
  · intro fd hfd
    exact List.mem_append_right _ hfd
  · intro q hq
    simp [ReplicaFds.slot, hq]
  · simp only [ReplicaFds.slot, Function.update_self]
    rw [show Fds.recorded { fdIn := 0, fdOut := 0 } = [] from rfl, List.append_nil]
    exact List.sublist_append_left _ _
  · intro fd hfd hnot
    simp only [ReplicaFds.slot, Function.update_self]
    rcases List.mem_append.mp hfd with hvot | hrep
    · exact List.mem_append_left _ hvot
    · exact absurd hrep hnot

/-- What `initReplicas` has done to a replica after `n` of its pipes: their fields are 0, and the
other replicas are as they were. -/
structure Reset (n : Nat) (i : Nat) (d d' : Descriptors) : Prop where
  pipeCount : (d'.replicas i).pipeCount = (d.replicas i).pipeCount
  empty : ∀ q < n, (d'.replicas i).slot q = []
  others : ∀ j, j ≠ i → d'.replicas j = d.replicas j

/-- One pass over the pipes. -/
theorem Reset.step {d' : Descriptors} {n : Nat} (h : Reset n i d d') :
    Reset (n + 1) i d ((d'.resetVotPipe i n).resetRepPipe i n) := by
  refine ⟨?_, ?_, ?_⟩
  · rw [replicas_resetRepPipe, replicas_resetVotPipe]
    simp [h.pipeCount]
  · intro q hq
    rw [replicas_resetRepPipe, replicas_resetVotPipe]
    by_cases hqn : q = n
    · subst hqn
      simp [ReplicaFds.slot, Fds.recorded]
    · have hempty := h.empty q (by omega)
      simpa [ReplicaFds.slot, hqn] using hempty
  · intro j hj
    rw [replicas_resetRepPipe, replicas_resetVotPipe]
    simp [hj, h.others j hj]

/-- **A replica is initialised**: nothing is recorded for it, and nothing that was is open. -/
theorem Tidy.initReplica (h : d.Tidy inUse stale) (hi : stale i) :
    (d.initReplica i).Tidy inUse stale ∧ ((d.initReplica i).replicas i).pipeCount = 0 ∧
      ∀ j, j ≠ i → (d.initReplica i).replicas j = d.replicas j := by
  have hloop := foldl_range (n := (d.replicas i).pipeCount)
    (f := fun d p => (d.resetVotPipe i p).resetRepPipe i p) (s := d)
    (fun n d' => d'.Tidy inUse stale ∧ Reset n i d d')
    ⟨h, rfl, fun q hq => absurd hq (Nat.not_lt_zero q), fun _ _ => rfl⟩
    (by
      rintro n d' hn ⟨htidy, hreset⟩
      have hn' : n < (d'.replicas i).pipeCount := by
        rw [hreset.pipeCount]
        exact hn
      have hvot := htidy.resetVotPipe hi hn'
      refine ⟨hvot.resetRepPipe hi ?_, hreset.step⟩
      rw [replicas_resetVotPipe]
      simp [hn'])
  obtain ⟨htidy, hreset⟩ := hloop
  unfold Descriptors.initReplica
  dsimp only
  generalize (List.range (d.replicas i).pipeCount).foldl
    (fun d p => (d.resetVotPipe i p).resetRepPipe i p) d = d' at htidy hreset ⊢
  refine ⟨⟨?_, htidy.closes⟩, ?_, ?_⟩
  · rw [ledger_setReplica, ReplicaFds.recorded_empty rfl]
    apply htidy.kept.forget
    · exact List.nil_sublist _
    · intro fd hfd _
      obtain ⟨q, hq, hslot⟩ := ReplicaFds.mem_recorded.mp hfd
      rw [hreset.pipeCount] at hq
      rw [hreset.empty q hq] at hslot
      cases hslot
  · simp [setReplica]
  · intro j hj
    simp [setReplica, hj, hreset.others j hj]

/-- **A replica is cleaned up**: some of its numbers are closed, and they stay recorded. -/
theorem Tidy.cleanupReplica (h : d.Tidy inUse stale) (hi : stale i) :
    (d.cleanupReplica i).Tidy inUse stale ∧ (d.cleanupReplica i).replicas = d.replicas := by
  refine foldl_range (fun _ (d' : Descriptors) =>
    d'.Tidy inUse stale ∧ d'.replicas = d.replicas) ⟨h, rfl⟩ ?_
  rintro p d' hp ⟨htidy, hsame⟩
  have hrecorded : ∀ fd, 0 < fd → fd ∈ [((d.replicas i).votPipes p).fdIn,
      ((d.replicas i).votPipes p).fdOut, ((d.replicas i).repPipes p).fdIn,
      ((d.replicas i).repPipes p).fdOut] → fd ∈ (d.replicas i).recorded := by
    intro fd hpos hmem
    refine ReplicaFds.mem_recorded.mpr ⟨p, hp, ?_⟩
    simp only [List.mem_cons, List.not_mem_nil, or_false] at hmem
    rw [ReplicaFds.slot, List.mem_append, Fds.mem_recorded, Fds.mem_recorded]
    omega
  unfold cleanupPipe
  simp only [hsame]
  refine ⟨?_, ?_⟩
  · refine (((htidy.closeIf hi ?_).closeIf hi ?_).closeIf hi ?_).closeIf hi ?_
    all_goals
      intro hpos
      simp only [replicas_closeIf, hsame]
      exact hrecorded _ hpos (by simp)
  · simp only [replicas_closeIf, hsame]

/-! ## `createPipes` and `acceptSendFDS` -/

section Opening

variable {alloc : Allocator} {extPipes : Nat → Fds}

/-- The numbers that `pipe` hands out are not 0, since 0 is open. -/
theorem Tidy.pipe_ne_zero (h : d.Tidy inUse stale) (hzero : 0 ∈ inUse) (alloc : Allocator) :
    (alloc.pipe d.openFds d.calls).1 ≠ 0 ∧ (alloc.pipe d.openFds d.calls).2 ≠ 0 := by
  have hopen : (0 : Int) ∈ d.openFds := (h.kept.outside 0 hzero).1
  obtain ⟨hrd, hwr, -⟩ := alloc.pipe_fresh d.openFds d.calls
  refine ⟨?_, ?_⟩
  · intro heq
    rw [heq] at hrd
    exact hrd hopen
  · intro heq
    rw [heq] at hwr
    exact hwr hopen

/-- **Two fresh numbers are recorded** behind what there is. -/
theorem Tidy.recordPipe (h : d.Tidy inUse fun _ => False) {rep : ReplicaFds} {new : List Int}
    (hnew : new = [(alloc.pipe d.openFds d.calls).1, (alloc.pipe d.openFds d.calls).2] ∨
      new = [(alloc.pipe d.openFds d.calls).2, (alloc.pipe d.openFds d.calls).1])
    (hrep : rep.recorded = (d.replicas i).recorded ++ new) :
    ((d.pipe alloc i).2.2.setReplica i rep).Tidy inUse fun _ => False := by
  obtain ⟨hrd, hwr, hne⟩ := alloc.pipe_fresh d.openFds d.calls
  -- In which order the two numbers are recorded depends on the direction of the pipe.
  have hmem : ∀ fd, fd ∈ new ↔ fd = (alloc.pipe d.openFds d.calls).1 ∨
      fd = (alloc.pipe d.openFds d.calls).2 := by
    intro fd
    rcases hnew with rfl | rfl
    · simp
    · simp [or_comm]
  have hnodup : new.Nodup := by
    rcases hnew with rfl | rfl
    · simp [hne]
    · simp [hne.symm]
  have hfresh : ∀ fd ∈ new, fd ∉ d.ledger.opened := by
    intro fd hfd
    rcases (hmem fd).mp hfd with rfl | rfl
    · exact hrd
    · exact hwr
  refine ⟨(h.kept.acquire (i := i) hnodup hfresh).congr ?_ ?_ ?_, h.closes⟩
  · ext fd
    simp only [ledger, setReplica, Descriptors.pipe, Ledger.acquire, Finset.mem_insert,
      Finset.mem_union, List.mem_toFinset, hmem]
    tauto
  · funext j
    rw [ledger_setReplica]
    by_cases hj : j = i
    · subst hj
      rw [Ledger.record_self, Ledger.acquire_self, hrep]
      rfl
    · rw [Ledger.record_of_ne hj, Ledger.acquire_of_ne hj]
      rfl
  · intro fd _
    by_cases hfd : fd ∈ new
    · rcases (hmem fd).mp hfd with rfl | rfl
      · simp [ledger, setReplica, Descriptors.pipe, Ledger.acquire, hfd]
      · simp [ledger, setReplica, Descriptors.pipe, Ledger.acquire, hfd, hne.symm]
    · have hnot := mt (hmem fd).mpr hfd
      rw [not_or] at hnot
      simp [ledger, setReplica, Descriptors.pipe, Ledger.acquire, hfd, hnot.1, hnot.2]

/-- The records of a replica that gets pipe `p` after the ones before it. -/
theorem recorded_snoc {rep rep' : ReplicaFds} (hcount : rep.pipeCount = p)
    (hcount' : rep'.pipeCount = p + 1) (hsame : ∀ q, q ≠ p → rep'.slot q = rep.slot q) :
    rep'.recorded = rep.recorded ++ rep'.slot p := by
  unfold ReplicaFds.recorded
  rw [hcount, hcount', List.range_succ, List.flatMap_append, List.flatMap_cons, List.flatMap_nil,
    List.append_nil]
  congr 1
  apply List.flatMap_congr
  intro q hq
  exact hsame q (Nat.ne_of_lt (List.mem_range.mp hq))

/-- **A pipe is made** for a replica that has the ones before it. -/
theorem Tidy.createPipe (h : d.Tidy inUse fun _ => False) (hzero : 0 ∈ inUse)
    (hcount : (d.replicas i).pipeCount = p) :
    (d.createPipe alloc extPipes i p).Tidy inUse (fun _ => False) ∧
      ((d.createPipe alloc extPipes i p).replicas i).pipeCount = p + 1 ∧
      ((d.createPipe alloc extPipes i p).replicas i).recorded.length
        = (d.replicas i).recorded.length + 2 ∧
      ∀ j, j ≠ i → (d.createPipe alloc extPipes i p).replicas j = d.replicas j := by
  obtain ⟨hrd, hwr⟩ := h.pipe_ne_zero hzero alloc
  unfold Descriptors.createPipe
  rcases hpipe : d.pipe alloc i with ⟨rd, wr, d'⟩
  have hd' : (d.pipe alloc i).2.2 = d' := by rw [hpipe]
  have hreplicas : d'.replicas = d.replicas := by rw [← hd']; rfl
  obtain rfl : (alloc.pipe d.openFds d.calls).1 = rd := congrArg Prod.fst hpipe
  obtain rfl : (alloc.pipe d.openFds d.calls).2 = wr := congrArg (fun r => r.2.1) hpipe
  dsimp only
  rw [hreplicas]
  -- Both directions record the two numbers in slot `p` and leave the other slots alone.
  have hmade : ∀ (rep : ReplicaFds), rep.pipeCount = p + 1 →
      (∀ q, q ≠ p → rep.slot q = (d.replicas i).slot q) →
      (rep.slot p = [(alloc.pipe d.openFds d.calls).1, (alloc.pipe d.openFds d.calls).2] ∨
        rep.slot p = [(alloc.pipe d.openFds d.calls).2, (alloc.pipe d.openFds d.calls).1]) →
      (d'.setReplica i rep).Tidy inUse (fun _ => False) ∧
        ((d'.setReplica i rep).replicas i).pipeCount = p + 1 ∧
        ((d'.setReplica i rep).replicas i).recorded.length
          = (d.replicas i).recorded.length + 2 ∧
        ∀ j, j ≠ i → (d'.setReplica i rep).replicas j = d.replicas j := by
    intro rep hp hsame hnew
    have hrec := recorded_snoc hcount hp hsame
    have hlength : (rep.slot p).length = 2 := by
      rcases hnew with heq | heq
      · rw [heq]
        rfl
      · rw [heq]
        rfl
    have htidy := h.recordPipe hnew hrec
    rw [hd'] at htidy
    refine ⟨htidy, ?_, ?_, ?_⟩
    · simp [setReplica, hp]
    · simp [setReplica, hrec, hlength]
    · intro j hj
      simp [setReplica, hj, hreplicas]
  by_cases hdir : (extPipes p).fdIn ≠ 0
  · rw [if_pos hdir]
    refine hmade _ rfl ?_ (Or.inr ?_)
    · intro q hq
      simp [ReplicaFds.slot, hq]
    · simp [ReplicaFds.slot, Fds.recorded, hrd, hwr]
  · rw [if_neg hdir]
    refine hmade _ rfl ?_ (Or.inl ?_)
    · intro q hq
      simp [ReplicaFds.slot, hq]
    · simp [ReplicaFds.slot, Fds.recorded, hrd, hwr]

/-- A connection comes and goes. -/
theorem Tidy.acceptSendFDS (h : d.Tidy inUse stale) :
    (d.acceptSendFDS alloc).Tidy inUse stale := by
  have hfresh := alloc.accept_fresh d.openFds d.calls
  refine ⟨h.kept.congr ?_ rfl ?_, ?_⟩
  · exact Finset.erase_insert hfresh
  · intro fd hfd
    have hne : fd ≠ alloc.accept d.openFds d.calls := by
      intro heq
      rw [heq] at hfd
      exact hfresh hfd
    simp [ledger, Descriptors.acceptSendFDS, Descriptors.close, hne]
  · intro c hc
    rcases List.mem_append.mp hc with hc | hc
    · exact h.closes c hc
    · rw [List.mem_singleton] at hc
      subst hc
      exact ⟨by simp, Or.inr (by simp)⟩

/-! ## Starting and restarting -/

/-- No records are stale, the replicas that there are have so many pipes, each with two numbers,
and the others have none. -/
structure Settled (inUse : Finset Int) (num count : Nat) (d : Descriptors) : Prop where
  tidy : d.Tidy inUse fun _ => False
  pipeCount : ∀ i < num, (d.replicas i).pipeCount = count
  unused : ∀ i, num ≤ i → (d.replicas i).pipeCount = 0
  length : ∀ i, (d.replicas i).recorded.length = 2 * (d.replicas i).pipeCount

/-- **All pipes of one replica are made.** -/
theorem Tidy.createReplica (h : d.Tidy inUse fun _ => False) (hzero : 0 ∈ inUse)
    (hnone : (d.replicas i).pipeCount = 0) (count : Nat) {d' : Descriptors}
    (hd' : (List.range count).foldl (fun d p => d.createPipe alloc extPipes i p) d = d') :
    d'.Tidy inUse (fun _ => False) ∧ (d'.replicas i).pipeCount = count ∧
      (d'.replicas i).recorded.length = 2 * count ∧
      ∀ j, j ≠ i → d'.replicas j = d.replicas j := by
  rw [← hd']
  refine foldl_range (fun n (d' : Descriptors) => d'.Tidy inUse (fun _ => False) ∧
    (d'.replicas i).pipeCount = n ∧ (d'.replicas i).recorded.length = 2 * n ∧
    ∀ j, j ≠ i → d'.replicas j = d.replicas j) ⟨h, hnone, ?_, fun _ _ => rfl⟩ ?_
  · rw [ReplicaFds.recorded_empty hnone]
    rfl
  · rintro n d' _ ⟨htidy, hcount, hlength, hothers⟩
    obtain ⟨htidy', hcount', hlength', hothers'⟩ := htidy.createPipe hzero hcount
    refine ⟨htidy', hcount', ?_, ?_⟩
    · rw [hlength', hlength]
      omega
    · intro j hj
      rw [hothers' j hj, hothers j hj]

/-- Replicas of which nothing is recorded. -/
theorem Tidy.settle (h : d.Tidy inUse stale)
    (hnone : ∀ i, stale i → (d.replicas i).pipeCount = 0) : d.Tidy inUse fun _ => False := by
  refine ⟨h.kept.settle ?_, h.closes⟩
  intro i hi fd hfd
  have hempty : d.ledger.recorded i = [] := ReplicaFds.recorded_empty (hnone i hi)
  rw [hempty] at hfd
  cases hfd

theorem Tidy.mono (h : d.Tidy inUse stale) (hstale : ∀ i, stale i → stale' i) :
    d.Tidy inUse stale' :=
  ⟨h.kept.mono hstale, h.closes⟩

theorem Settled.acceptSendFDS {num count : Nat} (h : d.Settled inUse num count) :
    (d.acceptSendFDS alloc).Settled inUse num count :=
  ⟨h.tidy.acceptSendFDS, h.pipeCount, h.unused, h.length⟩

/-- **A restart.** The records of the restartee are stale until it is initialised. -/
theorem Settled.restartReplica {num count restarter restartee : Nat}
    (h : d.Settled inUse num count) (hzero : 0 ∈ inUse) (hrestarter : restarter < num)
    (hrestartee : restartee < num) (hne : restartee ≠ restarter) :
    (d.restartReplica alloc extPipes restarter restartee).Settled inUse num count := by
  -- From the first `close` on the numbers of the restartee are stale; no other replica has them.
  have hstale : d.Tidy inUse (· = restartee) := h.tidy.mono fun _ hf => hf.elim
  obtain ⟨hcleaned, hsame⟩ := hstale.cleanupReplica rfl
  obtain ⟨hinit, hnone, hothers⟩ := hcleaned.initReplica rfl
  have hclear := hinit.settle fun i hi => hi ▸ hnone
  rw [hsame] at hothers
  have hcount : (((d.cleanupReplica restartee).initReplica restartee).replicas restarter).pipeCount
      = count := by
    rw [hothers restarter hne.symm]
    exact h.pipeCount restarter hrestarter
  unfold Descriptors.restartReplica
  apply Settled.acceptSendFDS
  show Settled inUse num count (((d.cleanupReplica restartee).initReplica restartee).createPipes
    alloc extPipes restartee 1 _)
  rw [show ((d.cleanupReplica restartee).initReplicas restartee 1)
    = (d.cleanupReplica restartee).initReplica restartee from rfl, hcount]
  -- Its pipes are made anew, as many as the restarter has.
  obtain ⟨htidy, hcount', hlength, hothers'⟩ := hclear.createReplica hzero hnone count
    (show _ = ((d.cleanupReplica restartee).initReplica restartee).createPipes
      alloc extPipes restartee 1 count from rfl)
  refine ⟨htidy, ?_, ?_, ?_⟩
  · intro i hi
    by_cases hi' : i = restartee
    · rw [hi']
      exact hcount'
    · rw [hothers' i hi', hothers i hi']
      exact h.pipeCount i hi
  · intro i hi
    have hi' : i ≠ restartee := by omega
    rw [hothers' i hi', hothers i hi']
    exact h.unused i hi
  · intro i
    by_cases hi' : i = restartee
    · rw [hi', hlength, hcount']
    · rw [hothers' i hi', hothers i hi']
      exact h.length i

/-- **A start**, whatever is recorded for the replicas that are started. -/
theorem Tidy.startReplicas {num : Nat} (h : d.Tidy inUse stale) (hzero : 0 ∈ inUse)
    (hunused : ∀ i, num ≤ i → (d.replicas i).pipeCount = 0) (count : Nat) :
    (d.startReplicas alloc extPipes num count).Settled inUse num count := by
  -- The first loop sets every count to 0, and all that was recorded before is forgotten.
  have hinit := foldl_range (n := num) (f := fun d index => d.initReplica (0 + index)) (s := d)
    (fun n d' => d'.Tidy inUse (fun _ => True) ∧ (∀ i < n, (d'.replicas i).pipeCount = 0) ∧
      ∀ i, num ≤ i → (d'.replicas i).pipeCount = 0)
    ⟨h.mono fun _ _ => trivial, fun i hi => absurd hi (Nat.not_lt_zero i), hunused⟩
    (by
      rintro n d' hn ⟨htidy, hdone, hrest⟩
      obtain ⟨htidy', hnone, hothers⟩ := htidy.initReplica (i := 0 + n) trivial
      rw [Nat.zero_add] at htidy' hnone hothers ⊢
      refine ⟨htidy', ?_, ?_⟩
      · intro i hi
        by_cases hin : i = n
        · rw [hin]
          exact hnone
        · rw [hothers i hin]
          exact hdone i (by omega)
      · intro i hi
        rw [hothers i (by omega)]
        exact hrest i hi)
  obtain ⟨htidy, hdone, hrest⟩ := hinit
  have hnone : ∀ i, ((d.initReplicas 0 num).replicas i).pipeCount = 0 := by
    intro i
    rcases Nat.lt_or_ge i num with hi | hi
    · exact hdone i hi
    · exact hrest i hi
  have hclear : (d.initReplicas 0 num).Tidy inUse fun _ => False := htidy.settle fun i _ => hnone i
  -- The second makes the pipes of one replica after the other.
  have hmade := foldl_range (n := num) (s := d.initReplicas 0 num)
    (f := fun d index => (List.range count).foldl
      (fun d p => d.createPipe alloc extPipes (0 + index) p) d)
    (fun n d' => d'.Settled inUse n count)
    ⟨hclear, fun i hi => absurd hi (Nat.not_lt_zero i), fun i _ => hnone i, fun i => by
      rw [ReplicaFds.recorded_empty (hnone i), hnone i]
      rfl⟩
    (by
      intro n d' hn hd'
      rw [Nat.zero_add]
      obtain ⟨htidy', hcount, hlength, hothers⟩ :=
        hd'.tidy.createReplica hzero (hd'.unused n (Nat.le_refl n)) count rfl
      refine ⟨htidy', ?_, ?_, ?_⟩
      · intro i hi
        by_cases hin : i = n
        · rw [hin]
          exact hcount
        · rw [hothers i hin]
          exact hd'.pipeCount i (by omega)
      · intro i hi
        rw [hothers i (by omega)]
        exact hd'.unused i (by omega)
      · intro i
        by_cases hin : i = n
        · rw [hin, hlength, hcount]
        · rw [hothers i hin]
          exact hd'.length i)
  exact foldl_range (fun _ (d' : Descriptors) => d'.Settled inUse num count) hmade
    fun _ _ _ hd' => hd'.acceptSendFDS

/-- A cold restart cleans up a replica and starts them all. -/
theorem Settled.coldRestart {num count : Nat} (h : d.Settled inUse num count)
    (hzero : 0 ∈ inUse) : (d.coldRestart alloc extPipes num count).Settled inUse num count := by
  have hstale : d.Tidy inUse (· = 0) := h.tidy.mono fun _ hf => hf.elim
  obtain ⟨hcleaned, hsame⟩ := hstale.cleanupReplica rfl
  apply hcleaned.startReplicas hzero
  intro i hi
  rw [hsame]
  exact h.unused i hi

theorem Settled.start (hzero : 0 ∈ inUse) (num count : Nat) :
    (startReplicas alloc extPipes { openFds := inUse } num count).Settled inUse num count := by
  have hfresh : Tidy inUse (fun _ => False) { openFds := inUse } := by
    refine ⟨⟨fun a ha => ⟨ha, rfl⟩, fun a ha hnot => absurd ha hnot, ?_, ?_, ?_⟩, ?_⟩
    · intro i a ha
      cases ha
    · intro i _ a ha
      cases ha
    · intro i
      exact .nil
    · intro c hc
      cases hc
  exact hfresh.startReplicas hzero (fun _ _ => rfl) count

theorem Settled.restart {num count : Nat} (h : d.Settled inUse num count) (hzero : 0 ∈ inUse)
    {r : Restart} (hr : r.Possible num) :
    (d.restart alloc extPipes num count r).Settled inUse num count := by
  cases r with
  | warm restarter restartee =>
    obtain ⟨hrestarter, hrestartee, hne⟩ := hr
    exact h.restartReplica hzero hrestarter hrestartee hne
  | cold => exact h.coldRestart hzero

/-- **After any number of restarts** the books are kept. -/
theorem settled_life (hzero : 0 ∈ inUse) (num count : Nat) {restarts : List Restart}
    (hpossible : ∀ r ∈ restarts, r.Possible num) :
    (life alloc extPipes inUse num count restarts).Settled inUse num count := by
  unfold life
  induction restarts using List.reverseRecOn with
  | nil => exact Settled.start hzero num count
  | append_singleton restarts r ih =>
    rw [List.foldl_append]
    have hrest := ih fun r' hr' => hpossible r' (List.mem_append_left _ hr')
    exact hrest.restart hzero (hpossible r (List.mem_append_right _ List.mem_cons_self))

end Opening

/-- What it means that the books are kept and no records are stale. -/
theorem Settled.books {num count : Nat} (h : d.Settled inUse num count) :
    let recorded := (List.range num).flatMap fun i => (d.replicas i).recorded
    recorded.Nodup ∧ recorded.length = num * (2 * count) ∧
      (∀ fd, fd ∈ d.openFds ↔ fd ∈ inUse ∨ fd ∈ recorded) ∧
      (∀ fd ∈ recorded, fd ∉ inUse) ∧
      ∀ c ∈ d.closes, c.of ≠ .outside ∧ (c.closed = none ∨ c.closed = some c.of) := by
  intro recorded
  have hkept := h.tidy.kept
  refine ⟨hkept.nodup List.nodup_range, ?_, ?_, ?_, h.tidy.closes⟩
  · rw [List.length_flatMap]
    have hconst : (List.range num).map (fun i => (d.replicas i).recorded.length)
        = (List.range num).map fun _ => 2 * count := by
      apply List.map_congr_left
      intro i hi
      rw [h.length i, h.pipeCount i (List.mem_range.mp hi)]
    rw [hconst, List.map_const', List.length_range]
    simp
  · intro fd
    rw [show fd ∈ d.openFds ↔ fd ∈ d.ledger.opened from Iff.rfl, hkept.opened_iff,
      List.mem_flatMap]
    refine or_congr_right ⟨?_, ?_⟩
    · rintro ⟨i, hi⟩
      refine ⟨i, ?_, hi⟩
      -- Nothing is recorded for a replica that there is not.
      rw [List.mem_range]
      by_contra hge
      have hempty : d.ledger.recorded i = [] := ReplicaFds.recorded_empty (h.unused i (by omega))
      rw [hempty] at hi
      cases hi
    · rintro ⟨i, -, hi⟩
      exact ⟨i, hi⟩
  · intro fd hfd hin
    obtain ⟨i, -, hi⟩ := List.mem_flatMap.mp hfd
    exact hkept.not_recorded hin hi

end Descriptors

/-- **The descriptors after any number of restarts.** What is recorded for the replicas is
distinct and open, two numbers a pipe; nothing else is open but what was from the start; and every
call of `close` so far closed nothing or a descriptor of the replica, or the connection, that it
was for. This is for every system that hands out what is not open; standard input stays open. -/
theorem restarts_keep_descriptors (alloc : Allocator) (extPipes : Nat → Fds) (inUse : Finset Int)
    (hstdin : 0 ∈ inUse) (num pipeCount : Nat) (restarts : List Descriptors.Restart)
    (hpossible : ∀ r ∈ restarts, r.Possible num) :
    let d := Descriptors.life alloc extPipes inUse num pipeCount restarts
    let recorded := (List.range num).flatMap fun i => (d.replicas i).recorded
    recorded.Nodup ∧ recorded.length = num * (2 * pipeCount) ∧
      (∀ fd, fd ∈ d.openFds ↔ fd ∈ inUse ∨ fd ∈ recorded) ∧
      (∀ fd ∈ recorded, fd ∉ inUse) ∧
      ∀ c ∈ d.closes, c.of ≠ .outside ∧ (c.closed = none ∨ c.closed = some c.of) :=
  (Descriptors.settled_life hstdin num pipeCount hpossible).books

/-- A voter with three replicas and two pipes restarts two of them. -/
theorem restarts_keep_descriptors_three :
    let extPipes : Nat → Fds := fun p => if p = 0 then { fdIn := 3 } else { fdOut := 4 }
    let restarts : List Descriptors.Restart := [.warm 1 0, .warm 2 1]
    let d := Descriptors.life .lowest extPipes {0, 1, 2, 3, 4} 3 2 restarts
    let recorded := (List.range 3).flatMap fun i => (d.replicas i).recorded
    (0 ∈ ({0, 1, 2, 3, 4} : Finset Int) ∧ ∀ r ∈ restarts, r.Possible 3) ∧
      recorded.Nodup ∧ recorded.length = 3 * (2 * 2) ∧
      (∀ fd, fd ∈ d.openFds ↔ fd ∈ ({0, 1, 2, 3, 4} : Finset Int) ∨ fd ∈ recorded) ∧
      (∀ fd ∈ recorded, fd ∉ ({0, 1, 2, 3, 4} : Finset Int)) ∧
      ∀ c ∈ d.closes, c.of ≠ .outside ∧ (c.closed = none ∨ c.closed = some c.of) := by
  intro extPipes restarts d recorded
  have hpossible : ∀ r ∈ restarts, r.Possible 3 := by
    simp [restarts, Descriptors.Restart.Possible]
  exact ⟨⟨by decide, hpossible⟩,
    restarts_keep_descriptors .lowest extPipes {0, 1, 2, 3, 4} (by decide) 3 2 restarts hpossible⟩

end Pint
