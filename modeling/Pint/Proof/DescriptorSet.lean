import Pint.Proof.Descriptors
import Pint.Proof.Kernel

/-!
# The voter's descriptors as a set

`Program/Replicas.lean` runs on a table that hands out the lowest free number, and
`Program/Descriptors.lean` on a set of open numbers, for any system that hands out what is not
open. `Shows` relates the two: the set has the numbers that are open in the table, and the
replicas record the same numbers. Each function of the one keeps it with the same function of
the other, when the system hands out the lowest numbers.

So what is proved of every system (`Proof.Descriptors`) is true of the voter of the other modules,
and needs no second proof: `voter_keeps_descriptors` is the result about sets, read through
`Shows`. Which end of which pipe a number stands for, the set does not know; that is `Wired`.
-/

namespace Pint

open Prog

def VotePipe.fds (pipe : VotePipe) : Fds where
  fdIn := pipe.fdIn
  fdOut := pipe.fdOut

def Replica.fds (rep : Replica) : ReplicaFds where
  pipeCount := rep.pipeCount
  votPipes p := (rep.votPipes p).fds
  voterRepInCopy := rep.voterRepInCopy
  repPipes p := (rep.repPipes p).fds

theorem fds_update (pipes : Nat → VotePipe) (p : Nat) (pipe : VotePipe) :
    (fun q => (Function.update pipes p pipe q).fds)
      = Function.update (fun q => (pipes q).fds) p pipe.fds :=
  funext fun q => Function.apply_update (fun _ => VotePipe.fds) pipes p pipe q

/-- The descriptors are those of the voter. -/
structure Shows (extPipes : Nat → Fds) (d : Descriptors) (v : Voter) : Prop where
  isOpen : ∀ fd, fd ∈ d.openFds ↔ v.kernel.lookup fd ≠ none
  replicas : ∀ i, d.replicas i = (v.replicas i).fds
  ext : ∀ p, extPipes p = (v.extPipes p).fds

/-! ## The kernel -/

theorem Allocator.lowestFree_eq {openFds : Finset Int} {n : Nat} (hfree : (n : Int) ∉ openFds)
    (hlow : ∀ k < n, (k : Int) ∈ openFds) : Allocator.lowestFree openFds = n := by
  unfold lowestFree
  rw [Int.ofNat_inj, Nat.find_eq_iff]
  exact ⟨hfree, fun k hk hnot => hnot (hlow k hk)⟩

namespace Kernel

variable {k : Kernel} {fd fd' : Int}

theorem lookup_negative (h : fd < 0) : k.lookup fd = none := by
  unfold Kernel.lookup
  rw [if_neg (by omega)]

/-- What is open after a `close`. -/
theorem lookup_close_ne_none :
    (k.close fd).lookup fd' ≠ none ↔ fd' ≠ fd ∧ k.lookup fd' ≠ none := by
  rcases lt_or_ge fd' 0 with hneg | hpos
  · rw [lookup_negative hneg, lookup_negative hneg]
    simp
  · obtain ⟨y, rfl⟩ := Int.eq_ofNat_of_zero_le hpos
    rcases lt_or_ge fd 0 with hneg | hpos
    · have hsame : k.close fd = k := by
        unfold Kernel.close
        rw [if_neg (by omega)]
      rw [hsame]
      simp only [ne_eq, iff_and_self]
      intro _ heq
      omega
    · obtain ⟨x, rfl⟩ := Int.eq_ofNat_of_zero_le hpos
      rw [lookup_close]
      by_cases hyx : y = x
      · rw [if_pos hyx]
        simp [hyx]
      · have hne : (y : Int) ≠ x := fun heq => hyx (Int.ofNat_inj.mp heq)
        rw [if_neg hyx]
        simp [hne]

/-- What is open after a `pipe`. -/
theorem lookup_piped_ne_none_iff :
    k.piped.lookup fd ≠ none ↔ fd = k.rdNext ∨ fd = k.wrNext ∨ k.lookup fd ≠ none := by
  rcases lt_or_ge fd 0 with hneg | hpos
  · rw [lookup_negative hneg, lookup_negative hneg]
    simp only [ne_eq, not_true_eq_false, or_false, false_iff, not_or]
    omega
  · obtain ⟨x, rfl⟩ := Int.eq_ofNat_of_zero_le hpos
    rw [lookup_piped, Int.ofNat_inj, Int.ofNat_inj]
    by_cases hr : x = k.rdNext
    · simp [hr]
    · by_cases hw : x = k.wrNext
      · rw [if_neg hr, if_pos hw]
        simp [hw]
      · simp [hr, hw]

end Kernel

section Shows

variable {extPipes : Nat → Fds} {d : Descriptors} {v v' : Voter} {E : Stop → Prop} {i p : Nat}

/-- The set has the numbers `pipe` hands out next. -/
theorem Shows.lowest (h : Shows extPipes d v) (k : Nat) :
    Allocator.lowest.pipe d.openFds k = ((v.kernel.rdNext : Int), (v.kernel.wrNext : Int)) := by
  have hrd : Allocator.lowestFree d.openFds = v.kernel.rdNext := by
    apply Allocator.lowestFree_eq
    · rw [h.isOpen, not_not]
      exact v.kernel.lookup_rdNext
    · intro y hy
      rw [h.isOpen]
      exact Kernel.lookup_of_lt_rdNext hy
  have hwr : Allocator.lowestFree (insert (v.kernel.rdNext : Int) d.openFds) = v.kernel.wrNext := by
    apply Allocator.lowestFree_eq
    · rw [Finset.mem_insert, h.isOpen, Int.ofNat_inj, not_or, not_not]
      exact ⟨v.kernel.rdNext_ne_wrNext.symm, v.kernel.lookup_wrNext⟩
    · intro y hy
      have hopen := v.kernel.lookup_piped_ne_none (Nat.le_of_lt hy)
      rw [Kernel.lookup_piped_ne_none_iff, Int.ofNat_inj, Int.ofNat_inj] at hopen
      rw [Finset.mem_insert, h.isOpen, Int.ofNat_inj]
      rcases hopen with hr | hw | hl
      · exact Or.inl hr
      · omega
      · exact Or.inr hl
  show (Allocator.lowestFree d.openFds,
    Allocator.lowestFree (insert (Allocator.lowestFree d.openFds) d.openFds)) = _
  rw [hrd, hwr]

/-- Quiet calls change no descriptors. -/
theorem Shows.kept (h : Shows extPipes d v) (hk : Kept v v') : Shows extPipes d v' where
  isOpen fd := by
    rw [h.isOpen, hk.lookup]
  replicas i := by
    rw [h.replicas]
    unfold Replica.fds VotePipe.fds
    rw [hk.pipeCount, hk.repPipes, hk.inCopy]
    congr 1
    funext p
    have hfd := hk.fd i p
    unfold Voter.vot at hfd
    rw [hfd.1, hfd.2]
  ext p := by
    rw [h.ext]
    unfold VotePipe.fds
    rw [(hk.ext p).1, (hk.ext p).2]

theorem Shows.setReplica (h : Shows extPipes d v) {r : ReplicaFds} {rep : Replica}
    (hr : r = rep.fds) : Shows extPipes (d.setReplica i r) (v.setReplica i rep) where
  isOpen := h.isOpen
  replicas j := by
    unfold Descriptors.setReplica Voter.setReplica
    dsimp only
    by_cases hj : j = i
    · subst hj
      rw [Function.update_self, Function.update_self, hr]
    · rw [Function.update_of_ne hj, Function.update_of_ne hj, h.replicas]
  ext := h.ext

/-- What else is in a replica is not shown. -/
theorem Shows.sameFds (h : Shows extPipes d v) (i : Nat) (rep : Replica)
    (hrep : rep.fds = (v.replicas i).fds) : Shows extPipes d (v.setReplica i rep) := by
  have hset : Shows extPipes (d.setReplica i (d.replicas i)) (v.setReplica i rep) :=
    h.setReplica ((h.replicas i).trans hrep.symm)
  unfold Descriptors.setReplica at hset
  rw [Function.update_eq_self] at hset
  exact hset

theorem Shows.close (h : Shows extPipes d v) (of : Owner) (fd : Int) :
    wp (close fd) (fun _ => Shows extPipes (d.close of fd)) E v := by
  rw [wp_close]
  refine ⟨?_, h.replicas, h.ext⟩
  intro fd'
  dsimp only [Descriptors.close]
  rw [Finset.mem_erase, h.isOpen, Kernel.lookup_close_ne_none]

theorem Shows.closeIf (h : Shows extPipes d v) (of : Owner) (fd : Int) {c : Prop} [Decidable c] :
    wp (if c then Pint.close fd else pure ())
      (fun _ => Shows extPipes (if c then d.close of fd else d)) E v := by
  rw [wp_ite]
  split
  · exact h.close of fd
  · exact h

/-- The same, with what comes after it. -/
theorem Shows.closeThen (h : Shows extPipes d v) (of : Owner) (fd : Int) {c : Prop} [Decidable c]
    {rest : Unit → M Unit} {Q : Unit → Voter → Prop}
    (hrest : ∀ u, Shows extPipes (if c then d.close of fd else d) u → wp (rest ()) Q E u) :
    wp (if c then (do
      let r ← Pint.close fd
      rest r) else rest ()) Q E v := by
  rw [wp_ite]
  by_cases hc : c
  · rw [if_pos hc, wp_bind]
    rw [if_pos hc] at hrest
    exact (h.close of fd).imp fun _ u hu => hrest u hu
  · rw [if_neg hc]
    rw [if_neg hc] at hrest
    exact hrest v h

/-- A loop and a fold over the same turns. -/
theorem Shows.loop (h : Shows extPipes d v) {n : Nat} {body : Nat → M Unit}
    {f : Descriptors → Nat → Descriptors}
    (hbody : ∀ k d v, Shows extPipes d v → wp (body k) (fun _ => Shows extPipes (f d k)) E v) :
    wp (Prog.loop n body) (fun _ => Shows extPipes ((List.range n).foldl f d)) E v := by
  refine wp_loop (fun k => Shows extPipes ((List.range k).foldl f d)) h ?_
  intro k u _ hu
  rw [List.range_succ, List.foldl_append]
  exact hbody k _ u hu

/-! ## The functions -/

theorem Shows.closeVotePipe (h : Shows extPipes d v) (i : Nat) {pipe : VotePipe} (fds : Fds)
    (hfds : fds = pipe.fds) :
    wp (Pint.closeVotePipe pipe) (fun _ => Shows extPipes (d.closeVotePipe i fds)) E v := by
  rw [hfds]
  unfold Pint.closeVotePipe
  dsimp only
  refine h.closeThen (.replica i) pipe.fdIn ?_
  intro u hu
  exact hu.closeIf (.replica i) pipe.fdOut

theorem Shows.resetVotPipe (h : Shows extPipes d v) (i p : Nat) :
    wp (Pint.resetVotPipe i p) (fun _ => Shows extPipes (d.resetVotPipe i p)) E v := by
  unfold Pint.resetVotPipe Descriptors.resetVotPipe
  rw [wp_bind, wp_get, wp_bind]
  refine (h.closeVotePipe i ((v.replicas i).fds.votPipes p) rfl).imp ?_
  intro _ u hu
  rw [wp_modify, h.replicas]
  refine hu.setReplica ?_
  dsimp only
  rw [hu.replicas]
  unfold Replica.fds Replica.setVot
  simp only [fds_update]
  rfl

theorem Shows.resetRepPipe (h : Shows extPipes d v) (i p : Nat) :
    wp (Pint.resetRepPipe i p) (fun _ => Shows extPipes (d.resetRepPipe i p)) E v := by
  unfold Pint.resetRepPipe Descriptors.resetRepPipe
  rw [wp_bind, wp_get, wp_bind]
  refine (h.closeVotePipe i ((v.replicas i).fds.repPipes p) rfl).imp ?_
  intro _ u hu
  rw [wp_modify, h.replicas]
  refine hu.setReplica ?_
  dsimp only
  rw [hu.replicas]
  unfold Replica.fds Replica.setRep
  simp only [fds_update]
  rfl

theorem Shows.initReplicas (h : Shows extPipes d v) (first num : Nat) (name : String)
    (priority : Int) :
    wp (Pint.initReplicas first num name priority)
      (fun _ => Shows extPipes (d.initReplicas first num)) E v := by
  refine h.loop ?_
  intro index d v h
  dsimp only
  rw [wp_bind, wp_modify, wp_bind, wp_get, wp_bind]
  have hnamed : Shows extPipes d (v.setReplica (first + index)
      { v.replicas (first + index) with name, pid := -1, priority }) :=
    h.sameFds _ _ rfl
  have hcount : (d.replicas (first + index)).pipeCount = ((v.setReplica (first + index)
      { v.replicas (first + index) with name, pid := -1, priority }).replicas
        (first + index)).pipeCount := by
    rw [hnamed.replicas]
    rfl
  unfold Descriptors.initReplica
  rw [hcount]
  refine (hnamed.loop (f := fun d p =>
    (d.resetVotPipe (first + index) p).resetRepPipe (first + index) p) ?_).imp ?_
  · intro p d v h
    rw [wp_bind]
    refine (h.resetVotPipe _ p).imp ?_
    intro _ u hu
    exact hu.resetRepPipe _ p
  · intro _ u hu
    rw [wp_modify]
    refine hu.setReplica ?_
    dsimp only
    rw [hu.replicas]
    rfl

theorem Shows.cleanupReplica (h : Shows extPipes d v) (i : Nat) :
    wp (Pint.cleanupReplica i) (fun _ => Shows extPipes (d.cleanupReplica i)) E v := by
  unfold Pint.cleanupReplica
  rw [wp_bind, wp_get, wp_bind, wp_kill]
  have hkill : Shows extPipes d { v with log := { v.log with
      signals := v.log.signals ++ [((v.replicas i).pid, .SIGKILL)] } } :=
    ⟨h.isOpen, h.replicas, h.ext⟩
  unfold Descriptors.cleanupReplica
  rw [h.replicas]
  refine hkill.loop ?_
  intro p d v h
  unfold cleanupPipe Descriptors.cleanupPipe
  rw [wp_bind, wp_get, h.replicas]
  dsimp only
  refine h.closeThen (.replica i) _ ?_
  intro u hu
  refine hu.closeThen (.replica i) _ ?_
  intro u hu
  refine hu.closeThen (.replica i) _ ?_
  intro u hu
  exact hu.closeIf (.replica i) _

/-- The table after a `pipe`. -/
theorem Shows.pipe (h : Shows extPipes d v) (i : Nat) :
    Shows extPipes (d.pipe .lowest i).2.2 { v with kernel := v.kernel.piped } := by
  refine ⟨?_, h.replicas, h.ext⟩
  intro fd
  dsimp only
  rw [Kernel.lookup_piped_ne_none_iff, ← h.isOpen]
  show fd ∈ insert (Allocator.lowest.pipe d.openFds d.calls).1
    (insert (Allocator.lowest.pipe d.openFds d.calls).2 d.openFds) ↔ _
  rw [h.lowest, Finset.mem_insert, Finset.mem_insert]

theorem Shows.createPipe (h : Shows extPipes d v) (i p : Nat) :
    wp (Pint.createPipe i p) (fun _ => Shows extPipes (d.createPipe .lowest extPipes i p)) E v := by
  have hpipe := h.pipe i
  have hlowest := h.lowest d.calls
  have hkernel : v.kernel.pipe
      = ((v.kernel.rdNext : Int), (v.kernel.wrNext : Int), v.kernel.piped) := rfl
  unfold Pint.createPipe Pint.pipe
  rw [wp_bind, wp_bind, wp_get, hkernel]
  dsimp only
  rw [wp_bind, wp_set, wp_pure]
  dsimp only
  rw [wp_modify]
  unfold Descriptors.createPipe
  rcases hd' : d.pipe .lowest i with ⟨rd, wr, d'⟩
  rw [hd'] at hpipe
  have hrd : rd = v.kernel.rdNext :=
    (congrArg Prod.fst hd').symm.trans (congrArg Prod.fst hlowest)
  have hwr : wr = v.kernel.wrNext :=
    (congrArg (fun r => r.2.1) hd').symm.trans (congrArg Prod.snd hlowest)
  dsimp only at hpipe ⊢
  rw [hpipe.replicas, h.ext, hrd, hwr]
  by_cases hdir : (v.extPipes p).fdIn ≠ 0
  · rw [if_pos (show (v.extPipes p).fds.fdIn ≠ 0 from hdir), if_pos hdir]
    refine hpipe.setReplica ?_
    unfold Replica.fds
    simp only [fds_update]
    rfl
  · rw [if_neg (show ¬ (v.extPipes p).fds.fdIn ≠ 0 from hdir), if_neg hdir]
    refine hpipe.setReplica ?_
    unfold Replica.fds
    simp only [fds_update]
    rfl

theorem Shows.createPipes (h : Shows extPipes d v) (first num pipeCount : Nat) :
    wp (Pint.createPipes first num pipeCount)
      (fun _ => Shows extPipes (d.createPipes .lowest extPipes first num pipeCount)) E v := by
  refine h.loop ?_
  intro index d v h
  refine h.loop ?_
  intro p d v h
  exact h.createPipe (first + index) p

theorem Shows.acceptSendFDS (h : Shows extPipes d v) :
    Shows extPipes (d.acceptSendFDS .lowest) v where
  isOpen fd := by
    rw [← h.isOpen]
    show fd ∈ (insert (Allocator.lowestFree d.openFds) d.openFds).erase
      (Allocator.lowestFree d.openFds) ↔ _
    rw [Finset.erase_insert (Allocator.lowestFree_notMem d.openFds)]
  replicas := h.replicas
  ext := h.ext

/-- **`restartReplica` on the table is `restartReplica` on the set.** -/
theorem Shows.restartReplica {env : Env} (h : Shows extPipes d v) (num : Nat)
    {restarter restartee : Nat} (defaultPriority : Int) :
    wp (Pint.restartReplica env num restarter restartee defaultPriority)
      (fun _ => Shows extPipes (d.restartReplica .lowest extPipes restarter restartee)) E v := by
  unfold Pint.restartReplica
  rw [wp_bind]
  refine (h.cleanupReplica restartee).imp ?_
  intro _ v₁ h₁
  rw [wp_bind]
  -- The priorities of the others: no descriptor is touched.
  refine (wp_loop_const (fun u => Shows extPipes (d.cleanupReplica restartee) u) h₁ ?_).imp ?_
  · intro i u _ hu
    rw [wp_ite]
    split
    · dsimp only
      rw [wp_bind]
      refine (setPriority_still i _).imp ?_
      intro ret u' hu'
      rw [wp_ite]
      split
      · exact hu.kept (hu'.1.trans (still_say u' (by simp [Message.alarm]))).toKept
      · exact hu.kept hu'.1.toKept
    · exact hu
  · intro _ v₂ h₂
    rw [wp_bind, wp_get, wp_bind, wp_kill, wp_bind]
    have hkill := h₂.kept (still_signal v₂ (v₂.log.signals ++
      [((v₂.replicas restarter).pid, .RESTART_SIGNAL)])).toKept
    refine (hkill.initReplicas restartee 1 _ defaultPriority).imp ?_
    intro _ v₃ h₃
    have hcount : (v₃.replicas restarter).pipeCount
        = (((d.cleanupReplica restartee).initReplicas restartee 1).replicas
          restarter).pipeCount := by
      rw [h₃.replicas]
      rfl
    rw [wp_bind, wp_get, hcount, wp_bind]
    refine (h₃.createPipes restartee 1 _).imp ?_
    intro _ v₄ h₄
    rw [wp_bind, wp_acceptSendFDS, wp_bind, wp_modify]
    have h₅ := h₄.acceptSendFDS.kept (still_tick v₄).toKept
    have hpid := h₅.sameFds restartee { v₄.replicas restartee with pid := env.pid v₄.tick } rfl
    refine (balanceReps_still num defaultPriority).imp ?_
    intro _ v₆ h₆
    exact hpid.kept h₆.1.toKept

/-- Forking changes no descriptors of the voter. -/
theorem Shows.forkReplicas {env : Env} (h : Shows extPipes d v) (num : Nat) :
    wp (Pint.forkReplicas env num) (fun _ => Shows extPipes d) E v := by
  refine wp_loop_const (Shows extPipes d) h ?_
  intro index u _ hu
  unfold fork nextTick
  simp only [wp_bind, wp_get, wp_set, wp_pure, wp_modify]
  have hforked : Shows extPipes d { u with
      tick := u.tick + 1
      children := freshPid u.children (env.pid u.tick) :: u.children } :=
    ⟨hu.isOpen, hu.replicas, hu.ext⟩
  exact hforked.sameFds index
    { u.replicas index with pid := freshPid u.children (env.pid u.tick) } rfl

/-- **`startReplicas` on the table is `startReplicas` on the set.** -/
theorem Shows.startReplicas {env : Env} (h : Shows extPipes d v) (num : Nat) (name : String)
    (pipeCount : Nat) (defaultPriority : Int) :
    wp (Pint.startReplicas env num name pipeCount defaultPriority)
      (fun _ => Shows extPipes (d.startReplicas .lowest extPipes num pipeCount)) E v := by
  unfold Pint.startReplicas
  rw [wp_bind]
  refine (h.initReplicas 0 num name defaultPriority).imp ?_
  intro _ v₁ h₁
  rw [wp_bind]
  refine (h₁.createPipes 0 num pipeCount).imp ?_
  intro _ v₂ h₂
  have haccepted := foldl_range (n := num) (f := fun d _ => d.acceptSendFDS .lowest)
    (fun _ d' => Shows extPipes d' v₂) h₂ fun _ _ _ hd' => hd'.acceptSendFDS
  exact haccepted.forkReplicas num

theorem Shows.coldRestart {env : Env} (h : Shows extPipes d v) (num : Nat) (name : String)
    (pipeCount : Nat) (defaultPriority : Int) :
    wp (do
        Pint.cleanupReplica 0
        Pint.startReplicas env num name pipeCount defaultPriority)
      (fun _ => Shows extPipes (d.coldRestart .lowest extPipes num pipeCount)) E v := by
  rw [wp_bind]
  refine (h.cleanupReplica 0).imp ?_
  intro _ u hu
  exact hu.startReplicas num name pipeCount defaultPriority

end Shows

/-! ## Runs -/

section Runs

variable (env : Env) (num : Nat) (name : String) (pipeCount : Nat) (defaultPriority : Int)

/-- One of the restarts. -/
def restart : Descriptors.Restart → M Unit
  | .warm restarter restartee => restartReplica env num restarter restartee defaultPriority
  | .cold => do
    cleanupReplica 0
    startReplicas env num name pipeCount defaultPriority

/-- The restarts one after the other. -/
def restartAll : List Descriptors.Restart → M Unit
  | [] => return
  | r :: rest => do
    restart env num name pipeCount defaultPriority r
    restartAll rest

variable {env num name pipeCount defaultPriority} {extPipes : Nat → Fds} {E : Stop → Prop}

/-- **A run on the table is a run on the set.** -/
theorem Shows.restartAll {d : Descriptors} {v : Voter} (h : Shows extPipes d v)
    (restarts : List Descriptors.Restart) :
    wp (Pint.restartAll env num name pipeCount defaultPriority restarts)
      (fun _ => Shows extPipes
        (restarts.foldl (Descriptors.restart .lowest extPipes num pipeCount) d)) E v := by
  induction restarts generalizing d v with
  | nil => exact h
  | cons r rest ih =>
    have hone : wp (restart env num name pipeCount defaultPriority r)
        (fun _ => Shows extPipes (d.restart .lowest extPipes num pipeCount r)) E v := by
      cases r with
      | warm restarter restartee => exact h.restartReplica num defaultPriority
      | cold => exact h.coldRestart num name pipeCount defaultPriority
    unfold Pint.restartAll
    rw [wp_bind]
    exact hone.imp fun _ u hu => ih hu

/-- **The voter keeps its descriptors** over a start and any number of restarts: what it records is
distinct and open, and nothing else is open but what was before. -/
theorem voter_keeps_descriptors {v : Voter} {inUse : Finset Int} (hstdin : 0 ∈ inUse)
    (hopen : ∀ fd, fd ∈ inUse ↔ v.kernel.lookup fd ≠ none)
    (hfresh : ∀ i, (v.replicas i).fds = {}) {restarts : List Descriptors.Restart}
    (hpossible : ∀ r ∈ restarts, r.Possible num) :
    wp (do
        startReplicas env num name pipeCount defaultPriority
        restartAll env num name pipeCount defaultPriority restarts)
      (fun _ v' =>
        let recorded := (List.range num).flatMap fun i => (v'.replicas i).fds.recorded
        recorded.Nodup ∧ recorded.length = num * (2 * pipeCount) ∧
          ∀ fd, v'.kernel.lookup fd ≠ none ↔ fd ∈ inUse ∨ fd ∈ recorded)
      E v := by
  have hstart : Shows (fun p => (v.extPipes p).fds) { openFds := inUse } v :=
    ⟨hopen, fun i => (hfresh i).symm, fun _ => rfl⟩
  rw [wp_bind]
  refine (hstart.startReplicas num name pipeCount defaultPriority).imp ?_
  intro _ u hu
  refine (hu.restartAll restarts).imp ?_
  intro _ v' hv'
  have hsettled := @Descriptors.settled_life inUse .lowest (fun p => (v.extPipes p).fds) hstdin num
    pipeCount restarts hpossible
  obtain ⟨hnodup, hlength, hiff, -⟩ := hsettled.books
  have hsame : ∀ i, (v'.replicas i).fds = ((Descriptors.life .lowest (fun p => (v.extPipes p).fds)
      inUse num pipeCount restarts).replicas i) := fun i => (hv'.replicas i).symm
  simp only [hsame]
  refine ⟨hnodup, hlength, ?_⟩
  intro fd
  rw [← hv'.isOpen]
  exact hiff fd

end Runs

end Pint
