import Pint.Proof.Backlog
import Pint.Proof.Cloning

/-!
# Handing descriptors over

A replica has its pipes from the voter, and a clone has new ones: it closes those it inherited
and asks for its own. What a controller keeps, its `pipes` and its indexes into them, it keeps
from its first start, so it is wrong from then on if anything in there changes. It does not:
`replicas_keep_their_descriptors`.

The numbers are those of the first generation every time, because they depend only on which
numbers were open (`SameOpen`), and the child that has closed its pipes has the same numbers open
as the voter had when it forked its first children. The argument is a circle that closes: a
process that is `Connected` has the numbers of a table `t` open and besides those that arrived;
its child closes exactly those that arrived (`resetPipes_recover`), so it has the numbers of `t`
open; and what arrives then arrives under the same numbers (`Connected.restart`).

`Equipped` is the invariant of a run. Every replica is connected, over the table of the voter that
forked the first ones, with the message that the voter would send it now; and that message
changes with the kernel pipes of the replica alone (`offer_congr`). A piece of the main loop
makes at most one replica anew (`Went.manned`), with new kernel pipes, and the clone of an
equipped replica is equipped (`Equipped.clone`). What a replica reads and writes in between
changes none of this.

A restart is one move here, from the signal to the answer. What other processes do meanwhile does
not touch the two tables.
-/

namespace Pint

open Prog DescriptorTable

/-! ## Receiving -/

/-- The numbers under which `count` files arrive in a process that had the numbers of `t`
open. -/
def arrivals (t : Table PipeEnd) (count : Nat) : List Nat :=
  (insertAll (insert t .other) (List.replicate count .other)).1

/-- The process has received `msg`, and apart from that has the numbers of `t` open. -/
structure Connected (t : Table PipeEnd) (msg : FDSMessage) (proc : RepProcess) : Prop where
  pipes : proc.pipes =
    List.zipWith TypedPipe.recover msg.sendPipes (arrivals t msg.files.length)
  file : ∀ i fd : Nat, (arrivals t msg.files.length)[i]? = some fd →
    DescriptorTable.lookup proc.fds fd = msg.files[i]?
  rest : SameOpen (closeAll proc.fds (arrivals t msg.files.length)) t

section Receive

variable {t : Table PipeEnd} {msg msg' : FDSMessage} {proc proc' : RepProcess}

theorem length_arrivals (t : Table PipeEnd) (count : Nat) :
    (arrivals t count).length = count := by
  unfold arrivals
  rw [length_insertAll, List.length_replicate]

/-- Only numbers that were free arrive, and the socket's is not among them. -/
theorem arrivals_free {count fd : Nat} (h : fd ∈ arrivals t count) :
    DescriptorTable.lookup t fd = none ∧ fd ≠ lowestFree t := by
  have hfree := lookup_of_mem_insertAll h
  rw [lookup_insert] at hfree
  split at hfree
  · cases hfree
  · rename_i hne
    exact ⟨hfree, hne⟩

/-- Descriptor 0 is taken, so nothing arrives there. -/
theorem arrivals_ne_zero {count fd : Nat} (h0 : DescriptorTable.lookup t 0 ≠ none)
    (h : fd ∈ arrivals t count) : fd ≠ 0 := by
  rintro rfl
  exact h0 (arrivals_free h).1

/-- **`connectRecvFDS` by what is open.** -/
theorem connectRecvFDS_connected (h : SameOpen proc.fds t) (msg : FDSMessage) :
    Connected t msg (proc.connectRecvFDS msg) := by
  have hnumbers : (insertAll (insert proc.fds .other) msg.files).1
      = arrivals t msg.files.length :=
    (h.insert .other .other).insertAll_eq (List.length_replicate).symm
  have hsock : lowestFree proc.fds = lowestFree t := h.lowestFree_eq
  unfold RepProcess.connectRecvFDS RepProcess.requestFDS
  refine ⟨?_, fun i fd hfd => ?_, fun fd => ?_⟩
  · dsimp only
    rw [hnumbers]
  · dsimp only
    rw [lookup_close_ne, lookup_insertAll]
    · rw [hnumbers]
      exact hfd
    · rw [hsock]
      exact (arrivals_free (List.mem_of_getElem? hfd)).2
  · dsimp only
    rw [lookup_closeAll]
    split
    · rename_i hmem
      exact ⟨fun _ => (arrivals_free hmem).1, fun _ => rfl⟩
    · rename_i hmem
      by_cases hs : fd = lowestFree proc.fds
      · rw [hs, lookup_close_self, hsock]
        exact ⟨fun _ => lookup_lowestFree t, fun _ => rfl⟩
      · rw [lookup_close_ne hs, lookup_insertAll_of_notMem (by rw [hnumbers]; exact hmem),
          lookup_insert, if_neg hs]
        exact h fd

/-- Only the table and the pipes matter. -/
theorem Connected.congr (h : Connected t msg proc) (hfds : proc'.fds = proc.fds)
    (hpipes : proc'.pipes = proc.pipes) : Connected t msg proc' := by
  refine ⟨by rw [hpipes]; exact h.pipes, fun i fd hfd => ?_, ?_⟩
  · rw [hfds]
    exact h.file i fd hfd
  · rw [hfds]
    exact h.rest

/-! ## Closing what was received -/

/-- A pipe that the sender used in one direction only. -/
def TypedPipe.OneWay (pipe : TypedPipe) : Prop := pipe.fdIn ≠ 0 → pipe.fdOut = 0

/-- `resetPipe` closes the number that was received. -/
theorem resetPipe_recover {pipe : TypedPipe} {fd : Nat} (hone : pipe.OneWay) (hfd : fd ≠ 0) :
    (proc.resetPipe (pipe.recover fd)).fds = DescriptorTable.close proc.fds fd := by
  have hcast : (fd : Int) ≠ 0 := Int.natCast_ne_zero.mpr hfd
  have hclose : (proc.close fd).fds = DescriptorTable.close proc.fds fd := by
    unfold RepProcess.close
    rw [if_pos (Int.natCast_nonneg fd)]
    rfl
  unfold RepProcess.resetPipe TypedPipe.recover
  by_cases hin : pipe.fdIn ≠ 0
  · rw [if_pos hin]
    dsimp only
    rw [if_pos hcast, if_neg (not_not.mpr (hone hin))]
    exact hclose
  · rw [if_neg hin]
    dsimp only
    rw [if_neg hin, if_pos hcast]
    exact hclose

/-- The loop of `restartHandler`. -/
theorem resetPipes_recover {pipes : List TypedPipe} {fds : List Nat}
    (hlen : pipes.length = fds.length) (hone : ∀ pipe ∈ pipes, pipe.OneWay)
    (hfds : ∀ fd ∈ fds, fd ≠ 0) :
    ((List.zipWith TypedPipe.recover pipes fds).foldl RepProcess.resetPipe proc).fds
      = closeAll proc.fds fds := by
  induction pipes generalizing fds proc with
  | nil =>
    obtain rfl := List.length_eq_zero_iff.mp hlen.symm
    rfl
  | cons pipe pipes ih =>
    cases fds with
    | nil => cases hlen
    | cons fd fds =>
      rw [List.zipWith_cons_cons, List.foldl_cons, ih (Nat.succ.inj hlen)
        (fun q hq => hone q (List.mem_cons_of_mem _ hq))
        (fun x hx => hfds x (List.mem_cons_of_mem _ hx)),
        resetPipe_recover (hone pipe List.mem_cons_self) (hfds fd List.mem_cons_self)]
      rfl

/-- **The clone of a process that was connected is connected again, by the same numbers.** It has
closed what it inherited by its pipes and nothing else, since each pipe has one number in it. -/
theorem Connected.restart (h : Connected t msg proc) (h0 : DescriptorTable.lookup t 0 ≠ none)
    (hlen : msg.sendPipes.length = msg.files.length) (hone : ∀ pipe ∈ msg.sendPipes, pipe.OneWay) :
    Connected t msg' (proc.restartHandler msg') := by
  unfold RepProcess.restartHandler
  refine connectRecvFDS_connected ?_ msg'
  dsimp only
  rw [h.pipes, resetPipes_recover (by rw [length_arrivals, hlen]) hone fun _ =>
    arrivals_ne_zero h0]
  exact h.rest

/-- A clone remembers what its parent had read and written. -/
theorem restartHandler_memory (proc : RepProcess) (msg : FDSMessage) :
    (proc.restartHandler msg).consumed = proc.consumed ∧
      (proc.restartHandler msg).emitted = proc.emitted := by
  have hclose : ∀ (proc : RepProcess) (pipe : TypedPipe),
      (proc.resetPipe pipe).consumed = proc.consumed ∧
        (proc.resetPipe pipe).emitted = proc.emitted := by
    intro proc pipe
    unfold RepProcess.resetPipe RepProcess.close
    split <;> split <;> (try split) <;> (try split) <;> exact ⟨rfl, rfl⟩
  have hfold : ∀ (pipes : List TypedPipe) (proc : RepProcess),
      (pipes.foldl RepProcess.resetPipe proc).consumed = proc.consumed ∧
        (pipes.foldl RepProcess.resetPipe proc).emitted = proc.emitted := by
    intro pipes
    induction pipes with
    | nil => exact fun _ => ⟨rfl, rfl⟩
    | cons pipe pipes ih =>
      intro proc
      obtain ⟨h1, h2⟩ := ih (proc.resetPipe pipe)
      obtain ⟨g1, g2⟩ := hclose proc pipe
      exact ⟨h1.trans g1, h2.trans g2⟩
  exact hfold proc.pipes proc

end Receive

/-! ## What the voter sends -/

/-- The message for replica `i`, when `id` are its kernel pipes. -/
def Voter.offer (v : Voter) (cfg : Config) (plan : Plan) (id : Nat → Nat → Nat) (i : Nat) :
    FDSMessage where
  sendPipes := (List.range cfg.pipeCount).map fun p =>
    { type := commToEnum (v.extPipes p).repInfo
      fdIn := if (v.extPipes p).fdIn ≠ 0 then plan.rd i p else 0
      fdOut := if (v.extPipes p).fdIn ≠ 0 then 0 else plan.wr i p }
  files := (List.range cfg.pipeCount).map fun p =>
    if (v.extPipes p).fdIn ≠ 0 then .readEnd (id i p) else .writeEnd (id i p)

section Send

variable {cfg : Config} {plan : Plan} {id id' : Nat → Nat → Nat} {v v' : Voter} {i : Nat}

theorem mapM_eq_some {α β : Type} {f : α → Option β} {g : α → β} {l : List α}
    (h : ∀ a ∈ l, f a = some (g a)) : l.mapM f = some (l.map g) := by
  induction l with
  | nil => rfl
  | cons a l ih =>
    rw [List.mapM_cons, h a List.mem_cons_self, ih fun b hb => h b (List.mem_cons_of_mem _ hb)]
    rfl

/-- Every replica has the pipes that its component was configured with. -/
def Typed (cfg : Config) (v : Voter) : Prop :=
  ∀ i p, cfg.Slot i p → ((v.replicas i).repPipes p).repInfo = (v.extPipes p).repInfo

/-- **`sendFDS` succeeds**, and sends the ends that are joined to the voter's. -/
theorem Wired.message_eq (hw : Wired cfg plan id v) (ht : Typed cfg v) (hi : i < cfg.repCount) :
    System.message v i = some (v.offer cfg plan id i) := by
  have hpipe : ∀ p, p < cfg.pipeCount → v.kernel.lookup ((v.replicas i).repPipes p).sentFd
      = some (if (v.extPipes p).fdIn ≠ 0 then .readEnd (id i p) else .writeEnd (id i p)) := by
    intro p hp
    have hs : cfg.Slot i p := ⟨hi, hp⟩
    have hjoin := hw.joined i p hs
    unfold VotePipe.sentFd
    by_cases hin : (v.extPipes p).fdIn ≠ 0
    · rw [(hjoin.inward hin).2.2.1, if_pos (hw.rd_ne_zero hs), if_pos hin]
      exact hw.rd i p hs
    · rw [(hjoin.outward hin).2.2.1, if_neg (not_not.mpr rfl), (hjoin.outward hin).2.2.2.1,
        if_neg hin]
      exact hw.wr i p hs
  have htyped : convertVoteToTyped (v.replicas i).repPipes cfg.pipeCount
      = (v.offer cfg plan id i).sendPipes := by
    refine List.map_congr_left fun p hp => ?_
    have hs : cfg.Slot i p := ⟨hi, List.mem_range.mp hp⟩
    have hjoin := hw.joined i p hs
    rw [ht i p hs]
    by_cases hin : (v.extPipes p).fdIn ≠ 0
    · rw [if_pos hin, if_pos hin, (hjoin.inward hin).2.2.1, (hjoin.inward hin).2.2.2.1]
    · rw [if_neg hin, if_neg hin, (hjoin.outward hin).2.2.1, (hjoin.outward hin).2.2.2.1]
  unfold System.message sendFDS
  rw [hw.count i hi, mapM_eq_some fun p hp => hpipe p (List.mem_range.mp hp), htyped]
  rfl

theorem offer_lengths : (v.offer cfg plan id i).sendPipes.length = cfg.pipeCount ∧
    (v.offer cfg plan id i).files.length = cfg.pipeCount := by
  unfold Voter.offer
  simp

theorem offer_oneWay : ∀ pipe ∈ (v.offer cfg plan id i).sendPipes, pipe.OneWay := by
  intro pipe hmem
  obtain ⟨p, -, rfl⟩ := List.mem_map.mp hmem
  unfold TypedPipe.OneWay
  dsimp only
  split
  · exact fun _ => rfl
  · exact fun h => absurd rfl h

/-- The message depends on the configuration and on the kernel pipes of the replica. -/
theorem offer_congr (hext : ∀ p, (v'.extPipes p).fdIn = (v.extPipes p).fdIn ∧
    (v'.extPipes p).repInfo = (v.extPipes p).repInfo) (hid : ∀ p, id' i p = id i p) :
    v'.offer cfg plan id' i = v.offer cfg plan id i := by
  unfold Voter.offer
  simp only [(hext _).1, (hext _).2, hid]

end Send

/-! ## The pipes at the start -/

/-- A read end behind which there is nothing. -/
def Kernel.Drained (k : Kernel) (fd : Int) : Prop :=
  ∃ x, k.lookup fd = some (.readEnd x) ∧ k.unread x = []

/-- Pipe `p` of replica `i` is of the type it was configured with, and was not used yet. -/
structure Blank (v : Voter) (i p : Nat) : Prop where
  type : ((v.replicas i).repPipes p).repInfo = (v.extPipes p).repInfo
  input : v.IsInput p → v.kernel.Drained ((v.replicas i).repPipes p).fdIn
  output : ¬ v.IsInput p → v.kernel.Drained (v.vot i p).fdIn

section Blank

variable {cfg : Config} {env : Env} {v v' : Voter} {E : Stop → Prop} {i p j q : Nat}

theorem Kernel.Drained.waiting {k : Kernel} {fd : Int} (h : k.Drained fd) :
    k.waiting fd = [] := by
  obtain ⟨x, hx, hnil⟩ := h
  rw [Kernel.waiting_readEnd hx, hnil]

theorem Kernel.Drained.piped {k : Kernel} {fd : Int} (h : k.Drained fd) :
    k.piped.Drained fd := by
  obtain ⟨x, hx, hnil⟩ := h
  refine ⟨x, Kernel.lookup_piped_of_open hx, ?_⟩
  by_cases hnew : x = k.pipes
  · rw [hnew]
    exact Function.update_self _ _ _
  · exact (Function.update_of_ne hnew _ _).trans hnil

/-- A pipe that was just made. -/
theorem blank_piped (v : Voter) (i p : Nat) : Blank (v.piped i p) i p := by
  have hin : (v.piped i p).IsInput p ↔ v.IsInput p := by
    unfold Voter.IsInput
    rw [piped_outside.extPipes]
  have hnew : v.kernel.piped.Drained v.kernel.rdNext :=
    ⟨_, v.kernel.lookup_piped_rdNext, Function.update_self _ _ _⟩
  constructor
  · rw [piped_repInfo, piped_outside.extPipes]
  · intro h
    rw [piped_kernel, (piped_joined.inward (hin.mp h)).2.2.1]
    exact hnew
  · intro h
    rw [piped_kernel, (piped_joined.outward fun hc => h (hin.mpr hc)).1]
    exact hnew

/-- Another pipe was made. -/
theorem Blank.piped (h : Blank v j q) (hne : ¬ (j = i ∧ q = p)) : Blank (v.piped i p) j q := by
  obtain ⟨hvot, hrep, -⟩ := piped_slot_ne (v := v) hne
  have hin : (v.piped i p).IsInput q ↔ v.IsInput q := by
    unfold Voter.IsInput
    rw [piped_outside.extPipes]
  constructor
  · rw [hrep, piped_outside.extPipes]
    exact h.type
  · intro hc
    rw [hrep, piped_kernel]
    exact (h.input (hin.mp hc)).piped
  · intro hc
    rw [hvot, piped_kernel]
    exact (h.output fun hin' => hc (hin.mpr hin')).piped

theorem Blank.congr (h : Blank v i p) (hk : v'.kernel = v.kernel)
    (hext : (v'.extPipes p).fdIn = (v.extPipes p).fdIn ∧
      (v'.extPipes p).repInfo = (v.extPipes p).repInfo)
    (hrep : (v'.replicas i).repPipes = (v.replicas i).repPipes)
    (hvot : (v'.vot i p).fdIn = (v.vot i p).fdIn) : Blank v' i p := by
  have hin : v'.IsInput p ↔ v.IsInput p := by
    unfold Voter.IsInput
    rw [hext.1]
  constructor
  · rw [hrep, hext.2]
    exact h.type
  · rw [hrep, hk, hin]
    exact h.input
  · rw [hvot, hk, hin]
    exact h.output

theorem createPipes_blank (n m : Nat) :
    wp (createPipes 0 n m) (fun _ v' => ∀ i p, i < n → p < m → Blank v' i p) E v := by
  unfold createPipes
  refine wp_loop (fun n' (u : Voter) => ∀ i p, i < n' → p < m → Blank u i p)
    (fun i p hi => absurd hi (Nat.not_lt_zero i)) fun n' u _ hu => ?_
  rw [Nat.zero_add]
  refine (wp_loop (fun m' (w : Voter) => ∀ i p, (i < n' ∧ p < m) ∨ (i = n' ∧ p < m') →
      Blank w i p) (fun i p hip => ?_) fun m' w _ hw => ?_).imp fun _ w hw i p hi hp => ?_
  · exact hip.elim (fun h => hu i p h.1 h.2) fun h => absurd h.2 (Nat.not_lt_zero p)
  · rw [wp_createPipe]
    intro i p hip
    by_cases hne : i = n' ∧ p = m'
    · rw [hne.1, hne.2]
      exact blank_piped w n' m'
    · refine (hw i p (hip.imp_right fun h => ⟨h.1, ?_⟩)).piped hne
      exact Nat.lt_of_le_of_ne (Nat.le_of_lt_succ h.2) fun heq => hne ⟨h.1, heq⟩
  · rcases Nat.lt_succ_iff_lt_or_eq.mp hi with hlt | rfl
    · exact hw i p (Or.inl ⟨hlt, hp⟩)
    · exact hw i p (Or.inr ⟨rfl, hp⟩)

theorem startReplicas_blank {name : String} {priority : Int}
    (h0 : ∀ i, (v.replicas i).pipeCount = 0) (hv : NoVotes v) :
    wp (startReplicas env cfg.repCount name cfg.pipeCount priority)
      (fun _ v' => ∀ i p, cfg.Slot i p → Blank v' i p) E v := by
  unfold startReplicas
  rw [wp_bind]
  refine (initReplicas_start h0 hv).imp fun _ u hu => ?_
  rw [wp_bind]
  refine (createPipes_blank _ _).imp fun _ w hw => ?_
  refine (forkReplicas_spec _).imp fun _ v' hf i p hs => ?_
  refine (hw i p hs.1 hs.2).congr hf.kernel ?_ (hf.same i).repPipes ?_
  · rw [hf.outside.extPipes]
    exact ⟨rfl, rfl⟩
  · unfold Voter.vot
    rw [(hf.same i).votPipes]

/-- **The pipes of the replicas when the main loop starts.** -/
theorem Started.blank (h : Started cfg env v) : ∀ i p, cfg.Slot i p → Blank v i p := by
  obtain ⟨b, hb, hrun⟩ := h
  have hspec : wp (initVoterD cfg env) (fun _ v => ∀ i p, cfg.Slot i p → Blank v i p)
      (fun _ => True) b := by
    unfold initVoterD createFDS
    rw [wp_bind, wp_modify, wp_bind]
    refine (startReplicas_blank (fun i => by rw [hb.replicas])
      (fun i p => by unfold Voter.vot; rw [hb.replicas]; exact ⟨rfl, rfl⟩)).imp fun _ u hu => ?_
    rw [wp_bind]
    -- The page faults write a count into an external pipe. That is no part of `Blank`.
    have hset : ∀ (w : Voter) (p : Nat) (count : Int), (∀ i q, cfg.Slot i q → Blank w i q) →
        ∀ i q, cfg.Slot i q →
          Blank (w.setExt p { w.extPipes p with buffCount := count }) i q := by
      intro w p count hw i q hs
      refine (hw i q hs).congr rfl ?_ rfl rfl
      show (Function.update w.extPipes p _ q).fdIn = _ ∧
        (Function.update w.extPipes p _ q).repInfo = _
      by_cases hq : q = p
      · rw [hq, Function.update_self]
        exact ⟨rfl, rfl⟩
      · rw [Function.update_of_ne hq]
        exact ⟨rfl, rfl⟩
    refine (wp_loop_const (fun w : Voter => ∀ i p, cfg.Slot i p → Blank w i p) hu
      fun p w _ hw => ?_).imp fun _ w hw => ?_
    · rw [wp_bind, wp_get, wp_ite]
      split
      · rw [wp_bind]
        refine readNothing_spec fun count _ => ?_
        rw [wp_modify]
        exact hset w p count hw
      · exact hw
    · -- The same for the pipes of the replicas.
      refine wp_loop_const (fun w : Voter => ∀ i p, cfg.Slot i p → Blank w i p) hw
        fun r w _ hw => ?_
      rw [wp_bind, wp_get]
      refine wp_loop_const (fun w : Voter => ∀ i p, cfg.Slot i p → Blank w i p) hw
        fun p w _ hw => ?_
      rw [wp_bind, wp_get, wp_ite]
      split
      · rw [wp_bind]
        refine readNothing_spec fun count _ => ?_
        rw [wp_modify]
        intro i q hs
        have hkept : Kept w (w.setVot r p { w.vot r p with buffCount := count }) :=
          kept_setVot rfl rfl
        exact (hw i q hs).congr rfl ⟨rfl, rfl⟩ (hkept.repPipes i) (hkept.fd i q).1
      · exact hw
  exact hspec.of_run hrun

theorem Started.typed (h : Started cfg env v) : Typed cfg v :=
  fun i p hs => (h.blank i p hs).type

end Blank

/-! ## One piece of the main loop -/

/-- What a replica is told of the external pipes stays the same. -/
structure Alike (cfg : Config) (v v' : Voter) : Prop where
  ext : ∀ p, (v'.extPipes p).fdIn = (v.extPipes p).fdIn ∧
    (v'.extPipes p).repInfo = (v.extPipes p).repInfo
  typed : Typed cfg v → Typed cfg v'

/-- The replicas are who they were, or one of them is new. -/
inductive Manned (cfg : Config) (plan : Plan) (id : Nat → Nat → Nat) (v v' : Voter) : Prop where
  | same (hs : Sound cfg plan id v') (h : v'.log.restarts = v.log.restarts)
  | one {e r pipes : Nat} (he : e < cfg.repCount) (hr : r < cfg.repCount)
      (hs : Sound cfg plan (refilled id e pipes) v')
      (h : v'.log.restarts = v.log.restarts ++ [(e, r)])

section Piece

variable {cfg : Config} {env : Env} {plan : Plan} {id : Nat → Nat → Nat} {v v' u w : Voter}
  {e r p : Nat}

theorem Alike.trans (h : Alike cfg v u) (h' : Alike cfg u v') : Alike cfg v v' where
  ext p := ⟨(h'.ext p).1.trans (h.ext p).1, (h'.ext p).2.trans (h.ext p).2⟩
  typed ht := h'.typed (h.typed ht)

theorem Kept.alike (h : Kept v v')
    (hinfo : ∀ p, (v'.extPipes p).repInfo = (v.extPipes p).repInfo) : Alike cfg v v' where
  ext p := ⟨(h.ext p).1, hinfo p⟩
  typed ht i p hs := by rw [h.repPipes, hinfo, ht i p hs]

theorem Kept.alike_of_ext (h : Kept v v') (hext : v'.extPipes = v.extPipes) : Alike cfg v v' :=
  h.alike fun p => by rw [hext]

theorem Cloned.alike (h : Cloned cfg env plan id e r v v') : Alike cfg v v' where
  ext p := by
    rw [h.restarted.extPipes]
    exact ⟨rfl, rfl⟩
  typed ht i p hs := by
    rw [h.restarted.extPipes]
    by_cases hi : i = e
    · rw [hi]
      exact h.relaid.types p hs.2
    · rw [h.relaid.repPipes_ne i hi]
      exact ht i p hs

/-- The replicas after one piece of the main loop. -/
theorem Went.manned (h : Sound cfg plan id v) (hmode : cfg.Replicated)
    (hg : Went cfg env plan id v v') : Alike cfg v v' ∧ Manned cfg plan id v v' := by
  cases hg with
  | aside ha => exact ⟨ha.kept.alike ha.repInfo, .same (h.aside ha) ha.restarts⟩
  | passed _ ha hinfo _ => exact ⟨ha.kept.alike hinfo, .same (h.armed ha) (by rw [ha.log])⟩
  -- The handler clones once, and notes things in the log before and behind that.
  | handled _ hu hw hv =>
    obtain ⟨hr, -⟩ := restarter_ne hmode (v.restartee cfg)
    have hrestarts : v'.log.restarts = v.log.restarts
        ++ [(v.restartee cfg, cfg.restarter (v.restartee cfg))] := by
      rw [hv.restarts, hw.restarted.restarts, hu.restarts]
    exact ⟨((hu.kept.alike hu.repInfo).trans hw.alike).trans (hv.kept.alike hv.repInfo),
      .one (behindRep_lt (Nat.zero_lt_of_lt hr)) hr (hw.sound.aside hv) hrestarts⟩
  | @served r p hs hout hserved =>
    cases hserved with
    | refused _ hst _ =>
      exact ⟨hst.toKept.alike_of_ext hst.extPipes, .same (h.still hst) hst.restarts⟩
    | voted _ w hw _ _ hv hone =>
      have hsw : Sound cfg plan id w := ⟨h.wired.kept hw.kept, hw.lockstep⟩
      have hlike : Alike cfg v w := hw.kept.alike_of_ext hw.extPipes
      have hrestarts : w.log.restarts = v.log.restarts := by
        rw [hw.log]
        rfl
      cases hone with
      | none hno =>
        have ho := hv.outward hsw hs.2 (fun hc => hout ((hw.kept.isInput p).mp hc)) hno
        exact ⟨hlike.trans (ho.kept.alike_of_ext hv.grown.extPipes),
          .same ho.sound (hno.trans hrestarts)⟩
      | one he hr _ hc =>
        refine ⟨hlike.trans hc.alike, .one he hr hc.sound ?_⟩
        rw [hc.restarted.restarts, hrestarts]

end Piece

/-! ## Runs -/

/-- Every replica has received what belongs to it, as the first replicas did. -/
structure Equipped (cfg : Config) (v₀ : Voter) (plan : Plan) (id : Nat → Nat → Nat)
    (s : System) : Prop where
  within : s.m.pc.Within cfg
  sound : Sound cfg plan id s.m.v
  alike : Alike cfg v₀ s.m.v
  typed : Typed cfg s.m.v
  zero : DescriptorTable.lookup v₀.kernel.fds 0 ≠ none
  connected : ∀ i, i < cfg.repCount →
    Connected v₀.kernel.fds (v₀.offer cfg plan id i) (s.procs i)

section Run

variable {cfg : Config} {env : Env} {plan : Plan} {id : Nat → Nat → Nat} {v₀ : Voter}
  {s s' : System} {i p n : Nat} {bytes : List Byte}

theorem Equipped.message (h : Equipped cfg v₀ plan id s) (hi : i < cfg.repCount) :
    System.message s.m.v i = some (v₀.offer cfg plan id i) := by
  rw [h.sound.wired.message_eq h.typed hi, offer_congr h.alike.ext fun _ => rfl]

/-- The same tables, and a voter with the same pipes. -/
theorem Equipped.of_still (h : Equipped cfg v₀ plan id s) (hpc : s'.m.pc = s.m.pc)
    (hv : Still s.m.v s'.m.v) (hprocs : ∀ i, (s'.procs i).fds = (s.procs i).fds ∧
      (s'.procs i).pipes = (s.procs i).pipes) : Equipped cfg v₀ plan id s' where
  within := by
    rw [hpc]
    exact h.within
  sound := h.sound.still hv
  alike := h.alike.trans (hv.toKept.alike_of_ext hv.extPipes)
  typed := (hv.toKept.alike_of_ext hv.extPipes : Alike cfg _ _).typed h.typed
  zero := h.zero
  connected i hi := (h.connected i hi).congr (hprocs i).1 (hprocs i).2

theorem still_setUnread (s : System) (k : Nat) (bytes : List Byte) :
    Still s.m.v (s.setUnread k bytes).m.v := still_unread s.m.v _

/-- A process that only remembers more. -/
theorem setProc_tables {proc : RepProcess} (hfds : proc.fds = (s.procs i).fds)
    (hpipes : proc.pipes = (s.procs i).pipes) (j : Nat) :
    ((s.setProc i proc).procs j).fds = (s.procs j).fds ∧
      ((s.setProc i proc).procs j).pipes = (s.procs j).pipes := by
  unfold System.setProc
  by_cases hj : j = i
  · rw [hj]
    exact ⟨(congrArg RepProcess.fds (Function.update_self _ _ _)).trans hfds,
      (congrArg RepProcess.pipes (Function.update_self _ _ _)).trans hpipes⟩
  · exact ⟨congrArg RepProcess.fds (Function.update_of_ne hj _ _),
      congrArg RepProcess.pipes (Function.update_of_ne hj _ _)⟩

theorem Equipped.feed (h : Equipped cfg v₀ plan id s) :
    Equipped cfg v₀ plan id (s.feed cfg p bytes) := by
  unfold System.feed
  split
  · split
    · exact h.of_still rfl (still_setUnread s _ _) fun _ => ⟨rfl, rfl⟩
    · exact h
  · exact h

theorem Equipped.read (h : Equipped cfg v₀ plan id s) :
    Equipped cfg v₀ plan id (s.read i p n) := by
  unfold System.read
  dsimp only
  split
  · split
    · exact h.of_still rfl (still_setUnread s _ _) (setProc_tables rfl rfl)
    · exact h
  · exact h

theorem Equipped.write (h : Equipped cfg v₀ plan id s) :
    Equipped cfg v₀ plan id (s.write i p bytes) := by
  unfold System.write
  dsimp only
  split
  · split
    · exact h.of_still rfl (still_setUnread s _ _) (setProc_tables rfl rfl)
    · exact h
  · exact h

/-- **The replicas that the voter has forked are equipped.** -/
theorem Started.equipped (h : Started cfg env v₀) :
    ∃ plan id, Equipped cfg v₀ plan id (System.start v₀) := by
  obtain ⟨plan, id, hs⟩ := h.fresh.sound
  have hzero : DescriptorTable.lookup v₀.kernel.fds 0 ≠ none := by
    obtain ⟨what, hwhat, -⟩ := hs.wired.zero
    exact fun hnone => Option.some_ne_none what (hwhat.symm.trans hnone)
  refine ⟨plan, id, trivial, hs, (Kept.refl v₀).alike_of_ext rfl, h.typed, hzero,
    fun i hi => ?_⟩
  show Connected _ _ (((System.message v₀ i).map (RepProcess.launch v₀.kernel)).getD {})
  rw [hs.wired.message_eq h.typed hi]
  exact connectRecvFDS_connected (SameOpen.refl ({ fds := v₀.kernel.fds } : RepProcess).fds) _

/-- What the replicas are after a piece of the main loop: the restarted one is a clone. -/
theorem System.voter_ok (h : s.voter cfg env = .ok s') : ∃ m, s.m.go cfg env = .ok m ∧
    s' = (m.v.log.restarts.drop s.m.v.log.restarts.length).foldl System.clone { s with m } := by
  unfold System.voter at h
  split at h
  · rename_i m hgo
    exact ⟨m, hgo, (Except.ok.inj h).symm⟩
  · cases h

/-- **The clone of an equipped replica is equipped**, with the kernel pipes that were made for it.
The others keep theirs, so the messages for them are what they were. -/
theorem Equipped.clone {m : Machine} {e r pipes : Nat} (h : Equipped cfg v₀ plan id s)
    (hpc : m.pc.Within cfg) (hlike : Alike cfg s.m.v m.v)
    (hs : Sound cfg plan (refilled id e pipes) m.v) (he : e < cfg.repCount)
    (hr : r < cfg.repCount) :
    Equipped cfg v₀ plan (refilled id e pipes) (System.clone { s with m } (e, r)) := by
  have hext := (h.alike.trans hlike).ext
  refine ⟨hpc, hs, h.alike.trans hlike, hlike.typed h.typed, h.zero, fun i hi => ?_⟩
  show Connected _ _ (Function.update s.procs e
    (((System.message m.v e).map (s.procs r).restartHandler).getD {}) i)
  rw [hs.wired.message_eq (hlike.typed h.typed) he, offer_congr hext fun _ => rfl]
  by_cases hie : i = e
  · rw [hie, Function.update_self]
    exact (h.connected r hr).restart h.zero (offer_lengths.1.trans offer_lengths.2.symm)
      offer_oneWay
  · rw [Function.update_of_ne hie,
      offer_congr (fun _ => ⟨rfl, rfl⟩) fun p => refilled_of_ne hie]
    exact h.connected i hi

theorem Equipped.voter (h : Equipped cfg v₀ plan id s) (hmode : cfg.Replicated)
    (hvoter : s.voter cfg env = .ok s') : ∃ id', Equipped cfg v₀ plan id' s' := by
  obtain ⟨m, hgo, rfl⟩ := System.voter_ok hvoter
  have hst : Stepped cfg env plan id s.m .go m :=
    Machine.step_spec h.sound h.within (Or.inr hmode) hgo
  have hwithin : m.pc.Within cfg := hst.within h.within
  obtain ⟨hlike, hman⟩ := (Machine.go_went h.sound h.within hmode hgo).manned h.sound hmode
  cases hman with
  | same hs hno =>
    rw [hno, List.drop_length]
    exact ⟨id, hwithin, hs, h.alike.trans hlike, hlike.typed h.typed, h.zero, h.connected⟩
  | one he hr hs hone =>
    rw [hone, List.drop_left]
    exact ⟨_, h.clone hwithin hlike hs he hr⟩

/-- **The step lemma.** -/
theorem Equipped.step {mv : SystemMove} (h : Equipped cfg v₀ plan id s) (hmode : cfg.Replicated)
    (hstep : System.step cfg env mv s = .ok s') : ∃ id', Equipped cfg v₀ plan id' s' := by
  cases mv with
  | feed p bytes => exact ⟨id, Except.ok.inj hstep ▸ h.feed⟩
  | voter => exact h.voter hmode hstep
  | read i p n => exact ⟨id, Except.ok.inj hstep ▸ h.read⟩
  | write i p bytes => exact ⟨id, Except.ok.inj hstep ▸ h.write⟩

end Run

/-! ## What a replica can rely on -/

/-- The pipes of a replica, of whichever generation. -/
def Voter.handout (v : Voter) (cfg : Config) : List TypedPipe :=
  List.zipWith (fun p (fd : Nat) =>
    { type := commToEnum (v.extPipes p).repInfo
      fdIn := if (v.extPipes p).fdIn ≠ 0 then fd else 0
      fdOut := if (v.extPipes p).fdIn ≠ 0 then 0 else fd })
    (List.range cfg.pipeCount) (arrivals v.kernel.fds cfg.pipeCount)

/-- Pipe `p` of the process is of the type and direction of the external pipe in `v₀`, and what
it is at the other end of is the voter's pipe for replica `i`. -/
structure Attached (v₀ v : Voter) (i p k : Nat) (proc : RepProcess) : Prop where
  type : (proc.pipes.getD p {}).type = commToEnum (v₀.extPipes p).repInfo
  input : v₀.IsInput p → (proc.pipes.getD p {}).fdIn ≠ 0 ∧ (proc.pipes.getD p {}).fdOut = 0 ∧
    proc.lookup (proc.pipes.getD p {}).fdIn = some (.readEnd k) ∧
      v.kernel.lookup (v.vot i p).fdOut = some (.writeEnd k)
  output : ¬ v₀.IsInput p → (proc.pipes.getD p {}).fdIn = 0 ∧ (proc.pipes.getD p {}).fdOut ≠ 0 ∧
    proc.lookup (proc.pipes.getD p {}).fdOut = some (.writeEnd k) ∧
      v.kernel.lookup (v.vot i p).fdIn = some (.readEnd k)

section Rely

variable {cfg : Config} {env : Env} {plan : Plan} {id : Nat → Nat → Nat} {v₀ : Voter}
  {s : System} {i p : Nat} {t : Table PipeEnd} {msg msg' : FDSMessage} {proc proc' : RepProcess}

/-- What is open in a process that received something. -/
theorem Connected.lookup_none_iff (h : Connected t msg proc) (fd : Nat) :
    DescriptorTable.lookup proc.fds fd = none ↔
      fd ∉ arrivals t msg.files.length ∧ DescriptorTable.lookup t fd = none := by
  have hrest := h.rest fd
  rw [lookup_closeAll] at hrest
  by_cases hmem : fd ∈ arrivals t msg.files.length
  · obtain ⟨i, hi⟩ := List.mem_iff_getElem?.mp hmem
    have hlt : i < msg.files.length := by
      rw [← length_arrivals t msg.files.length]
      exact (List.getElem?_eq_some_iff.mp hi).1
    rw [h.file i fd hi, List.getElem?_eq_getElem hlt]
    exact ⟨fun hc => absurd hc (Option.some_ne_none _), fun hc => absurd hmem hc.1⟩
  · rw [if_neg hmem] at hrest
    rw [hrest]
    exact ⟨fun hc => ⟨hmem, hc⟩, And.right⟩

/-- Two processes that received equally many files have the same numbers open. -/
theorem Connected.sameOpen (h : Connected t msg proc) (h' : Connected t msg' proc')
    (hlen : msg'.files.length = msg.files.length) : SameOpen proc.fds proc'.fds := by
  intro fd
  rw [h.lookup_none_iff, h'.lookup_none_iff, hlen]

/-- The pipes are the same for all. -/
theorem Equipped.pipes (h : Equipped cfg v₀ plan id s) (hi : i < cfg.repCount) :
    (s.procs i).pipes = v₀.handout cfg := by
  rw [(h.connected i hi).pipes, offer_lengths.2]
  unfold Voter.offer Voter.handout
  rw [List.zipWith_map_left, ← List.map_uncurry_zip_eq_zipWith, ← List.map_uncurry_zip_eq_zipWith]
  refine List.map_congr_left fun x hx => ?_
  have hs : cfg.Slot i x.1 := ⟨hi, List.mem_range.mp (List.of_mem_zip hx).1⟩
  unfold Function.uncurry TypedPipe.recover
  dsimp only
  by_cases hin : (v₀.extPipes x.1).fdIn ≠ 0
  · simp only [if_pos hin, if_pos (h.sound.wired.rd_ne_zero hs)]
  · simp only [if_neg hin, if_neg (not_not.mpr rfl)]

/-- The ends of the pipes. -/
theorem Equipped.attached (h : Equipped cfg v₀ plan id s) (hs : cfg.Slot i p) :
    Attached v₀ s.m.v i p (id i p) (s.procs i) := by
  obtain ⟨hi, hp⟩ := hs
  have hlt : p < (arrivals v₀.kernel.fds cfg.pipeCount).length := by
    rw [length_arrivals]
    exact hp
  obtain ⟨fd, hfd⟩ : ∃ fd, (arrivals v₀.kernel.fds cfg.pipeCount)[p]? = some fd :=
    ⟨_, List.getElem?_eq_getElem hlt⟩
  have hne : (fd : Int) ≠ 0 :=
    Int.natCast_ne_zero.mpr (arrivals_ne_zero h.zero (List.mem_of_getElem? hfd))
  -- What the process was given for pipe `p`: the type, and a number at one of the two ends.
  have hpipe : (s.procs i).pipes.getD p {} =
      { type := commToEnum (v₀.extPipes p).repInfo
        fdIn := if (v₀.extPipes p).fdIn ≠ 0 then fd else 0
        fdOut := if (v₀.extPipes p).fdIn ≠ 0 then 0 else fd } := by
    rw [h.pipes hi, List.getD_eq_getElem?_getD]
    unfold Voter.handout
    rw [List.getElem?_zipWith, List.getElem?_range hp, hfd]
    rfl
  -- That number stands for the end which the voter offered for pipe `p`.
  have hfile : (s.procs i).lookup fd
      = some (if (v₀.extPipes p).fdIn ≠ 0 then .readEnd (id i p) else .writeEnd (id i p)) := by
    have hopen := (h.connected i hi).file p fd (by rw [offer_lengths.2]; exact hfd)
    unfold RepProcess.lookup
    rw [if_pos (Int.natCast_nonneg fd), Int.toNat_natCast, hopen]
    unfold Voter.offer
    dsimp only
    rw [List.getElem?_map, List.getElem?_range hp]
    rfl
  have hjoin := h.sound.wired.joined i p ⟨hi, hp⟩
  have hsame : s.m.v.IsInput p ↔ v₀.IsInput p := by
    unfold Voter.IsInput
    rw [(h.alike.ext p).1]
  constructor
  · rw [hpipe]
  · intro hin
    have hends := hjoin.inward (hsame.mpr hin)
    unfold Voter.IsInput at hin
    rw [if_pos hin] at hfile
    rw [hpipe, if_pos hin, if_pos hin, hends.2.1]
    exact ⟨hne, rfl, hfile, h.sound.wired.wr i p ⟨hi, hp⟩⟩
  · intro hout
    have hends := hjoin.outward fun hc => hout (hsame.mp hc)
    unfold Voter.IsInput at hout
    rw [if_neg hout] at hfile
    rw [hpipe, if_neg hout, if_neg hout, hends.1]
    exact ⟨rfl, hne, hfile, h.sound.wired.rd i p ⟨hi, hp⟩⟩

/-- **Every replica has its own pipes under the numbers of the first.** Whatever was restarted:
the replicas have the same numbers in their pipes and the same numbers open as the first ones
had, and each of their pipes is a kernel pipe that no other has and whose other end is the
voter's for this replica. -/
theorem replicas_keep_their_descriptors {moves : List SystemMove} (hmode : cfg.Replicated)
    (h : Started cfg env v₀)
    (hr : runAll (System.step cfg env) moves (System.start v₀) = .ok s) :
    ∃ id : Nat → Nat → Nat,
      (∀ i p j q, cfg.Slot i p → cfg.Slot j q → id i p = id j q → i = j ∧ p = q) ∧
      ∀ i, i < cfg.repCount →
        (s.procs i).pipes = ((System.start v₀).procs 0).pipes ∧
        SameOpen (s.procs i).fds ((System.start v₀).procs 0).fds ∧
        ∀ p, p < cfg.pipeCount → Attached v₀ s.m.v i p (id i p) (s.procs i) := by
  obtain ⟨plan, id₀, h₀⟩ := h.equipped
  obtain ⟨id, hs⟩ : ∃ id, Equipped cfg v₀ plan id s :=
    runAll.invariant (I := fun s => ∃ id, Equipped cfg v₀ plan id s)
      (fun mv s s' ⟨_, hs⟩ hm => hs.step hmode hm) ⟨id₀, h₀⟩ hr
  refine ⟨id, hs.sound.wired.id_inj, fun i hi => ?_⟩
  have hzero : 0 < cfg.repCount := Nat.zero_lt_of_lt hi
  refine ⟨?_, ?_, fun p hp => hs.attached ⟨hi, hp⟩⟩
  · rw [hs.pipes hi, h₀.pipes hzero]
  · exact (hs.connected i hi).sameOpen (h₀.connected 0 hzero)
      (offer_lengths.2.trans offer_lengths.2.symm)

/-- The third replica of `Filter` writes something else than the others, and is made anew. -/
def outvoted : List SystemMove :=
  [.write 0 1 [1], .write 1 1 [1], .write 2 1 [2]] ++ List.replicate 16 .voter

theorem replicas_keep_their_descriptors_filter :
    ∃ (s : System) (id : Nat → Nat → Nat),
      runAll (System.step (filterPipes.config .tmr 400 80) .steady) outvoted
        (System.start filterAtStart) = .ok s ∧
      s.m.v.log.restarts = [(2, 0)] ∧
      (s.procs 2).pipes = ((System.start filterAtStart).procs 0).pipes ∧
      Attached filterAtStart s.m.v 2 1 (id 2 1) (s.procs 2) := by
  obtain ⟨s, hs⟩ : ∃ s, s = ended (runAll (System.step (filterPipes.config .tmr 400 80) .steady)
    outvoted (System.start filterAtStart)) (System.start filterAtStart) := ⟨_, rfl⟩
  have hrun : runAll (System.step (filterPipes.config .tmr 400 80) .steady) outvoted
      (System.start filterAtStart) = .ok s := by
    rw [hs]
    exact eq_ended (by decide +kernel)
  have hrestarts : s.m.v.log.restarts = [(2, 0)] := by
    rw [hs]
    decide +kernel
  obtain ⟨id, -, hall⟩ :=
    replicas_keep_their_descriptors (Or.inr rfl) filterPipes.started hrun
  obtain ⟨hpipes, -, hatt⟩ := hall 2 (by decide)
  exact ⟨s, id, hrun, hrestarts, hpipes, hatt 1 (by decide)⟩

end Rely

end Pint
