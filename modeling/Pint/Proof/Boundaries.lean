import Pint.Program.Feed
import Pint.Proof.Forwarding

/-!
# Message boundaries

The voter moves bytes, not messages: what it reads from an external pipe it appends to the
replicas' pipes, wherever the `read` happened to end. So nothing is lost or reordered on the
way (`Carries.go`), and the channel is a `Framing.Stream` in which only the number of bytes that
have arrived depends on the voter. But a replica that looks while a part of a message has
arrived takes that part and drops it, and from then on the rest of the stream is out of place.

The argument has two halves. `step_stream` says that every move of voter and replica is a move of
the stream, or none: a message that is sent goes to the end of what is on the way, a pass of
`enterLoop` is the reader of the stream, and all that the voter does changes is how much of it
has arrived. The other half is about streams, with no voter in it: whether the stream is intact
after a move is decided by whether that move found a whole message (`Framing.Stream`). The run
lemma of `Lib.Run` puts one behind the other, and that gives both directions at once: the first
look at part of a message breaks the stream, and nothing mends it afterwards.

A restart gives unread input back out of place (`Proof.Backlog`), so these runs have none.
-/

namespace Pint

open Prog Framing Voting

/-- The channel leads through external pipe `p` to replica `i`, and the voter has nothing else
connected to it. -/
structure Channel.Joins (c : Channel) (cfg : Config) (i p : Nat) (v : Voter) : Prop where
  slot : cfg.Slot i p
  input : (v.extPipes p).fdIn ≠ 0
  ext : v.kernel.lookup (v.extPipes p).fdIn = some (.readEnd c.ext)
  rep : v.kernel.lookup ((v.replicas i).repPipes p).fdIn = some (.readEnd c.rep)
  alone : ∀ q, q < cfg.pipeCount → q ≠ p →
    v.kernel.lookup (v.extPipes q).fdIn ≠ some (.readEnd c.ext)
  notWritten : ∀ q, q < cfg.pipeCount →
    v.kernel.lookup (v.extPipes q).fdOut ≠ some (.writeEnd c.ext)

/-- The same of a sound voter, by the numbers of its kernel pipes. -/
structure Carries (c : Channel) (cfg : Config) (plan : Plan) (id : Nat → Nat → Nat) (i p : Nat)
    (v : Voter) : Prop where
  sound : Sound cfg plan id v
  joins : c.Joins cfg i p v
  rep : c.rep = id i p
  ext_lt : c.ext < plan.base

/-- The bytes on the way, the next one first. -/
def Voter.onWay (v : Voter) (c : Channel) : List Byte :=
  v.kernel.unread c.rep ++ v.kernel.unread c.ext

section Carries

variable {c : Channel} {cfg : Config} {env : Env} {plan : Plan} {id : Nat → Nat → Nat}
  {i p : Nat} {v v' : Voter}

theorem Channel.Joins.carries (hj : c.Joins cfg i p v) (hs : Sound cfg plan id v) :
    Carries c cfg plan id i p v := by
  refine ⟨hs, hj, ?_, ?_⟩
  · have hfd := ((hs.wired.joined i p hj.slot).inward hj.input).2.2.1
    have hrep := hj.rep
    rw [hfd, hs.wired.rd i p hj.slot] at hrep
    exact (PipeEnd.readEnd.inj (Option.some.inj hrep)).symm
  · obtain ⟨⟨e, he, hold⟩, -⟩ := hs.wired.ext p hj.slot.2
    rw [hj.ext] at he
    obtain rfl := Option.some.inj he
    exact hold

/-- The two pipes of a channel are different pipes. -/
theorem Carries.ext_ne (h : Carries c cfg plan id i p v) {j q : Nat} (hs : cfg.Slot j q) :
    c.ext ≠ id j q := by
  have hge := h.sound.wired.id_ge j q hs
  have hlt := h.ext_lt
  omega

theorem Carries.ext_ne_rep (h : Carries c cfg plan id i p v) : c.ext ≠ c.rep := by
  rw [h.rep]
  exact h.ext_ne h.joins.slot

/-- The same descriptors, and the voter is still sound. -/
theorem Carries.same (h : Carries c cfg plan id i p v) (hs : Sound cfg plan id v')
    (hfds : v'.kernel.fds = v.kernel.fds)
    (hext : ∀ q, (v'.extPipes q).fdIn = (v.extPipes q).fdIn ∧
      (v'.extPipes q).fdOut = (v.extPipes q).fdOut) : Carries c cfg plan id i p v' := by
  have hlook : ∀ fd, v'.kernel.lookup fd = v.kernel.lookup fd := fun fd => by
    unfold Kernel.lookup
    rw [hfds]
  have hin : v'.IsInput p := by
    unfold Voter.IsInput
    rw [(hext p).1]
    exact h.joins.input
  have hrep : ((v'.replicas i).repPipes p).fdIn = ((v.replicas i).repPipes p).fdIn := by
    rw [((hs.wired.joined i p h.joins.slot).inward hin).2.2.1,
      ((h.sound.wired.joined i p h.joins.slot).inward h.joins.input).2.2.1]
  refine ⟨hs, ⟨h.joins.slot, hin, ?_, ?_, ?_, ?_⟩, h.rep, h.ext_lt⟩
  · rw [hlook, (hext p).1]
    exact h.joins.ext
  · rw [hlook, hrep]
    exact h.joins.rep
  · intro q hq hne
    rw [hlook, (hext q).1]
    exact h.joins.alone q hq hne
  · intro q hq
    rw [hlook, (hext q).2]
    exact h.joins.notWritten q hq

theorem Carries.kept (h : Carries c cfg plan id i p v) (hs : Sound cfg plan id v')
    (hk : Kept v v') : Carries c cfg plan id i p v' := h.same hs hk.fds hk.ext

/-- A turn of the loop over the external pipes moves bytes along the channel, if anything. -/
theorem Carries.passed (h : Carries c cfg plan id i p v) {q : Nat} (hq : q < cfg.pipeCount)
    (hp : Passed cfg id q v v') : v'.onWay c = v.onWay c := by
  unfold Voter.onWay
  cases hp with
  | nothing hu => rw [hu]
  | @chunk k n hin hk hleft hto hother =>
    by_cases hqp : q = p
    · -- This channel: the front of the external pipe goes to the end of the replica's.
      subst hqp
      have hkc : k = c.ext := by
        rw [h.joins.ext] at hk
        exact (PipeEnd.readEnd.inj (Option.some.inj hk)).symm
      rw [hkc] at hleft hto
      rw [hleft, h.rep, hto i h.joins.slot.1, List.append_assoc, List.take_append_drop]
    · have hkc : c.ext ≠ k := by
        rintro rfl
        exact h.joins.alone q hq hqp hk
      have hold : k < plan.base := by
        obtain ⟨⟨e, he, hold⟩, -⟩ := h.sound.wired.ext q hq
        rw [hk] at he
        obtain rfl := Option.some.inj he
        exact hold
      have hge := h.sound.wired.id_ge i p h.joins.slot
      rw [hother c.ext hkc fun r hr => h.ext_ne ⟨hr, hq⟩, h.rep, hother (id i p) (by omega)]
      intro r hr heq
      exact hqp (h.sound.wired.id_inj i p r q h.joins.slot ⟨hr, hq⟩ heq).2.symm

/-- **The voter's next piece, with no restart**, leaves the bytes on the way as they are. It moves
them from the one pipe of the channel to the other, or it is at work elsewhere. -/
theorem Carries.go {m m' : Machine} (h : Carries c cfg plan id i p m.v) (hmode : cfg.Voting)
    (hpc : m.pc.Within cfg) (hgo : m.go cfg env = .ok m') (hno : NoRestart m.v m'.v) :
    Carries c cfg plan id i p m'.v ∧ m'.pc.Within cfg ∧ m'.v.onWay c = m.v.onWay c := by
  have hstep : Machine.step cfg env .go m = .ok m' := hgo
  have hst := Machine.step_spec h.sound hpc hmode hstep
  suffices hsuff : Carries c cfg plan id i p m'.v ∧ m'.v.onWay c = m.v.onWay c from
    ⟨hsuff.1, hst.within hpc, hsuff.2⟩
  cases Machine.turn hgo with
  | @beforeSelect v v' watched hrun =>
    rcases (beforeSelect_undisturbed (E := fun _ => True) h.sound hmode).of_run hrun with hu | hu
    · refine ⟨h.same (hu.sound _ _ h.sound) (by rw [hu.kernel]) hu.ext, ?_⟩
      unfold Voter.onWay
      rw [hu.kernel]
    · exact absurd (congrArg List.length hno.1) (Nat.ne_of_gt hu)
  | selected _ => exact ⟨h, rfl⟩
  | woken => exact ⟨h, rfl⟩
  | @external v v' ready q rest hrun =>
    have hq : q < cfg.pipeCount := hpc q List.mem_cons_self
    have ha := (exec_spec (serveExternal_spec h.sound.wired hq)).1 v' hrun
    have hp := (exec_spec (serveExternal_passes h.sound.wired hq)).1 v' hrun
    exact ⟨h.kept (h.sound.armed ha.1) ha.1.kept, h.passed hq hp⟩
  | externalsDone => exact ⟨h, rfl⟩
  | @replica v v' ready q r rest hrun =>
    have hs : cfg.Slot r q := mem_slots.mp (hpc.subset List.mem_cons_self)
    rcases (exec_spec (serveReplica_outward h.sound hs)).1 v' hrun with hv | ⟨hout, hv⟩
    · rw [hv]
      exact ⟨h, rfl⟩
    · obtain ⟨hsv, hkept, hsame⟩ := hv hno.2
      -- The turn of a replica reads an output pipe, and `p` is an input.
      have hne : ¬ (i = r ∧ p = q) := by
        rintro ⟨-, rfl⟩
        exact hout h.joins.input
      refine ⟨h.kept hsv hkept, ?_⟩
      unfold Voter.onWay
      rw [h.rep, hsame _ (fun heq => hne (h.sound.wired.id_inj i p r q h.joins.slot hs heq))
        (h.sound.wired.ext_fdOut_ne h.joins.slot hs.2),
        hsame _ (h.ext_ne hs) (h.joins.notWritten q hs.2)]
  | replicasDone => exact ⟨h, rfl⟩

end Carries

/-! ## The channel as a stream -/

namespace Feed

variable {c : Channel} {cfg : Config} {env : Env} {plan : Plan} {id : Nat → Nat → Nat}
  {i p : Nat} {v₀ : Voter} {s s' : Feed c.size} {mv : FeedMove c.size}

/-- The channel, with no regard to where on the way the bytes are. -/
def stream (c : Channel) (s : Feed c.size) : Stream Byte c.size where
  written := s.written
  way := s.m.v.onWay c
  processed := s.processed

/-- The messages processed are the first ones written, in order, and the bytes on the way are
those of the others, in order. -/
def Delivered (c : Channel) (s : Feed c.size) : Prop :=
  ∃ rest, s.written = s.processed ++ rest ∧ s.m.v.onWay c = flat rest

/-- The replica, if it looks and there is something to read, finds a whole message. -/
def WakesWhole (c : Channel) (mv : FeedMove c.size) (s : Feed c.size) : Prop :=
  mv = .enterLoop → s.m.v.kernel.unread c.rep ≠ [] →
    c.size ≤ (s.m.v.kernel.unread c.rep).length

/-- The move restarts no replica. -/
def Restartless (cfg : Config) (env : Env) (c : Channel) (mv : FeedMove c.size)
    (s : Feed c.size) : Prop :=
  ∀ s', step cfg env c mv s = .ok s' → NoRestart s.m.v s'.m.v

instance (mv : FeedMove c.size) (s : Feed c.size) : Decidable (WakesWhole c mv s) :=
  inferInstanceAs (Decidable (_ → _ → _))

instance (v v' : Voter) : Decidable (NoRestart v v') :=
  inferInstanceAs (Decidable (_ ∧ _))

instance (mv : FeedMove c.size) (s : Feed c.size) : Decidable (Restartless cfg env c mv s) :=
  match h : step cfg env c mv s with
  | .ok t => decidable_of_iff (NoRestart s.m.v t.m.v)
      ⟨fun hn u hu => by
        obtain rfl := Except.ok.inj (h.symm.trans hu)
        exact hn, fun hr => hr t h⟩
  | .error _ => .isTrue fun _ hu => absurd (h.symm.trans hu) (by simp)

/-- What every state of a run without restarts satisfies. -/
structure Sane (c : Channel) (cfg : Config) (plan : Plan) (id : Nat → Nat → Nat) (i p : Nat)
    (s : Feed c.size) : Prop where
  carries : Carries c cfg plan id i p s.m.v
  within : s.m.pc.Within cfg
  bounded : (s.stream c).Bounded

theorem setUnread_self (k : Nat) (bytes : List Byte) :
    (s.setUnread k bytes).m.v.kernel.unread k = bytes := Function.update_self _ _ _

theorem setUnread_ne {k x : Nat} (h : x ≠ k) (bytes : List Byte) :
    (s.setUnread k bytes).m.v.kernel.unread x = s.m.v.kernel.unread x :=
  Function.update_of_ne h _ _

theorem setUnread_carries (h : Carries c cfg plan id i p s.m.v) (k : Nat) (bytes : List Byte) :
    Carries c cfg plan id i p (s.setUnread k bytes).m.v :=
  h.kept (h.sound.still (still_unread s.m.v _)) (still_unread s.m.v _).toKept

/-- A pass of `enterLoop` is the reader of the stream looking at what has arrived in its
pipe. -/
theorem enterLoop_stream (hne : c.ext ≠ c.rep) : (s.enterLoop c.rep).stream c
    = (s.stream c).step (.wake (s.m.v.kernel.unread c.rep).length) := by
  obtain ⟨bytes, hbytes⟩ : ∃ bytes, bytes = s.m.v.kernel.unread c.rep := ⟨_, rfl⟩
  have hway : (s.stream c).way = bytes ++ s.m.v.kernel.unread c.ext := by
    rw [hbytes]
    rfl
  have htaken : (s.stream c).taken bytes.length = bytes.take c.size := by
    unfold Stream.taken
    rw [hway, List.take_left]
  -- What is on the way after the pass: the rest of the replica's pipe, and the external pipe.
  have hleft : (s.stream c).way.drop (bytes.take c.size).length
      = bytes.drop c.size ++ s.m.v.kernel.unread c.ext := by
    have hsplit : bytes.take c.size ++ (bytes.drop c.size ++ s.m.v.kernel.unread c.ext)
        = (s.stream c).way := by
      rw [hway, ← List.append_assoc, List.take_append_drop]
    rw [← hsplit, List.drop_left]
  have hset : (s.setUnread c.rep (bytes.drop c.size)).m.v.onWay c
      = bytes.drop c.size ++ s.m.v.kernel.unread c.ext := by
    unfold Voter.onWay
    rw [setUnread_self, setUnread_ne hne]
  unfold enterLoop
  dsimp only
  rw [← hbytes]
  by_cases hlen : (bytes.take c.size).length = c.size
  · have hsome : bytes ≠ [] := by
      rintro rfl
      rw [List.take_nil] at hlen
      exact absurd hlen (Nat.ne_of_lt c.size_pos)
    rw [Stream.step_wake_whole htaken hlen, if_neg hsome, dif_pos hlen, hleft, ← hset]
    rfl
  · rw [Stream.step_wake_part htaken hlen, dif_neg hlen, hleft]
    split
    · rename_i hnil
      rw [hnil, List.drop_nil]
      unfold stream Voter.onWay
      rw [← hbytes, hnil]
    · rw [← hset]
      rfl

theorem enterLoop_carries (h : Carries c cfg plan id i p s.m.v) :
    Carries c cfg plan id i p (s.enterLoop c.rep).m.v := by
  unfold enterLoop
  dsimp only
  split
  · exact h
  · split
    · exact setUnread_carries h c.rep _
    · exact setUnread_carries h c.rep _

theorem enterLoop_within (h : s.m.pc.Within cfg) : (s.enterLoop c.rep).m.pc.Within cfg := by
  unfold enterLoop
  dsimp only
  split
  · exact h
  · split
    · exact h
    · exact h

/-- A move that the stream does not see. -/
theorem Sane.quiet {t : Feed c.size} (h : Sane c cfg plan id i p s)
    (hcarries : Carries c cfg plan id i p t.m.v) (hwithin : t.m.pc.Within cfg)
    (hsame : t.stream c = s.stream c) (hmv : mv ≠ .enterLoop) :
    Sane c cfg plan id i p t ∧
      ((t.stream c).Intact ↔ (s.stream c).Intact ∧ WakesWhole c mv s) := by
  refine ⟨⟨hcarries, hwithin, by rw [hsame]; exact h.bounded⟩, ?_⟩
  rw [hsame]
  exact (and_iff_left fun hc => absurd hc hmv).symm

/-- A move that the stream makes too. -/
theorem Sane.moved {t : Feed c.size} (h : Sane c cfg plan id i p s) (b : Framing.Move Byte c.size)
    (hcarries : Carries c cfg plan id i p t.m.v) (hwithin : t.m.pc.Within cfg)
    (hsame : t.stream c = (s.stream c).step b)
    (hwhole : (s.stream c).Whole b ↔ WakesWhole c mv s) :
    Sane c cfg plan id i p t ∧
      ((t.stream c).Intact ↔ (s.stream c).Intact ∧ WakesWhole c mv s) := by
  refine ⟨⟨hcarries, hwithin, by rw [hsame]; exact h.bounded.step⟩, ?_⟩
  rw [hsame, Stream.step_intact h.bounded, hwhole]

/-- **The channel is a stream.** A message that is written and a pass of `enterLoop` are moves
of the stream, and nothing else changes it. -/
theorem step_stream (hmode : cfg.Voting) (h : Sane c cfg plan id i p s)
    (hno : Restartless cfg env c mv s) (hstep : step cfg env c mv s = .ok s') :
    Sane c cfg plan id i p s' ∧
      ((s'.stream c).Intact ↔ (s.stream c).Intact ∧ WakesWhole c mv s) := by
  have hne := h.carries.ext_ne_rep
  cases mv with
  | send msg =>
    obtain rfl := Except.ok.inj hstep
    refine h.moved (.send msg) (setUnread_carries h.carries c.ext _) h.within ?_
      (iff_of_true trivial fun hc => absurd hc (by simp))
    have hway : (s.setUnread c.ext (s.m.v.kernel.unread c.ext ++ msg.toList)).m.v.onWay c
        = s.m.v.onWay c ++ msg.toList := by
      unfold Voter.onWay
      rw [setUnread_self, setUnread_ne hne.symm, List.append_assoc]
    exact congrArg (fun way => Stream.mk (s.written ++ [msg]) way s.processed) hway
  | deliver k bytes =>
    unfold step at hstep
    dsimp only at hstep
    split at hstep
    · obtain rfl := Except.ok.inj hstep
      exact h.quiet h.carries h.within rfl (by simp)
    · rename_i hk
      obtain rfl := Except.ok.inj hstep
      refine h.quiet (setUnread_carries h.carries k _) h.within ?_ (by simp)
      have hway : (s.setUnread k (s.m.v.kernel.unread k ++ bytes)).m.v.onWay c
          = s.m.v.onWay c := by
        unfold Voter.onWay
        rw [setUnread_ne fun hc => hk (Or.inr hc.symm),
          setUnread_ne fun hc => hk (Or.inl hc.symm)]
      exact congrArg (fun way => Stream.mk s.written way s.processed) hway
  | voter =>
    have hno' := hno s' hstep
    unfold step at hstep
    dsimp only at hstep
    split at hstep
    · rename_i m hgo
      obtain rfl := Except.ok.inj hstep
      obtain ⟨hcarries, hwithin, hway⟩ := h.carries.go hmode h.within hgo hno'
      refine h.quiet (t := { s with m }) hcarries hwithin ?_ (by simp)
      exact congrArg (fun way => Stream.mk s.written way s.processed) hway
    · exact absurd hstep (by simp)
  | enterLoop =>
    obtain rfl := Except.ok.inj hstep
    refine h.moved _ (enterLoop_carries h.carries) (enterLoop_within h.within)
      (enterLoop_stream hne) ?_
    -- What the replica reads is the front of what is on the way.
    have harrived : (s.stream c).way.take (s.m.v.kernel.unread c.rep).length
        = s.m.v.kernel.unread c.rep := List.take_left
    unfold Stream.Whole WakesWhole
    dsimp only
    rw [harrived]
    exact ⟨fun hw _ => hw, fun hw => hw rfl⟩

/-- The voter as it starts, with nothing written. -/
def start (v₀ : Voter) {size : Nat} : Feed size := { m := ⟨.top, v₀⟩ }

/-- **When message boundaries survive the voter.** In a run without restarts, for every way in
which the voter's reads cut the stream and every schedule of the replica, the messages that
were processed are the first ones that were written, and the others are on the way, if and
only if the replica found a whole message whenever it found anything. -/
theorem delivered_iff {moves : List (FeedMove c.size)} (hmode : cfg.Voting)
    (hstart : Started cfg env v₀) (hjoins : c.Joins cfg i p v₀) (hempty : v₀.onWay c = [])
    (hno : AllMeet (step cfg env c) (Restartless cfg env c) moves (start v₀))
    (hrun : runAll (step cfg env c) moves (start v₀) = .ok s) :
    s.Delivered c ↔ AllMeet (step cfg env c) (WakesWhole c) moves (start v₀) := by
  obtain ⟨plan, id, hsound⟩ := hstart.fresh.sound
  have h₀ : Sane c cfg plan id i p (start v₀) := by
    refine ⟨hjoins.carries hsound, trivial, ?_⟩
    show (flat [] ++ v₀.onWay c).length ≤ _
    rw [hempty]
    exact Nat.zero_le _
  have hintact : (stream c (start v₀)).Intact := by
    show flat [] ++ v₀.onWay c = _
    rw [hempty]
    rfl
  have hiff := runAll.monitor_of_meets (I := Sane c cfg plan id i p)
    (P := fun s => (s.stream c).Intact) (fun _ _ _ hs hl hstep => step_stream hmode hs hl hstep)
    h₀ hno hrun
  have hdelivered : (s.stream c).Intact ↔ s.Delivered c := Stream.intact_iff_ordered c.size_pos
  rw [← hdelivered, hiff]
  exact and_iff_right hintact

/-! ### Ranges for `Filter` -/

/-- The input of `Filter`, and the pipe of its first replica. -/
def ranges : Channel := ⟨0, 3, sizeofRangePoseData, by decide⟩

/-- Ranges that are all the same. -/
def rangeMsg (b : Byte) : Block Byte ranges.size :=
  ⟨List.replicate ranges.size b, List.length_replicate⟩

/-- `Filter` with three replicas, at the head of its main loop. -/
def filterVoter : Voter := filterPipes.start (filterPipes.config .tmr 400 80) .steady

theorem ranges_joins : ranges.Joins (filterPipes.config .tmr 400 80) 0 0 filterVoter where
  slot := ⟨by decide, by decide⟩
  input := by decide +kernel
  ext := by decide +kernel
  rep := by decide +kernel
  alone := by
    intro q hq hne
    have hall : ∀ q < 3, q ≠ 0 → filterVoter.kernel.lookup (filterVoter.extPipes q).fdIn
        ≠ some (.readEnd 0) := by decide +kernel
    exact hall q hq hne
  notWritten := by
    intro q hq
    have hall : ∀ q < 3, filterVoter.kernel.lookup (filterVoter.extPipes q).fdOut
        ≠ some (.writeEnd 0) := by decide +kernel
    exact hall q hq

/-- Two messages are written before the voter looks, and a third before the replica has read the
second. The voter's first `read` takes the two, and ends where the second does. -/
def threeMessages : List (FeedMove ranges.size) :=
  [.send (rangeMsg 1), .send (rangeMsg 2)] ++ List.replicate 3 .voter ++
    [.enterLoop, .send (rangeMsg 3)] ++ List.replicate 16 .voter ++
    [.enterLoop, .enterLoop, .enterLoop]

theorem delivered_iff_filter :
    ∃ s, runAll (step (filterPipes.config .tmr 400 80) .steady ranges) threeMessages
        (start filterVoter) = .ok s ∧
      s.processed = [rangeMsg 1, rangeMsg 2, rangeMsg 3] ∧ s.Delivered ranges := by
  have hrun := eq_ended (d := start filterVoter)
    (r := runAll (step (filterPipes.config .tmr 400 80) .steady ranges) threeMessages
      (start filterVoter)) (by decide +kernel)
  refine ⟨_, hrun, by decide +kernel, ?_⟩
  exact (delivered_iff (Or.inr (Or.inr rfl)) filterPipes.started ranges_joins (by decide +kernel)
    (by decide +kernel) hrun).mpr (by decide +kernel)

/-- 27 messages are written before the voter looks, and the replica reads whenever something
has come through. -/
def backlog : List (FeedMove ranges.size) :=
  List.replicate 27 (.send (rangeMsg 7)) ++ List.replicate 13 .voter ++
    List.replicate 27 .enterLoop ++ List.replicate 13 .voter ++ [.enterLoop]

/-- The 27 messages are 4104 bytes. The voter's `read` of 4096 ends 144 bytes into the last
one. The replica takes these for a message and drops them, and then the other 8: nothing is
left to read, and one message was not processed. -/
theorem last_message_is_lost :
    ∃ s, runAll (step (filterPipes.config .tmr 400 80) .steady ranges) backlog
        (start filterVoter) = .ok s ∧ NoRestart filterVoter s.m.v ∧
      s.written.length = 27 ∧ s.processed.length = 26 ∧ s.m.v.onWay ranges = [] ∧
      ¬ s.Delivered ranges := by
  have hrun := eq_ended (d := start filterVoter)
    (r := runAll (step (filterPipes.config .tmr 400 80) .steady ranges) backlog
      (start filterVoter)) (by decide +kernel)
  obtain ⟨s, hs⟩ : ∃ s, s = ended (runAll (step (filterPipes.config .tmr 400 80) .steady ranges)
    backlog (start filterVoter)) (start filterVoter) := ⟨_, rfl⟩
  have hend : NoRestart filterVoter s.m.v ∧ s.written.length = 27 ∧
      s.processed.length = 26 ∧ s.m.v.onWay ranges = [] := by
    rw [hs]
    decide +kernel
  rw [← hs] at hrun
  obtain ⟨hno, hwritten, hprocessed, hway⟩ := hend
  refine ⟨s, hrun, hno, hwritten, hprocessed, hway, ?_⟩
  rintro ⟨rest, hrest, hflat⟩
  rw [hway] at hflat
  -- One message is left over, but no bytes are.
  have hone := congrArg List.length hrest
  rw [List.length_append, hwritten, hprocessed] at hone
  cases rest with
  | nil => exact absurd hone (by decide)
  | cons msg rest =>
    have hlen := congrArg List.length hflat
    rw [flat_cons, List.length_append, msg.length_eq, List.length_nil] at hlen
    have hpos := ranges.size_pos
    omega

end Feed

end Pint
