import Pint.Proof.MapStream
import Pint.Proof.Waypoints

/-!
# Map updates that are cut off or wrong

The planner looks at the sign of what `commRecvMapUpdate` returns, and nothing else. That is the
number of bytes of the last `read`, so it is positive for a header that was cut off, for
obstacles that were cut off, and for a count that is negative; and the count is compared
neither with the buffer nor with the arrays for the coordinates.

`careful_iff` says for which contents of the pipe one pass does as it should. Both directions are
an inspection of the two `read`s. The first stores what is there of 12 bytes, and its return
value alone decides what happens next if the message announces no obstacles (`recv_cut_header`,
`recv_header`); the second stores what is there of the body. Where either returned something, the
pass sends an acknowledgement (`onUpdate_acts`), and then it cannot have ignored what it read:
that is how a content that is no whole update is found out (`SetUp.not_ignored`). Where neither
did, the only thing that changes is the struct (`onUpdate_nothing`).

The planner of the theorem is any that is `SetUp`. The last section shows that these are all
there are: `main` sets one up, and no event of a run changes what makes it so.
-/

namespace Pint

open Prog

/-! ## The two reads -/

theorem intAt_append {buffer : List Byte} {i : Int} {x : Int} (h : intAt buffer i = .ok x)
    (rest : List Byte) : intAt (buffer ++ rest) i = .ok x := by
  unfold intAt at h ⊢
  split at h
  · rename_i hi
    rw [if_pos ⟨hi.1, by rw [List.length_append]; omega⟩, ← h]
    have hlen : (4 * i).toNat + 4 ≤ buffer.length := by omega
    rw [List.drop_append_of_le_length (by omega), List.take_append_of_le_length (by
      rw [List.length_drop]
      omega)]
  · cases h

theorem intAt_ok {buffer : List Byte} {i : Int} (h0 : 0 ≤ i) (h : 4 * i + 4 ≤ buffer.length) :
    ∃ x, intAt buffer i = .ok x := ⟨_, if_pos ⟨h0, h⟩⟩

/-- The body of an update with this count, as far as it is there. -/
def bodyOf (unread : List Byte) (obsCount : Int) : List Byte :=
  (unread.drop 12).take (8 * obsCount).toNat

theorem length_bodyOf (unread : List Byte) (obsCount : Int) :
    (bodyOf unread obsCount).length = min (8 * obsCount).toNat (unread.length - 12) := by
  simp [bodyOf]

section Recv

variable {pipe : TypedPipe} {msg : CommMapUpdate} {unread : List Byte} {obsCount : Int}

/-- What `read` stores in front of the array. -/
theorem storeBytes_header (unread : List Byte) :
    storeBytes (List.replicate maxTypedPipeBuff 0) 0 (unread.take 12)
      = .ok (unread.take 12 ++ List.replicate (maxTypedPipeBuff - (unread.take 12).length) 0) :=
  storeBytes_front (by
    rw [List.length_take]
    unfold maxTypedPipeBuff
    omega)

/-- **A header that was cut off** is counted as read, and the message is as it was. -/
theorem recv_cut_header (hfd : pipe.fdIn ≠ 0) (htype : pipe.type = .mapUpdate)
    (hlen : unread.length < 12) :
    commRecvMapUpdate pipe msg (mapUpdateReads unread).1 (mapUpdateReads unread).2
      = .ok ((unread.length : Int), msg) := by
  have htake : unread.take 12 = unread := List.take_of_length_le (Nat.le_of_lt hlen)
  have hstore := storeBytes_header unread
  rw [htake] at hstore
  have hne : unread.length ≠ 12 := by omega
  unfold commRecvMapUpdate mapUpdateReads
  rw [if_neg (by simp [hfd, htype])]
  simp only [htake, hstore, bind, Except.bind, if_neg hne]
  rfl

/-- **A whole header**: its three numbers are stored, and what follows depends on the count. -/
theorem recv_header (hfd : pipe.fdIn ≠ 0) (htype : pipe.type = .mapUpdate)
    (hcount : intAt (unread.take 12) 2 = .ok obsCount) :
    ∃ poseX poseY,
      commRecvMapUpdate pipe msg (mapUpdateReads unread).1 (mapUpdateReads unread).2
        = if obsCount > 0 then do
            let buffer ← storeBytes (unread.take 12 ++ List.replicate (maxTypedPipeBuff - 12) 0) 12
              (bodyOf unread obsCount)
            if ((bodyOf unread obsCount).length : Int) = 8 * obsCount then
              return (((bodyOf unread obsCount).length : Int),
                ← copyObstacles buffer obsCount.toNat 0 { msg with poseX, poseY, obsCount })
            else
              return (((bodyOf unread obsCount).length : Int), { msg with poseX, poseY, obsCount })
          else .ok (12, { msg with poseX, poseY, obsCount }) := by
  have hlen : (unread.take 12).length = 12 := by
    unfold intAt at hcount
    split at hcount
    · rename_i hi
      rw [List.length_take] at hi ⊢
      omega
    · cases hcount
  have hstore := storeBytes_header unread
  rw [hlen] at hstore
  obtain ⟨poseX, hx⟩ := @intAt_ok (unread.take 12) 0 (by decide) (by omega)
  obtain ⟨poseY, hy⟩ := @intAt_ok (unread.take 12) 1 (by decide) (by omega)
  refine ⟨poseX, poseY, ?_⟩
  unfold commRecvMapUpdate mapUpdateReads
  rw [if_neg (by simp [hfd, htype])]
  simp only [hstore, intAt_append hx, intAt_append hy, intAt_append hcount, bind, Except.bind, hlen,
    if_true, bodyOf]
  rfl

omit pipe unread obsCount in
/-- The coordinates are stored inside the arrays, and all else is as it was. -/
theorem copyObstacles_inside {buffer : List Byte} {n index : Nat} {got : CommMapUpdate}
    (h : copyObstacles buffer n index msg = .ok got) :
    got.obsX.size = msg.obsX.size ∧ got.obsY.size = msg.obsY.size ∧
      got.obsCount = msg.obsCount ∧
      (0 < n → index + n ≤ msg.obsX.size ∧ index + n ≤ msg.obsY.size) := by
  induction n generalizing index msg with
  | zero =>
    obtain rfl := Except.ok.inj h
    exact ⟨rfl, rfl, rfl, fun h => absurd h (by simp)⟩
  | succ n ih =>
    rw [copyObstacles] at h
    cases hx : intAt buffer (3 + (index : Int) * 2) with
    | error e =>
      rw [hx] at h
      cases h
    | ok x =>
      cases hy : intAt buffer (3 + ((index : Int) * 2 + 1)) with
      | error e =>
        rw [hx, hy] at h
        simp only [bind, Except.bind] at h
        split at h <;> cases h
      | ok y =>
        -- An index behind either array is a fault, so a copy that returns has met none.
        by_cases hsx : index < msg.obsX.size
        · by_cases hsy : index < msg.obsY.size
          · obtain ⟨bx, hbx, hsizex, -⟩ := CArray.set_front hsx x
            obtain ⟨yb, hyb, hsizey, -⟩ := CArray.set_front hsy y
            have hnext : (index : Int) + 1 = ((index + 1 : Nat) : Int) := by omega
            simp only [hx, hy, hbx, hyb, bind, Except.bind, hnext] at h
            obtain ⟨h1, h2, h3, h4⟩ := ih h
            refine ⟨h1.trans hsizex, h2.trans hsizey, h3, fun _ => ?_⟩
            rcases Nat.eq_zero_or_pos n with rfl | hn
            · exact ⟨hsx, hsy⟩
            · obtain ⟨h5, h6⟩ := h4 hn
              dsimp only at h5 h6
              omega
          · obtain ⟨bx, hbx, -⟩ := CArray.set_front hsx x
            have hout := CArray.set_outside (a := msg.obsY) (i := (index : Int)) (by omega) y
            simp only [hx, hy, hbx, hout, bind, Except.bind] at h
            cases h
        · have hout := CArray.set_outside (a := msg.obsX) (i := (index : Int)) (by omega) x
          simp only [hx, hout, bind, Except.bind] at h
          cases h

omit pipe in
/-- The coordinates of a whole body are stored, if the arrays are long enough. -/
theorem copyObstacles_whole {buffer : List Byte} {n : Nat} (hbuffer : buffer.length = 12 + 8 * n)
    (rest : List Byte) (hx : n ≤ msg.obsX.size) (hy : n ≤ msg.obsY.size) :
    ∃ got, copyObstacles (buffer ++ rest) n 0 msg = .ok got := by
  have hints : ∀ i : Nat, i < 3 + 2 * n → ∃ x, intAt (buffer ++ rest) (i : Int) = .ok x := by
    intro i hi
    obtain ⟨x, hx⟩ := @intAt_ok buffer (i : Int) (by omega) (by omega)
    exact ⟨x, intAt_append hx rest⟩
  have hxs : ∀ i, ∃ x, i < n → intAt (buffer ++ rest) (3 + (i : Int) * 2) = .ok x := by
    intro i
    by_cases hi : i < n
    · obtain ⟨x, hx⟩ := hints (3 + i * 2) (by omega)
      exact ⟨x, fun _ => by exact_mod_cast hx⟩
    · exact ⟨0, fun h => absurd h hi⟩
  have hys : ∀ i, ∃ y, i < n → intAt (buffer ++ rest) (3 + ((i : Int) * 2 + 1)) = .ok y := by
    intro i
    by_cases hi : i < n
    · obtain ⟨y, hy⟩ := hints (3 + (i * 2 + 1)) (by omega)
      exact ⟨y, fun _ => by exact_mod_cast hy⟩
    · exact ⟨0, fun h => absurd h hi⟩
  choose xs hxs using hxs
  choose ys hys using hys
  obtain ⟨obsX, obsY, hcopy, -⟩ := @copyObstacles_eq (buffer ++ rest) n xs ys hxs hys n 0 msg
    (Nat.zero_add n) hx hy rfl rfl
  exact ⟨_, hcopy⟩

end Recv

/-! ## One pass of the planner -/

namespace AStar

variable {R : Type}

/-- A planner whose pipes are there; its arrays have 200 integers. -/
structure SetUp (a : AStar R) : Prop where
  updates : ∃ fd, fd ≠ 0 ∧ a.pipes.get a.updatesIndex = .ok { type := .mapUpdate, fdIn := fd }
  ack : ∃ fd, fd ≠ 0 ∧ a.pipes.get a.ackIndex = .ok { type := .commAck, fdOut := fd }
  wayRes : ∃ fd, AnswersOn a fd
  path : HasPath a
  obsX : a.recvMapUpdate.obsX.size = 200
  obsY : a.recvMapUpdate.obsY.size = 200

/-- The pipe has a whole header, and as many pairs behind it as it counts. -/
def WholeUpdate (unread : List Byte) : Prop :=
  ∃ obsCount, intAt (unread.take 12) 2 = .ok obsCount ∧ 0 ≤ obsCount ∧
    12 + 8 * obsCount ≤ unread.length

variable [Double R]

/-- `onUpdate` on a pipe that holds these bytes. -/
def readUpdate (unread : List Byte) : M R Unit :=
  onUpdate (mapUpdateReads unread).1 (mapUpdateReads unread).2

/-- One pass as it should be: all indices are inside the arrays, and only a whole update changes
more than the struct that it is read into. -/
structure Careful (a : AStar R) (unread : List Byte) : Prop where
  inside : ∃ pipe readRet msg, a.pipes.get a.updatesIndex = .ok pipe ∧
    commRecvMapUpdate pipe a.recvMapUpdate (mapUpdateReads unread).1 (mapUpdateReads unread).2
      = .ok (readRet, msg) ∧
    -- the loop over the obstacles that is entered then
    (readRet > 0 → msg.obsCount ≤ msg.obsX.size ∧ msg.obsCount ≤ msg.obsY.size)
  ignores : ¬ WholeUpdate unread →
    ∃ msg, execute (readUpdate unread) a = .ok { a with recvMapUpdate := msg }

/-- The contents that are read as they should be: nothing; a header without obstacles; a header
that announces some, with nothing behind it or with all of them, and these are at most 200. -/
def ReadsWell (unread : List Byte) : Prop :=
  unread = [] ∨ ∃ obsCount, intAt (unread.take 12) 2 = .ok obsCount ∧
    (obsCount = 0 ∨ (0 < obsCount ∧ unread.length = 12) ∨
      (0 < obsCount ∧ obsCount ≤ 200 ∧ 12 + 8 * obsCount ≤ unread.length))

/-- Where `read` returned nothing, nothing is done. -/
theorem onUpdate_nothing {a : AStar R} {header : ReadResult} {obstacles : Int → ReadResult}
    {pipe : TypedPipe} {readRet : Int} {msg : CommMapUpdate}
    (hpipe : a.pipes.get a.updatesIndex = .ok pipe)
    (hrecv : commRecvMapUpdate pipe a.recvMapUpdate header obstacles = .ok (readRet, msg))
    (hread : ¬ readRet > 0) :
    execute (onUpdate header obstacles) a = .ok { a with recvMapUpdate := msg } := by
  have hwp : wp (onUpdate header obstacles) (fun _ a' => a' = { a with recvMapUpdate := msg })
      (fun _ => False) a := by
    unfold onUpdate
    rw [wp_bind, wp_get, wp_bind, wp_lift_ok hpipe, wp_bind, wp_lift_ok hrecv, wp_bind, wp_set,
      wp_ite, if_neg hread]
    rfl
  obtain ⟨u, a', hrun, rfl⟩ := hwp.exists_run
  unfold execute
  rw [hrun]

/-- A plan keeps the pipes, and a path. -/
theorem Planned.keeps {fd : Int} {path : Option (List PointI)} {a a' : AStar R}
    (h : Planned fd path a a') (ha : HasPath a) :
    a'.toAStarPipes = a.toAStarPipes ∧ HasPath a' := by
  cases path with
  | none =>
    obtain rfl : a' = a := h
    exact ⟨rfl, ha⟩
  | some cells =>
    rcases h with ⟨-, h⟩ | h
    · exact ⟨h.steady.pipes, h.path⟩
    · exact ⟨h.steady.pipes, h.path⟩

theorem Planned.writes_le {fd : Int} {path : Option (List PointI)} {a a' : AStar R}
    (h : Planned fd path a a') : a.writes.length ≤ a'.writes.length := by
  cases path with
  | none =>
    obtain rfl : a' = a := h
    exact Nat.le_refl _
  | some cells =>
    rcases h with ⟨-, h⟩ | h
    · rw [h.writes, List.length_append]
      exact Nat.le_add_right _ _
    · rw [h.writes, List.length_append]
      exact Nat.le_add_right _ _

/-- **Where `read` returned something, it is acknowledged.** -/
theorem onUpdate_acts {a : AStar R} (h : SetUp a) {header : ReadResult}
    {obstacles : Int → ReadResult} {pipe : TypedPipe} {readRet : Int} {msg : CommMapUpdate}
    (hpipe : a.pipes.get a.updatesIndex = .ok pipe)
    (hrecv : commRecvMapUpdate pipe a.recvMapUpdate header obstacles = .ok (readRet, msg))
    (hread : readRet > 0) :
    wp (onUpdate header obstacles) (fun _ a' => a.writes.length < a'.writes.length)
      (fun _ => True) a := by
  obtain ⟨ackFd, hackFd, hack⟩ := h.ack
  obtain ⟨fd, hfd⟩ := h.wayRes
  unfold onUpdate
  rw [wp_bind, wp_get, wp_bind, wp_lift_ok hpipe, wp_bind, wp_lift_ok hrecv, wp_bind, wp_set,
    wp_ite, if_pos hread, wp_bind, wp_modify, wp_bind]
  refine wp_lift (fun obstacleMap _ => ?_) fun _ _ => trivial
  rw [wp_bind, wp_modify, wp_bind, wp_get, wp_bind]
  refine (wp_send { type := .commAck, fdOut := ackFd } ?_).mpr ?_
  · exact hack
  · rw [wp_ite]
    split
    · refine (command_spec fd ?_ ?_).imp ?_
      · exact h.path
      · exact hfd
      · intro _ a' ha'
        have hle := ha'.writes_le
        simp only [commSendAck, sendOn, hackFd, List.length_append] at hle
        simp at hle
        omega
    · simp [commSendAck, sendOn, hackFd]

/-- So it is not ignored. -/
theorem SetUp.not_ignored {a : AStar R} (h : SetUp a) {unread : List Byte} {pipe : TypedPipe}
    {readRet : Int} {msg : CommMapUpdate} (hpipe : a.pipes.get a.updatesIndex = .ok pipe)
    (hrecv : commRecvMapUpdate pipe a.recvMapUpdate (mapUpdateReads unread).1
      (mapUpdateReads unread).2 = .ok (readRet, msg))
    (hread : readRet > 0) :
    ¬ ∃ msg, execute (readUpdate unread) a = .ok { a with recvMapUpdate := msg } := by
  rintro ⟨msg', hrun⟩
  have hmore := execute_spec (onUpdate_acts h hpipe hrecv hread) hrun
  exact absurd hmore (Nat.lt_irrefl _)

omit [Double R] in
theorem header_length {unread : List Byte} {obsCount : Int}
    (h : intAt (unread.take 12) 2 = .ok obsCount) : 12 ≤ unread.length := by
  unfold intAt at h
  split at h
  · rename_i hi
    rw [List.length_take] at hi
    omega
  · cases h

/-- What is read with care is as it should be. The cases are those of the first `read`: less than
a header, and a header whose count is negative, 0, or positive with a body that is missing, cut
off, whole but too long for the arrays, or whole. -/
theorem Careful.readsWell {a : AStar R} (h : SetUp a) {unread : List Byte}
    (hcareful : Careful a unread) : ReadsWell unread := by
  obtain ⟨fd, hfd, hpipe⟩ := h.updates
  obtain ⟨⟨pipe, readRet, msg, hpipe', hrecv, -⟩, hignores⟩ := hcareful
  obtain rfl := Except.ok.inj (hpipe.symm.trans hpipe')
  have hacts : ¬ WholeUpdate unread → ¬ readRet > 0 := by
    intro hpart hread
    exact h.not_ignored hpipe hrecv hread (hignores hpart)
  -- Less than a header: `recv` is given what is there, and acts on it unless it is nothing.
  by_cases hcut : unread.length < 12
  · rw [recv_cut_header hfd rfl hcut] at hrecv
    obtain ⟨rfl, -⟩ := Prod.mk.inj (Except.ok.inj hrecv)
    have hpart : ¬ WholeUpdate unread := by
      rintro ⟨obsCount, hcount, -⟩
      exact absurd (header_length hcount) (by omega)
    have hnone := hacts hpart
    exact Or.inl (List.length_eq_zero_iff.mp (by omega))
  · obtain ⟨obsCount, hcount⟩ := @intAt_ok (unread.take 12) 2 (by decide) (by
      rw [List.length_take]
      omega)
    refine Or.inr ⟨obsCount, hcount, ?_⟩
    obtain ⟨poseX, poseY, heq⟩ :=
      @recv_header { type := .mapUpdate, fdIn := fd } a.recvMapUpdate unread obsCount hfd rfl hcount
    rw [heq] at hrecv
    have hpart : ¬ (0 ≤ obsCount ∧ 12 + 8 * obsCount ≤ unread.length) → ¬ WholeUpdate unread := by
      rintro hne ⟨obsCount', hcount', hwhole⟩
      obtain rfl := Except.ok.inj (hcount.symm.trans hcount')
      exact hne hwhole
    -- A header with a count. Without a positive one no body is read.
    by_cases hpos : obsCount > 0
    · rw [if_pos hpos] at hrecv
      have hbody := length_bodyOf unread obsCount
      cases hstore : storeBytes (unread.take 12 ++ List.replicate (maxTypedPipeBuff - 12) 0) 12
          (bodyOf unread obsCount) with
      | error e =>
        rw [hstore] at hrecv
        cases hrecv
      | ok buffer =>
        rw [hstore] at hrecv
        simp only [bind, Except.bind] at hrecv
        split at hrecv
        · rename_i hfull
          cases hcopy : copyObstacles buffer obsCount.toNat 0
              { a.recvMapUpdate with poseX, poseY, obsCount } with
          | error e =>
            rw [hcopy] at hrecv
            cases hrecv
          | ok got =>
            -- The copy returned, so the count is not more than the arrays hold.
            have hfits := (copyObstacles_inside hcopy).2.2.2 (by omega)
            have hsize := h.obsX
            dsimp only at hfits
            omega
        · rename_i hshort
          obtain ⟨rfl, -⟩ := Prod.mk.inj (Except.ok.inj hrecv)
          have hnone := hacts (hpart (by omega))
          omega
    · rw [if_neg hpos] at hrecv
      obtain ⟨rfl, -⟩ := Prod.mk.inj (Except.ok.inj hrecv)
      by_contra hne
      exact hacts (hpart (by omega)) (by decide)

/-- What is as it should be is read with care. -/
theorem ReadsWell.careful {a : AStar R} (h : SetUp a) {unread : List Byte}
    (hwell : ReadsWell unread) : Careful a unread := by
  obtain ⟨fd, hfd, hpipe⟩ := h.updates
  -- Whatever the message says, a return of 0 is not acted on.
  have hquiet : ∀ msg, commRecvMapUpdate { type := .mapUpdate, fdIn := fd } a.recvMapUpdate
      (mapUpdateReads unread).1 (mapUpdateReads unread).2 = .ok (0, msg) → Careful a unread := by
    intro msg hrecv
    refine ⟨⟨_, 0, msg, hpipe, hrecv, fun hread => absurd hread (by decide)⟩, fun _ => ⟨msg, ?_⟩⟩
    exact onUpdate_nothing hpipe hrecv (by decide)
  rcases hwell with rfl | ⟨obsCount, hcount, hwell⟩
  · exact hquiet a.recvMapUpdate (recv_cut_header hfd rfl (by decide))
  have hlen := header_length hcount
  have hbody := length_bodyOf unread obsCount
  obtain ⟨poseX, poseY, hrecv⟩ :=
    @recv_header { type := .mapUpdate, fdIn := fd } a.recvMapUpdate unread obsCount hfd rfl hcount
  -- No obstacles; a count whose body is missing altogether; a whole update.
  rcases hwell with rfl | ⟨hpos, hnone⟩ | ⟨hpos, hmany, hwhole⟩
  · rw [if_neg (by decide)] at hrecv
    refine ⟨⟨_, _, _, hpipe, hrecv, fun _ => ⟨?_, ?_⟩⟩, fun hpart => absurd ⟨0, hcount, ?_⟩ hpart⟩
    · exact Int.natCast_nonneg _
    · exact Int.natCast_nonneg _
    · omega
  · have hnil : bodyOf unread obsCount = [] := List.length_eq_zero_iff.mp (by omega)
    have hne : ((0 : Nat) : Int) ≠ 8 * obsCount := by omega
    have hstore : ∃ buffer, storeBytes
        (unread.take 12 ++ List.replicate (maxTypedPipeBuff - 12) 0) 12 [] = .ok buffer :=
      ⟨_, if_pos (by
        rw [List.length_append, List.length_replicate, List.length_nil]
        unfold maxTypedPipeBuff
        omega)⟩
    obtain ⟨buffer, hstore⟩ := hstore
    rw [if_pos hpos, hnil, hstore] at hrecv
    simp only [bind, Except.bind, List.length_nil, if_neg hne] at hrecv
    exact hquiet _ hrecv
  · have htake : (unread.take 12).length = 12 := by
      rw [List.length_take]
      omega
    have hfull : ((bodyOf unread obsCount).length : Int) = 8 * obsCount := by omega
    have hstore := @storeBytes_behind (maxTypedPipeBuff - 12) (unread.take 12)
      (bodyOf unread obsCount) (by unfold maxTypedPipeBuff; omega)
    rw [htake] at hstore
    obtain ⟨got, hcopy⟩ := @copyObstacles_whole { a.recvMapUpdate with poseX, poseY, obsCount }
      (unread.take 12 ++ bodyOf unread obsCount) obsCount.toNat (by
        rw [List.length_append]
        omega) (List.replicate (maxTypedPipeBuff - 12 - (bodyOf unread obsCount).length) 0)
      (by have := h.obsX; dsimp only; omega) (by have := h.obsY; dsimp only; omega)
    rw [if_pos hpos, hstore] at hrecv
    simp only [bind, Except.bind, if_pos hfull, hcopy] at hrecv
    obtain ⟨hx, hy, hc, -⟩ := copyObstacles_inside hcopy
    refine ⟨⟨_, _, _, hpipe, hrecv, fun _ => ⟨?_, ?_⟩⟩,
      fun hpart => absurd ⟨obsCount, hcount, by omega, hwhole⟩ hpart⟩
    · rw [hx, hc]
      have := h.obsX
      dsimp only
      omega
    · rw [hy, hc]
      have := h.obsY
      dsimp only
      omega

/-- **The planner is careful with what `ReadsWell`, and with nothing else.** Of the contents that
are no whole update it gets two right: the empty pipe, and a header with no obstacle behind it,
where the second `read` returns nothing and so the first one's return value is forgotten. -/
theorem careful_iff {a : AStar R} (h : SetUp a) (unread : List Byte) :
    Careful a unread ↔ ReadsWell unread :=
  ⟨fun hcareful => hcareful.readsWell h, fun hwell => hwell.careful h⟩

/-! ## All planners are set up -/

section Sizes

variable {a a' : AStar R} {msg got : CommMapUpdate} {header : ReadResult}
  {obstacles : Int → ReadResult}

omit [Double R] in
/-- A message is received into the same arrays. -/
theorem commRecvMapUpdate_sizes {pipe : TypedPipe} {readRet : Int}
    (h : commRecvMapUpdate pipe msg header obstacles = .ok (readRet, got)) :
    got.obsX.size = msg.obsX.size ∧ got.obsY.size = msg.obsY.size := by
  have hsame : ∀ {r : Int} {m : CommMapUpdate}, m.obsX.size = msg.obsX.size →
      m.obsY.size = msg.obsY.size →
      (.ok (r, m) : Except Fault (Int × CommMapUpdate)) = .ok (readRet, got) →
      got.obsX.size = msg.obsX.size ∧ got.obsY.size = msg.obsY.size := by
    intro r m hx hy heq
    obtain ⟨-, rfl⟩ := Prod.mk.inj (Except.ok.inj heq)
    exact ⟨hx, hy⟩
  unfold commRecvMapUpdate at h
  split at h
  · exact hsame rfl rfl h
  · split at h
    · exact hsame rfl rfl h
    · rename_i bytes
      obtain ⟨buffer, -, h⟩ := bind_ok h
      split at h
      · obtain ⟨poseX, -, h⟩ := bind_ok h
        obtain ⟨poseY, -, h⟩ := bind_ok h
        obtain ⟨obsCount, -, h⟩ := bind_ok h
        have hheader := @hsame bytes.length { msg with poseX, poseY, obsCount } rfl rfl
        dsimp only at h
        split at h
        · split at h
          · exact @hsame (-1) { msg with poseX, poseY, obsCount } rfl rfl h
          · obtain ⟨buffer, -, h⟩ := bind_ok h
            split at h
            · obtain ⟨m, hcopy, h⟩ := bind_ok h
              obtain ⟨hx, hy, -⟩ := copyObstacles_inside hcopy
              exact hsame hx hy h
            · exact @hsame _ { msg with poseX, poseY, obsCount } rfl rfl h
        · exact hheader h
      · exact hsame rfl rfl h

theorem onUpdate_sizes (header : ReadResult) (obstacles : Int → ReadResult) (a : AStar R) :
    wp (onUpdate header obstacles) (fun _ a' =>
        a'.recvMapUpdate.obsX.size = a.recvMapUpdate.obsX.size ∧
        a'.recvMapUpdate.obsY.size = a.recvMapUpdate.obsY.size)
      (fun _ => True) a := by
  unfold onUpdate
  rw [wp_bind, wp_get, wp_bind]
  refine wp_lift (fun pipe _ => ?_) fun _ _ => trivial
  rw [wp_bind]
  refine wp_lift (fun received hrecv => ?_) fun _ _ => trivial
  have hsizes := commRecvMapUpdate_sizes hrecv
  rw [wp_bind, wp_set, wp_ite]
  split
  · rw [wp_bind, wp_modify, wp_bind]
    refine wp_lift (fun obstacleMap _ => ?_) fun _ _ => trivial
    rw [wp_bind, wp_modify, wp_bind, wp_get, wp_bind]
    apply wp.imp (send_writes _ _ _)
    rintro _ b ⟨_, -, hb⟩
    have hrecv : b.recvMapUpdate = received.2 := by rw [hb]
    rw [wp_ite]
    split
    · refine (command_kept b).imp fun _ c hc => ?_
      rw [hc.recvMapUpdate, hrecv]
      exact hsizes
    · change b.recvMapUpdate.obsX.size = _ ∧ b.recvMapUpdate.obsY.size = _
      rw [hrecv]
      exact hsizes
  · exact hsizes

omit [Double R] in
theorem SetUp.of_pipes (h : SetUp a) (hpipes : a'.toAStarPipes = a.toAStarPipes)
    (hpath : HasPath a') (hx : a'.recvMapUpdate.obsX.size = a.recvMapUpdate.obsX.size)
    (hy : a'.recvMapUpdate.obsY.size = a.recvMapUpdate.obsY.size) : SetUp a' := by
  refine ⟨?_, ?_, ?_, hpath, hx.trans h.obsX, hy.trans h.obsY⟩
  · rw [hpipes]
    exact h.updates
  · rw [hpipes]
    exact h.ack
  · unfold AnswersOn
    rw [hpipes]
    exact h.wayRes

/-- What is read leaves the planner set up. -/
theorem SetUp.event (h : SetUp a) {e : Event} (hstep : handleEvent e a = .ok a') : SetUp a' := by
  obtain ⟨fd, hfd⟩ := h.wayRes
  cases e with
  | wayReq readRet =>
    have hkept := execute_spec (onWayReq_kept readRet a) hstep
    have hpath : HasPath a' := by
      by_cases hread : readRet > 0
      · exact (execute_spec (onWayReq_spec h.path hfd hread) hstep).path
      · obtain rfl : a = a' := by
          simp only [handleEvent, onWayReq, hread, if_false] at hstep
          exact Except.ok.inj hstep
        exact h.path
    exact h.of_pipes hkept.pipes hpath (by rw [hkept.recvMapUpdate]) (by rw [hkept.recvMapUpdate])
  | update header obstacles =>
    obtain ⟨hx, hy⟩ := execute_spec (onUpdate_sizes header obstacles a) hstep
    obtain ⟨b, hb, hplanned, -⟩ := execute_spec (onUpdate_planned h.path hfd header obstacles) hstep
    obtain ⟨hpipes, hpath⟩ := hplanned.keeps hb.path
    exact h.of_pipes (hpipes.trans hb.steady.pipes) hpath hx hy

/-- **So a planner stays set up**, whatever it reads. -/
theorem SetUp.run (h : SetUp a) {events : List Event}
    (hrun : runAll handleEvent events a = .ok a') :
    SetUp a' :=
  runAll.invariant (fun _ _ _ hb hstep => hb.event hstep) h hrun

end Sizes

/-- `main` leaves a planner with these pipes set up. -/
theorem setUp_start (pose : PointI) : SetUp (AStar.start plannerPipes pose : AStar R) :=
  ⟨⟨3, by decide, rfl⟩, ⟨4, by decide, rfl⟩, ⟨6, by decide, rfl⟩, .newList, rfl, rfl⟩

/-- A planner that has read nothing yet, with an update of two obstacles, and with nothing but
its header. -/
theorem careful_iff_start :
    Careful (AStar.start plannerPipes ⟨0, 0⟩ : AStar ℚ) (wireBytes [40, 40, 2, 41, 40, 41, 41]) ∧
      Careful (AStar.start plannerPipes ⟨0, 0⟩ : AStar ℚ) (wireBytes [40, 40, 2]) := by
  constructor
  · exact (careful_iff (setUp_start ⟨0, 0⟩) _).mpr
      (Or.inr ⟨2, by decide +kernel, Or.inr (Or.inr (by decide +kernel))⟩)
  · exact (careful_iff (setUp_start ⟨0, 0⟩) _).mpr
      (Or.inr ⟨2, by decide +kernel, Or.inr (Or.inl (by decide +kernel))⟩)

/-- **Half a header is acknowledged.** -/
theorem half_a_header : ∃ a, execute (readUpdate [0, 0, 0, 0, 0, 0])
      (AStar.start plannerPipes ⟨0, 0⟩ : AStar ℚ) = .ok a ∧
    ¬ WholeUpdate [0, 0, 0, 0, 0, 0] ∧ (a.writes.map Prod.fst) = [4] ∧
    ¬ Careful (AStar.start plannerPipes ⟨0, 0⟩ : AStar ℚ) [0, 0, 0, 0, 0, 0] := by
  have hcut : ∀ obsCount, intAt (([0, 0, 0, 0, 0, 0] : List Byte).take 12) 2 ≠ .ok obsCount := by
    intro obsCount hcount
    cases hcount
  have hpart : ¬ WholeUpdate [0, 0, 0, 0, 0, 0] := by
    rintro ⟨obsCount, hcount, -⟩
    exact hcut obsCount hcount
  have hwrites : (execute (readUpdate [0, 0, 0, 0, 0, 0])
      (AStar.start plannerPipes ⟨0, 0⟩ : AStar ℚ)).map (fun a => a.writes.map Prod.fst)
        = .ok [4] := by decide +kernel
  have hnot : ¬ Careful (AStar.start plannerPipes ⟨0, 0⟩ : AStar ℚ) [0, 0, 0, 0, 0, 0] := by
    intro hcareful
    rcases hcareful.readsWell (setUp_start ⟨0, 0⟩) with hnil | ⟨obsCount, hcount, -⟩
    · cases hnil
    · exact hcut obsCount hcount
  cases hrun : execute (readUpdate [0, 0, 0, 0, 0, 0])
      (AStar.start plannerPipes ⟨0, 0⟩ : AStar ℚ) with
  | error e =>
    rw [hrun] at hwrites
    cases hwrites
  | ok a =>
    rw [hrun] at hwrites
    exact ⟨a, rfl, hpart, Except.ok.inj hwrites, hnot⟩

end AStar

end Pint
