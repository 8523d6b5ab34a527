import Pint.Proof.MapUpdates

/-!
# Map updates one after the other

What `commSendMapUpdate` writes has no mark at its end: the reader knows how long a message
is from the count in its header. This is about what has to be true of that count.

`commSendMapUpdate_framed_iff` is the sender's side. The test in its loop comes after the
pair was stored, so it is too late for the one pair that does not fit, and an update is
written as it should be exactly if it has at most 510 obstacles. The header takes three of the
1024 cells, so behind every pair the index is odd, and the pair that does not fit starts in the
last cell: `x` is stored there and `y` behind it.

`map_updates_round_trip` is both sides together, for any number of updates behind each other in
one pipe. The induction is on the updates. A receiver takes as many bytes as the header of the
first one says and no more (`mapUpdateTaken_eq`), so what is left is the stream of the others,
and its arrays keep their size, so there is room for them.
-/

namespace Pint

/-! ## The buffer of `commSendMapUpdate` -/

/-- **The loop runs over the end of the buffer** if not all pairs fit: the last pair that is
stored starts in the last cell. -/
theorem fillObstacles_overflow {msg : CommMapUpdate} {n index c : Nat} {buffer : CArray Int}
    (hsize : buffer.size = 1024) (hc : c ≤ 1023) (hodd : c % 2 = 1) (hover : 1024 < c + 2 * n)
    (hx : index + n ≤ msg.obsX.size) (hy : index + n ≤ msg.obsY.size) :
    fillObstacles msg n index buffer c = .error .outOfRange := by
  induction n generalizing index c buffer with
  | zero => omega
  | succ n ih =>
    have hgx := CArray.get_ok (a := msg.obsX) (i := (index : Int)) (by omega) (by omega)
    have hgy := CArray.get_ok (a := msg.obsY) (i := (index : Int)) (by omega) (by omega)
    obtain ⟨b1, hs1, hsize1⟩ := CArray.set_ok (a := buffer) (i := (c : Int)) (by omega) (by omega)
      (msg.obsX.cells index)
    simp only [fillObstacles, hgx, hgy, hs1, bind, Except.bind]
    by_cases hlast : c = 1023
    · rw [CArray.set_outside (by omega)]
    · obtain ⟨b2, hs2, hsize2⟩ := CArray.set_ok (a := b1) (i := (c : Int) + 1) (by omega)
        (by omega) (msg.obsY.cells index)
      have hfits : ¬ ((c : Int) + 2) * 4 > (maxTypedPipeBuff : Int) := by
        unfold maxTypedPipeBuff
        omega
      rw [hs2]
      dsimp only
      rw [if_neg hfits]
      exact @ih (index + 1) (c + 2) b2 (by omega) (by omega) (by omega) (by omega) (by omega)
        (by omega)

section Framed

variable {R : Type} {pipe : TypedPipe} {msg : CommMapUpdate}

theorem commSendMapUpdate_overflow (hfd : pipe.fdOut ≠ 0) (htype : pipe.type = .mapUpdate)
    (hover : 511 ≤ msg.obsCount) (hx : msg.obsCount ≤ msg.obsX.size)
    (hy : msg.obsCount ≤ msg.obsY.size) :
    commSendMapUpdate (R := R) pipe msg = .error .outOfRange := by
  have harray : (CArray.filled 1024 (0 : Int)).size = 1024 := rfl
  obtain ⟨b0, h0, hsize0⟩ := CArray.set_ok (a := CArray.filled 1024 (0 : Int)) (i := 0)
    (by decide) (by decide) msg.poseX
  obtain ⟨b1, h1, hsize1⟩ := CArray.set_ok (a := b0) (i := 1) (by decide) (by omega) msg.poseY
  obtain ⟨b2, h2, hsize2⟩ := CArray.set_ok (a := b1) (i := 2) (by decide) (by omega) msg.obsCount
  have hfill := @fillObstacles_overflow msg msg.obsCount.toNat 0 3 b2 (by omega) (by decide)
    (by decide) (by omega) (by omega) (by omega)
  have hcells : maxTypedPipeBuff / 4 = 1024 := rfl
  unfold commSendMapUpdate
  rw [if_neg (by simp [hfd, htype])]
  simp only [hcells, h0, h1, h2, bind, Except.bind]
  simp only [Nat.cast_zero, Nat.cast_ofNat] at hfill
  rw [hfill]

/-- A message with three integers of header, of which the last is the number of pairs behind
it, and no longer than the buffer. -/
def Comm.Framed : Comm R → Prop
  | .mapUpdate (_ :: _ :: obsCount :: body) =>
    (body.length : Int) = 2 * obsCount ∧ 4 * (3 + body.length) ≤ maxTypedPipeBuff
  | _ => False

theorem CommMapUpdate.framed_wire (h0 : 0 ≤ msg.obsCount) (h : msg.obsCount ≤ 510) :
    (Comm.mapUpdate msg.wire : Comm R).Framed := by
  have hlen : (flatPairs msg.pairs).length = 2 * msg.obsCount.toNat := by
    simp [CommMapUpdate.pairs]
  constructor
  · rw [hlen]
    omega
  · rw [hlen]
    unfold maxTypedPipeBuff
    omega

/-- **Exactly the updates with at most 510 obstacles are encoded inside the buffer**, and then
the header counts the pairs behind it. -/
theorem commSendMapUpdate_framed_iff (hcount : 0 ≤ msg.obsCount)
    (hx : msg.obsCount ≤ msg.obsX.size) (hy : msg.obsCount ≤ msg.obsY.size) :
    (∃ writes : Writes R, commSendMapUpdate pipe msg = .ok writes ∧ ∀ w ∈ writes, w.2.Framed) ↔
      pipe.fdOut = 0 ∨ pipe.type ≠ .mapUpdate ∨ msg.obsCount ≤ 510 := by
  constructor
  · rintro ⟨writes, hrun, -⟩
    by_contra hne
    simp only [not_or, not_not] at hne
    obtain ⟨hfd, htype, hover⟩ := hne
    rw [commSendMapUpdate_overflow hfd htype (by omega) hx hy] at hrun
    cases hrun
  · intro h
    by_cases hpipe : pipe.fdOut = 0 ∨ pipe.type ≠ .mapUpdate
    · refine ⟨[], ?_, by simp⟩
      unfold commSendMapUpdate
      rw [if_pos hpipe]
      rfl
    · simp only [not_or, not_not] at hpipe
      have hle : msg.obsCount ≤ 510 := by simpa [hpipe.1, hpipe.2] using h
      refine ⟨_, commSendMapUpdate_eq hpipe.1 hpipe.2 hcount (by omega) hx hy, ?_⟩
      intro w hw
      rw [List.mem_singleton] at hw
      rw [hw]
      exact CommMapUpdate.framed_wire hcount hle

end Framed

/-- An update with `n` obstacles. -/
def updateOf (n : Nat) : CommMapUpdate :=
  { obsCount := n, obsX := .filled n 0, obsY := .filled n 0 }

/-- The longest update that is encoded as it should be. -/
theorem commSendMapUpdate_framed_longest :
    ∃ writes : Writes Unit, commSendMapUpdate { type := .mapUpdate, fdOut := 4 } (updateOf 510)
      = .ok writes ∧ ∀ w ∈ writes, w.2.Framed :=
  (commSendMapUpdate_framed_iff (by decide) (by decide) (by decide)).mpr (by decide)

/-- With one obstacle more, the `y` of the last one is stored behind the buffer. -/
theorem one_obstacle_too_many :
    ¬ ∃ writes : Writes Unit, commSendMapUpdate { type := .mapUpdate, fdOut := 4 } (updateOf 511)
      = .ok writes ∧ ∀ w ∈ writes, w.2.Framed := by
  rintro ⟨writes, hrun, -⟩
  rw [commSendMapUpdate_overflow (by decide) rfl (by decide) (by decide) (by decide)] at hrun
  cases hrun

/-! ## Any number of updates -/

/-- The numbers of an update are `int`s. -/
structure CommMapUpdate.Ints (msg : CommMapUpdate) : Prop where
  poseX : IsInt msg.poseX
  poseY : IsInt msg.poseY
  pairs : ∀ p ∈ msg.pairs, IsInt p.1 ∧ IsInt p.2

/-- An update that fits the buffers, with arrays for all its obstacles. -/
structure CommMapUpdate.Fits (msg : CommMapUpdate) : Prop where
  nonneg : 0 ≤ msg.obsCount
  fits : 3 + 2 * msg.obsCount ≤ 1024
  obsX : msg.obsCount ≤ msg.obsX.size
  obsY : msg.obsCount ≤ msg.obsY.size

/-- The receiver's arrays are long enough for an update. -/
def CommMapUpdate.HasRoom (msg sent : CommMapUpdate) : Prop :=
  sent.obsCount ≤ msg.obsX.size ∧ sent.obsCount ≤ msg.obsY.size

/-- The same update: the arrays behind the obstacles do not count. -/
structure CommMapUpdate.Same (sent got : CommMapUpdate) : Prop where
  poseX : got.poseX = sent.poseX
  poseY : got.poseY = sent.poseY
  obsCount : got.obsCount = sent.obsCount
  pairs : got.pairs = sent.pairs

theorem CommMapUpdate.Arrived.same {sent got : CommMapUpdate} (h : sent.Arrived got)
    (hint : sent.Ints) : sent.Same got := by
  obtain ⟨hx, hy, hcount, hpairs⟩ := h
  refine ⟨hx.trans hint.poseX.wrapInt, hy.trans hint.poseY.wrapInt, hcount, ?_⟩
  rw [hpairs]
  refine (List.map_congr_left fun p hp => ?_).trans (List.map_id sent.pairs)
  obtain ⟨h1, h2⟩ := hint.pairs p hp
  rw [h1.wrapInt, h2.wrapInt]
  rfl

/-- The bytes of a stream of updates. -/
def updateBytes (us : List CommMapUpdate) : List Byte := us.flatMap fun u => wireBytes u.wire

/-- The bytes that writes to a pipe put into it; only map updates are written to the pipes
here. -/
def Writes.bytes {R : Type} (writes : Writes R) : List Byte :=
  writes.flatMap fun w =>
    match w.2 with
    | .mapUpdate buffer => wireBytes buffer
    | _ => []

/-- `commSendMapUpdate` for each of these updates: the bytes in the pipe afterwards. -/
def sendMapUpdates (R : Type) (pipe : TypedPipe) :
    List CommMapUpdate → List Byte → Except Fault (List Byte)
  | [], unread => return unread
  | u :: us, unread => do
    let writes : Writes R ← commSendMapUpdate pipe u
    sendMapUpdates R pipe us (unread ++ writes.bytes)

theorem sendMapUpdates_eq {R : Type} {pipe : TypedPipe} {us : List CommMapUpdate}
    {unread : List Byte} (hfd : pipe.fdOut ≠ 0) (htype : pipe.type = .mapUpdate)
    (hfits : ∀ u ∈ us, u.Fits) :
    sendMapUpdates R pipe us unread = .ok (unread ++ updateBytes us) := by
  induction us generalizing unread with
  | nil => simp [sendMapUpdates, updateBytes, pure, Except.pure]
  | cons u us ih =>
    have hu := hfits u List.mem_cons_self
    have hsend := commSendMapUpdate_eq (R := R) hfd htype hu.nonneg hu.fits hu.obsX hu.obsY
    simp only [sendMapUpdates, hsend, bind, Except.bind]
    rw [ih fun x hx => hfits x (List.mem_cons_of_mem u hx)]
    simp [updateBytes, Writes.bytes]

/-- What the reads take of a pipe with an update in front: this update. -/
theorem mapUpdateTaken_eq {pipe : TypedPipe} {u : CommMapUpdate} (hfd : pipe.fdIn ≠ 0)
    (htype : pipe.type = .mapUpdate) (hfits : u.Fits) (rest : List Byte) :
    mapUpdateTaken pipe (wireBytes u.wire ++ rest) = (wireBytes u.wire).length := by
  have h0 := hfits.nonneg
  have h1 := hfits.fits
  have hlen : u.wire.length = 3 + 2 * u.obsCount.toNat := by
    simp [CommMapUpdate.wire, CommMapUpdate.pairs]
    omega
  have hhead : (wireBytes u.wire ++ rest).take 12
      = wireBytes [u.poseX, u.poseY, u.obsCount] := by
    have hsplit : u.wire = [u.poseX, u.poseY, u.obsCount] ++ flatPairs u.pairs := rfl
    rw [hsplit, wireBytes_append, List.append_assoc]
    exact List.take_left' rfl
  have hcount : intAt ((wireBytes u.wire ++ rest).take 12) 2 = .ok u.obsCount := by
    have hget := @intAt_wireBytes [u.poseX, u.poseY, u.obsCount] 2 _ rfl []
    rw [List.append_nil, wrapInt_of_small h0 (by omega)] at hget
    rw [hhead]
    exact hget
  unfold mapUpdateTaken
  rw [if_neg (by simp [hfd, htype]), hcount]
  dsimp only
  rw [List.length_append, length_wireBytes, hlen]
  omega

/-- **One update is received**, and what is behind it stays in the pipe. -/
theorem recvMapUpdate_eq {pipe : TypedPipe} {u msg : CommMapUpdate} (hfd : pipe.fdIn ≠ 0)
    (htype : pipe.type = .mapUpdate) (hfits : u.Fits) (hint : u.Ints) (hroom : msg.HasRoom u)
    (rest : List Byte) :
    ∃ got, recvMapUpdate pipe msg (wireBytes u.wire ++ rest) = .ok got ∧ 0 < got.readRet ∧
      u.Same got.msg ∧ got.unread = rest ∧ got.msg.obsX.size = msg.obsX.size ∧
      got.msg.obsY.size = msg.obsY.size := by
  obtain ⟨readRet, got, hrecv, hpos, harrived, hsx, hsy⟩ :=
    commRecvMapUpdate_eq hfd htype hfits.nonneg hfits.fits hroom.1 hroom.2 rest
  refine ⟨{ readRet, msg := got, unread := rest }, ?_, hpos, harrived.same hint, rfl, hsx, hsy⟩
  unfold recvMapUpdate
  rw [hrecv, mapUpdateTaken_eq hfd htype hfits]
  simp [bind, Except.bind, pure, Except.pure]

/-- **The round trip of a stream of updates.** As many calls as there are updates return these
updates, each takes the bytes of its own message, and then the pipe is empty. -/
theorem map_updates_round_trip {R : Type} {out inp : TypedPipe} {us : List CommMapUpdate}
    {msg : CommMapUpdate} (hout : out.fdOut ≠ 0) (htout : out.type = .mapUpdate)
    (hinp : inp.fdIn ≠ 0) (htinp : inp.type = .mapUpdate) (hfits : ∀ u ∈ us, u.Fits)
    (hints : ∀ u ∈ us, u.Ints) (hroom : ∀ u ∈ us, msg.HasRoom u) :
    ∃ bytes gots, sendMapUpdates R out us [] = .ok bytes ∧
      recvMapUpdates inp us.length msg bytes = .ok (gots, []) ∧ gots.length = us.length ∧
      ∀ i u, us[i]? = some u → ∃ got, gots[i]? = some got ∧ 0 < got.readRet ∧
        u.Same got.msg ∧ got.unread = updateBytes (us.drop (i + 1)) := by
  have hsend := @sendMapUpdates_eq R out us [] hout htout hfits
  rw [List.nil_append] at hsend
  refine ⟨updateBytes us, ?_⟩
  suffices hrecv : ∃ gots, recvMapUpdates inp us.length msg (updateBytes us) = .ok (gots, []) ∧
      gots.length = us.length ∧ ∀ i u, us[i]? = some u → ∃ got, gots[i]? = some got ∧
        0 < got.readRet ∧ u.Same got.msg ∧ got.unread = updateBytes (us.drop (i + 1)) by
    obtain ⟨gots, h⟩ := hrecv
    exact ⟨gots, hsend, h⟩
  clear hsend
  induction us generalizing msg with
  | nil => exact ⟨[], rfl, rfl, by simp⟩
  | cons u us ih =>
    have hmem := List.mem_cons_self (a := u) (l := us)
    obtain ⟨got, hgot, hpos, hsame, hrest, hsx, hsy⟩ := recvMapUpdate_eq hinp htinp (hfits u hmem)
      (hints u hmem) (hroom u hmem) (updateBytes us)
    -- A message that was received still has the room of the one it was written over.
    have hroom' : ∀ x ∈ us, got.msg.HasRoom x := by
      intro x hx
      unfold CommMapUpdate.HasRoom
      rw [hsx, hsy]
      exact hroom x (List.mem_cons_of_mem u hx)
    obtain ⟨gots, hgots, hlen, hall⟩ := @ih got.msg
      (fun x hx => hfits x (List.mem_cons_of_mem u hx))
      (fun x hx => hints x (List.mem_cons_of_mem u hx)) hroom'
    refine ⟨got :: gots, ?_, by simp [hlen], ?_⟩
    · have hbytes : updateBytes (u :: us) = wireBytes u.wire ++ updateBytes us := rfl
      rw [List.length_cons, recvMapUpdates, hbytes, hgot]
      simp only [bind, Except.bind, hrest, hgots]
      rfl
    · intro i x hi
      cases i with
      | zero =>
        obtain rfl : u = x := by simpa using hi
        exact ⟨got, rfl, hpos, hsame, hrest⟩
      | succ i => exact hall i x hi

/-- One obstacle, then none, then one again. -/
theorem map_updates_round_trip_three :
    ∃ bytes gots, sendMapUpdates Unit { type := .mapUpdate, fdOut := 4 }
        [updateOf 1, updateOf 0, updateOf 1] [] = .ok bytes ∧
      recvMapUpdates { type := .mapUpdate, fdIn := 3 } 3 (updateOf 200) bytes = .ok (gots, []) ∧
      gots.length = 3 ∧
      ∀ i u, [updateOf 1, updateOf 0, updateOf 1][i]? = some u → ∃ got, gots[i]? = some got ∧
        0 < got.readRet ∧ u.Same got.msg ∧
          got.unread = updateBytes ([updateOf 1, updateOf 0, updateOf 1].drop (i + 1)) := by
  have hone : (updateOf 1).Fits ∧ (updateOf 1).Ints ∧ (updateOf 200).HasRoom (updateOf 1) := by
    refine ⟨⟨?_, ?_, ?_, ?_⟩, ⟨?_, ?_, ?_⟩, ?_⟩ <;>
      simp [updateOf, CArray.filled, IsInt, CommMapUpdate.pairs, CommMapUpdate.HasRoom]
  have hnone : (updateOf 0).Fits ∧ (updateOf 0).Ints ∧ (updateOf 200).HasRoom (updateOf 0) := by
    refine ⟨⟨?_, ?_, ?_, ?_⟩, ⟨?_, ?_, ?_⟩, ?_⟩ <;>
      simp [updateOf, CArray.filled, IsInt, CommMapUpdate.pairs, CommMapUpdate.HasRoom]
  exact map_updates_round_trip (by decide) rfl (by decide) rfl (by simp [hone, hnone])
    (by simp [hone, hnone]) (by simp [hone, hnone])

end Pint
