import Pint.Program.CommTypes
import Mathlib.Tactic.Ring

/-!
# Map updates on the wire

`commSendMapUpdate` writes a block of integers, the header and then the coordinates in pairs
(`CommMapUpdate.wire`), and `commRecvMapUpdate` reads the bytes of such a block back.

Both are loops over arrays, and both are reduced to lists first: the sender's to what is in
front of its index (`fillObstacles_eq`), the receiver's to what `intAt` finds in its buffer
(`copyObstacles_eq`). In between are four bytes for each integer, the lowest first, and they are
read back as the integer they were cut to (`intAt_wireBytes`), so what arrives is what was sent
if that was an `int`.

The receiver's first `read` asks for a header and its second for what the header announces, so
behind a whole message neither takes anything of the next one (`mapUpdateReads_wire`).
-/

namespace Pint

/-! ## Integers as bytes -/

theorem wrapInt_of_small {x : Int} (h0 : 0 ≤ x) (h : x < 2147483648) : wrapInt x = x := by
  unfold wrapInt
  split <;> omega

@[simp] theorem length_intBytes (x : Int) : (intBytes x).length = 4 := rfl

theorem intOfBytes_intBytes (x : Int) : intOfBytes (intBytes x) = wrapInt x := by
  have hnn : 0 ≤ x % 4294967296 := Int.emod_nonneg _ (by decide)
  have hlt : x % 4294967296 < 4294967296 := Int.emod_lt_of_pos _ (by decide)
  obtain ⟨u, hu⟩ := Int.eq_ofNat_of_zero_le hnn
  have hsum : ((UInt8.ofNat u).toNat : Int) + 256 * (((UInt8.ofNat (u / 256)).toNat : Int)
      + 256 * (((UInt8.ofNat (u / 65536)).toNat : Int)
      + 256 * (((UInt8.ofNat (u / 16777216)).toNat : Int) + 256 * 0))) = u := by
    simp only [UInt8.toNat_ofNat']
    omega
  unfold intOfBytes intBytes wrapInt
  simp only [List.foldr_cons, List.foldr_nil, hu, Int.toNat_natCast, hsum]

/-- The bytes of a block of integers. -/
def wireBytes (ints : List Int) : List Byte := ints.flatMap intBytes

@[simp] theorem length_wireBytes (ints : List Int) :
    (wireBytes ints).length = 4 * ints.length := by
  unfold wireBytes
  rw [List.length_flatMap]
  simp [Nat.mul_comm]

theorem wireBytes_append (xs ys : List Int) :
    wireBytes (xs ++ ys) = wireBytes xs ++ wireBytes ys := List.flatMap_append

/-- **An integer of a block is read back.** -/
theorem intAt_wireBytes {ints : List Int} {i : Nat} {x : Int} (h : ints[i]? = some x)
    (rest : List Byte) : intAt (wireBytes ints ++ rest) i = .ok (wrapInt x) := by
  obtain ⟨hi, rfl⟩ := List.getElem?_eq_some_iff.mp h
  have hsplit : ints = ints.take i ++ ints[i] :: ints.drop (i + 1) := by
    rw [List.getElem_cons_drop, List.take_append_drop]
  have hlen : (wireBytes ints ++ rest).length = 4 * ints.length + rest.length := by
    rw [List.length_append, length_wireBytes]
  have hdrop : ((wireBytes ints ++ rest).drop (4 * i)).take 4 = intBytes ints[i] := by
    have hwire : wireBytes ints ++ rest = wireBytes (ints.take i)
        ++ (intBytes ints[i] ++ (wireBytes (ints.drop (i + 1)) ++ rest)) := by
      conv_lhs => rw [hsplit]
      rw [wireBytes_append, List.append_assoc]
      rfl
    rw [hwire, List.drop_left' (by rw [length_wireBytes, List.length_take]; omega)]
    exact List.take_left' (length_intBytes _)
  unfold intAt
  have hfour : (4 * (i : Int)).toNat = 4 * i := by omega
  rw [if_pos (by omega), hfour, hdrop, intOfBytes_intBytes]

/-! ## Sending -/

/-- The coordinates that an update announces. -/
def CommMapUpdate.pairs (msg : CommMapUpdate) : List (Int × Int) :=
  (List.range msg.obsCount.toNat).map fun i : Nat => (msg.obsX.cells i, msg.obsY.cells i)

def flatPairs (ps : List (Int × Int)) : List Int := ps.flatMap fun p => [p.1, p.2]

@[simp] theorem length_flatPairs (ps : List (Int × Int)) :
    (flatPairs ps).length = 2 * ps.length := by
  unfold flatPairs
  rw [List.length_flatMap]
  simp [Nat.mul_comm]

/-- What is written for an update. -/
def CommMapUpdate.wire (msg : CommMapUpdate) : List Int :=
  msg.poseX :: msg.poseY :: msg.obsCount :: flatPairs msg.pairs

/-- The first `n` cells of an array. -/
def CArray.front {α : Type} (a : CArray α) (n : Nat) : List α :=
  (List.range n).map fun i : Nat => a.cells i

/-- Storing behind the front makes the front longer. -/
theorem CArray.set_front {α : Type} {a : CArray α} {n : Nat} (h : n < a.size) (x : α) :
    ∃ a' : CArray α, a.set n x = .ok a' ∧ a'.size = a.size ∧
      a'.front (n + 1) = a.front n ++ [x] := by
  refine ⟨⟨a.size, fun j => if j = (n : Int) then x else a.cells j⟩, if_pos (by omega), rfl, ?_⟩
  unfold CArray.front
  rw [List.range_succ, List.map_append]
  congr 1
  · refine List.map_congr_left fun i hi => if_neg ?_
    have := List.mem_range.mp hi
    omega
  · simp

/-- **The loop of `commSendMapUpdate`** stores the pairs behind what is there. -/
theorem fillObstacles_eq {msg : CommMapUpdate} {n index c : Nat} {buffer : CArray Int}
    (hsize : buffer.size = 1024) (hroom : c + 2 * n ≤ 1024) (hx : index + n ≤ msg.obsX.size)
    (hy : index + n ≤ msg.obsY.size) :
    ∃ buffer' : CArray Int, fillObstacles msg n index buffer c
        = .ok (buffer', ((c + 2 * n : Nat) : Int)) ∧
      buffer'.size = 1024 ∧
      buffer'.front (c + 2 * n) = buffer.front c ++ flatPairs
        ((List.range' index n).map fun i : Nat => (msg.obsX.cells i, msg.obsY.cells i)) := by
  induction n generalizing index c buffer with
  | zero =>
    refine ⟨buffer, rfl, hsize, ?_⟩
    simp [flatPairs]
  | succ n ih =>
    have hgx := CArray.get_ok (a := msg.obsX) (i := (index : Int)) (by omega) (by omega)
    have hgy := CArray.get_ok (a := msg.obsY) (i := (index : Int)) (by omega) (by omega)
    -- Two cells are written for each obstacle, and the rest starts two cells further on.
    obtain ⟨b1, hs1, hsize1, hfront1⟩ := CArray.set_front (a := buffer) (n := c) (by omega)
      (msg.obsX.cells index)
    obtain ⟨b2, hs2, hsize2, hfront2⟩ := CArray.set_front (a := b1) (n := c + 1) (by omega)
      (msg.obsY.cells index)
    obtain ⟨b3, hfill, hsize3, hfront⟩ := @ih (index + 1) (c + 2) b2
      (by omega) (by omega) (by omega) (by omega)
    have hc : c + 2 * (n + 1) = c + 2 + 2 * n := by ring
    refine ⟨b3, ?_, hsize3, ?_⟩
    · have hcast : (c : Int) + 1 = ((c + 1 : Nat) : Int) := by omega
      have hcast2 : (c : Int) + 2 = ((c + 2 : Nat) : Int) := by omega
      have hnext : (index : Int) + 1 = ((index + 1 : Nat) : Int) := by omega
      have hfits : ¬ (((c + 2 : Nat) : Int) * 4 > (maxTypedPipeBuff : Int)) := by
        unfold maxTypedPipeBuff
        omega
      rw [hc, ← hfill]
      simp only [fillObstacles, hgx, hgy, hs1, hcast, hs2, hcast2, hnext, bind, Except.bind]
      rw [if_neg hfits]
    · rw [hc, hfront, hfront2, hfront1, List.append_assoc, List.append_assoc]
      rfl

/-- **An update is written whole**, if it fits. -/
theorem commSendMapUpdate_eq {R : Type} {pipe : TypedPipe} {msg : CommMapUpdate}
    (hfd : pipe.fdOut ≠ 0) (htype : pipe.type = .mapUpdate) (hcount : 0 ≤ msg.obsCount)
    (hfit : 3 + 2 * msg.obsCount ≤ 1024) (hx : msg.obsCount ≤ msg.obsX.size)
    (hy : msg.obsCount ≤ msg.obsY.size) :
    commSendMapUpdate (R := R) pipe msg = .ok [(pipe.fdOut, .mapUpdate msg.wire)] := by
  obtain ⟨k, hk⟩ := Int.eq_ofNat_of_zero_le hcount
  have hk' : msg.obsCount.toNat = k := by omega
  have harray : (CArray.filled 1024 (0 : Int)).size = 1024 := rfl
  -- The three numbers of the header, and the obstacles behind them.
  obtain ⟨b0, h0, hsize0, hfront0⟩ := CArray.set_front (a := CArray.filled 1024 (0 : Int))
    (n := 0) (by decide) msg.poseX
  obtain ⟨b1, h1, hsize1, hfront1⟩ := CArray.set_front (a := b0) (n := 1) (by omega) msg.poseY
  obtain ⟨b2, h2, hsize2, hfront2⟩ := CArray.set_front (a := b1) (n := 2) (by omega)
    msg.obsCount
  have hheader : b2.front 3 = [msg.poseX, msg.poseY, msg.obsCount] := by
    rw [hfront2, hfront1, hfront0]
    rfl
  obtain ⟨b3, hfill, hsize3, hfront⟩ := @fillObstacles_eq msg k 0 3 b2
    (by omega) (by omega) (by omega) (by omega)
  have hwire : b3.front (3 + 2 * k) = msg.wire := by
    rw [hfront, hheader, CommMapUpdate.wire, CommMapUpdate.pairs, hk', List.range_eq_range']
    rfl
  have hlen : ((3 + 2 * k : Nat) : Int) ≤ (b3.size : Int) := by omega
  unfold commSendMapUpdate
  rw [if_neg (by simp [hfd, htype]), hk']
  simp only [Nat.cast_zero, Nat.cast_one, Nat.cast_ofNat] at h0 h1 h2 hfill
  have hcells : maxTypedPipeBuff / 4 = 1024 := rfl
  simp only [hcells, h0, h1, h2, hfill, bind, Except.bind]
  rw [if_pos hlen, Int.toNat_natCast, ← hwire]
  rfl

/-! ## Receiving -/

theorem getElem?_flatPairs (ps : List (Int × Int)) (i : Nat) :
    (flatPairs ps)[2 * i]? = ps[i]?.map Prod.fst ∧
      (flatPairs ps)[2 * i + 1]? = ps[i]?.map Prod.snd := by
  induction ps generalizing i with
  | nil => exact ⟨rfl, rfl⟩
  | cons p ps ih =>
    have hcons : flatPairs (p :: ps) = p.1 :: p.2 :: flatPairs ps := rfl
    rw [hcons]
    cases i with
    | zero => exact ⟨rfl, rfl⟩
    | succ i => exact ih i

/-- The cells of a front. -/
theorem CArray.front_eq_iff {α : Type} {a : CArray α} {n : Nat} {f : Nat → α} :
    a.front n = (List.range n).map f ↔ ∀ i, i < n → a.cells i = f i := by
  unfold CArray.front
  rw [List.map_inj_left]
  exact ⟨fun h i hi => h i (List.mem_range.mpr hi), fun h i hi => h i (List.mem_range.mp hi)⟩

/-- **The loop of `commRecvMapUpdate`** copies the coordinates. -/
theorem copyObstacles_eq {buffer : List Byte} {k : Nat} {xs ys : Nat → Int}
    (hxs : ∀ i, i < k → intAt buffer (3 + (i : Int) * 2) = .ok (xs i))
    (hys : ∀ i, i < k → intAt buffer (3 + ((i : Int) * 2 + 1)) = .ok (ys i))
    {n index : Nat} {msg : CommMapUpdate} (hk : index + n = k) (hx : k ≤ msg.obsX.size)
    (hy : k ≤ msg.obsY.size) (hfx : msg.obsX.front index = (List.range index).map xs)
    (hfy : msg.obsY.front index = (List.range index).map ys) :
    ∃ obsX obsY, copyObstacles buffer n index msg = .ok { msg with obsX, obsY } ∧
      obsX.size = msg.obsX.size ∧ obsY.size = msg.obsY.size ∧
      obsX.front k = (List.range k).map xs ∧ obsY.front k = (List.range k).map ys := by
  induction n generalizing index msg with
  | zero =>
    obtain rfl : index = k := hk
    exact ⟨msg.obsX, msg.obsY, rfl, rfl, rfl, hfx, hfy⟩
  | succ n ih =>
    obtain ⟨bx, hsx, hsizex, hfrontx⟩ := CArray.set_front (a := msg.obsX) (n := index) (by omega)
      (xs index)
    obtain ⟨yb, hsy, hsizey, hfronty⟩ := CArray.set_front (a := msg.obsY) (n := index)
      (by omega) (ys index)
    obtain ⟨obsX, obsY, hcopy, hsx', hsy', hrest⟩ := @ih (index + 1)
      { msg with obsX := bx, obsY := yb } (by omega) (by rw [hsizex]; exact hx)
      (by rw [hsizey]; exact hy)
      (by rw [hfrontx, hfx, List.range_succ, List.map_append]; rfl)
      (by rw [hfronty, hfy, List.range_succ, List.map_append]; rfl)
    refine ⟨obsX, obsY, ?_, hsx'.trans hsizex, hsy'.trans hsizey, hrest⟩
    have hnext : (index : Int) + 1 = ((index + 1 : Nat) : Int) := by omega
    simp only [copyObstacles, hxs index (by omega), hys index (by omega), hsx, hsy, bind,
      Except.bind, hnext]
    exact hcopy

/-- The array of a `read` into the beginning. -/
theorem storeBytes_front {m : Nat} {bytes : List Byte} (h : bytes.length ≤ m) :
    storeBytes (List.replicate m 0) 0 bytes
      = .ok (bytes ++ List.replicate (m - bytes.length) 0) := by
  unfold storeBytes
  rw [if_pos (by rw [List.length_replicate]; omega)]
  simp

/-- The array of a `read` behind what is there. -/
theorem storeBytes_behind {m : Nat} {pre bytes : List Byte} (h : bytes.length ≤ m) :
    storeBytes (pre ++ List.replicate m 0) pre.length bytes
      = .ok (pre ++ bytes ++ List.replicate (m - bytes.length) 0) := by
  unfold storeBytes
  rw [if_pos (by rw [List.length_append, List.length_replicate]; omega), List.take_left,
    List.drop_append, List.drop_of_length_le (by omega), List.nil_append, List.drop_replicate]
  congr 3
  omega

/-- An update as it arrives: every number is an `int`. -/
def CommMapUpdate.Arrived (sent got : CommMapUpdate) : Prop :=
  got.poseX = wrapInt sent.poseX ∧ got.poseY = wrapInt sent.poseY ∧
    got.obsCount = sent.obsCount ∧
    got.pairs = sent.pairs.map fun p => (wrapInt p.1, wrapInt p.2)

/-- The pose and the number of obstacles, as they are written. -/
def CommMapUpdate.headerBytes (sent : CommMapUpdate) : List Byte :=
  wireBytes [sent.poseX, sent.poseY, sent.obsCount]

/-- The coordinates, as they are written. -/
def CommMapUpdate.pairBytes (sent : CommMapUpdate) : List Byte := wireBytes (flatPairs sent.pairs)

section Received

variable {sent : CommMapUpdate} {k : Nat}

theorem CommMapUpdate.length_headerBytes : sent.headerBytes.length = 12 := rfl

theorem CommMapUpdate.length_pairBytes (hk : sent.obsCount = k) :
    sent.pairBytes.length = 8 * k := by
  have hpairs : sent.pairs.length = k := by simp [CommMapUpdate.pairs, hk]
  rw [CommMapUpdate.pairBytes, length_wireBytes, length_flatPairs, hpairs]
  omega

/-- The first read gets the header, and the second one the coordinates. -/
theorem mapUpdateReads_wire (hk : sent.obsCount = k) (rest : List Byte) :
    (mapUpdateReads (wireBytes sent.wire ++ rest)).1 = .data sent.headerBytes ∧
      (mapUpdateReads (wireBytes sent.wire ++ rest)).2 sent.obsCount = .data sent.pairBytes := by
  have hwire : wireBytes sent.wire ++ rest
      = sent.headerBytes ++ (sent.pairBytes ++ rest) := by
    rw [CommMapUpdate.headerBytes, CommMapUpdate.pairBytes, ← List.append_assoc,
      ← wireBytes_append]
    rfl
  have hn : (8 * sent.obsCount).toNat = 8 * k := by omega
  rw [hwire, mapUpdateReads]
  dsimp only
  rw [hn, List.take_left' CommMapUpdate.length_headerBytes,
    List.drop_left' CommMapUpdate.length_headerBytes,
    List.take_left' (CommMapUpdate.length_pairBytes hk)]
  exact ⟨rfl, rfl⟩

/-- The numbers of the header. -/
theorem CommMapUpdate.intAt_header (hsmall : wrapInt sent.obsCount = sent.obsCount)
    (tail : List Byte) :
    intAt (sent.headerBytes ++ tail) 0 = .ok (wrapInt sent.poseX) ∧
      intAt (sent.headerBytes ++ tail) 1 = .ok (wrapInt sent.poseY) ∧
      intAt (sent.headerBytes ++ tail) 2 = .ok sent.obsCount := by
  have hx : intAt (sent.headerBytes ++ tail) 0 = .ok (wrapInt sent.poseX) :=
    intAt_wireBytes (i := 0) rfl tail
  have hy : intAt (sent.headerBytes ++ tail) 1 = .ok (wrapInt sent.poseY) :=
    intAt_wireBytes (i := 1) rfl tail
  have hn : intAt (sent.headerBytes ++ tail) 2 = .ok (wrapInt sent.obsCount) :=
    intAt_wireBytes (i := 2) rfl tail
  rw [hsmall] at hn
  exact ⟨hx, hy, hn⟩

/-- The numbers behind the header. -/
theorem CommMapUpdate.intAt_pairs (hk : sent.obsCount = k) (tail : List Byte) {i : Nat}
    (hi : i < k) :
    intAt (sent.headerBytes ++ sent.pairBytes ++ tail) (3 + (i : Int) * 2)
        = .ok (wrapInt (sent.obsX.cells i)) ∧
      intAt (sent.headerBytes ++ sent.pairBytes ++ tail) (3 + ((i : Int) * 2 + 1))
        = .ok (wrapInt (sent.obsY.cells i)) := by
  have hget : sent.pairs[i]? = some (sent.obsX.cells i, sent.obsY.cells i) := by
    rw [CommMapUpdate.pairs, List.getElem?_map, List.getElem?_range (by omega)]
    rfl
  have hints : ∀ (j : Nat) (x : Int), (flatPairs sent.pairs)[j]? = some x →
      intAt (sent.headerBytes ++ sent.pairBytes ++ tail) ((3 + j : Nat) : Int)
        = .ok (wrapInt x) := by
    intro j x hj
    rw [CommMapUpdate.headerBytes, CommMapUpdate.pairBytes, ← wireBytes_append]
    apply intAt_wireBytes
    rw [List.getElem?_append_right (Nat.le_add_right 3 j)]
    exact (congrArg _ (Nat.add_sub_cancel_left 3 j)).trans hj
  have hx := hints (2 * i) (sent.obsX.cells i)
    (by rw [(getElem?_flatPairs sent.pairs i).1, hget]; rfl)
  have hy := hints (2 * i + 1) (sent.obsY.cells i)
    (by rw [(getElem?_flatPairs sent.pairs i).2, hget]; rfl)
  rw [show ((3 + 2 * i : Nat) : Int) = 3 + (i : Int) * 2 by omega] at hx
  rw [show ((3 + (2 * i + 1) : Nat) : Int) = 3 + ((i : Int) * 2 + 1) by omega] at hy
  exact ⟨hx, hy⟩

/-- **What was written for an update is read back**, whatever is behind it in the pipe. -/
theorem commRecvMapUpdate_eq {pipe : TypedPipe} {msg : CommMapUpdate}
    (hfd : pipe.fdIn ≠ 0) (htype : pipe.type = .mapUpdate) (hcount : 0 ≤ sent.obsCount)
    (hfit : 3 + 2 * sent.obsCount ≤ 1024) (hx : sent.obsCount ≤ msg.obsX.size)
    (hy : sent.obsCount ≤ msg.obsY.size) (rest : List Byte) :
    ∃ readRet got, commRecvMapUpdate pipe msg (mapUpdateReads (wireBytes sent.wire ++ rest)).1
        (mapUpdateReads (wireBytes sent.wire ++ rest)).2 = .ok (readRet, got) ∧
      0 < readRet ∧ sent.Arrived got ∧ got.obsX.size = msg.obsX.size ∧
      got.obsY.size = msg.obsY.size := by
  obtain ⟨k, hk⟩ := Int.eq_ofNat_of_zero_le hcount
  have hsmall : wrapInt sent.obsCount = sent.obsCount := wrapInt_of_small hcount (by omega)
  have hheadlen := @CommMapUpdate.length_headerBytes sent
  have hpairlen := CommMapUpdate.length_pairBytes hk
  obtain ⟨hfirst, hsecond⟩ := mapUpdateReads_wire hk rest
  -- The header is at the front of the array, and then the coordinates behind it.
  have hstore1 := @storeBytes_front maxTypedPipeBuff sent.headerBytes
    (by rw [hheadlen]; decide)
  have hstore2 := @storeBytes_behind (maxTypedPipeBuff - 12) sent.headerBytes
    sent.pairBytes (by rw [hpairlen]; unfold maxTypedPipeBuff; omega)
  rw [hheadlen] at hstore1 hstore2
  obtain ⟨hx0, hy0, hc0⟩ :=
    sent.intAt_header hsmall (List.replicate (maxTypedPipeBuff - 12) 0)
  have hints := fun (i : Nat) (hi : i < k) =>
    CommMapUpdate.intAt_pairs hk
      (List.replicate (maxTypedPipeBuff - 12 - sent.pairBytes.length) 0) hi
  unfold commRecvMapUpdate
  rw [if_neg (by simp [hfd, htype]), hfirst]
  dsimp only
  rw [hstore1, ok_bind, if_pos hheadlen, hx0, ok_bind, hy0, ok_bind, hc0, ok_bind, hsecond]
  dsimp only
  rw [hstore2, ok_bind]
  have hcount' : sent.obsCount.toNat = k := by omega
  by_cases hpos : sent.obsCount > 0
  · rw [if_pos hpos, if_pos (by omega)]
    obtain ⟨obsX, obsY, hcopy, hsx, hsy, hfx, hfy⟩ := @copyObstacles_eq _ k
      (fun i => wrapInt (sent.obsX.cells i)) (fun i => wrapInt (sent.obsY.cells i))
      (fun i hi => (hints i hi).1) (fun i hi => (hints i hi).2) k 0 { msg with
        poseX := wrapInt sent.poseX, poseY := wrapInt sent.poseY, obsCount := sent.obsCount }
      (Nat.zero_add k) (by rw [← Nat.cast_le (α := Int), ← hk]; exact hx)
      (by rw [← Nat.cast_le (α := Int), ← hk]; exact hy) rfl rfl
    rw [Nat.cast_zero] at hcopy
    refine ⟨sent.pairBytes.length, { msg with
      poseX := wrapInt sent.poseX, poseY := wrapInt sent.poseY, obsCount := sent.obsCount
      obsX, obsY }, ?_, by omega, ⟨rfl, rfl, rfl, ?_⟩, hsx, hsy⟩
    · rw [hcount', hcopy]
      rfl
    · unfold CommMapUpdate.pairs
      dsimp only
      rw [hcount', List.map_map, List.map_inj_left]
      intro i hi
      have hi' := List.mem_range.mp hi
      rw [CArray.front_eq_iff.mp hfx i hi', CArray.front_eq_iff.mp hfy i hi']
      rfl
  · have hzero : k = 0 := by omega
    rw [if_neg hpos]
    refine ⟨sent.headerBytes.length, { msg with
      poseX := wrapInt sent.poseX, poseY := wrapInt sent.poseY, obsCount := sent.obsCount },
      rfl, by omega, ⟨rfl, rfl, rfl, ?_⟩, rfl, rfl⟩
    unfold CommMapUpdate.pairs
    rw [hcount', hzero]
    rfl

end Received

end Pint
