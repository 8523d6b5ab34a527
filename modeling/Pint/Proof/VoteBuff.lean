import Pint.Program.VoteBuff
import Mathlib.Tactic.Ring

/-!
# What the vote buffer functions do, one lemma each

Seen from outside a vote pipe is a queue of bytes, `VotePipe.content`, at a position in the
circular buffer. Each function gets one lemma that says what it answers and what it does to
the queue; nothing after this file unfolds a function of `Program/VoteBuff.lean`.

Every one of them runs two code paths, one for a queue that stays inside the array and one
for a queue that reaches its end. The four wrap tests of the source are not written alike:
`pipeToBuff` compares two remainders, the others compare a sum with the size. Each lemma
below brings its own test to the form `maxVotePipeBuff ≤ position + length`, and from there
on `Lib/RingBuffer.lean` does the work.
-/

namespace Pint

open RingBuffer

/-- The two counters are in range. -/
structure VotePipe.Wf (p : VotePipe) : Prop where
  index_nonneg : 0 ≤ p.buffIndex
  index_lt : p.buffIndex < maxVotePipeBuff
  count_nonneg : 0 ≤ p.buffCount
  count_lt : p.buffCount < maxVotePipeBuff

theorem maxVotePipeBuff_pos : 0 < maxVotePipeBuff := by decide

/-- Counters that are 0 are in range. -/
theorem VotePipe.Wf.of_zero {p : VotePipe} (h : p.buffCount = 0 ∧ p.buffIndex = 0) : p.Wf := by
  have hpos : (0 : Int) < maxVotePipeBuff := by exact_mod_cast maxVotePipeBuff_pos
  obtain ⟨hcount, hindex⟩ := h
  exact ⟨hindex.ge, hindex ▸ hpos, hcount.ge, hcount ▸ hpos⟩

/-- The bytes read from a replica and not yet forwarded, oldest first. -/
def VotePipe.content (p : VotePipe) : List Byte :=
  window p.buffer maxVotePipeBuff p.buffIndex.toNat p.buffCount.toNat

@[simp] theorem VotePipe.length_content (p : VotePipe) : p.content.length = p.buffCount.toNat :=
  length_window

theorem VotePipe.content_of_zero {p : VotePipe} (h : p.buffCount = 0) : p.content = [] := by
  apply List.length_eq_zero_iff.mp
  rw [VotePipe.length_content, h]
  rfl

/-- The counters of a well-formed pipe as natural numbers. -/
theorem VotePipe.Wf.cast {p : VotePipe} (h : p.Wf) :
    ∃ i n : Nat, p.buffIndex = i ∧ p.buffCount = n ∧ i < maxVotePipeBuff ∧
      n < maxVotePipeBuff := by
  obtain ⟨i, hi⟩ := Int.eq_ofNat_of_zero_le h.index_nonneg
  obtain ⟨n, hn⟩ := Int.eq_ofNat_of_zero_le h.count_nonneg
  have hil := h.index_lt
  have hnl := h.count_lt
  exact ⟨i, n, hi, hn, by omega, by omega⟩

theorem VotePipe.Wf.count_eq {p : VotePipe} (h : p.Wf) : p.buffCount = p.content.length := by
  rw [VotePipe.length_content]
  exact (Int.toNat_of_nonneg h.count_nonneg).symm

theorem VotePipe.Wf.length_lt {p : VotePipe} (h : p.Wf) :
    p.content.length < maxVotePipeBuff := by
  have := h.count_lt
  have := h.count_eq
  omega

/-! ## The C library at natural numbers -/

theorem tmod_natCast (a b : Nat) : (a : Int).tmod b = ((a % b : Nat) : Int) :=
  (Int.ofNat_tmod a b).symm

theorem memcpy_natCast (dst : Nat → Byte) (dstSize d : Nat) (src : Nat → Byte)
    (srcSize s n : Nat) (hd : d + n ≤ dstSize) (hs : s + n ≤ srcSize) :
    memcpy dst dstSize d src srcSize s n = .ok (blit dst d src s n) := by
  unfold memcpy
  rw [if_pos (by omega)]
  rfl

theorem readBlock_natCast (src : Nat → Byte) {srcSize s n : Nat} (hs : s + n ≤ srcSize) :
    readBlock src srcSize s n = .ok (block src s n) := by
  unfold readBlock
  rw [if_pos (by omega)]
  rfl

theorem memcmp_natCast {a b : Nat → Byte} {i j m n : Nat} (hi : i + n ≤ m)
    (hj : j + n ≤ m) :
    memcmp a i b j m n = .ok (cmpBytes (block a i n) (block b j n)) := by
  unfold memcmp
  rw [readBlock_natCast _ hi, readBlock_natCast _ hj]
  rfl

theorem cmpBytes_eq_zero {xs ys : List Byte} (h : xs.length = ys.length) :
    cmpBytes xs ys = 0 ↔ xs = ys := by
  induction xs generalizing ys with
  | nil =>
    cases ys with
    | nil => simp [cmpBytes]
    | cons y ys => exact absurd h (by simp)
  | cons x xs ih =>
    cases ys with
    | nil => exact absurd h (by simp)
    | cons y ys =>
      rw [cmpBytes]
      by_cases hxy : x = y
      · rw [if_pos hxy, ih (by simpa using h), hxy]
        simp
      · rw [if_neg hxy]
        constructor
        · intro h0
          split at h0 <;> exact absurd h0 (by decide)
        · intro heq
          exact absurd (List.cons.inj heq).1 hxy

/-- A comparison in two pieces is the comparison of the whole. -/
theorem cmpBytes_append {xs ys xs' ys' : List Byte} (h : xs.length = ys.length) :
    cmpBytes (xs ++ xs') (ys ++ ys')
      = if cmpBytes xs ys ≠ 0 then cmpBytes xs ys else cmpBytes xs' ys' := by
  induction xs generalizing ys with
  | nil =>
    cases ys with
    | nil => simp [cmpBytes]
    | cons y ys => exact absurd h (by simp)
  | cons x xs ih =>
    cases ys with
    | nil => exact absurd h (by simp)
    | cons y ys =>
      rw [List.cons_append, List.cons_append, cmpBytes, cmpBytes]
      by_cases hxy : x = y
      · rw [if_pos hxy, if_pos hxy]
        exact ih (by simpa using h)
      · rw [if_neg hxy, if_neg hxy]
        split <;> rfl

/-! ## `pipeToBuff` -/

/-- The pipe after `bytes` were accepted into the array `buffer`. -/
def VotePipe.filled (p : VotePipe) (buffer : Nat → Byte) (bytes : List Byte) : VotePipe :=
  { p with buffer, buffCount := p.buffCount + bytes.length }

theorem VotePipe.Wf.filled {p : VotePipe} (h : p.Wf) {buffer : Nat → Byte}
    {bytes : List Byte} (hfit : bytes.length < maxVotePipeBuff - p.content.length) :
    (p.filled buffer bytes).Wf := by
  have hc := h.count_eq
  have hn := h.count_nonneg
  refine ⟨h.index_nonneg, h.index_lt, ?_, ?_⟩
  · show 0 ≤ p.buffCount + (bytes.length : Int)
    omega
  · show p.buffCount + (bytes.length : Int) < maxVotePipeBuff
    omega

/-- The array of a `read` that answered `bytes` holds them. -/
theorem ReadResult.array_data {bytes : List Byte} {k : Nat} (h : k < bytes.length) :
    (ReadResult.data bytes).array k = bytes[k] := by
  show bytes.getD k 0 = bytes[k]
  rw [List.getD_eq_getElem?_getD, List.getElem?_eq_getElem h, Option.getD_some]

/-- An array that agrees with a `store` behind the queue holds the longer queue. -/
theorem content_filled {p : VotePipe} {buffer : Nat → Byte} {bytes : List Byte} {i n : Nat}
    (hi : p.buffIndex = i) (hn : p.buffCount = n) (hilt : i < maxVotePipeBuff)
    (hfit : n + bytes.length ≤ maxVotePipeBuff)
    (hb : ∀ k, k < maxVotePipeBuff →
      buffer k = store p.buffer maxVotePipeBuff ((i + n) % maxVotePipeBuff) bytes k) :
    (p.filled buffer bytes).content = p.content ++ bytes := by
  unfold VotePipe.content VotePipe.filled
  simp only [hi, hn]
  have hcount : ((n : Int) + (bytes.length : Int)).toNat = n + bytes.length := by omega
  rw [hcount, Int.toNat_natCast, Int.toNat_natCast, ← window_store hilt hfit]
  exact window_congr fun k _ => hb _ (Nat.mod_lt _ maxVotePipeBuff_pos)

/-- **Accepted bytes are appended to the queue.** -/
theorem pipeToBuff_accept {p : VotePipe} (h : p.Wf) {bytes : List Byte} (hpos : bytes ≠ [])
    (hfit : bytes.length < maxVotePipeBuff - p.content.length) :
    ∃ buffer, pipeToBuff p (.data bytes) = .ok (0, p.filled buffer bytes, []) ∧
      (p.filled buffer bytes).content = p.content ++ bytes := by
  obtain ⟨i, n, hi, hn, hil, hnl⟩ := h.cast
  have hlen : 0 < bytes.length := List.length_pos_of_ne_nil hpos
  have hcl : p.content.length = n := by rw [VotePipe.length_content, hn, Int.toNat_natCast]
  rw [hcl] at hfit
  have hend : (p.buffIndex + p.buffCount).tmod maxVotePipeBuff
      = (((i + n) % maxVotePipeBuff : Nat) : Int) := by
    rw [hi, hn, ← tmod_natCast, Nat.cast_add]
  obtain ⟨e, he⟩ : ∃ e, e = (i + n) % maxVotePipeBuff := ⟨_, rfl⟩
  have hel : e < maxVotePipeBuff := he ▸ Nat.mod_lt _ maxVotePipeBuff_pos
  have hsum : ((e : Int) + (bytes.length : Int)).tmod maxVotePipeBuff
      = (((e + bytes.length) % maxVotePipeBuff : Nat) : Int) := by
    rw [← tmod_natCast, Nat.cast_add]
  have hcount : (ReadResult.data bytes).count = (bytes.length : Int) := rfl
  unfold pipeToBuff
  simp only [hcount, hend, ← he, hsum]
  rw [if_pos (by omega), if_pos (by omega)]
  by_cases hw : maxVotePipeBuff ≤ e + bytes.length
  · -- The remainders are out of order exactly when the bytes reach the end of the array.
    have hmod : (e + bytes.length) % maxVotePipeBuff = e + bytes.length - maxVotePipeBuff := by
      rw [Nat.mod_eq_sub_mod hw, Nat.mod_eq_of_lt (by omega)]
    have hpart : (bytes.length : Int) - ((e + bytes.length - maxVotePipeBuff : Nat) : Int)
        = ((maxVotePipeBuff - e : Nat) : Int) := by omega
    have hrest : (bytes.length : Int) - ((maxVotePipeBuff - e : Nat) : Int)
        = ((bytes.length - (maxVotePipeBuff - e) : Nat) : Int) := by omega
    rw [if_pos (by omega), hmod, hpart, hrest]
    have h1 := memcpy_natCast p.buffer maxVotePipeBuff e (ReadResult.data bytes).array
      maxVotePipeBuff 0 (maxVotePipeBuff - e) (by omega) (by omega)
    have h2 := memcpy_natCast
      (blit p.buffer e (ReadResult.data bytes).array 0 (maxVotePipeBuff - e)) maxVotePipeBuff 0
      (ReadResult.data bytes).array maxVotePipeBuff (maxVotePipeBuff - e)
      (bytes.length - (maxVotePipeBuff - e)) (by omega) (by omega)
    rw [Nat.cast_zero] at h1 h2
    refine ⟨blit (blit p.buffer e (ReadResult.data bytes).array 0 (maxVotePipeBuff - e)) 0
      (ReadResult.data bytes).array (maxVotePipeBuff - e)
      (bytes.length - (maxVotePipeBuff - e)), ?_, ?_⟩
    · simp only [h1, h2, bind, Except.bind]
      rfl
    · refine content_filled hi hn hil (by omega) fun k hk => ?_
      rw [← he]
      exact blit_blit_eq_store hel (by omega) hw (fun k hk => ReadResult.array_data hk) k hk
  · have hmod : (e + bytes.length) % maxVotePipeBuff = e + bytes.length :=
      Nat.mod_eq_of_lt (by omega)
    rw [if_neg (by omega)]
    have h1 := memcpy_natCast p.buffer maxVotePipeBuff e (ReadResult.data bytes).array
      maxVotePipeBuff 0 bytes.length (by omega) (by omega)
    rw [Nat.cast_zero] at h1
    refine ⟨blit p.buffer e (ReadResult.data bytes).array 0 bytes.length, ?_, ?_⟩
    · simp only [h1, bind, Except.bind]
      rfl
    · refine content_filled hi hn hil (by omega) fun k hk => ?_
      rw [← he]
      exact blit_eq_store hel (by omega) (fun k hk => ReadResult.array_data hk) k hk

/-- Bytes that do not fit are refused, and the pipe is as before. -/
theorem pipeToBuff_overflow {p : VotePipe} (h : p.Wf) {bytes : List Byte} (hpos : bytes ≠ [])
    (hfull : maxVotePipeBuff - p.content.length ≤ bytes.length) :
    pipeToBuff p (.data bytes) = .ok (-1, p, [.buffOverflow]) := by
  have hlen : 0 < bytes.length := List.length_pos_of_ne_nil hpos
  have hc := h.count_eq
  have hcount : (ReadResult.data bytes).count = (bytes.length : Int) := rfl
  have hl := h.length_lt
  unfold pipeToBuff
  simp only [hcount]
  rw [if_pos (by omega), if_neg (by omega)]
  rfl

/-- A failed `read` leaves the pipe as before. -/
theorem pipeToBuff_failed (p : VotePipe) :
    pipeToBuff p .failed = .ok (-1, p, [.buffReadError]) := rfl

/-! ## `fakeToPipe` and `buffToPipe` -/

theorem fakeToPipe_wf {p : VotePipe} (h : p.Wf) {n : Nat} (hn : n ≤ p.content.length) :
    (fakeToPipe p n).Wf := by
  obtain ⟨i, c, hi, hc, hil, hcl⟩ := h.cast
  rw [VotePipe.length_content, hc, Int.toNat_natCast] at hn
  have hidx : (fakeToPipe p n).buffIndex = (((i + n) % maxVotePipeBuff : Nat) : Int) := by
    show (p.buffIndex + (n : Int)).tmod maxVotePipeBuff = _
    rw [hi, ← tmod_natCast, Nat.cast_add]
  have hcnt : (fakeToPipe p n).buffCount = (c : Int) - n := by
    show p.buffCount - (n : Int) = _
    rw [hc]
  have hlt := Nat.mod_lt (i + n) maxVotePipeBuff_pos
  exact ⟨by omega, by omega, by omega, by omega⟩

/-- **Consuming takes from the front of the queue.** -/
theorem fakeToPipe_content {p : VotePipe} (h : p.Wf) {n : Nat} (hn : n ≤ p.content.length) :
    (fakeToPipe p n).content = p.content.drop n := by
  obtain ⟨i, c, hi, hc, _, _⟩ := h.cast
  rw [VotePipe.length_content, hc, Int.toNat_natCast] at hn
  have hidx : (p.buffIndex + (n : Int)).tmod maxVotePipeBuff
      = (((i + n) % maxVotePipeBuff : Nat) : Int) := by
    rw [hi, ← tmod_natCast, Nat.cast_add]
  have hcnt : ((c : Int) - (n : Int)).toNat = c - n := by omega
  show window p.buffer maxVotePipeBuff ((p.buffIndex + (n : Int)).tmod maxVotePipeBuff).toNat
      (p.buffCount - (n : Int)).toNat = _
  rw [hidx, hc, hcnt, Int.toNat_natCast, VotePipe.content, hi, hc, Int.toNat_natCast,
    Int.toNat_natCast, drop_window hn]

/-- The position only depends on the position and on what is consumed. -/
theorem fakeToPipe_index (p : VotePipe) (n : Int) :
    (fakeToPipe p n).buffIndex = (p.buffIndex + n).tmod maxVotePipeBuff := rfl

/-- **`buffToPipe` writes the front of the queue and consumes it.** -/
theorem buffToPipe_eq {p : VotePipe} (h : p.Wf) {n : Nat} (hn : n ≤ p.content.length) :
    buffToPipe p n = .ok (0, fakeToPipe p n, p.content.take n, []) := by
  obtain ⟨i, c, hi, hc, hil, hcl⟩ := h.cast
  have hlen := h.count_eq
  rw [VotePipe.length_content, hc, Int.toNat_natCast] at hn
  have htake : p.content.take n = window p.buffer maxVotePipeBuff i n := by
    rw [VotePipe.content, hi, hc, Int.toNat_natCast, Int.toNat_natCast, take_window hn]
  unfold buffToPipe
  rw [if_neg (by omega), htake]
  by_cases hw : i + n < maxVotePipeBuff
  · rw [if_pos (by omega), hi, readBlock_natCast _ (by omega), window_eq_block (by omega)]
    rfl
  · have hpart : (maxVotePipeBuff : Int) - (i : Int) = ((maxVotePipeBuff - i : Nat) : Int) := by
      omega
    have hrest : (n : Int) - ((maxVotePipeBuff - i : Nat) : Int)
        = ((n - (maxVotePipeBuff - i) : Nat) : Int) := by omega
    rw [if_neg (by omega)]
    simp only [hi, hpart, hrest, Int.toNat_natCast]
    have h1 := memcpy_natCast (fun _ => (0 : Byte)) n 0 p.buffer maxVotePipeBuff i
      (maxVotePipeBuff - i) (by omega) (by omega)
    have h2 := memcpy_natCast (blit (fun _ => (0 : Byte)) 0 p.buffer i (maxVotePipeBuff - i)) n
      (maxVotePipeBuff - i) p.buffer maxVotePipeBuff 0 (n - (maxVotePipeBuff - i)) (by omega)
      (by omega)
    have h3 := readBlock_natCast (blit (blit (fun _ => (0 : Byte)) 0 p.buffer i
      (maxVotePipeBuff - i)) (maxVotePipeBuff - i) p.buffer 0 (n - (maxVotePipeBuff - i)))
      (le_of_eq (Nat.zero_add n))
    rw [Nat.cast_zero] at h1 h2 h3
    -- The temporary array is the two blocks of the window, laid end to end.
    have htemp : block (blit (blit (fun _ => (0 : Byte)) 0 p.buffer i (maxVotePipeBuff - i))
        (maxVotePipeBuff - i) p.buffer 0 (n - (maxVotePipeBuff - i))) 0 n
          = window p.buffer maxVotePipeBuff i n := by
      refine List.ext_getElem (by simp) fun k hk _ => ?_
      rw [length_block] at hk
      rw [getElem_block, getElem_window, Nat.zero_add, wrap_eq hil (by omega)]
      unfold blit
      by_cases hlt : i + k < maxVotePipeBuff
      · rw [if_neg (by omega), if_pos (by omega), if_pos hlt]
        rfl
      · rw [if_pos (by omega), if_neg hlt]
        exact congrArg p.buffer (by omega)
    simp only [h1, h2, h3, htemp, bind, Except.bind]
    rfl

/-! ## `copyPipe` and `compareBuffs` -/

/-- The destination of a copy, with the array it ends up with. -/
def VotePipe.copied (dest src : VotePipe) (buffer : Nat → Byte) : VotePipe :=
  { dest with buffCount := src.buffCount, buffIndex := src.buffIndex, buffer }

theorem VotePipe.Wf.copied {dest src : VotePipe} (h : src.Wf) {buffer : Nat → Byte} :
    (dest.copied src buffer).Wf := ⟨h.1, h.2, h.3, h.4⟩

/-- **`copyPipe` makes the destination the same queue at the same position.** -/
theorem copyPipe_eq {src : VotePipe} (h : src.Wf) (dest : VotePipe) :
    ∃ buffer, copyPipe dest src = .ok (dest.copied src buffer) ∧
      (dest.copied src buffer).content = src.content := by
  obtain ⟨i, c, hi, hc, hil, hcl⟩ := h.cast
  have hcontent : ∀ buffer, (dest.copied src buffer).content
      = window buffer maxVotePipeBuff i c := by
    intro buffer
    show window buffer maxVotePipeBuff src.buffIndex.toNat src.buffCount.toNat = _
    rw [hi, hc, Int.toNat_natCast, Int.toNat_natCast]
  have hsrc : src.content = window src.buffer maxVotePipeBuff i c := by
    rw [VotePipe.content, hi, hc, Int.toNat_natCast, Int.toNat_natCast]
  unfold copyPipe
  -- Up to the end of the array the copy is one block, and behind it two.
  by_cases hw : i + c < maxVotePipeBuff
  · refine ⟨blit dest.buffer i src.buffer i c, ?_, ?_⟩
    · rw [if_pos (by omega), hi, hc, memcpy_natCast _ _ _ _ _ _ _ (by omega) (by omega)]
      simp [VotePipe.copied, hi, hc, bind, Except.bind, pure, Except.pure]
    · rw [hcontent, hsrc, window_blit_self (by omega)]
  · have hpart : (maxVotePipeBuff : Int) - (i : Int)
        = ((maxVotePipeBuff - i : Nat) : Int) := by omega
    have hrest : (c : Int) - ((maxVotePipeBuff - i : Nat) : Int)
        = ((c - (maxVotePipeBuff - i) : Nat) : Int) := by omega
    refine ⟨blit (blit dest.buffer i src.buffer i (maxVotePipeBuff - i)) 0 src.buffer 0
      (c - (maxVotePipeBuff - i)), ?_, ?_⟩
    · have h1 := memcpy_natCast dest.buffer maxVotePipeBuff i src.buffer maxVotePipeBuff i
        (maxVotePipeBuff - i) (by omega) (by omega)
      have h2 := memcpy_natCast (blit dest.buffer i src.buffer i (maxVotePipeBuff - i))
        maxVotePipeBuff 0 src.buffer maxVotePipeBuff 0 (c - (maxVotePipeBuff - i)) (by omega)
        (by omega)
      rw [Nat.cast_zero] at h2
      rw [if_neg (by omega)]
      simp only [hi, hc, hpart, hrest, h1, h2, bind, Except.bind, pure, Except.pure,
        VotePipe.copied]
    · rw [hcontent, hsrc, window_blit_blit_self hil (by omega) (by omega)]

/-- **At equal positions `compareBuffs` compares the fronts of the two queues.** -/
theorem compareBuffs_eq {a b : VotePipe} (ha : a.Wf) (hb : b.Wf)
    (hidx : a.buffIndex = b.buffIndex) {n : Nat} (hna : n ≤ a.content.length)
    (hnb : n ≤ b.content.length) :
    compareBuffs a b n = .ok (cmpBytes (a.content.take n) (b.content.take n), []) := by
  obtain ⟨i, c, hi, hc, hil, hcl⟩ := ha.cast
  obtain ⟨j, d, hj, hd, hjl, hdl⟩ := hb.cast
  obtain rfl : i = j := by omega
  rw [VotePipe.length_content, hc, Int.toNat_natCast] at hna
  rw [VotePipe.length_content, hd, Int.toNat_natCast] at hnb
  have hta : a.content.take n = window a.buffer maxVotePipeBuff i n := by
    rw [VotePipe.content, hi, hc, Int.toNat_natCast, Int.toNat_natCast, take_window hna]
  have htb : b.content.take n = window b.buffer maxVotePipeBuff i n := by
    rw [VotePipe.content, hj, hd, Int.toNat_natCast, Int.toNat_natCast, take_window hnb]
  unfold compareBuffs
  rw [if_neg (by simp [hidx]), hta, htb]
  -- One block or two; of two the second is looked at if the first are equal.
  by_cases hw : i + n < maxVotePipeBuff
  · rw [if_pos (by omega), hi, hj, memcmp_natCast (by omega) (by omega),
      window_eq_block (by omega), window_eq_block (by omega)]
    rfl
  · have hpart : (maxVotePipeBuff : Int) - (i : Int) = ((maxVotePipeBuff - i : Nat) : Int) := by
      omega
    have hrest : (n : Int) - ((maxVotePipeBuff - i : Nat) : Int)
        = ((n - (maxVotePipeBuff - i) : Nat) : Int) := by omega
    have h1 := memcmp_natCast (a := a.buffer) (b := b.buffer) (i := i) (j := i)
      (m := maxVotePipeBuff) (n := maxVotePipeBuff - i) (by omega) (by omega)
    have h2 := memcmp_natCast (a := a.buffer) (b := b.buffer) (i := 0) (j := 0)
      (m := maxVotePipeBuff) (n := n - (maxVotePipeBuff - i)) (by omega) (by omega)
    rw [Nat.cast_zero] at h2
    rw [if_neg (by omega)]
    simp only [hi, hj, hpart, hrest, h1, h2]
    rw [window_eq_blocks hil (by omega) (by omega), window_eq_blocks hil (by omega) (by omega),
      cmpBytes_append (by simp)]
    simp only [bind, Except.bind, pure, Except.pure]
    split <;> rfl

/-- At different positions it refuses, with a message. -/
theorem compareBuffs_mismatch {a b : VotePipe} (hidx : a.buffIndex ≠ b.buffIndex) (n : Int) :
    compareBuffs a b n = .ok (-1, [.indexMismatch]) := by
  unfold compareBuffs
  rw [if_pos hidx]
  rfl

end Pint
