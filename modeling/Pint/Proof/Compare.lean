import Pint.Proof.VoteBuff

/-!
# What a comparison of two buffers says

`compareBuffs` is `memcmp` on a ring: it looks at the first `n` bytes of both queues, in one
piece or in two, and at nothing else in the arrays. It prints and answers -1 if the two do not
start at the same index, because then the pieces would not line up.

`VoteBuff` has it that the call is `cmpBytes` on the fronts of the two queues. What is left is to
say that byte by byte: equal fronts are equal bytes (`take_content_eq`), and otherwise the sign is
that of the first pair that differs (`cmpBytes_first`). After `copyPipe` both queues are one, so
their fronts are equal however long.
-/

namespace Pint

open RingBuffer

/-- The byte at position `k` of the queue, counted from `buff_index`. -/
def VotePipe.byteAt (p : VotePipe) (k : Nat) : Byte :=
  p.buffer ((p.buffIndex.toNat + k) % maxVotePipeBuff)

theorem VotePipe.getElem_content {p : VotePipe} {k : Nat} (h : k < p.content.length) :
    p.content[k] = p.byteAt k := getElem_window h

/-- **The sign of a comparison** is that of the first byte in which the two differ. -/
theorem cmpBytes_first {xs ys : List Byte} {k : Nat} (hx : k < xs.length) (hy : k < ys.length)
    (hsame : ∀ j (hj : j < k), xs[j] = ys[j]) (hne : xs[k] ≠ ys[k]) :
    cmpBytes xs ys = if xs[k] < ys[k] then -1 else 1 := by
  induction k generalizing xs ys with
  | zero =>
    cases xs with
    | nil => cases hx
    | cons x xs =>
      cases ys with
      | nil => cases hy
      | cons y ys =>
        have hhead : x ≠ y := hne
        rw [cmpBytes, if_neg hhead]
        rfl
  | succ k ih =>
    cases xs with
    | nil => cases hx
    | cons x xs =>
      cases ys with
      | nil => cases hy
      | cons y ys =>
        have hhead : x = y := hsame 0 (Nat.zero_lt_succ k)
        rw [cmpBytes, if_pos hhead]
        apply ih
        · intro j hj
          exact hsame (j + 1) (Nat.succ_lt_succ hj)
        · exact hne

section Decides

variable {a b : VotePipe} {n : Int}

theorem VotePipe.Wf.le_length (h : a.Wf) (hn : n ≤ a.buffCount) : n.toNat ≤ a.content.length := by
  have := h.count_eq
  omega

/-- The fronts of two queues are equal if their bytes are. -/
theorem take_content_eq {n : Nat} (hna : n ≤ a.content.length) (hnb : n ≤ b.content.length) :
    a.content.take n = b.content.take n ↔ ∀ k < n, a.byteAt k = b.byteAt k := by
  constructor
  · intro heq k hk
    have hget := congrArg (fun l => l[k]?) heq
    simp only [List.getElem?_take, hk, if_true] at hget
    rw [List.getElem?_eq_getElem (by omega), List.getElem?_eq_getElem (by omega),
      Option.some.injEq, VotePipe.getElem_content, VotePipe.getElem_content] at hget
    exact hget
  · intro hall
    apply List.ext_getElem
    · simp only [List.length_take]
      omega
    · intro k hk _
      rw [List.length_take] at hk
      rw [List.getElem_take, List.getElem_take, VotePipe.getElem_content, VotePipe.getElem_content]
      exact hall k (by omega)

/-- The first byte in which the fronts differ. -/
theorem cmpBytes_take {n k : Nat} (hk : k < n) (hna : n ≤ a.content.length)
    (hnb : n ≤ b.content.length) (hsame : ∀ j < k, a.byteAt j = b.byteAt j)
    (hne : a.byteAt k ≠ b.byteAt k) :
    cmpBytes (a.content.take n) (b.content.take n)
      = if a.byteAt k < b.byteAt k then -1 else 1 := by
  have hbyte : ∀ (p : VotePipe) j (h : j < (p.content.take n).length),
      (p.content.take n)[j] = p.byteAt j := by
    intro p j h
    rw [List.getElem_take, VotePipe.getElem_content]
  have hka : k < (a.content.take n).length := by
    rw [List.length_take]
    omega
  have hkb : k < (b.content.take n).length := by
    rw [List.length_take]
    omega
  rw [cmpBytes_first hka hkb, hbyte, hbyte]
  · intro j hj
    rw [hbyte, hbyte]
    exact hsame j hj
  · rw [hbyte, hbyte]
    exact hne

/-- **`compareBuffs` decides whether the fronts of two queues are equal**, and after `copyPipe`
they are. Where the indexes agree and the fronts do not, the sign is that of the first bytes that
differ, wherever the two queues are in their arrays. -/
theorem compareBuffs_decides (ha : a.Wf) (hb : b.Wf) (hn : 0 ≤ n) (hna : n ≤ a.buffCount)
    (hnb : n ≤ b.buffCount) :
    (∃ result printed, compareBuffs a b n = .ok (result, printed) ∧
      (result = 0 ↔ a.buffIndex = b.buffIndex ∧ ∀ k : Nat, k < n → a.byteAt k = b.byteAt k) ∧
      (a.buffIndex = b.buffIndex → ∀ k : Nat, k < n → (∀ j < k, a.byteAt j = b.byteAt j) →
        a.byteAt k ≠ b.byteAt k →
        (result < 0 ↔ a.byteAt k < b.byteAt k) ∧ (0 < result ↔ b.byteAt k < a.byteAt k))) ∧
    ∀ dest, ∃ d, copyPipe dest a = .ok d ∧
      ∀ m, 0 ≤ m → m ≤ a.buffCount → compareBuffs a d m = .ok (0, []) := by
  constructor
  · -- At different positions it answers -1, which is not 0 either way.
    by_cases hidx : a.buffIndex = b.buffIndex
    · have hla := ha.le_length hna
      have hlb := hb.le_length hnb
      have hlen : (a.content.take n.toNat).length = (b.content.take n.toNat).length := by
        simp only [List.length_take]
        omega
      have hrun := compareBuffs_eq ha hb hidx hla hlb
      rw [Int.toNat_of_nonneg hn] at hrun
      refine ⟨_, _, hrun, ?_, fun _ k hk hsame hne => ?_⟩
      · rw [cmpBytes_eq_zero hlen, take_content_eq hla hlb]
        constructor
        · intro hall
          exact ⟨hidx, fun k hk => hall k (by omega)⟩
        · rintro ⟨-, hall⟩ k hk
          exact hall k (by omega)
      · rw [cmpBytes_take (show k < n.toNat by omega) hla hlb hsame hne]
        rcases UInt8.lt_or_lt_of_ne hne with hlt | hlt
        · simp [hlt, UInt8.lt_asymm hlt]
        · simp [hlt, UInt8.lt_asymm hlt]
    · refine ⟨-1, _, compareBuffs_mismatch hidx n, ?_, fun heq => absurd heq hidx⟩
      exact iff_of_false (by decide) fun h => hidx h.1
  · -- A copy has the position of its source, so the two are compared as queues.
    intro dest
    obtain ⟨buffer, hcopy, hcontent⟩ := copyPipe_eq ha dest
    refine ⟨_, hcopy, fun m hm hma => ?_⟩
    have hla := ha.le_length hma
    have hrun := compareBuffs_eq ha (@VotePipe.Wf.copied dest a ha buffer) rfl hla (by
      rw [hcontent]
      exact hla)
    rw [Int.toNat_of_nonneg hm, hcontent, (cmpBytes_eq_zero rfl).mpr rfl] at hrun
    exact hrun

end Decides

/-- A queue of three bytes that starts in the last cell of the array. -/
def wrappedPipe (buffer : Nat → Byte) : VotePipe :=
  { buffIndex := maxVotePipeBuff - 1, buffCount := 3, buffer }

theorem wrappedPipe_wf (buffer : Nat → Byte) : (wrappedPipe buffer).Wf := by
  constructor <;> simp [wrappedPipe, maxVotePipeBuff]

/-- Two such queues whose second bytes differ. -/
theorem compareBuffs_decides_wrapped :
    ∃ result printed, compareBuffs (wrappedPipe fun _ => 0) (wrappedPipe fun k => .ofNat (k + 1)) 2
        = .ok (result, printed) ∧ result ≠ 0 := by
  obtain ⟨⟨result, printed, hrun, hzero, -⟩, -⟩ := @compareBuffs_decides (wrappedPipe fun _ => 0)
    (wrappedPipe fun k => .ofNat (k + 1)) 2 (wrappedPipe_wf _) (wrappedPipe_wf _) (by decide)
    (by decide) (by decide)
  refine ⟨result, printed, hrun, fun h0 => ?_⟩
  have hbyte := (hzero.mp h0).2 1 (by decide)
  exact absurd hbyte (by decide)

end Pint
