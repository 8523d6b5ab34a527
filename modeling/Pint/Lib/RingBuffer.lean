import Mathlib.Tactic.Common
import Mathlib.Data.List.Basic

/-!
# A queue kept in a circular array

An array of `cap` cells holds a queue of `n` elements that starts at cell `i` and wraps
around. `window buf cap i n` is the queue; `block buf i n` is a stretch of the array read
without wrapping, which is all that a block copy can move at once.

Two facts carry everything built on them. A window is one block when it does not reach the
end of the array and two blocks when it does (`window_eq_block`, `window_eq_blocks`). And
`store`, the array after a list has been written behind the queue, is again reached by one
block copy or by two (`blit_eq_store`, `blit_blit_eq_store`), and appends to the window
(`window_store`).

Cells outside the window are never mentioned: a queue does not depend on them.
-/

namespace RingBuffer

variable {α : Type} {buf buf' : Nat → α} {cap i j n m : Nat}

/-! ## Positions -/

/-- A position less than a lap ahead wraps by one subtraction. -/
theorem wrap_eq (hi : i < cap) (hj : j < cap) :
    (i + j) % cap = if i + j < cap then i + j else i + j - cap := by
  split
  · rename_i h
    exact Nat.mod_eq_of_lt h
  · rename_i h
    rw [Nat.mod_eq_sub_mod (Nat.not_lt.mp h)]
    exact Nat.mod_eq_of_lt (by omega)

/-! ## The queue, and the stretch of cells -/

/-- The `n` elements that start at cell `i` and wrap around. -/
def window (buf : Nat → α) (cap i n : Nat) : List α :=
  (List.range n).map fun k => buf ((i + k) % cap)

/-- The `n` cells from cell `i` on, without wrapping. -/
def block (buf : Nat → α) (i n : Nat) : List α :=
  (List.range n).map fun k => buf (i + k)

@[simp] theorem length_window : (window buf cap i n).length = n := by simp [window]

@[simp] theorem length_block : (block buf i n).length = n := by simp [block]

theorem getElem_window {k : Nat} (h : k < (window buf cap i n).length) :
    (window buf cap i n)[k] = buf ((i + k) % cap) := by
  simp [window]

theorem getElem_block {k : Nat} (h : k < (block buf i n).length) :
    (block buf i n)[k] = buf (i + k) := by
  simp [block]

/-- A window reads only its own cells. -/
theorem window_congr (h : ∀ k, k < n → buf ((i + k) % cap) = buf' ((i + k) % cap)) :
    window buf cap i n = window buf' cap i n := by
  refine List.ext_getElem (by simp) fun k hk _ => ?_
  rw [getElem_window, getElem_window]
  exact h k (by simpa using hk)

/-- Starting one lap later changes nothing. -/
theorem window_mod : window buf cap (i % cap) n = window buf cap i n := by
  refine List.ext_getElem (by simp) fun k _ _ => ?_
  rw [getElem_window, getElem_window, Nat.mod_add_mod]

theorem window_add : window buf cap i (n + m) = window buf cap i n ++ window buf cap (i + n) m := by
  refine List.ext_getElem (by simp) fun k hk _ => ?_
  rw [getElem_window, List.getElem_append]
  split
  · rw [getElem_window]
  · rename_i h
    rw [getElem_window, length_window] at *
    congr 2
    omega

/-- The oldest `m` elements. -/
theorem take_window (h : m ≤ n) : (window buf cap i n).take m = window buf cap i m := by
  obtain ⟨d, rfl⟩ := Nat.exists_eq_add_of_le h
  rw [window_add, List.take_left' (by simp)]

/-- What is left once the oldest `m` elements are gone. -/
theorem drop_window (h : m ≤ n) :
    (window buf cap i n).drop m = window buf cap ((i + m) % cap) (n - m) := by
  obtain ⟨d, rfl⟩ := Nat.exists_eq_add_of_le h
  rw [window_add, List.drop_left' (by simp), window_mod]
  congr 1
  omega

/-- A window that stays inside the array is one block. -/
theorem window_eq_block (h : i + n ≤ cap) : window buf cap i n = block buf i n := by
  refine List.ext_getElem (by simp) fun k hk _ => ?_
  rw [getElem_window, getElem_block]
  rw [length_window] at hk
  rw [Nat.mod_eq_of_lt (by omega)]

/-- A window that reaches the end of the array is the block up to the end and the block
from the start. -/
theorem window_eq_blocks (hi : i < cap) (hn : n ≤ cap) (hw : cap ≤ i + n) :
    window buf cap i n = block buf i (cap - i) ++ block buf 0 (n - (cap - i)) := by
  have hsplit : n = (cap - i) + (n - (cap - i)) := by omega
  have hlap : (i + (cap - i)) % cap = 0 := by
    rw [Nat.add_sub_cancel' (Nat.le_of_lt hi), Nat.mod_self]
  conv_lhs => rw [hsplit, window_add]
  rw [window_eq_block (by omega), ← window_mod (i := i + (cap - i)), hlap,
    window_eq_block (by omega)]

/-! ## Writing -/

/-- The array after `n` cells of `src` from `s` on were copied to `d` and the cells after. -/
def blit (dst : Nat → α) (d : Nat) (src : Nat → α) (s n : Nat) : Nat → α := fun k =>
  if d ≤ k ∧ k < d + n then src (s + (k - d)) else dst k

/-- The array after a list was written to cell `e` and the cells behind it, wrapping. -/
def store (buf : Nat → α) (cap e : Nat) (xs : List α) : Nat → α := fun k =>
  if h : (k + (cap - e)) % cap < xs.length then xs[(k + (cap - e)) % cap] else buf k

/-- The distance from `e` to the cell `j` ahead of it is `j`. -/
theorem distance (he : i < cap) (hj : j < cap) :
    ((i + j) % cap + (cap - i)) % cap = j := by
  rw [Nat.mod_add_mod]
  have : i + j + (cap - i) = j + cap := by omega
  rw [this, Nat.add_mod_right, Nat.mod_eq_of_lt hj]

/-- Cells a lap or more ahead of the written ones are kept. -/
theorem store_of_le {xs : List α} (he : i < cap) (hj : j < cap) (h : xs.length ≤ j) :
    store buf cap i xs ((i + j) % cap) = buf ((i + j) % cap) := by
  unfold store
  rw [dif_neg]
  rw [distance he hj]
  exact Nat.not_lt.mpr h

theorem store_of_lt {xs : List α} (he : i < cap) (hj : j < cap) (h : j < xs.length) :
    store buf cap i xs ((i + j) % cap) = xs[j] := by
  unfold store
  have hd := distance he hj
  rw [dif_pos (by rw [hd]; exact h)]
  congr 1

/-- **Writing behind a queue appends to it**, when there is room. -/
theorem window_store {xs : List α} (hi : i < cap) (hroom : n + xs.length ≤ cap) :
    window (store buf cap ((i + n) % cap) xs) cap i (n + xs.length)
      = window buf cap i n ++ xs := by
  have hcap : 0 < cap := by omega
  rw [window_add]
  congr 1
  · refine window_congr fun k hk => ?_
    -- Seen from the end of the queue, the queue itself starts `cap - n` cells ahead.
    have hpos : (i + k) % cap = ((i + n) % cap + (cap - n + k)) % cap := by
      rw [Nat.mod_add_mod]
      have : i + n + (cap - n + k) = i + k + cap := by omega
      rw [this, Nat.add_mod_right]
    by_cases hx : xs.length = 0
    · have : xs = [] := List.length_eq_zero_iff.mp hx
      subst this
      simp [store]
    · rw [hpos]
      exact store_of_le (Nat.mod_lt _ hcap) (by omega) (by omega)
  · refine List.ext_getElem (by simp) fun k hk hk' => ?_
    have hpos : (i + n + k) % cap = ((i + n) % cap + k) % cap := (Nat.mod_add_mod _ _ _).symm
    rw [getElem_window, hpos]
    exact store_of_lt (Nat.mod_lt _ hcap) (by omega) hk'

/-- One block copy writes the list, when it does not reach past the end of the array. -/
theorem blit_eq_store {xs : List α} {src : Nat → α} (he : i < cap) (hfit : i + xs.length ≤ cap)
    (hsrc : ∀ k (h : k < xs.length), src k = xs[k]) :
    ∀ k, k < cap → blit buf i src 0 xs.length k = store buf cap i xs k := by
  intro k hk
  unfold blit store
  by_cases hin : i ≤ k
  · have hd : (k + (cap - i)) % cap = k - i := by
      have : k + (cap - i) = k - i + cap := by omega
      rw [this, Nat.add_mod_right, Nat.mod_eq_of_lt (by omega)]
    by_cases hlt : k < i + xs.length
    · rw [if_pos ⟨hin, hlt⟩, dif_pos (by rw [hd]; omega), Nat.zero_add,
        hsrc _ (by omega)]
      congr 1
      exact hd.symm
    · rw [if_neg (by omega), dif_neg (by rw [hd]; omega)]
  · have hd : (k + (cap - i)) % cap = k + (cap - i) := Nat.mod_eq_of_lt (by omega)
    rw [if_neg (by omega), dif_neg (by rw [hd]; omega)]

/-- Two block copies write the list, when it reaches the end of the array. -/
theorem blit_blit_eq_store {xs : List α} {src : Nat → α} (he : i < cap)
    (hlen : xs.length ≤ cap) (hwrap : cap ≤ i + xs.length)
    (hsrc : ∀ k (h : k < xs.length), src k = xs[k]) :
    ∀ k, k < cap →
      blit (blit buf i src 0 (cap - i)) 0 src (cap - i) (xs.length - (cap - i)) k
        = store buf cap i xs k := by
  intro k hk
  unfold blit store
  by_cases hin : i ≤ k
  · have hd : (k + (cap - i)) % cap = k - i := by
      have : k + (cap - i) = k - i + cap := by omega
      rw [this, Nat.add_mod_right, Nat.mod_eq_of_lt (by omega)]
    rw [if_neg (by omega), if_pos (by omega), dif_pos (by rw [hd]; omega), Nat.zero_add,
      hsrc _ (by omega)]
    congr 1
    exact hd.symm
  · have hd : (k + (cap - i)) % cap = k + (cap - i) := Nat.mod_eq_of_lt (by omega)
    by_cases hlt : k < xs.length - (cap - i)
    · rw [if_pos (by omega), dif_pos (by rw [hd]; omega), hsrc _ (by omega)]
      congr 1
      rw [hd]
      omega
    · rw [if_neg (by omega), if_neg (by omega), dif_neg (by rw [hd]; omega)]

/-- A window read through a block copy of the whole of it, one piece. -/
theorem window_blit_self {src : Nat → α} (hfit : i + n ≤ cap) :
    window (blit buf i src i n) cap i n = window src cap i n := by
  refine window_congr fun k hk => ?_
  rw [Nat.mod_eq_of_lt (by omega)]
  unfold blit
  rw [if_pos (by omega)]
  congr 1
  omega

/-- A window read through a block copy of the whole of it, two pieces. -/
theorem window_blit_blit_self {src : Nat → α} (hi : i < cap) (hn : n ≤ cap)
    (hw : cap ≤ i + n) :
    window (blit (blit buf i src i (cap - i)) 0 src 0 (n - (cap - i))) cap i n
      = window src cap i n := by
  refine window_congr fun k hk => ?_
  rw [wrap_eq hi (by omega)]
  unfold blit
  split
  · rw [if_neg (by omega), if_pos (by omega)]
    congr 1
    omega
  · rw [if_pos (by omega)]
    congr 1
    omega

end RingBuffer
