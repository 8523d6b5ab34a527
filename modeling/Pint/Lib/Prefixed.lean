import Mathlib.Tactic.Common
import Mathlib.Data.List.Basic

/-!
# Blocks with their length in front

A writer puts the length of a block into the stream and then the block, so the blocks need not
have one size. A reader takes the length, which has a fixed width, and then as many items as it
says. It gets the blocks that were written, in order, whatever comes behind them
(`Header.nexts_frames`).
-/

namespace Prefixed

/-- How the length of a block is written. -/
structure Header (α : Type) where
  width : Nat
  /-- The greatest length that can be written. -/
  limit : Nat
  put : Nat → List α
  /-- The length that is read, if it is one. -/
  get : List α → Option Nat
  length_put : ∀ n, (put n).length = width
  get_put : ∀ n ≤ limit, get (put n) = some n

namespace Header

variable {α : Type} (h : Header α) {items block rest : List α} {blocks : List (List α)}

def frame (block : List α) : List α := h.put block.length ++ block

def frames (blocks : List (List α)) : List α := blocks.flatMap h.frame

/-- The first block and what is behind it, if all of the block is there. -/
def next (items : List α) : Option (List α × List α) := do
  let n ← h.get (items.take h.width)
  if h.width + n ≤ items.length then
    return ((items.drop h.width).take n, items.drop (h.width + n))
  else none

/-- So many blocks. -/
def nexts : Nat → List α → Option (List (List α) × List α)
  | 0, items => some ([], items)
  | n + 1, items => do
    let (block, items) ← h.next items
    let (blocks, rest) ← nexts n items
    return (block :: blocks, rest)

/-- **A block is read back.** -/
theorem next_frame (hle : block.length ≤ h.limit) :
    h.next (h.frame block ++ rest) = some (block, rest) := by
  have hput : (h.put block.length).length = h.width := h.length_put _
  have hlen : h.width + block.length ≤ (h.put block.length ++ (block ++ rest)).length := by
    rw [List.length_append, List.length_append]
    omega
  unfold next frame
  rw [List.append_assoc, List.take_left' hput, h.get_put _ hle]
  simp only [bind, Option.bind]
  rw [if_pos hlen, ← List.drop_drop, List.drop_left' hput, List.take_left, List.drop_left]
  rfl

/-- **So are many**, one after the other. -/
theorem nexts_frames (hle : ∀ b ∈ blocks, b.length ≤ h.limit) :
    h.nexts blocks.length (h.frames blocks ++ rest) = some (blocks, rest) := by
  induction blocks with
  | nil => rfl
  | cons b blocks ih =>
    have hcons : h.frames (b :: blocks) ++ rest = h.frame b ++ (h.frames blocks ++ rest) := by
      rw [frames, List.flatMap_cons, List.append_assoc]
      rfl
    have hnext : h.next (h.frame b ++ (h.frames blocks ++ rest))
        = some (b, h.frames blocks ++ rest) := h.next_frame (hle b List.mem_cons_self)
    have hrest := ih fun b' hb' => hle b' (List.mem_cons_of_mem b hb')
    rw [hcons, List.length_cons, nexts, hnext]
    simp only [bind, Option.bind, hrest]
    rfl

/-- What is known of a stream when a block was read. -/
theorem next_eq_some (hnext : h.next items = some (block, rest)) :
    h.get (items.take h.width) = some block.length ∧ h.width + block.length ≤ items.length ∧
      (items.drop h.width).take block.length = block ∧
      items.drop (h.width + block.length) = rest := by
  unfold next at hnext
  obtain ⟨n, hn, hnext⟩ := Option.bind_eq_some_iff.mp hnext
  split at hnext
  · rename_i hlen
    obtain ⟨hblock, hrest⟩ := Prod.mk.inj (Option.some.inj hnext)
    have hsize : block.length = n := by
      rw [← hblock, List.length_take, List.length_drop]
      omega
    subst hsize
    exact ⟨hn, hlen, hblock, hrest⟩
  · cases hnext

/-- The blocks that are read come one by one. -/
theorem nexts_succ {n : Nat} (hnexts : h.nexts (n + 1) items = some (blocks, rest)) :
    ∃ block items' blocks', h.next items = some (block, items') ∧
      h.nexts n items' = some (blocks', rest) ∧ blocks = block :: blocks' := by
  unfold nexts at hnexts
  obtain ⟨⟨block, items'⟩, hnext, hnexts⟩ := Option.bind_eq_some_iff.mp hnexts
  obtain ⟨⟨blocks', rest'⟩, htail, heq⟩ := Option.bind_eq_some_iff.mp hnexts
  obtain ⟨hblocks, rfl⟩ := Prod.mk.inj (Option.some.inj heq)
  exact ⟨block, items', blocks', hnext, htail, hblocks.symm⟩

end Header

end Prefixed
