import Pint.Lib.Run
import Pint.Proof.VoteBuff

/-!
# A vote pipe is a FIFO queue

`BuffCall` is a call of one of the four functions that move bytes through vote pipes, on a
family of pipes, and `BuffState.step` makes it. `Fifo` is what such a pipe is for: a queue of
bytes at a position in the stream, counted modulo the size of the array, with no array and
no wrapping.

`buffCalls_refine` is the refinement: whatever calls are made, in whatever order, the
functions never leave an array, and answer and write what the queues would. What a pipe holds is
`VotePipe.fifo`, so the relation is an equation for each pipe, and each function has one lemma
that says what it does to this queue. A read that does not fit is part of it: the queue refuses
it as the function does, with -1 and no other effect, although `read` has taken the bytes.

A call is `Legal` as far as the code around it sees to that: `read` returns no more than it was
asked for, and no more is forwarded than is buffered.
-/

namespace Pint

open Prog

/-! ## Calls -/

inductive BuffCall (ι : Type) where
  /-- `pipeToBuff(&pipes[i])`, whose `read` answers `got`. -/
  | pipeToBuff (i : ι) (got : ReadResult)
  | buffToPipe (i : ι) (n : Nat)
  | fakeToPipe (i : ι) (n : Nat)
  | copyPipe (dest src : ι)

/-- What a call answers: the value returned, and the bytes passed to `write`. -/
structure BuffAnswer where
  value : Int
  written : List Byte := []
deriving DecidableEq, Repr

/-- The pipes, and the answers so far. -/
structure BuffState (ι : Type) where
  pipes : ι → VotePipe
  answers : List BuffAnswer := []

variable {ι : Type} [DecidableEq ι]

/-- Pipe `i` is replaced, and a call answered. -/
def BuffState.put (s : BuffState ι) (i : ι) (pipe : VotePipe) (answer : BuffAnswer) :
    BuffState ι where
  pipes := Function.update s.pipes i pipe
  answers := s.answers ++ [answer]

def BuffState.step : BuffCall ι → BuffState ι → Except Stop (BuffState ι)
  | .pipeToBuff i got, s => do
    let (ret, pipe, _) ← pipeToBuff (s.pipes i) got
    return s.put i pipe { value := ret }
  | .buffToPipe i n, s => do
    let (ret, pipe, written, _) ← buffToPipe (s.pipes i) n
    return s.put i pipe { value := ret, written }
  | .fakeToPipe i n, s => return s.put i (fakeToPipe (s.pipes i) n) { value := 0 }
  | .copyPipe dest src, s => do
    let pipe ← copyPipe (s.pipes dest) (s.pipes src)
    return s.put dest pipe { value := 0 }

/-- A `read` that fails or takes at most the size asked for, and no more forwarded than there
is. -/
def BuffCall.Legal : BuffCall ι → BuffState ι → Prop
  | .pipeToBuff _ .failed, _ => True
  | .pipeToBuff _ (.data bytes), _ => 1 ≤ bytes.length ∧ bytes.length ≤ maxVotePipeBuff
  | .buffToPipe i n, s => (n : Int) ≤ (s.pipes i).buffCount
  | .fakeToPipe i n, s => (n : Int) ≤ (s.pipes i).buffCount
  | .copyPipe _ _, _ => True

instance : ∀ (c : BuffCall ι) (s : BuffState ι), Decidable (c.Legal s)
  | .pipeToBuff _ .failed, _ => inferInstanceAs (Decidable True)
  | .pipeToBuff _ (.data bytes), _ =>
    inferInstanceAs (Decidable (1 ≤ bytes.length ∧ bytes.length ≤ maxVotePipeBuff))
  | .buffToPipe i n, s => inferInstanceAs (Decidable ((n : Int) ≤ (s.pipes i).buffCount))
  | .fakeToPipe i n, s => inferInstanceAs (Decidable ((n : Int) ≤ (s.pipes i).buffCount))
  | .copyPipe _ _, _ => inferInstanceAs (Decidable True)

/-! ## Queues -/

/-- A queue of bytes, and the position of its first byte in the stream, modulo the size. -/
@[ext] structure Fifo where
  start : Nat
  items : List Byte
deriving DecidableEq, Repr

structure FifoState (ι : Type) where
  queues : ι → Fifo
  answers : List BuffAnswer := []

def FifoState.put (t : FifoState ι) (i : ι) (queue : Fifo) (answer : BuffAnswer) :
    FifoState ι where
  queues := Function.update t.queues i queue
  answers := t.answers ++ [answer]

/-- The first `n` bytes leave the queue. -/
def Fifo.drop (q : Fifo) (n : Nat) : Fifo where
  start := (q.start + n) % maxVotePipeBuff
  items := q.items.drop n

def FifoState.step : BuffCall ι → FifoState ι → FifoState ι
  | .pipeToBuff i .failed, t => t.put i (t.queues i) { value := -1 }
  | .pipeToBuff i (.data bytes), t =>
    let q := t.queues i
    if q.items.length + bytes.length < maxVotePipeBuff then
      t.put i { q with items := q.items ++ bytes } { value := 0 }
    else t.put i q { value := -1 }
  | .buffToPipe i n, t =>
    t.put i ((t.queues i).drop n) { value := 0, written := (t.queues i).items.take n }
  | .fakeToPipe i n, t => t.put i ((t.queues i).drop n) { value := 0 }
  | .copyPipe dest src, t => t.put dest (t.queues src) { value := 0 }

/-! ## Refinement -/

/-- The queue that a vote pipe holds. -/
def VotePipe.fifo (p : VotePipe) : Fifo where
  start := p.buffIndex.toNat
  items := p.content

/-- The pipes are well formed and hold these queues, and the calls were answered alike. -/
structure Refines (s : BuffState ι) (t : FifoState ι) : Prop where
  wf : ∀ i, (s.pipes i).Wf
  fifo : ∀ i, (s.pipes i).fifo = t.queues i
  answers : s.answers = t.answers

/-- Replacing one pipe and its queue. -/
theorem Refines.put {s : BuffState ι} {t : FifoState ι} (h : Refines s t) {i : ι}
    {pipe : VotePipe} {queue : Fifo} (answer : BuffAnswer) (hwf : pipe.Wf)
    (hq : pipe.fifo = queue) : Refines (s.put i pipe answer) (t.put i queue answer) := by
  refine ⟨fun j => ?_, fun j => ?_, ?_⟩
  · show (Function.update s.pipes i pipe j).Wf
    by_cases hj : j = i
    · subst hj
      rw [Function.update_self]
      exact hwf
    · rw [Function.update_of_ne hj]
      exact h.wf j
  · show (Function.update s.pipes i pipe j).fifo = Function.update t.queues i queue j
    by_cases hj : j = i
    · subst hj
      rw [Function.update_self, Function.update_self]
      exact hq
    · rw [Function.update_of_ne hj, Function.update_of_ne hj]
      exact h.fifo j
  · show s.answers ++ [answer] = t.answers ++ [answer]
    rw [h.answers]

theorem VotePipe.fifo_fakeToPipe {p : VotePipe} (h : p.Wf) {n : Nat}
    (hn : n ≤ p.content.length) : (fakeToPipe p n).fifo = p.fifo.drop n := by
  obtain ⟨i, c, hi, -, -, -⟩ := h.cast
  refine Fifo.ext ?_ (fakeToPipe_content h hn)
  show ((p.buffIndex + (n : Int)).tmod maxVotePipeBuff).toNat
    = (p.buffIndex.toNat + n) % maxVotePipeBuff
  rw [hi, Int.toNat_natCast, ← Nat.cast_add, tmod_natCast, Int.toNat_natCast]

/-! ### One call

Each stays inside the arrays, and does what the queues would. -/

section Calls

variable {s : BuffState ι} {t : FifoState ι} {i : ι}

omit [DecidableEq ι] in
theorem Refines.items (h : Refines s t) (i : ι) : (t.queues i).items = (s.pipes i).content := by
  rw [← h.fifo i]
  rfl

omit [DecidableEq ι] in
/-- No more is forwarded than the queue holds. -/
theorem Refines.le_length (h : Refines s t) {n : Nat} (hn : (n : Int) ≤ (s.pipes i).buffCount) :
    n ≤ (s.pipes i).content.length := by
  have := (h.wf i).count_eq
  omega

theorem Refines.read_failed (h : Refines s t) :
    ∃ s', BuffState.step (.pipeToBuff i .failed) s = .ok s' ∧
      Refines s' (FifoState.step (.pipeToBuff i .failed) t) := by
  refine ⟨s.put i (s.pipes i) { value := -1 }, ?_, h.put _ (h.wf i) (h.fifo i)⟩
  show (do let (ret, pipe, _) ← pipeToBuff (s.pipes i) .failed
           return s.put i pipe { value := ret } : Except Stop _) = _
  rw [pipeToBuff_failed]
  rfl

/-- What fits is appended; what does not is refused, and the pipe stays as it was. -/
theorem Refines.read_data (h : Refines s t) {bytes : List Byte} (hpos : 1 ≤ bytes.length) :
    ∃ s', BuffState.step (.pipeToBuff i (.data bytes)) s = .ok s' ∧
      Refines s' (FifoState.step (.pipeToBuff i (.data bytes)) t) := by
  have hne : bytes ≠ [] := List.ne_nil_of_length_pos hpos
  have hlt := (h.wf i).length_lt
  by_cases hfit : bytes.length < maxVotePipeBuff - (s.pipes i).content.length
  · obtain ⟨buffer, hok, hcontent⟩ := pipeToBuff_accept (h.wf i) hne hfit
    refine ⟨s.put i ((s.pipes i).filled buffer bytes) { value := 0 }, ?_, ?_⟩
    · show (do let (ret, pipe, _) ← pipeToBuff (s.pipes i) (.data bytes)
               return s.put i pipe { value := ret } : Except Stop _) = _
      rw [hok]
      rfl
    · unfold FifoState.step
      dsimp only
      rw [if_pos (by rw [h.items]; omega)]
      refine h.put _ ((h.wf i).filled hfit) (Fifo.ext ?_ ?_)
      · rw [← h.fifo i]
        rfl
      · show ((s.pipes i).filled buffer bytes).content = (t.queues i).items ++ bytes
        rw [hcontent, h.items]
  · refine ⟨s.put i (s.pipes i) { value := -1 }, ?_, ?_⟩
    · show (do let (ret, pipe, _) ← pipeToBuff (s.pipes i) (.data bytes)
               return s.put i pipe { value := ret } : Except Stop _) = _
      rw [pipeToBuff_overflow (h.wf i) hne (Nat.not_lt.mp hfit)]
      rfl
    · unfold FifoState.step
      dsimp only
      rw [if_neg (by rw [h.items]; omega)]
      exact h.put _ (h.wf i) (h.fifo i)

theorem Refines.buffToPipe (h : Refines s t) {n : Nat}
    (hn : (n : Int) ≤ (s.pipes i).buffCount) :
    ∃ s', BuffState.step (.buffToPipe i n) s = .ok s' ∧
      Refines s' (FifoState.step (.buffToPipe i n) t) := by
  have hle := h.le_length hn
  refine ⟨s.put i (Pint.fakeToPipe (s.pipes i) n)
    { value := 0, written := (s.pipes i).content.take n }, ?_, ?_⟩
  · show (do let (ret, pipe, written, _) ← Pint.buffToPipe (s.pipes i) n
             return s.put i pipe { value := ret, written } : Except Stop _) = _
    rw [buffToPipe_eq (h.wf i) hle]
    rfl
  · rw [FifoState.step, h.items, ← h.fifo i]
    exact h.put _ (fakeToPipe_wf (h.wf i) hle) (VotePipe.fifo_fakeToPipe (h.wf i) hle)

theorem Refines.fakeToPipe (h : Refines s t) {n : Nat}
    (hn : (n : Int) ≤ (s.pipes i).buffCount) :
    ∃ s', BuffState.step (.fakeToPipe i n) s = .ok s' ∧
      Refines s' (FifoState.step (.fakeToPipe i n) t) := by
  have hle := h.le_length hn
  refine ⟨s.put i (Pint.fakeToPipe (s.pipes i) n) { value := 0 }, rfl, ?_⟩
  rw [FifoState.step, ← h.fifo i]
  exact h.put _ (fakeToPipe_wf (h.wf i) hle) (VotePipe.fifo_fakeToPipe (h.wf i) hle)

theorem Refines.copyPipe (h : Refines s t) (dest src : ι) :
    ∃ s', BuffState.step (.copyPipe dest src) s = .ok s' ∧
      Refines s' (FifoState.step (.copyPipe dest src) t) := by
  obtain ⟨buffer, hok, hcontent⟩ := copyPipe_eq (h.wf src) (s.pipes dest)
  refine ⟨s.put dest ((s.pipes dest).copied (s.pipes src) buffer) { value := 0 }, ?_, ?_⟩
  · show (do let pipe ← Pint.copyPipe (s.pipes dest) (s.pipes src)
             return s.put dest pipe { value := 0 } : Except Stop _) = _
    rw [hok]
    rfl
  · refine h.put _ (h.wf src).copied (Fifo.ext ?_ ?_)
    · rw [← h.fifo src]
      rfl
    · show ((s.pipes dest).copied (s.pipes src) buffer).content = (t.queues src).items
      rw [hcontent, h.items]

/-- **The step lemma.** -/
theorem BuffState.step_refines (c : BuffCall ι) (s : BuffState ι) (t : FifoState ι)
    (h : Refines s t) (hc : c.Legal s) :
    ∃ s', BuffState.step c s = .ok s' ∧ Refines s' (FifoState.step c t) := by
  cases c with
  | pipeToBuff i got =>
    cases got with
    | failed => exact h.read_failed
    | data bytes => exact h.read_data hc.1
  | buffToPipe i n => exact h.buffToPipe hc
  | fakeToPipe i n => exact h.fakeToPipe hc
  | copyPipe dest src => exact h.copyPipe dest src

end Calls

/-- The empty queue at the start of the array. -/
def Fifo.empty : Fifo := ⟨0, []⟩

theorem resetVotePipe_fifo (p : VotePipe) :
    (resetVotePipe p).Wf ∧ (resetVotePipe p).fifo = Fifo.empty :=
  ⟨.of_zero ⟨rfl, rfl⟩, rfl⟩

/-- **The vote buffer refines a FIFO queue.** From reset pipes, every sequence of calls runs
without leaving an array; afterwards both counters of every pipe are in range, every pipe
holds the queue it should, and every call was answered as the queues would have. -/
theorem buffCalls_refine (pipes : ι → VotePipe) (calls : List (BuffCall ι))
    (hlegal : AllMeet BuffState.step BuffCall.Legal calls
      { pipes := fun i => resetVotePipe (pipes i) }) :
    ∃ s, runAll BuffState.step calls { pipes := fun i => resetVotePipe (pipes i) } = .ok s ∧
      (∀ i, (s.pipes i).Wf) ∧
      (∀ i, (s.pipes i).fifo = ((calls.foldl (fun t c => FifoState.step c t)
        { queues := fun _ => Fifo.empty }).queues i)) ∧
      s.answers = (calls.foldl (fun t c => FifoState.step c t)
        { queues := fun _ : ι => Fifo.empty }).answers := by
  have hstart : Refines { pipes := fun i => resetVotePipe (pipes i) }
      { queues := fun _ : ι => Fifo.empty } :=
    ⟨fun i => (resetVotePipe_fifo (pipes i)).1, fun i => (resetVotePipe_fifo (pipes i)).2, rfl⟩
  obtain ⟨s, hr, hs⟩ := runAll.simulates BuffState.step_refines hstart hlegal
  exact ⟨s, hr, hs.wf, hs.fifo, hs.answers⟩

/-- Two pipes: seven bytes come in, five go out, the rest is copied, and one is skipped. -/
theorem buffCalls_refine_sample :
    AllMeet BuffState.step BuffCall.Legal
      [.pipeToBuff false (.data [1, 2, 3, 4, 5, 6, 7]), .buffToPipe false 5, .copyPipe true false,
        .fakeToPipe true 1] { pipes := fun _ : Bool => resetVotePipe {} } ∧
    ∃ s, runAll BuffState.step
      [.pipeToBuff false (.data [1, 2, 3, 4, 5, 6, 7]), .buffToPipe false 5, .copyPipe true false,
        .fakeToPipe true 1] { pipes := fun _ : Bool => resetVotePipe {} } = .ok s ∧
      (s.pipes true).fifo = ⟨6, [7]⟩ := by
  have hlegal : AllMeet BuffState.step BuffCall.Legal
      [.pipeToBuff false (.data [1, 2, 3, 4, 5, 6, 7]), .buffToPipe false 5, .copyPipe true false,
        .fakeToPipe true 1] { pipes := fun _ : Bool => resetVotePipe {} } := by
    decide +kernel
  refine ⟨hlegal, ?_⟩
  obtain ⟨s, hr, -, hq, -⟩ := buffCalls_refine (fun _ : Bool => {}) _ hlegal
  exact ⟨s, hr, (hq true).trans (by decide +kernel)⟩

end Pint
