import Pint.Proof.Fifo

/-!
# What is read is not always buffered

`pipeToBuff` has taken the bytes out of the kernel when it finds out whether they fit.
`Tally` counts along a run what was taken from the descriptor of each pipe and what left
its buffer again. The stream is kept, `taken = left ++ buffered`, exactly as long as every
`read` takes fewer bytes than there is room for (`stream_kept_iff`): one byte of room is
never used, and what does not fit is gone.

One call is an equation of queues (`queues_step`): what it removes and what is left is what there
was, and what it takes if that fits. Along a run these add up. For the converse something has
to be known of a run that has lost bytes, and a length is enough: no more is buffered and
forwarded than was taken (`Tally.Sound`). A read that does not fit adds to what was taken and to
nothing else, so from then on one side is longer than the other, and stays so.
-/

namespace Pint

open Prog

variable {ι : Type} [DecidableEq ι]

/-! ## What passes through a pipe -/

/-- The bytes that a call takes from the descriptor of pipe `i`. -/
def BuffCall.takes (i : ι) : BuffCall ι → List Byte
  | .pipeToBuff j (.data bytes) => if j = i then bytes else []
  | _ => []

/-- The bytes that leave the buffer of pipe `i` with a call, written or not. -/
def BuffCall.removes (i : ι) : BuffCall ι → BuffState ι → List Byte
  | .buffToPipe j n, s => if j = i then (s.pipes j).content.take n else []
  | .fakeToPipe j n, s => if j = i then (s.pipes j).content.take n else []
  | _, _ => []

/-- The pipes, and what has passed through them. -/
structure Tally (ι : Type) where
  state : BuffState ι
  taken : ι → List Byte := fun _ => []
  left : ι → List Byte := fun _ => []

def Tally.step (c : BuffCall ι) (t : Tally ι) : Except Stop (Tally ι) := do
  let state ← BuffState.step c t.state
  return {
    state
    taken := fun i => t.taken i ++ c.takes i
    left := fun i => t.left i ++ c.removes i t.state }

/-- A call that moves bytes of the stream: any but `copyPipe`, which overwrites a buffer. -/
def BuffCall.Moves : BuffCall ι → BuffState ι → Prop
  | .copyPipe _ _, _ => False
  | c, s => c.Legal s

instance : ∀ (c : BuffCall ι) (s : BuffState ι), Decidable (c.Moves s)
  | .copyPipe _ _, _ => .isFalse id
  | .pipeToBuff i got, s => inferInstanceAs (Decidable (BuffCall.Legal (.pipeToBuff i got) s))
  | .buffToPipe i n, s => inferInstanceAs (Decidable (BuffCall.Legal (.buffToPipe i n) s))
  | .fakeToPipe i n, s => inferInstanceAs (Decidable (BuffCall.Legal (.fakeToPipe i n) s))

/-- A `read` on pipe `i` takes fewer bytes than there is room for. -/
def BuffCall.Fits (i : ι) : BuffCall ι → BuffState ι → Prop
  | .pipeToBuff j (.data bytes), s =>
    j = i → (bytes.length : Int) < maxVotePipeBuff - (s.pipes j).buffCount
  | _, _ => True

/-- A state that some calls lead to from reset pipes. -/
def BuffState.Reached (s : BuffState ι) : Prop :=
  ∃ (pipes : ι → VotePipe) (calls : List (BuffCall ι)),
    AllMeet BuffState.step BuffCall.Legal calls { pipes := fun i => resetVotePipe (pipes i) } ∧
    runAll BuffState.step calls { pipes := fun i => resetVotePipe (pipes i) } = .ok s

theorem BuffState.Reached.wf {s : BuffState ι} (h : s.Reached) (i : ι) : (s.pipes i).Wf := by
  obtain ⟨pipes, calls, hlegal, hrun⟩ := h
  have hstart : Refines { pipes := fun i => resetVotePipe (pipes i) }
      { queues := fun _ : ι => Fifo.empty } :=
    ⟨fun i => (resetVotePipe_fifo (pipes i)).1, fun i => (resetVotePipe_fifo (pipes i)).2, rfl⟩
  obtain ⟨s', hr, hs⟩ := runAll.simulates BuffState.step_refines hstart hlegal
  obtain rfl := Except.ok.inj (hrun.symm.trans hr)
  exact hs.wf i

/-! ## One call -/

section Calls

variable {s s' : BuffState ι} {c : BuffCall ι} {i : ι}

/-- The queues that the pipes hold. -/
def BuffState.queues (s : BuffState ι) : FifoState ι where
  queues := fun i => (s.pipes i).fifo
  answers := s.answers

omit [DecidableEq ι] in
theorem BuffCall.Moves.legal (h : c.Moves s) : c.Legal s := by
  cases c with
  | copyPipe dest src => exact trivial
  | pipeToBuff j got => exact h
  | buffToPipe j n => exact h
  | fakeToPipe j n => exact h

theorem put_items {t : FifoState ι} {j : ι} {queue : Fifo} {answer : BuffAnswer} (i : ι) :
    ((t.put j queue answer).queues i).items
      = if i = j then queue.items else (t.queues i).items := by
  show (Function.update t.queues j queue i).items = _
  by_cases hij : i = j
  · subst hij
    rw [Function.update_self, if_pos rfl]
  · rw [Function.update_of_ne hij, if_neg hij]

/-- A queue splits into what a call removes and the rest. -/
theorem Fifo.items_drop (q : Fifo) (n : Nat) : q.items.take n ++ (q.drop n).items = q.items :=
  List.take_append_drop n q.items

omit [DecidableEq ι] in
@[simp] theorem queues_items (i : ι) : (s.queues.queues i).items = (s.pipes i).content := rfl

/-- What fits is appended. -/
theorem items_read (t : FifoState ι) (j : ι) (bytes : List Byte) :
    ((FifoState.step (.pipeToBuff j (.data bytes)) t).queues i).items
      = if i = j ∧ (t.queues j).items.length + bytes.length < maxVotePipeBuff then
          (t.queues j).items ++ bytes
        else (t.queues i).items := by
  rw [FifoState.step]
  by_cases hfit : (t.queues j).items.length + bytes.length < maxVotePipeBuff
  · rw [if_pos hfit, put_items]
    simp [hfit]
  · rw [if_neg hfit, put_items]
    by_cases hij : i = j
    · subst hij
      simp [hfit]
    · simp [hij]

omit [DecidableEq ι] in
theorem fits_iff (hwf : (s.pipes i).Wf) (bytes : List Byte) :
    BuffCall.Fits i (.pipeToBuff i (.data bytes)) s
      ↔ (s.pipes i).content.length + bytes.length < maxVotePipeBuff := by
  have hcount := hwf.count_eq
  unfold BuffCall.Fits
  constructor
  · intro h
    have hroom := h rfl
    omega
  · intro h _
    omega

/-- **What a call does to the stream of a pipe**: what it takes is appended if it fits, and
what it removes is the front. -/
theorem queues_step (hwf : (s.pipes i).Wf) (hc : c.Moves s) [Decidable (c.Fits i s)] :
    c.removes i s ++ ((FifoState.step c s.queues).queues i).items
      = (s.pipes i).content ++ if c.Fits i s then c.takes i else [] := by
  -- A pipe loses its front if the call is for it, and nothing otherwise. Both `buffToPipe` and
  -- `fakeToPipe` take bytes so.
  have hremoved : ∀ (j : ι) (n : Nat) (answer : BuffAnswer),
      (if j = i then (s.pipes j).content.take n else []) ++
        ((s.queues.put j ((s.queues.queues j).drop n) answer).queues i).items
          = (s.pipes i).content := by
    intro j n answer
    rw [put_items]
    by_cases hij : j = i
    · subst hij
      rw [if_pos rfl, if_pos rfl]
      exact Fifo.items_drop (s.queues.queues j) n
    · rw [if_neg hij, if_neg (Ne.symm hij), List.nil_append, queues_items]
  cases c with
  | copyPipe dest src => exact absurd hc id
  | pipeToBuff j got =>
    cases got with
    | failed =>
      rw [FifoState.step, put_items]
      simp only [BuffCall.removes, BuffCall.takes, ite_self, List.nil_append, List.append_nil,
        queues_items]
      split
      · rename_i hij
        rw [hij]
      · rfl
    | data bytes =>
      have hremoves : BuffCall.removes i (.pipeToBuff j (.data bytes)) s = [] := rfl
      rw [items_read, hremoves, List.nil_append, queues_items]
      by_cases hij : j = i
      · subst hij
        simp only [fits_iff hwf, BuffCall.takes, if_true, true_and]
        split
        · rfl
        · simp
      · rw [if_neg fun h => hij h.1.symm]
        simp [BuffCall.takes, hij]
  | buffToPipe j n =>
    have htakes : BuffCall.takes i (.buffToPipe j n) = [] := rfl
    rw [htakes, ite_self, List.append_nil]
    exact hremoved j n _
  | fakeToPipe j n =>
    have htakes : BuffCall.takes i (.fakeToPipe j n) = [] := rfl
    rw [htakes, ite_self, List.append_nil]
    exact hremoved j n _

/-- The step lemma of the tally: every call can be made, and leaves the pipes well formed. -/
theorem Tally.step_spec {t : Tally ι} (hwf : ∀ i, (t.state.pipes i).Wf)
    (hc : c.Moves t.state) :
    ∃ t', Tally.step c t = .ok t' ∧ (∀ i, (t'.state.pipes i).Wf) ∧
      ∀ i, t'.taken i = t.taken i ++ c.takes i ∧
        t'.left i = t.left i ++ c.removes i t.state ∧
        (t'.state.pipes i).content = ((FifoState.step c t.state.queues).queues i).items := by
  obtain ⟨u, hu, hr⟩ := BuffState.step_refines c t.state t.state.queues
    ⟨hwf, fun _ => rfl, rfl⟩ hc.legal
  refine ⟨⟨u, fun i => t.taken i ++ c.takes i, fun i => t.left i ++ c.removes i t.state⟩, ?_,
    hr.wf, ?_⟩
  · unfold Tally.step
    rw [hu]
    rfl
  · intro i
    exact ⟨rfl, rfl, (hr.items i).symm⟩

end Calls

/-! ## Runs -/

section Streams

variable {s : BuffState ι} {t t' : Tally ι} {calls : List (BuffCall ι)} {i : ι}

/-- Nothing of the stream of pipe `i` is missing. -/
def Tally.Kept (s : BuffState ι) (i : ι) (t : Tally ι) : Prop :=
  (s.pipes i).content ++ t.taken i = t.left i ++ (t.state.pipes i).content

/-- No more is buffered and forwarded than was taken. -/
structure Tally.Sound (s : BuffState ι) (t : Tally ι) : Prop where
  wf : ∀ i, (t.state.pipes i).Wf
  le : ∀ i, (t.left i ++ (t.state.pipes i).content).length
    ≤ ((s.pipes i).content ++ t.taken i).length

/-- **The step lemma.** A call keeps the stream exactly if what it takes fits. -/
theorem Tally.Sound.stepped {c : BuffCall ι} (h : t.Sound s) (hc : c.Moves t.state)
    (hstep : Tally.step c t = .ok t') :
    t'.Sound s ∧ ∀ i, t'.Kept s i ↔ t.Kept s i ∧ c.Fits i t.state := by
  classical
  obtain ⟨u, hu, hwf, hstreams⟩ := Tally.step_spec h.wf hc
  obtain rfl := Except.ok.inj (hstep.symm.trans hu)
  have hout : ∀ i, t'.left i ++ (t'.state.pipes i).content
      = t.left i ++ (t.state.pipes i).content ++ if c.Fits i t.state then c.takes i else [] := by
    intro i
    obtain ⟨-, hleft, hcontent⟩ := hstreams i
    rw [hleft, hcontent, List.append_assoc, queues_step (h.wf i) hc, List.append_assoc]
  have hin : ∀ i, (s.pipes i).content ++ t'.taken i
      = (s.pipes i).content ++ t.taken i ++ c.takes i := by
    intro i
    rw [(hstreams i).1, List.append_assoc]
  refine ⟨⟨hwf, ?_⟩, ?_⟩
  · intro i
    have hle := h.le i
    rw [hout, hin, List.length_append, @List.length_append _ _ (c.takes i)]
    split
    · omega
    · rw [List.length_nil]
      omega
  · intro i
    unfold Tally.Kept
    rw [hout, hin]
    by_cases hfit : c.Fits i t.state
    · rw [if_pos hfit, List.append_left_inj]
      exact ⟨fun hk => ⟨hk, hfit⟩, And.left⟩
    · rw [if_neg hfit, List.append_nil]
      refine iff_of_false ?_ fun hk => hfit hk.2
      -- What was taken is longer now, and nothing was appended.
      intro heq
      have hle := h.le i
      have hpos : 0 < (c.takes i).length := by
        refine List.length_pos_of_ne_nil fun hnil => hfit ?_
        cases c with
        | pipeToBuff j got =>
          cases got with
          | failed => exact trivial
          | data bytes =>
            intro hij
            rw [BuffCall.takes, if_pos hij] at hnil
            have hone : 1 ≤ bytes.length := hc.1
            rw [hnil] at hone
            exact absurd hone (by simp)
        | buffToPipe j n => exact trivial
        | fakeToPipe j n => exact trivial
        | copyPipe dest src => exact trivial
      rw [← heq, List.length_append] at hle
      omega

/-- **The stream is kept exactly as long as every read fits.** From any state of the pipes
that calls can lead to, every run of `pipeToBuff`, `buffToPipe` and `fakeToPipe` can be made
to its end; and there, what was buffered and what was taken from the descriptor of pipe `i`
is what has left the buffer and what is in it, if and only if every `read` on that pipe took
fewer than `MAX_VOTE_PIPE_BUFF - buff_count` bytes. -/
theorem stream_kept_iff (hs : s.Reached) (i : ι)
    (hmoves : AllMeet Tally.step (fun c t => c.Moves t.state) calls { state := s }) :
    ∃ t : Tally ι, runAll Tally.step calls { state := s } = .ok t ∧
      ((s.pipes i).content ++ t.taken i = t.left i ++ (t.state.pipes i).content ↔
        AllMeet Tally.step (fun c t => c.Fits i t.state) calls { state := s }) := by
  have hstart : Tally.Sound s { state := s } := ⟨hs.wf, fun i => by simp⟩
  have hgo : ∀ (c : BuffCall ι) (t : Tally ι) (_ : Unit), t.Sound s → c.Moves t.state →
      ∃ t', Tally.step c t = .ok t' ∧ t'.Sound s := by
    intro c t _ h hc
    obtain ⟨t', ht', -⟩ := Tally.step_spec h.wf hc
    exact ⟨t', ht', (h.stepped hc ht').1⟩
  obtain ⟨t, hrun, -⟩ : ∃ t, runAll Tally.step calls { state := s } = .ok t ∧ t.Sound s :=
    @runAll.simulates _ _ _ _ Unit (fun _ _ => ()) (fun t _ => t.Sound s) _ hgo _ _ () hstart
      hmoves
  refine ⟨t, hrun, ?_⟩
  have hiff := runAll.monitor_of_meets (I := Tally.Sound s) (P := Tally.Kept s i)
    (fun c t t' h hc hstep => ⟨(h.stepped hc hstep).1, (h.stepped hc hstep).2 i⟩)
    hstart hmoves hrun
  have hempty : Tally.Kept s i { state := s } := by simp [Tally.Kept]
  exact hiff.trans ⟨And.right, fun h => ⟨hempty, h⟩⟩

/-- Two reads around a write: both fit. -/
theorem stream_kept_iff_sample :
    AllMeet Tally.step (fun c t => c.Moves t.state)
      [.pipeToBuff () (.data [1, 2, 3]), .buffToPipe () 2, .pipeToBuff () (.data [4])]
      { state := { pipes := fun _ => resetVotePipe {} } } ∧
    ∃ t : Tally Unit, runAll Tally.step
        [.pipeToBuff () (.data [1, 2, 3]), .buffToPipe () 2, .pipeToBuff () (.data [4])]
        { state := { pipes := fun _ => resetVotePipe {} } } = .ok t ∧
      t.taken () = t.left () ++ (t.state.pipes ()).content := by
  have hmoves : AllMeet Tally.step (fun c t => c.Moves t.state)
      [.pipeToBuff () (.data [1, 2, 3]), .buffToPipe () 2, .pipeToBuff () (.data [4])]
      { state := { pipes := fun _ : Unit => resetVotePipe {} } } := by
    decide +kernel
  obtain ⟨t, hrun, hiff⟩ := stream_kept_iff (s := { pipes := fun _ : Unit => resetVotePipe {} })
    ⟨fun _ => {}, [], trivial, rfl⟩ () hmoves
  refine ⟨hmoves, t, hrun, hiff.mpr ?_⟩
  refine ⟨fun _ => by decide, fun u hu => ⟨trivial, fun w hw => ⟨fun _ => ?_, fun _ _ => trivial⟩⟩⟩
  obtain rfl := Except.ok.inj hu
  obtain rfl := Except.ok.inj hw
  decide

/-- A message that fills the empty buffer exactly is taken from the descriptor, refused, and
gone. -/
theorem full_read_is_lost :
    ((List.replicate 4096 (1 : Byte)).length : Int)
      ≤ maxVotePipeBuff - (resetVotePipe {}).buffCount ∧
    pipeToBuff (resetVotePipe {}) (.data (List.replicate 4096 1))
      = .ok (-1, resetVotePipe {}, [.buffOverflow]) ∧
    ∃ t : Tally Unit, runAll Tally.step [.pipeToBuff () (.data (List.replicate 4096 1))]
        { state := { pipes := fun _ => resetVotePipe {} } } = .ok t ∧
      t.taken () = List.replicate 4096 1 ∧ t.left () = [] ∧
      (t.state.pipes ()).content = [] := by
  have hlen : (List.replicate 4096 (1 : Byte)).length = 4096 := List.length_replicate
  have hempty : (resetVotePipe {}).content = [] := rfl
  have hover : pipeToBuff (resetVotePipe {}) (.data (List.replicate 4096 1))
      = .ok (-1, resetVotePipe {}, [.buffOverflow]) := by
    refine pipeToBuff_overflow (resetVotePipe_fifo {}).1 (List.ne_nil_of_length_pos ?_) ?_
    · rw [hlen]
      decide
    · rw [hlen, hempty]
      decide
  have hread : BuffState.step (.pipeToBuff () (.data (List.replicate 4096 1)))
      { pipes := fun _ : Unit => resetVotePipe {} }
        = .ok (BuffState.put { pipes := fun _ => resetVotePipe {} } () (resetVotePipe {})
          { value := -1 }) := by
    unfold BuffState.step
    dsimp only
    rw [hover]
    rfl
  have hstep : Tally.step (.pipeToBuff () (.data (List.replicate 4096 1)))
      { state := { pipes := fun _ : Unit => resetVotePipe {} } }
        = .ok ⟨BuffState.put { pipes := fun _ => resetVotePipe {} } () (resetVotePipe {})
          { value := -1 }, fun _ => List.replicate 4096 1, fun _ => []⟩ := by
    unfold Tally.step
    rw [hread]
    rfl
  refine ⟨?_, hover, _, runAll_cons.mpr ⟨_, hstep, rfl⟩, rfl, rfl, rfl⟩
  rw [hlen]
  decide

end Streams

end Pint
