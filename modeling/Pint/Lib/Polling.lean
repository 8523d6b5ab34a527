import Pint.Lib.Run
import Mathlib.Data.List.Basic
import Mathlib.Data.Sum.Basic

/-!
# A process that polls two queues

A process sleeps until there is something in one of its queues. It then looks at both in a
fixed order and takes one message from each that has any. Messages are written to the queues
one after the other; a schedule says when the process wakes up between the writes.

If taking two messages in one pass is the same as taking them in two, then the process is
where it would be if it had been given the messages it took one by one (`handled`). So the
schedule matters only through the order in which the messages are taken. Within a queue this
is the order in which they were written (`lefts_account`); between the queues it is, as long
as no pass reaches past a message that is older (`taken_account`).

Part of the state may not depend on that order at all: what only the messages of the first
queue change, and change without looking at the rest (`Seen`).
-/

namespace Polling

open Prog

variable {α β σ τ ε : Type}

/-- The messages for the first queue. -/
def lefts (ms : List (α ⊕ β)) : List α := ms.filterMap Sum.getLeft?

/-- The messages for the second queue. -/
def rights (ms : List (α ⊕ β)) : List β := ms.filterMap Sum.getRight?

/-- The next message is written, or the process wakes up. -/
inductive Move where
  | write
  | wake
deriving DecidableEq

/-- The messages that are still to be written, those that are in the queues, those that the
process has taken, all oldest first; and the state of the process. -/
structure Feed (α β σ : Type) where
  unwritten : List (α ⊕ β)
  unread : List (α ⊕ β)
  taken : List (α ⊕ β)
  state : σ

/-- A process with a first queue that it always looks at, and a second one. -/
structure Process (α β σ ε : Type) where
  /-- Whether it looks at the second queue. -/
  second : σ → Bool
  /-- One pass, with what it took from each queue. -/
  turn : Option α → Option β → σ → Except ε σ

/-- What a pass finds at the head of the second queue. -/
def headRight (second : Bool) (ms : List (α ⊕ β)) : Option β :=
  if second then (rights ms).head? else none

/-- What a pass takes, in the order in which it takes it. -/
def takes (second : Bool) (ms : List (α ⊕ β)) : List (α ⊕ β) :=
  (lefts ms).head?.toList.map .inl ++ (headRight second ms).toList.map .inr

/-- What a pass leaves in the queues. -/
def leaves (second : Bool) (ms : List (α ⊕ β)) : List (α ⊕ β) :=
  let ms := ms.eraseP Sum.isLeft
  if second then ms.eraseP Sum.isRight else ms

def Process.step (p : Process α β σ ε) : Move → Feed α β σ → Except ε (Feed α β σ)
  | .write, f =>
    match f.unwritten with
    | [] => .ok f
    | m :: ms => .ok { f with unwritten := ms, unread := f.unread ++ [m] }
  | .wake, f => do
    let state ← p.turn (lefts f.unread).head? (headRight (p.second f.state) f.unread) f.state
    return { f with
      unread := leaves (p.second f.state) f.unread
      taken := f.taken ++ takes (p.second f.state) f.unread
      state }

/-- A run under which all messages are written and taken. -/
structure Consumes (p : Process α β σ ε) (msgs : List (α ⊕ β)) (s : σ) (ms : List Move)
    (f : Feed α β σ) : Prop where
  run : runAll p.step ms ⟨msgs, [], [], s⟩ = .ok f
  unwritten : f.unwritten = []
  unread : f.unread = []

/-! ## What a pass takes and leaves -/

@[simp] theorem lefts_append (ms ms' : List (α ⊕ β)) :
    lefts (ms ++ ms') = lefts ms ++ lefts ms' := List.filterMap_append

@[simp] theorem lefts_inl (as : List α) : lefts (as.map (.inl : α → α ⊕ β)) = as := by
  induction as with
  | nil => rfl
  | cons a as ih => exact congrArg (a :: ·) ih

@[simp] theorem lefts_inr (bs : List β) : lefts (bs.map (.inr : β → α ⊕ β)) = [] := by
  induction bs with
  | nil => rfl
  | cons b bs ih => exact ih

theorem lefts_eraseP_left (ms : List (α ⊕ β)) : lefts (ms.eraseP Sum.isLeft) = (lefts ms).tail := by
  induction ms with
  | nil => rfl
  | cons m ms ih =>
    cases m with
    | inl a => rfl
    | inr b => exact ih

theorem lefts_eraseP_right (ms : List (α ⊕ β)) : lefts (ms.eraseP Sum.isRight) = lefts ms := by
  induction ms with
  | nil => rfl
  | cons m ms ih =>
    cases m with
    | inl a => exact congrArg (a :: ·) ih
    | inr b => rfl

theorem lefts_takes_leaves (second : Bool) (ms : List (α ⊕ β)) :
    lefts (takes second ms) ++ lefts (leaves second ms) = lefts ms := by
  have hleaves : lefts (leaves second ms) = (lefts ms).tail := by
    unfold leaves
    cases second with
    | false => exact lefts_eraseP_left ms
    | true =>
      exact (lefts_eraseP_right _).trans (lefts_eraseP_left ms)
  rw [hleaves, takes, lefts_append, lefts_inl, lefts_inr, List.append_nil]
  cases lefts ms with
  | nil => rfl
  | cons a as => rfl

/-! ## Runs -/

variable {p : Process α β σ ε} {msgs : List (α ⊕ β)} {s : σ} {ms ms' : List Move}
  {f f' : Feed α β σ}

theorem Process.step_wake (h : p.step .wake f = .ok f') :
    p.turn (lefts f.unread).head? (headRight (p.second f.state) f.unread) f.state = .ok f'.state ∧
      f'.unwritten = f.unwritten ∧ f'.unread = leaves (p.second f.state) f.unread ∧
      f'.taken = f.taken ++ takes (p.second f.state) f.unread := by
  simp only [Process.step, Bind.bind, Except.bind] at h
  cases hturn : p.turn (lefts f.unread).head? (headRight (p.second f.state) f.unread) f.state with
  | error e =>
    rw [hturn] at h
    cases h
  | ok state =>
    rw [hturn] at h
    cases h
    exact ⟨rfl, rfl, rfl, rfl⟩

theorem Process.wake_ok {t : σ}
    (h : p.turn (lefts f.unread).head? (headRight (p.second f.state) f.unread) f.state = .ok t) :
    p.step .wake f = .ok { f with
      unread := leaves (p.second f.state) f.unread
      taken := f.taken ++ takes (p.second f.state) f.unread
      state := t } := by
  simp [Process.step, h, Bind.bind, Except.bind, Pure.pure, Except.pure]

theorem Process.step_write (h : p.step .write f = .ok f') :
    f'.state = f.state ∧ f'.taken = f.taken ∧
      f'.unread ++ f'.unwritten = f.unread ++ f.unwritten := by
  simp only [Process.step] at h
  split at h
  · rename_i hnone
    cases h
    exact ⟨rfl, rfl, rfl⟩
  · rename_i m rest hsome
    cases h
    refine ⟨rfl, rfl, ?_⟩
    rw [hsome, List.append_assoc]
    rfl

/-- The first queue is in order: what was taken from it, what is in it and what is still to
be written to it are its messages. -/
theorem lefts_account (h : Consumes p msgs s ms f) : lefts f.taken = lefts msgs := by
  have hall : lefts (f.taken ++ (f.unread ++ f.unwritten)) = lefts msgs := by
    refine runAll.invariant
      (I := fun g => lefts (g.taken ++ (g.unread ++ g.unwritten)) = lefts msgs)
      ?_ ?_ h.run
    · intro m g g' hg hstep
      cases m with
      | write =>
        obtain ⟨-, htaken, hrest⟩ := Process.step_write hstep
        rw [htaken, hrest]
        exact hg
      | wake =>
        obtain ⟨-, hunwritten, hunread, htaken⟩ := Process.step_wake hstep
        rw [htaken, hunread, hunwritten]
        rw [← hg]
        simp only [lefts_append, List.append_assoc]
        rw [← List.append_assoc (lefts (takes _ _)), lefts_takes_leaves]
    · rfl
  rw [h.unwritten, h.unread, List.append_nil, List.append_nil] at hall
  exact hall

/-- What this pass takes is the oldest of what is unread. -/
def InOrder (p : Process α β σ ε) (m : Move) (f : Feed α β σ) : Prop :=
  m = .wake → takes (p.second f.state) f.unread ++ leaves (p.second f.state) f.unread = f.unread

/-- If no pass reaches past an older message, all messages are taken in order. -/
theorem taken_account (h : Consumes p msgs s ms f)
    (horder : AllMeet p.step (InOrder p) ms ⟨msgs, [], [], s⟩) : f.taken = msgs := by
  have hall : f.taken ++ (f.unread ++ f.unwritten) = msgs := by
    refine runAll.invariant_of_meets (I := fun g => g.taken ++ (g.unread ++ g.unwritten) = msgs)
      ?_ ?_ horder h.run
    · intro m g g' hg hc hstep
      cases m with
      | write =>
        obtain ⟨-, htaken, hrest⟩ := Process.step_write hstep
        rw [htaken, hrest]
        exact hg
      | wake =>
        obtain ⟨-, hunwritten, hunread, htaken⟩ := Process.step_wake hstep
        rw [htaken, hunread, hunwritten, List.append_assoc, ← List.append_assoc (takes _ _),
          hc rfl]
        exact hg
    · rfl
  rw [h.unwritten, h.unread, List.append_nil, List.append_nil] at hall
  exact hall

/-- Two schedules take the messages in the same order; for instance because no pass of
either reaches past an older message. -/
def AlikeOrdered (p : Process α β σ ε) (msgs : List (α ⊕ β)) (s : σ) (ms ms' : List Move)
    (f f' : Feed α β σ) : Prop :=
  f.taken = f'.taken ∨ AllMeet p.step (InOrder p) ms ⟨msgs, [], [], s⟩ ∧
    AllMeet p.step (InOrder p) ms' ⟨msgs, [], [], s⟩

theorem AlikeOrdered.taken (ho : AlikeOrdered p msgs s ms ms' f f')
    (h : Consumes p msgs s ms f) (h' : Consumes p msgs s ms' f') : f.taken = f'.taken := by
  rcases ho with htaken | ⟨hms, hms'⟩
  · exact htaken
  · exact (taken_account h hms).trans (taken_account h' hms').symm

/-- A pass does to the process what the messages it takes do one after the other. -/
def Splits (p : Process α β σ ε) (handle : α ⊕ β → σ → Except ε σ) : Prop :=
  ∀ a b s s', (b.isSome → p.second s = true) → p.turn a b s = .ok s' →
    runAll handle (a.toList.map .inl ++ b.toList.map .inr) s = .ok s'

/-- The process is where the messages it has taken lead, one after the other. -/
theorem handled {handle : α ⊕ β → σ → Except ε σ} (hp : Splits p handle)
    (hrun : runAll p.step ms ⟨msgs, [], [], s⟩ = .ok f) :
    runAll handle f.taken s = .ok f.state := by
  refine runAll.invariant (I := fun g => runAll handle g.taken s = .ok g.state) ?_ rfl hrun
  intro m g g' hg hstep
  cases m with
  | write =>
    obtain ⟨hstate, htaken, -⟩ := Process.step_write hstep
    rw [hstate, htaken]
    exact hg
  | wake =>
    obtain ⟨hturn, -, -, htaken⟩ := Process.step_wake hstep
    rw [htaken]
    refine runAll_append.mpr ⟨g.state, hg, hp _ _ _ _ ?_ hturn⟩
    intro hsome
    unfold headRight at hsome
    split at hsome
    · assumption
    · cases hsome

/-- Two runs that take the messages in the same order end in the same state. -/
theorem agree {handle : α ⊕ β → σ → Except ε σ} (hp : Splits p handle)
    (h : Consumes p msgs s ms f) (h' : Consumes p msgs s ms' f') (htaken : f.taken = f'.taken) :
    f.state = f'.state := by
  have hend := handled hp h.run
  have hend' := handled hp h'.run
  rw [htaken, hend'] at hend
  exact (Except.ok.inj hend).symm

/-- What is seen of the state, where a message in the second queue does not change it and one in
the first changes it to something that depends on nothing else. -/
structure Seen (handle : α ⊕ β → σ → Except ε σ) (view : σ → τ) (next : α → τ → τ) : Prop where
  left : ∀ a s s', handle (.inl a) s = .ok s' → view s' = next a (view s)
  right : ∀ b s s', handle (.inr b) s = .ok s' → view s' = view s

/-- Then only the messages in the first queue count. -/
theorem Seen.run {handle : α ⊕ β → σ → Except ε σ} {view : σ → τ} {next : α → τ → τ}
    (hv : Seen handle view next) {ms : List (α ⊕ β)} {s s' : σ}
    (h : runAll handle ms s = .ok s') :
    view s' = (lefts ms).foldl (fun t a => next a t) (view s) := by
  induction ms generalizing s with
  | nil =>
    obtain rfl := Except.ok.inj h
    rfl
  | cons m ms ih =>
    obtain ⟨t, hm, hrest⟩ := runAll_cons.mp h
    rw [ih hrest]
    cases m with
    | inl a =>
      rw [hv.left a s t hm]
      rfl
    | inr b =>
      rw [hv.right b s t hm]
      rfl

/-- So any two runs show the same in the end, whatever their order. -/
theorem Seen.agree {handle : α ⊕ β → σ → Except ε σ} {view : σ → τ} {next : α → τ → τ}
    (hv : Seen handle view next) (hp : Splits p handle) (h : Consumes p msgs s ms f)
    (h' : Consumes p msgs s ms' f') : view f.state = view f'.state := by
  rw [hv.run (handled hp h.run), hv.run (handled hp h'.run), lefts_account h, lefts_account h']

/-- If messages in the second queue do nothing, the whole state is seen. -/
theorem agree_of_quiet {handle : α ⊕ β → σ → Except ε σ} (hp : Splits p handle)
    (hquiet : ∀ b s, handle (.inr b) s = .ok s) (h : Consumes p msgs s ms f)
    (h' : Consumes p msgs s ms' f') : f.state = f'.state := by
  have hseen : Seen handle id fun a s => (handle (.inl a) s).toOption.getD s := by
    refine ⟨fun a s s' hs => ?_, fun b s s' hs => ?_⟩
    · rw [id, id, hs]
      rfl
    · rw [hquiet] at hs
      exact (Except.ok.inj hs).symm
  exact hseen.agree hp h h'

end Polling
