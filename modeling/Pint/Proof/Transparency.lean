import Pint.Proof.Handover
import Pint.Proof.InFlight

/-!
# Three replicas that look like one

The purpose of the voter, over whole runs of the system: whoever reads an output of a TMR
component reads what one copy of it would have written, as long as one replica at a time goes
wrong.

A `Controller` is what a copy of the component computes: from the bytes it has read, the bytes it
may have written. `Marked` runs the system of `Program.System` with a mark on the replica that is
not healthy. Any replica may get the mark while no other has it, and from then on may do
anything.

The invariant is `Transparent`. Its core is that each replica without the mark is `Healthy`: what
was forwarded, what the voter holds of it and what is in its pipe are together what it wrote, what
it read and what waits for it are what was fed to the component, and it wrote no more than the
component may. So two healthy replicas agree as far as the voter has both (`Healthy.agree`), and
that carries the rest. What a vote forwards is the front of every healthy queue. A vote restarts
nobody but the marked replica, as any other has a healthy one on its side
(`Voted.restartee_marked`). And the clone is as healthy as the replica that it was made from.

There is one exception to the last, and it is the code's: bytes in flight from the restarter are
written by the old process alone, and the clone believes that it wrote them. They are never read
from it. So a restart takes the mark away only if nothing was in flight (`Voter.Quiet`), and
otherwise the clone keeps it.

What is asked of the rest: that the replicas are served before their buffers are full, that a
`read` takes what there is, and that the watchdog does not run out for a healthy replica while
another one is marked; `Proof.Watchdog` shows whom it clones otherwise. A restart is one move
here: between the call of `restart_prep` and the signal of the clone no replica writes.
-/

namespace Pint

open Prog DescriptorTable Voting

/-! ## Healthy replicas -/

/-- What a component may have written when it has read this much. More input never takes
anything back. Nothing is said about when it writes, so replicas may be at different places in
their work and still be healthy. -/
structure Controller where
  answer : (Nat → List Byte) → Nat → List Byte
  monotone : ∀ {a b : Nat → List Byte}, (∀ p, a p <+: b p) → ∀ p, answer a p <+: answer b p

/-- What waits to be read from an external pipe. -/
def Voter.upstream (v : Voter) (p : Nat) : List Byte := v.kernel.waiting (v.extPipes p).fdIn

/-- Replica `x` has written what the component may write, and every byte that it wrote, and
every byte that it has to read, is in its place.

`output` and `input` are equations and not bounds: a byte that was lost or doubled on its way
would make one of them false. `silent` says that it has read nothing where there is nothing to
read, which `Controller` needs as it asks for what was read on every pipe. -/
structure Healthy (cfg : Config) (F : Controller) (fed : Nat → List Byte) (v : Voter) (x : Nat)
    (proc : RepProcess) : Prop where
  output : ∀ p, p < cfg.pipeCount → ¬ v.IsInput p →
    v.log.sent p ++ (v.queue x p ++ v.inFlight x p) = proc.emitted p
  input : ∀ p, p < cfg.pipeCount → v.IsInput p →
    proc.consumed p ++ (v.backlog x p ++ v.upstream p) = fed p
  silent : ∀ p, ¬ (p < cfg.pipeCount ∧ v.IsInput p) → proc.consumed p = []
  correct : ∀ p, proc.emitted p <+: F.answer proc.consumed p

/-- In `v'` the voter has of replica `x` what it had in `v` of replica `r`, or has passed it
on. With `r = x` this is what a step owes to a replica that it does not restart, and with `r` the
restarter and `x` the restartee what a restart owes to the clone. -/
structure Continues (cfg : Config) (v v' : Voter) (r x : Nat) : Prop where
  isInput : ∀ p, v'.IsInput p ↔ v.IsInput p
  output : ∀ p, p < cfg.pipeCount → ¬ v.IsInput p →
    v'.log.sent p ++ (v'.queue x p ++ v'.inFlight x p)
      = v.log.sent p ++ (v.queue r p ++ v.inFlight r p)
  input : ∀ p, p < cfg.pipeCount → v.IsInput p →
    v'.backlog x p ++ v'.upstream p = v.backlog r p ++ v.upstream p

/-- The external pipes are different kernel pipes, as far as the voter reads them. -/
structure Unshared (cfg : Config) (v : Voter) : Prop where
  inputs : ∀ p q k, p < cfg.pipeCount → q < cfg.pipeCount → v.IsInput p → v.IsInput q →
    v.kernel.lookup (v.extPipes p).fdIn = some (.readEnd k) →
    v.kernel.lookup (v.extPipes q).fdIn = some (.readEnd k) → p = q
  outputs : ∀ p q k, p < cfg.pipeCount → q < cfg.pipeCount → v.IsInput p →
    v.kernel.lookup (v.extPipes p).fdIn = some (.readEnd k) →
    v.kernel.lookup (v.extPipes q).fdOut ≠ some (.writeEnd k)

section Healthy

variable {cfg : Config} {env : Env} {F : Controller} {fed : Nat → List Byte} {plan : Plan}
  {id id' : Nat → Nat → Nat} {v v' w : Voter} {r x y p : Nat} {proc proc' : RepProcess}

theorem Healthy.continues (h : Healthy cfg F fed v r proc) (hc : Continues cfg v v' r x)
    (hm : proc'.consumed = proc.consumed ∧ proc'.emitted = proc.emitted) :
    Healthy cfg F fed v' x proc' where
  output p hp hout := by
    have hout' : ¬ v.IsInput p := fun hin => hout ((hc.isInput p).mpr hin)
    rw [hc.output p hp hout', hm.2, h.output p hp hout']
  input p hp hin := by
    have hin' := (hc.isInput p).mp hin
    rw [hc.input p hp hin', hm.1, h.input p hp hin']
  silent p hp := by
    rw [hm.1]
    exact h.silent p fun hc' => hp ⟨hc'.1, (hc.isInput p).mpr hc'.2⟩
  correct p := by
    rw [hm.1, hm.2]
    exact h.correct p

/-- A replica has read part of what was written to the component. -/
theorem Healthy.reads (h : Healthy cfg F fed v x proc) (p : Nat) : proc.consumed p <+: fed p := by
  by_cases hp : p < cfg.pipeCount ∧ v.IsInput p
  · exact ⟨_, h.input p hp.1 hp.2⟩
  · rw [h.silent p hp]
    exact List.nil_prefix

/-- What the voter has of a replica is part of what the component may write. -/
theorem Healthy.follows (h : Healthy cfg F fed v x proc) (hp : p < cfg.pipeCount)
    (hout : ¬ v.IsInput p) : v.log.sent p ++ v.queue x p <+: F.answer fed p := by
  have hhas : v.log.sent p ++ v.queue x p <+: proc.emitted p := by
    rw [← h.output p hp hout, ← List.append_assoc]
    exact List.prefix_append _ _
  exact (hhas.trans (h.correct p)).trans (F.monotone h.reads p)

/-- **Healthy replicas agree** as far as the voter has both: what was forwarded and what is
held of either is the front of one stream, that of the component on all that was fed to it. -/
theorem Healthy.agree {k : Nat} (h : Healthy cfg F fed v x proc) (h' : Healthy cfg F fed v y proc')
    (hp : p < cfg.pipeCount) (hout : ¬ v.IsInput p) (hk : k ≤ (v.queue x p).length)
    (hk' : k ≤ (v.queue y p).length) : Agree k (fun i => v.queue i p) x y :=
  Accounts.agree (q := fun i => v.queue i p) rfl rfl (h.follows hp hout) (h'.follows hp hout)
    hk hk'

end Healthy

/-! ## What the voter does to its books -/

section Pieces

variable {cfg : Config} {env : Env} {F : Controller} {fed : Nat → List Byte} {plan : Plan}
  {id id' : Nat → Nat → Nat} {v v' u w : Voter} {e r x p : Nat}

theorem Continues.refl (v : Voter) (x : Nat) : Continues cfg v v x x :=
  ⟨fun _ => Iff.rfl, fun _ _ _ => rfl, fun _ _ _ => rfl⟩

/-- The kernel pipe behind an external pipe is not one of a replica. -/
theorem Sound.source_ne (h : Sound cfg plan id v) (hp : p < cfg.pipeCount) {k : Nat}
    (hk : v.kernel.lookup (v.extPipes p).fdIn = some (.readEnd k)) :
    k < v.kernel.pipes ∧ ∀ i q, cfg.Slot i q → k ≠ id i q := by
  obtain ⟨⟨what, hwhat, hold⟩, -⟩ := h.wired.ext p hp
  rw [hk] at hwhat
  obtain rfl := Option.some.inj hwhat
  have hlt : k < plan.base := hold
  refine ⟨Nat.lt_of_lt_of_le hlt h.wired.base_le, fun i q hs => ?_⟩
  exact Nat.ne_of_lt (Nat.lt_of_lt_of_le hlt (h.wired.id_ge i q hs))

theorem upstream_congr (hfd : (v'.extPipes p).fdIn = (v.extPipes p).fdIn)
    (hlook : v'.kernel.lookup (v.extPipes p).fdIn = v.kernel.lookup (v.extPipes p).fdIn)
    (hun : ∀ k, v.kernel.lookup (v.extPipes p).fdIn = some (.readEnd k) →
      v'.kernel.unread k = v.kernel.unread k) : v'.upstream p = v.upstream p := by
  unfold Voter.upstream Kernel.waiting
  rw [hfd, hlook]
  split
  · rename_i k hk
    exact hun k hk
  · rfl

/-- The books by kernel pipe. -/
theorem Sound.continues (h : Sound cfg plan id v) (h' : Sound cfg plan id' v')
    (hr : r < cfg.repCount) (hx : x < cfg.repCount) (hin : ∀ p, v'.IsInput p ↔ v.IsInput p)
    (hout : ∀ p, p < cfg.pipeCount → ¬ v.IsInput p →
      v'.log.sent p ++ (v'.queue x p ++ v'.kernel.unread (id' x p))
        = v.log.sent p ++ (v.queue r p ++ v.kernel.unread (id r p)))
    (hinp : ∀ p, p < cfg.pipeCount → v.IsInput p →
      v'.kernel.unread (id' x p) ++ v'.upstream p = v.kernel.unread (id r p) ++ v.upstream p) :
    Continues cfg v v' r x where
  isInput := hin
  output p hp hnot := by
    rw [h.inFlight_eq ⟨hr, hp⟩ hnot, h'.inFlight_eq ⟨hx, hp⟩ fun hc => hnot ((hin p).mp hc)]
    exact hout p hp hnot
  input p hp hyes := by
    rw [h.wired.backlog_eq ⟨hr, hp⟩ hyes, h'.wired.backlog_eq ⟨hx, hp⟩ ((hin p).mpr hyes)]
    exact hinp p hp hyes

theorem Aside.continues (ha : Aside v v') (x : Nat) : Continues cfg v v' x x where
  isInput := ha.kept.isInput
  output p _ _ := by
    unfold Voter.queue Voter.inFlight
    rw [ha.sent, ha.vot, ha.kernel]
  input p _ _ := by
    unfold Voter.backlog Voter.upstream
    rw [ha.kernel, ha.kept.repPipes, (ha.kept.ext p).1]

/-- Input that is passed on goes from the external pipe to the end of each replica's, so the
two together are as they were. -/
theorem Passed.continues (hpass : Passed cfg id p v v') (h : Sound cfg plan id v)
    (h' : Sound cfg plan id v') (hap : Unshared cfg v) (ha : Armed env v v')
    (hp : p < cfg.pipeCount) (hx : x < cfg.repCount) : Continues cfg v v' x x := by
  have hin := ha.kept.isInput
  have hlook := ha.kept.lookup
  have hsent : v'.log.sent = v.log.sent := by rw [ha.log]
  cases hpass with
  | nothing hun =>
    refine h.continues h' hx hx hin (fun q _ _ => ?_) fun q _ _ => ?_
    · rw [hsent, ha.queue, hun]
    · rw [hun, upstream_congr (ha.kept.ext q).1 (hlook _) fun k _ => by rw [hun]]
  | @chunk k n hinp hk hleft hto hother =>
    obtain ⟨-, hne⟩ := h.source_ne hp hk
    refine h.continues h' hx hx hin (fun q hq hout => ?_) fun q hq hyes => ?_
    · have hpq : q ≠ p := fun heq => hout (heq ▸ hinp)
      rw [hsent, ha.queue, hother _ (hne x q ⟨hx, hq⟩).symm fun i hi heq =>
        hpq (h.wired.id_inj x q i p ⟨hx, hq⟩ ⟨hi, hp⟩ heq).2]
    · by_cases hpq : q = p
      · subst hpq
        -- The chunk goes to the end of the backlog, and what is left of the pipe comes behind it.
        have hup : v.upstream q = v.kernel.unread k := Kernel.waiting_readEnd hk
        have hup' : v'.upstream q = (v.kernel.unread k).drop n := by
          rw [← hleft]
          refine Kernel.waiting_readEnd ?_
          rw [hlook, (ha.kept.ext q).1]
          exact hk
        rw [hto x hx, hup, hup', List.append_assoc, List.take_append_drop]
      · rw [hother _ (hne x q ⟨hx, hq⟩).symm fun i hi heq =>
          hpq (h.wired.id_inj x q i p ⟨hx, hq⟩ ⟨hi, hp⟩ heq).2,
          upstream_congr (ha.kept.ext q).1 (hlook _) fun l hl => ?_]
        -- No other input comes from the same kernel pipe.
        refine hother l (fun heq => ?_) fun i hi => (h.source_ne hq hl).2 i p ⟨hi, hp⟩
        exact hpq (hap.inputs q p k hq hp hyes hinp (heq ▸ hl) hk)

/-- The pipe that the voter reads from a replica is not one that it reads input from. -/
theorem OnlyTook.upstream {q : Nat} (htook : OnlyTook (id r p) v w) (hk : Kept v w)
    (h : Sound cfg plan id v) (hs : cfg.Slot r p) (hq : q < cfg.pipeCount) :
    w.upstream q = v.upstream q :=
  upstream_congr (hk.ext q).1 (hk.lookup _) fun _ hl => htook _ ((h.source_ne hq hl).2 r p hs)

/-- Bytes are moved from the pipe of a replica to its queue. -/
theorem Accepted.continues {bytes : List Byte} (ha : Accepted cfg id r p bytes v w)
    (htook : OnlyTook (id r p) v w)
    (hleft : v.kernel.unread (id r p) = bytes ++ w.kernel.unread (id r p))
    (h : Sound cfg plan id v) (hs : cfg.Slot r p) (hout : ¬ v.IsInput p) (hx : x < cfg.repCount) :
    Continues cfg v w x x := by
  have hsent : w.log.sent = v.log.sent := by
    rw [ha.log]
    rfl
  have hw : Sound cfg plan id w := ⟨h.wired.kept ha.kept, ha.lockstep⟩
  have hsame : ∀ q, q < cfg.pipeCount → ¬ (x = r ∧ q = p) →
      w.kernel.unread (id x q) = v.kernel.unread (id x q) := fun q hq hne =>
    htook _ fun heq => hne (h.wired.id_inj x q r p ⟨hx, hq⟩ hs heq)
  refine h.continues hw hx hx ha.kept.isInput (fun q hq _ => ?_) fun q hq hyes => ?_
  · by_cases hxr : x = r ∧ q = p
    · rw [hxr.1, hxr.2, hsent, ha.queue, hleft, List.append_assoc]
    · rw [hsent, hsame q hq hxr]
      unfold Voter.queue
      rw [ha.vot_ne x q hxr]
  · have hne : ¬ (x = r ∧ q = p) := fun hc => hout (hc.2 ▸ hyes)
    rw [hsame q hq hne, htook.upstream ha.kept h hs hq]

/-- Bytes are thrown away. No other replica is concerned. -/
theorem Still.continues_refused (hst : Still v v') (htook : OnlyTook (id r p) v v')
    (h : Sound cfg plan id v) (hs : cfg.Slot r p) (hx : x < cfg.repCount) (hne : x ≠ r) :
    Continues cfg v v' x x := by
  have hsame : ∀ q, q < cfg.pipeCount → v'.kernel.unread (id x q) = v.kernel.unread (id x q) :=
    fun q hq => htook _ fun heq => hne (h.wired.id_inj x q r p ⟨hx, hq⟩ hs heq).1
  refine h.continues (h.still hst) hx hx hst.isInput (fun q hq _ => ?_) fun q hq _ => ?_
  · rw [hst.sent, hst.queue, hsame q hq]
  · rw [hsame q hq, htook.upstream hst.toKept h hs hq]

/-- What is sent was the front of every queue that agrees. Each queue loses as many bytes, and
the books of `x` are right because the bytes that went out were those that it lost. -/
theorem Sent.continues (hs : Sent cfg p r v v') (h : Sound cfg plan id v)
    (h' : Sound cfg plan id v') (hap : Unshared cfg v) (hp : p < cfg.pipeCount)
    (hx : x < cfg.repCount) (hagree : Agree (v.ready cfg p) (fun i => v.queue i p) r x) :
    Continues cfg v v' x x := by
  have hsame : ∀ q, q < cfg.pipeCount → v'.kernel.unread (id x q) = v.kernel.unread (id x q) := by
    intro q hq
    refine hs.wrote _ ?_
    rintro fd rfl
    exact h.wired.ext_fdOut_ne ⟨hx, hq⟩ hp
  refine h.continues h' hx hx hs.kept.isInput (fun q hq _ => ?_) fun q hq hyes => ?_
  · rw [hsame q hq, hs.log]
    by_cases hqp : q = p
    · subst hqp
      rw [hs.queue x hx]
      show Function.update v.log.sent q _ q ++ _ = _
      rw [Function.update_self, show (v.queue r q).take _ = (v.queue x q).take _ from hagree,
        List.append_assoc, ← List.append_assoc ((v.queue x q).take _), List.take_append_drop]
    · show Function.update v.log.sent p _ q ++ _ = _
      rw [Function.update_of_ne hqp]
      unfold Voter.queue
      rw [hs.vot_ne x q hqp]
  · rw [hsame q hq, upstream_congr (hs.kept.ext q).1 (hs.kept.lookup _) fun k hk => hs.wrote k ?_]
    rintro fd rfl
    exact hap.outputs q p k hq hp hyes hk

/-! ## A restart -/

/-- A `read` takes what there is, as far as it was asked for. -/
def Env.Eager (env : Env) : Prop :=
  ∀ t n bytes, env.taken t n bytes = min n bytes.length

/-- The kernel pipes that are left alone. -/
theorem Cloned.elsewhere_slot (hc : Cloned cfg env plan id e r v v') (h : Sound cfg plan id v)
    {q : Nat} (hs : cfg.Slot x q) (hr : r < cfg.repCount) (hxr : x ≠ r) :
    v'.kernel.unread (id x q) = v.kernel.unread (id x q) :=
  hc.elsewhere _ (h.wired.id_lt x q hs)
    (fun s hs' heq => hxr (h.wired.id_inj x q r s hs ⟨hr, hs'⟩ heq).1)
    fun _ hs' => h.wired.ext_fdOut_ne hs hs'

theorem Cloned.upstream (hc : Cloned cfg env plan id e r v v') (h : Sound cfg plan id v)
    (hap : Unshared cfg v) (he : e < cfg.repCount) (hr : r < cfg.repCount) {q : Nat}
    (hq : q < cfg.pipeCount) (hyes : v.IsInput q) : v'.upstream q = v.upstream q := by
  refine upstream_congr (by rw [hc.restarted.extPipes])
    (hc.relaid.lookup_ext h.wired he hq).1 fun k hk => ?_
  obtain ⟨hlt, hne⟩ := h.source_ne hq hk
  exact hc.elsewhere k hlt (fun s hs => hne r s ⟨hr, hs⟩) fun s hs =>
    hap.outputs q s k hq hs hyes hk

/-- All of a backlog that fits one `read` is stolen. -/
theorem stolen_all (henv : env.Eager) (hfit : (v.backlog r p).length ≤ maxVotePipeBuff) :
    v.stolen env r p = (v.backlog r p).length := by
  unfold Voter.stolen
  rw [henv]
  exact Nat.min_eq_right hfit

/-- A replica that is not restarted keeps what it has, if what is flushed agrees with it. Its
backlog is stolen and given back if it is the restarter, and left alone if it is the third. -/
theorem Cloned.continues (hc : Cloned cfg env plan id e r v v') (h : Sound cfg plan id v)
    (hap : Unshared cfg v) (henv : env.Eager) (he : e < cfg.repCount) (hr : r < cfg.repCount)
    (hx : x < cfg.repCount) (hxe : x ≠ e)
    (hfit : ∀ p, p < cfg.pipeCount → v.IsInput p → (v.backlog r p).length ≤ maxVotePipeBuff)
    (hagree : ∀ p, p < cfg.pipeCount → ¬ v.IsInput p →
      Agree (v.handedReady cfg e r p) (fun i => v.queue i p) r x) : Continues cfg v v' x x := by
  have hin : ∀ p, v'.IsInput p ↔ v.IsInput p := fun p => by
    unfold Voter.IsInput
    rw [hc.restarted.extPipes]
  refine h.continues hc.sound hx hx hin (fun q hq hout => ?_) fun q hq hyes => ?_
  · rw [refilled_of_ne hxe, hc.restarted.flight x q ⟨hx, hq⟩ hxe hout,
      hc.restarted.sent q hq hout, hc.restarted.queue x q ⟨hx, hq⟩ hout, handed_of_ne hxe,
      show (v.queue r q).take _ = (v.queue x q).take _ from hagree q hq hout,
      List.append_assoc, ← List.append_assoc ((v.queue x q).take _), List.take_append_drop]
  · rw [refilled_of_ne hxe, hc.upstream h hap he hr hq hyes]
    -- One `read` took all of the backlog, so nothing is left behind what was given back.
    by_cases hxr : x = r
    · rw [hxr, hc.refed.restarter q hq hyes, stolen_all henv (hfit q hq hyes), List.drop_length,
        List.take_length, List.nil_append, h.wired.backlog_eq ⟨hr, hq⟩ hyes]
    · rw [hc.elsewhere_slot h ⟨hx, hq⟩ hr hxr]

/-- The clone has what its source has, if nothing was in flight: its output pipes are new and
empty, its queues are copies, and its backlog was written twice. -/
theorem Cloned.continues_clone (hc : Cloned cfg env plan id e r v v') (h : Sound cfg plan id v)
    (hap : Unshared cfg v) (henv : env.Eager) (he : e < cfg.repCount) (hr : r < cfg.repCount)
    (hfit : ∀ p, p < cfg.pipeCount → v.IsInput p → (v.backlog r p).length ≤ maxVotePipeBuff)
    (hnone : ∀ p, p < cfg.pipeCount → ¬ v.IsInput p → v.inFlight r p = []) :
    Continues cfg v v' r e := by
  have hin : ∀ p, v'.IsInput p ↔ v.IsInput p := fun p => by
    unfold Voter.IsInput
    rw [hc.restarted.extPipes]
  refine h.continues hc.sound hr he hin (fun q hq hout => ?_) fun q hq hyes => ?_
  · have hnil := hnone q hq hout
    rw [h.inFlight_eq ⟨hr, hq⟩ hout] at hnil
    rw [refilled_self, hc.restarted.fresh q hq hout, hc.restarted.sent q hq hout,
      hc.restarted.queue e q ⟨he, hq⟩ hout, handed_self, hnil, List.append_nil, List.append_nil,
      List.append_assoc, List.take_append_drop]
  · rw [refilled_self, hc.upstream h hap he hr hq hyes, hc.refed.restartee q hq hyes,
      stolen_all henv (hfit q hq hyes), List.take_length, h.wired.backlog_eq ⟨hr, hq⟩ hyes]

/-- A vote that restarts nobody has found no disagreement, or no two that agree. What it sent,
if anything, was the front of all three queues. -/
theorem Voted.continues (hv : Voted cfg plan id p v v') (hno : v'.log.restarts = v.log.restarts)
    (h : Sound cfg plan id v) (hap : Unshared cfg v) (hmode : cfg.repType = .tmr)
    (hp : p < cfg.pipeCount) (hout : ¬ v.IsInput p) (hx : x < cfg.repCount) :
    Continues cfg v v' x x := by
  have hn : cfg.repCount = 3 := by rw [cfg.repCount_eq, hmode]; rfl
  have hsound := (hv.outward h hp hout hno).sound
  cases hv with
  | nothing _ hv =>
    rw [hv]
    exact Continues.refl v x
  | alone hsmr _ => exact absurd (hmode.symm.trans hsmr) (by simp)
  | pair hdmr _ _ _ => exact absurd (hmode.symm.trans hdmr) (by simp)
  | three _ _ hd =>
    unfold Voter.verdict at hd
    rw [hn] at hd
    cases hverdict : Voting.verdict 3 (v.ready cfg p) fun i => v.queue i p with
    | noTwo =>
      rw [hverdict] at hd
      cases hd with
      | noTwo hv =>
        have hst : Still v (v.say [.noTwoAgreed]) := still_say v (by simp [Message.alarm])
        rw [hv]
        exact (hst.aside rfl).continues x
    | unanimous w =>
      rw [hverdict] at hd
      obtain ⟨-, hall⟩ := verdict_unanimous hverdict
      cases hd with
      | unanimous hs => exact hs.continues h hsound hap hp hx (hall x (hn ▸ hx))
    | outvoted e r =>
      rw [hverdict] at hd
      cases hd with
      | outvoted hr =>
        have hlen := congrArg List.length (hr.restarts.symm.trans hno)
        rw [List.length_append, List.length_singleton] at hlen
        omega

/-- **A vote restarts nobody but the marked replica**, if the others are healthy. The loser of a
vote is at odds with both others; a healthy loser would agree with the healthy one among them. -/
theorem Voted.restartee_marked {procs : Nat → RepProcess} {bad : Option Nat}
    (hv : Voted cfg plan id p v v') (hone : v'.log.restarts = v.log.restarts ++ [(e, r)])
    (hmode : cfg.repType = .tmr) (hp : p < cfg.pipeCount) (hout : ¬ v.IsInput p)
    (hall : ∀ x, x < cfg.repCount → bad ≠ some x → Healthy cfg F fed v x (procs x)) :
    bad = some e := by
  have hn : cfg.repCount = 3 := by rw [cfg.repCount_eq, hmode]; rfl
  have hsame : ∀ restarts, restarts = v.log.restarts → v'.log.restarts ≠ restarts := by
    rintro restarts rfl hc
    have hlen := congrArg List.length (hone.symm.trans hc)
    rw [List.length_append, List.length_singleton] at hlen
    omega
  cases hv with
  | nothing _ hv => exact absurd (congrArg (fun w : Voter => w.log.restarts) hv) (hsame _ rfl)
  | alone hsmr _ => exact absurd (hmode.symm.trans hsmr) (by simp)
  | pair hdmr _ _ _ => exact absurd (hmode.symm.trans hdmr) (by simp)
  | three _ _ hd =>
    unfold Voter.verdict at hd
    rw [hn] at hd
    cases hverdict : Voting.verdict 3 (v.ready cfg p) fun i => v.queue i p with
    | noTwo =>
      rw [hverdict] at hd
      cases hd with
      | noTwo hv => exact absurd (congrArg (fun w : Voter => w.log.restarts) hv) (hsame _ rfl)
    | unanimous w =>
      rw [hverdict] at hd
      cases hd with
      | unanimous hs => exact absurd hs.restarts (hsame _ rfl)
    | outvoted loser winner =>
      rw [hverdict] at hd
      obtain ⟨-, hl, -, hdis, hothers⟩ := verdict_outvoted hverdict
      cases hd with
      | outvoted hr =>
        have hpair := List.append_cancel_left (hr.restarts.symm.trans hone)
        obtain ⟨rfl, rfl⟩ := Prod.mk.inj (List.cons.inj hpair).1
        by_contra hbad
        -- Another healthy replica agrees with the one that lost, and with the winner.
        obtain ⟨y, hy, hye, hyb⟩ : ∃ y, y < 3 ∧ y ≠ loser ∧ bad ≠ some y := by
          by_cases hfirst : bad = some ((loser + 1) % 3)
          · refine ⟨(loser + 2) % 3, by omega, by omega, fun hc => ?_⟩
            have := Option.some.inj (hfirst.symm.trans hc)
            omega
          · exact ⟨(loser + 1) % 3, by omega, by omega, hfirst⟩
        have hready : ∀ z, z < 3 → v.ready cfg p ≤ (v.queue z p).length := fun z hz =>
          ready_le_queue (hn ▸ hz)
        have hagree := (hall y (hn ▸ hy) hyb).agree (hall loser (hn ▸ hl) hbad) hp hout
          (hready y hy) (hready loser hl)
        exact hdis ((hothers y hy hye).trans hagree)

end Pieces

/-! ## Marks -/

/-- Nothing is in flight from replica `r`. -/
def Voter.Quiet (v : Voter) (cfg : Config) (r : Nat) : Prop :=
  ∀ p, p < cfg.pipeCount → (v.extPipes p).fdIn = 0 → v.inFlight r p = []

instance (v : Voter) (cfg : Config) (r : Nat) : Decidable (v.Quiet cfg r) :=
  inferInstanceAs (Decidable (∀ p, p < cfg.pipeCount → _))

/-- Who is marked after a restart: nobody, unless bytes were in flight from the restarter. The
mark of the old process is gone with it in either case. -/
def Voter.remark (v : Voter) (cfg : Config) (restart : Nat × Nat) : Option Nat :=
  if v.Quiet cfg restart.2 then none else some restart.1

/-- Everybody is healthy but the marked replica. -/
def AllHealthy (cfg : Config) (F : Controller) (fed : Nat → List Byte) (v : Voter)
    (procs : Nat → RepProcess) (bad : Option Nat) : Prop :=
  ∀ x, x < cfg.repCount → bad ≠ some x → Healthy cfg F fed v x (procs x)

/-- The pipes of the healthy replicas are being emptied: a backlog fits the one `read` of
`stealPipes`, and what a replica writes fits the vote buffer beside what is in there. -/
def Roomy (cfg : Config) (v : Voter) (bad : Option Nat) : Prop :=
  ∀ x, x < cfg.repCount → bad ≠ some x → ∀ p, p < cfg.pipeCount →
    if (v.extPipes p).fdIn ≠ 0 then (v.backlog x p).length ≤ maxVotePipeBuff
    else (v.queue x p).length + (v.inFlight x p).length < maxVotePipeBuff

instance (cfg : Config) (v : Voter) (bad : Option Nat) : Decidable (Roomy cfg v bad) :=
  inferInstanceAs (Decidable (∀ x, x < cfg.repCount → _))

section Marks

variable {cfg : Config} {env : Env} {F : Controller} {fed : Nat → List Byte} {plan : Plan}
  {id id' : Nat → Nat → Nat} {v v' u w : Voter} {e r x p : Nat} {procs procs' : Nat → RepProcess}
  {bad : Option Nat}

theorem AllHealthy.continues (h : AllHealthy cfg F fed v procs bad)
    (hc : ∀ x, x < cfg.repCount → bad ≠ some x → Continues cfg v v' x x) :
    AllHealthy cfg F fed v' procs bad :=
  fun x hx hbad => (h x hx hbad).continues (hc x hx hbad) ⟨rfl, rfl⟩

theorem Roomy.backlog (h : Roomy cfg v bad) (hx : x < cfg.repCount) (hbad : bad ≠ some x)
    (hp : p < cfg.pipeCount) (hin : v.IsInput p) : (v.backlog x p).length ≤ maxVotePipeBuff := by
  have hroom := h x hx hbad p hp
  unfold Voter.IsInput at hin
  rw [if_pos hin] at hroom
  exact hroom

theorem Roomy.queue (h : Roomy cfg v bad) (hx : x < cfg.repCount) (hbad : bad ≠ some x)
    (hp : p < cfg.pipeCount) (hout : ¬ v.IsInput p) :
    (v.queue x p).length + (v.inFlight x p).length < maxVotePipeBuff := by
  have hroom := h x hx hbad p hp
  unfold Voter.IsInput at hout
  rw [if_neg hout] at hroom
  exact hroom

/-- **After a restart** everybody is healthy but who is marked then. The processes of the two
that stay are the old ones; the clone has read and written what the restarter has. -/
theorem Cloned.healthy (hc : Cloned cfg env plan id e r v v') (h : Sound cfg plan id v)
    (hap : Unshared cfg v) (henv : env.Eager) (he : e < cfg.repCount) (hr : r < cfg.repCount)
    (hne : r ≠ e) (hbad : bad = none ∨ bad = some e)
    (hfit : ∀ p, p < cfg.pipeCount → v.IsInput p → (v.backlog r p).length ≤ maxVotePipeBuff)
    (hall : AllHealthy cfg F fed v procs bad) (hsame : ∀ x, x ≠ e → procs' x = procs x)
    (hclone : (procs' e).consumed = (procs r).consumed ∧ (procs' e).emitted = (procs r).emitted) :
    AllHealthy cfg F fed v' procs' (v'.remark cfg (e, r)) := by
  have hothers : ∀ x, x ≠ e → bad ≠ some x := by
    rintro x hx hc
    rcases hbad with hb | hb
    · cases hb.symm.trans hc
    · exact hx (Option.some.inj (hb.symm.trans hc)).symm
  have hsource := hall r hr (hothers r hne)
  intro x hx hmark
  by_cases hxe : x = e
  · subst hxe
    -- The clone is without the mark, so nothing was in flight, neither after the restart nor
    -- before it.
    have hquiet : v'.Quiet cfg r := by
      by_contra hq
      exact hmark (if_neg hq)
    refine hsource.continues (hc.continues_clone h hap henv he hr hfit fun p hp hout => ?_) hclone
    have hin : ¬ v'.IsInput p := by
      unfold Voter.IsInput
      rw [hc.restarted.extPipes]
      exact hout
    have hnil := hquiet p hp (not_not.mp hin)
    rw [hc.sound.inFlight_eq ⟨hr, hp⟩ hin, refilled_of_ne hne,
      hc.restarted.flight r p ⟨hr, hp⟩ hne hout] at hnil
    rw [h.inFlight_eq ⟨hr, hp⟩ hout]
    exact hnil
  · -- What is flushed is as long as the shortest queue, and the two that stay agree on that.
    have hhealthy := hall x hx (hothers x hxe)
    rw [hsame x hxe]
    refine hhealthy.continues (hc.continues h hap henv he hr hx hxe hfit fun p hp hout => ?_)
      ⟨rfl, rfl⟩
    have hready : ∀ y, y < cfg.repCount → y ≠ e →
        v.handedReady cfg e r p ≤ (v.queue y p).length := by
      intro y hy hye
      have hle : v.handedReady cfg e r p ≤ (v.handed e r p y).length := ready_le hy
      rwa [handed_of_ne hye] at hle
    exact hsource.agree hhealthy hp hout (hready r hr hne) (hready x hx hxe)

theorem Unshared.congr (h : Unshared cfg v) (hin : ∀ p, v'.IsInput p ↔ v.IsInput p)
    (hlook : ∀ p, p < cfg.pipeCount →
      v'.kernel.lookup (v'.extPipes p).fdIn = v.kernel.lookup (v.extPipes p).fdIn ∧
        v'.kernel.lookup (v'.extPipes p).fdOut = v.kernel.lookup (v.extPipes p).fdOut) :
    Unshared cfg v' where
  inputs p q k hp hq hpin hqin := by
    rw [(hlook p hp).1, (hlook q hq).1]
    exact h.inputs p q k hp hq ((hin p).mp hpin) ((hin q).mp hqin)
  outputs p q k hp hq hpin := by
    rw [(hlook p hp).1, (hlook q hq).2]
    exact h.outputs p q k hp hq ((hin p).mp hpin)

theorem Unshared.kept (h : Unshared cfg v) (hk : Kept v v') : Unshared cfg v' :=
  h.congr hk.isInput fun p _ => by
    rw [hk.lookup, hk.lookup, (hk.ext p).1, (hk.ext p).2]
    exact ⟨rfl, rfl⟩

theorem Unshared.cloned (h : Unshared cfg v) (hc : Cloned cfg env plan id e r v v')
    (hs : Sound cfg plan id v) (he : e < cfg.repCount) : Unshared cfg v' := by
  refine h.congr (fun p => ?_) fun p hp => ?_
  · unfold Voter.IsInput
    rw [hc.restarted.extPipes]
  · rw [hc.restarted.extPipes]
    exact hc.relaid.lookup_ext hs.wired he hp

/-- The marks after a piece of the main loop that starts with `bad` and `procs`. Who was
restarted is read off the voter's log; the process of the clone is whatever `System.clone` makes
of it, so the second case holds for every one that has read and written what the source has. -/
inductive Remarked (cfg : Config) (F : Controller) (fed : Nat → List Byte)
    (procs : Nat → RepProcess) (bad : Option Nat) (v v' : Voter) : Prop where
  | same (h : v'.log.restarts = v.log.restarts) (hall : AllHealthy cfg F fed v' procs bad)
  | one {e r : Nat} (he : e < cfg.repCount) (hr : r < cfg.repCount)
      (h : v'.log.restarts = v.log.restarts ++ [(e, r)])
      (hall : ∀ procs' : Nat → RepProcess, (∀ x, x ≠ e → procs' x = procs x) →
        ((procs' e).consumed = (procs r).consumed ∧ (procs' e).emitted = (procs r).emitted) →
        AllHealthy cfg F fed v' procs' (v'.remark cfg (e, r)))

/-- What is in flight and what is asked about it does not change behind a restart. -/
theorem Aside.remark (ha : Aside w v') (restart : Nat × Nat) :
    v'.remark cfg restart = w.remark cfg restart := by
  have hfd : ∀ p, (v'.extPipes p).fdIn = (w.extPipes p).fdIn := fun p => (ha.kept.ext p).1
  have hflight : ∀ r p, v'.inFlight r p = w.inFlight r p := by
    intro r p
    unfold Voter.inFlight
    rw [ha.kernel, ha.vot]
  refine if_congr ?_ rfl rfl
  unfold Voter.Quiet
  simp only [hfd, hflight]

/-- A replica's output pipe is served. If the vote restarts somebody, that is the marked one, and
its source has the room that `stealPipes` needs. -/
theorem Served.remarked (hserved : Served cfg env plan id r p v v') (h : Sound cfg plan id v)
    (hs : cfg.Slot r p) (hout : ¬ v.IsInput p) (hap : Unshared cfg v) (henv : env.Eager)
    (hmode : cfg.repType = .tmr) (hroom : Roomy cfg v bad)
    (hall : AllHealthy cfg F fed v procs bad) :
    Unshared cfg v' ∧ Remarked cfg F fed procs bad v v' := by
  have hflight := h.inFlight_eq hs hout
  cases hserved with
  | refused hfull hst htook =>
    -- Only the marked replica can have written more than there is room for.
    refine ⟨hap.kept hst.toKept, .same hst.restarts (hall.continues fun x hx hbad => ?_)⟩
    refine hst.continues_refused htook h hs hx ?_
    rintro rfl
    have hlt := hroom.queue hx hbad hs.2 hout
    have harr : (v.arriving env (id x p)).length ≤ (v.kernel.unread (id x p)).length :=
      List.length_take_le' _ _
    rw [hflight] at hlt
    omega
  | voted hfit w hw htook hleft hv hone =>
    have hsw : Sound cfg plan id w := ⟨h.wired.kept hw.kept, hw.lockstep⟩
    have hapw := hap.kept hw.kept
    have houtw : ¬ w.IsInput p := fun hc => hout ((hw.kept.isInput p).mp hc)
    have hallw : AllHealthy cfg F fed w procs bad :=
      hall.continues fun x hx _ => hw.continues htook hleft h hs hout hx
    have hrestarts : w.log.restarts = v.log.restarts := by
      rw [hw.log]
      rfl
    cases hone with
    | none hno =>
      have ho := hv.outward hsw hs.2 houtw hno
      exact ⟨hapw.kept ho.kept, .same (hno.trans hrestarts) (hallw.continues fun x hx _ =>
        hv.continues hno hsw hapw hmode hs.2 houtw hx)⟩
    | @one e r' he hr' hne hc =>
      have hbad := hv.restartee_marked hc.restarted.restarts hmode hs.2 houtw hallw
      have hfitw : ∀ q, q < cfg.pipeCount → w.IsInput q →
          (w.backlog r' q).length ≤ maxVotePipeBuff := by
        intro q hq hin
        have hinv := (hw.kept.isInput q).mp hin
        have hpq : q ≠ p := fun heq => hout (heq ▸ hinv)
        rw [hsw.wired.backlog_eq ⟨hr', hq⟩ hin, htook _ fun heq =>
          hpq (h.wired.id_inj r' q r p ⟨hr', hq⟩ hs heq).2, ← h.wired.backlog_eq ⟨hr', hq⟩ hinv]
        refine hroom.backlog hr' (fun hc' => hne ?_) hq hinv
        exact (Option.some.inj (hbad.symm.trans hc')).symm
      refine ⟨hapw.cloned hc hsw he, .one he hr' ?_ fun procs' hsame hclone => ?_⟩
      · rw [hc.restarted.restarts, hrestarts]
      · exact hc.healthy hsw hapw henv he hr' hne (Or.inr hbad) hfitw hallw hsame hclone

/-- **One piece of the main loop**, when the watchdog does not run out for a healthy replica
while another is marked. -/
theorem Went.remarked (hg : Went cfg env plan id v v') (h : Sound cfg plan id v)
    (hap : Unshared cfg v) (henv : env.Eager) (hmode : cfg.repType = .tmr) (hroom : Roomy cfg v bad)
    (hdue : v.watchdogDue cfg env → bad = none ∨ bad = some (v.restartee cfg))
    (hall : AllHealthy cfg F fed v procs bad) :
    Unshared cfg v' ∧ Remarked cfg F fed procs bad v v' := by
  cases hg with
  | aside ha =>
    exact ⟨hap.kept ha.kept, .same ha.restarts (hall.continues fun x _ _ => ha.continues x)⟩
  | passed hp ha _ hpass =>
    refine ⟨hap.kept ha.kept, .same (by rw [ha.log]) (hall.continues fun x hx _ => ?_)⟩
    exact hpass.continues h (h.armed ha) hap ha hp hx
  | served hs hout hserved => exact hserved.remarked h hs hout hap henv hmode hroom hall
  | @handled u w hwatch hu hc hv =>
    -- `u` is the voter when the handler calls `restart_prep`, and `w` when that is done.
    obtain ⟨hr, hne⟩ := restarter_ne (Or.inr hmode) (v.restartee cfg)
    have he : v.restartee cfg < cfg.repCount := behindRep_lt (Nat.zero_lt_of_lt hr)
    have hsu := h.aside hu
    have hapu := hap.kept hu.kept
    have hbad := hdue hwatch
    have hallu : AllHealthy cfg F fed u procs bad := hall.continues fun x _ _ => hu.continues x
    refine ⟨(hapu.cloned hc hsu he).kept hv.kept, .one he hr ?_ fun procs' hsame hclone => ?_⟩
    · rw [hv.restarts, hc.restarted.restarts, hu.restarts]
    · rw [hv.remark]
      refine AllHealthy.continues ?_ fun x _ _ => hv.continues x
      refine hc.healthy hsu hapu henv he hr hne hbad (fun p hp hin => ?_) hallu hsame hclone
      have hback : u.backlog (cfg.restarter (v.restartee cfg)) p
          = v.backlog (cfg.restarter (v.restartee cfg)) p := by
        unfold Voter.backlog
        rw [hu.kernel, hu.kept.repPipes]
      rw [hback]
      refine hroom.backlog hr (fun hc' => ?_) hp ((hu.kept.isInput p).mp hin)
      rcases hbad with hb | hb
      · cases hb.symm.trans hc'
      · exact hne (Option.some.inj (hb.symm.trans hc')).symm

end Marks

/-! ## What the replicas and the outside do -/

section Outside

variable {cfg : Config} {env : Env} {F : Controller} {fed : Nat → List Byte} {plan : Plan}
  {id : Nat → Nat → Nat} {v₀ : Voter} {s s' : System} {i x p q n : Nat} {proc : RepProcess}
  {bytes : List Byte}

theorem setUnread_self (s : System) (k : Nat) (bytes : List Byte) :
    (s.setUnread k bytes).m.v.kernel.unread k = bytes := Function.update_self _ _ _

theorem setUnread_ne {k l : Nat} (h : l ≠ k) :
    (s.setUnread k bytes).m.v.kernel.unread l = s.m.v.kernel.unread l :=
  Function.update_of_ne h _ _

/-- The bytes in a kernel pipe of a replica are those of one of its slots. -/
theorem setUnread_slot (h : Sound cfg plan id s.m.v) (hs : cfg.Slot i p) (hx : cfg.Slot x q) :
    (s.setUnread (id i p) bytes).m.v.kernel.unread (id x q)
      = if x = i ∧ q = p then bytes else s.m.v.kernel.unread (id x q) := by
  by_cases hxi : x = i ∧ q = p
  · rw [if_pos hxi, hxi.1, hxi.2, setUnread_self]
  · rw [if_neg hxi, setUnread_ne fun heq => hxi (h.wired.id_inj x q i p hx hs heq)]

theorem setUnread_inFlight (h : Sound cfg plan id s.m.v) (hs : cfg.Slot i p) (hx : cfg.Slot x q)
    (hout : ¬ s.m.v.IsInput q) : (s.setUnread (id i p) bytes).m.v.inFlight x q
      = if x = i ∧ q = p then bytes else s.m.v.inFlight x q := by
  have h' := h.still (still_setUnread s (id i p) bytes)
  rw [h'.inFlight_eq hx hout, h.inFlight_eq hx hout, setUnread_slot h hs hx]

theorem setUnread_backlog (h : Sound cfg plan id s.m.v) (hs : cfg.Slot i p) (hx : cfg.Slot x q)
    (hin : s.m.v.IsInput q) : (s.setUnread (id i p) bytes).m.v.backlog x q
      = if x = i ∧ q = p then bytes else s.m.v.backlog x q := by
  have h' := h.still (still_setUnread s (id i p) bytes)
  rw [h'.wired.backlog_eq hx hin, h.wired.backlog_eq hx hin, setUnread_slot h hs hx]

theorem setUnread_upstream (h : Sound cfg plan id s.m.v) (hs : cfg.Slot i p)
    (hq : q < cfg.pipeCount) :
    (s.setUnread (id i p) bytes).m.v.upstream q = s.m.v.upstream q :=
  upstream_congr rfl rfl fun _ hl => setUnread_ne ((h.source_ne hq hl).2 i p hs)

/-- Another replica has read or written. -/
theorem Healthy.of_other (hx : Healthy cfg F fed s.m.v x proc) (h : Sound cfg plan id s.m.v)
    (hs : cfg.Slot i p) (hlt : x < cfg.repCount) (hne : x ≠ i) :
    Healthy cfg F fed (s.setUnread (id i p) bytes).m.v x proc := by
  have hno : ∀ q, ¬ (x = i ∧ q = p) := fun q hc => hne hc.1
  refine hx.continues ⟨fun _ => Iff.rfl, fun q hq hout => ?_, fun q hq hin => ?_⟩ ⟨rfl, rfl⟩
  · rw [setUnread_inFlight h hs ⟨hlt, hq⟩ hout, if_neg (hno q)]
    rfl
  · rw [setUnread_backlog h hs ⟨hlt, hq⟩ hin, if_neg (hno q), setUnread_upstream h hs hq]

/-- The replica itself has read. -/
theorem Healthy.read (hx : Healthy cfg F fed s.m.v i proc) (h : Sound cfg plan id s.m.v)
    (hs : cfg.Slot i p) (hin : s.m.v.IsInput p) (n : Nat) :
    Healthy cfg F fed (s.setUnread (id i p) ((s.m.v.kernel.unread (id i p)).drop n)).m.v i
      (proc.took p ((s.m.v.kernel.unread (id i p)).take n)) where
  output q hq hout := by
    have hqp : ¬ (i = i ∧ q = p) := fun hc => hout (hc.2 ▸ hin)
    rw [setUnread_inFlight h hs ⟨hs.1, hq⟩ hout, if_neg hqp]
    exact hx.output q hq hout
  input q hq hin' := by
    rw [setUnread_backlog h hs ⟨hs.1, hq⟩ hin', setUnread_upstream h hs hq]
    have hbooks := hx.input q hq hin'
    by_cases hqp : q = p
    · subst hqp
      rw [h.wired.backlog_eq hs hin'] at hbooks
      rw [if_pos ⟨rfl, rfl⟩, ← hbooks, RepProcess.took_consumed_self, List.append_assoc,
        ← List.append_assoc (List.take _ _), List.take_append_drop]
    · rw [if_neg fun hc => hqp hc.2, ← hbooks, RepProcess.took_consumed_ne hqp]
  silent q hq := by
    have hqp : q ≠ p := fun hc => hq ⟨hc ▸ hs.2, hc ▸ hin⟩
    exact (RepProcess.took_consumed_ne hqp).trans (hx.silent q hq)
  correct q := by
    refine (hx.correct q).trans (F.monotone (fun q' => ?_) q)
    by_cases hqp : q' = p
    · rw [hqp, RepProcess.took_consumed_self]
      exact List.prefix_append _ _
    · exact ⟨[], by rw [RepProcess.took_consumed_ne hqp, List.append_nil]⟩

/-- The replica itself has written what it may. -/
theorem Healthy.write (hx : Healthy cfg F fed s.m.v i proc) (h : Sound cfg plan id s.m.v)
    (hs : cfg.Slot i p) (hout : ¬ s.m.v.IsInput p)
    (hmay : proc.emitted p ++ bytes <+: F.answer proc.consumed p) :
    Healthy cfg F fed (s.setUnread (id i p) (s.m.v.kernel.unread (id i p) ++ bytes)).m.v i
      (proc.put p bytes) where
  output q hq hout' := by
    rw [setUnread_inFlight h hs ⟨hs.1, hq⟩ hout']
    have hbooks := hx.output q hq hout'
    by_cases hqp : q = p
    · subst hqp
      rw [h.inFlight_eq hs hout'] at hbooks
      rw [if_pos ⟨rfl, rfl⟩, RepProcess.put_emitted_self, ← hbooks, List.append_assoc,
        List.append_assoc]
      rfl
    · rw [if_neg fun hc => hqp hc.2, RepProcess.put_emitted_ne hqp]
      exact hbooks
  input q hq hin := by
    have hqp : ¬ (i = i ∧ q = p) := fun hc => hout (hc.2 ▸ hin)
    rw [setUnread_backlog h hs ⟨hs.1, hq⟩ hin, if_neg hqp, setUnread_upstream h hs hq]
    exact hx.input q hq hin
  silent q hq := hx.silent q hq
  correct q := by
    by_cases hqp : q = p
    · rw [hqp, RepProcess.put_emitted_self]
      exact hmay
    · rw [RepProcess.put_emitted_ne hqp]
      exact hx.correct q

/-- Somebody has written to an external pipe. -/
theorem Healthy.feed (hx : Healthy cfg F s.fed s.m.v x proc) (h : Sound cfg plan id s.m.v)
    (hap : Unshared cfg s.m.v) (hlt : x < cfg.repCount) (hp : p < cfg.pipeCount)
    (hin : s.m.v.IsInput p) {k : Nat}
    (hk : s.m.v.kernel.lookup (s.m.v.extPipes p).fdIn = some (.readEnd k)) :
    Healthy cfg F (Function.update s.fed p (s.fed p ++ bytes))
      (s.setUnread k (s.m.v.kernel.unread k ++ bytes)).m.v x proc := by
  have h' := h.still (still_setUnread s k (s.m.v.kernel.unread k ++ bytes))
  have hne := (h.source_ne hp hk).2
  have hslot : ∀ q, q < cfg.pipeCount →
      (s.setUnread k (s.m.v.kernel.unread k ++ bytes)).m.v.kernel.unread (id x q)
        = s.m.v.kernel.unread (id x q) := fun q hq => setUnread_ne (hne x q ⟨hlt, hq⟩).symm
  refine ⟨fun q hq hout => ?_, fun q hq hin' => ?_, hx.silent, hx.correct⟩
  · rw [h'.inFlight_eq ⟨hlt, hq⟩ hout, hslot q hq, ← h.inFlight_eq ⟨hlt, hq⟩ hout]
    exact hx.output q hq hout
  · have hbooks := hx.input q hq hin'
    rw [h'.wired.backlog_eq ⟨hlt, hq⟩ hin', hslot q hq, ← h.wired.backlog_eq ⟨hlt, hq⟩ hin']
    by_cases hqp : q = p
    · subst hqp
      have hup : s.m.v.upstream q = s.m.v.kernel.unread k := Kernel.waiting_readEnd hk
      have hup' : (s.setUnread k (s.m.v.kernel.unread k ++ bytes)).m.v.upstream q
          = s.m.v.kernel.unread k ++ bytes := by
        have hk' : (s.setUnread k (s.m.v.kernel.unread k ++ bytes)).m.v.kernel.lookup
            (s.m.v.extPipes q).fdIn = some (.readEnd k) := hk
        exact (Kernel.waiting_readEnd hk').trans (setUnread_self _ _ _)
      rw [Function.update_self, hup', ← hbooks, hup, List.append_assoc, List.append_assoc]
    · rw [Function.update_of_ne hqp, ← hbooks]
      refine congrArg (fun up => proc.consumed q ++ (s.m.v.backlog x q ++ up)) ?_
      refine upstream_congr rfl rfl fun l hl => setUnread_ne ?_
      rintro rfl
      exact hqp (hap.inputs q p l hq hp hin' hin hl hk)

/-! ## The pipes of a replica -/

theorem handout_getD (v : Voter) (hp : ¬ p < cfg.pipeCount) : (v.handout cfg).getD p {} = {} := by
  rw [List.getD_eq_getElem?_getD, List.getElem?_eq_none]
  · rfl
  · unfold Voter.handout
    rw [List.length_zipWith, List.length_range, length_arrivals, Nat.min_self]
    exact Nat.not_lt.mp hp

theorem Equipped.isInput (h : Equipped cfg v₀ plan id s) (p : Nat) :
    s.m.v.IsInput p ↔ v₀.IsInput p := by
  unfold Voter.IsInput
  rw [(h.alike.ext p).1]

/-- A replica reads from its input pipes. -/
theorem Equipped.reads (h : Equipped cfg v₀ plan id s) (hi : i < cfg.repCount)
    (hne : ((s.procs i).pipes.getD p {}).fdIn ≠ 0) : cfg.Slot i p ∧ s.m.v.IsInput p ∧
      (s.procs i).lookup ((s.procs i).pipes.getD p {}).fdIn = some (.readEnd (id i p)) := by
  have hp : p < cfg.pipeCount := by
    by_contra hp
    rw [h.pipes hi, handout_getD v₀ hp] at hne
    exact hne rfl
  have hatt := h.attached ⟨hi, hp⟩
  have hin : v₀.IsInput p := by
    by_contra hout
    exact hne (hatt.output hout).1
  exact ⟨⟨hi, hp⟩, (h.isInput p).mpr hin, (hatt.input hin).2.2.1⟩

/-- A replica writes to its output pipes. -/
theorem Equipped.writes (h : Equipped cfg v₀ plan id s) (hi : i < cfg.repCount)
    (hne : ((s.procs i).pipes.getD p {}).fdOut ≠ 0) : cfg.Slot i p ∧ ¬ s.m.v.IsInput p ∧
      (s.procs i).lookup ((s.procs i).pipes.getD p {}).fdOut = some (.writeEnd (id i p)) := by
  have hp : p < cfg.pipeCount := by
    by_contra hp
    rw [h.pipes hi, handout_getD v₀ hp] at hne
    exact hne rfl
  have hatt := h.attached ⟨hi, hp⟩
  have hout : ¬ v₀.IsInput p := fun hin => hne (hatt.input hin).2.1
  exact ⟨⟨hi, hp⟩, fun hin => hout ((h.isInput p).mp hin), (hatt.output hout).2.2.1⟩

end Outside

/-! ## Runs -/

/-- The system, with a mark on the replica that is not healthy. -/
structure Marked where
  s : System
  bad : Option Nat := none

inductive MarkedMove where
  | move (mv : SystemMove)
  /-- From now on replica `i` may do anything. -/
  | fail (i : Nat)
deriving DecidableEq, Repr

namespace Marked

def start (v : Voter) : Marked where
  s := System.start v

/-- The mark when `t` has become `s`: each restart since then sets it anew. -/
def mark (cfg : Config) (t : Marked) (s : System) : Option Nat :=
  (s.m.v.log.restarts.drop t.s.m.v.log.restarts.length).foldl
    (fun _ restart => s.m.v.remark cfg restart) t.bad

def step (cfg : Config) (env : Env) : MarkedMove → Marked → Except Stop Marked
  | .fail i, t => .ok { t with bad := some i }
  | .move mv, t =>
    match System.step cfg env mv t.s with
    | .ok s => .ok { s, bad := t.mark cfg s }
    | .error e => .error e

/-- A replica fails only if no other is marked. Who is not marked writes what the component may
write. The voter does its next piece while there is room, and if the watchdog has run out, it has
for the marked replica if there is one. -/
def Permitted (cfg : Config) (env : Env) (F : Controller) : MarkedMove → Marked → Prop
  | .fail i, t => t.bad = none ∨ t.bad = some i
  | .move (.feed _ _), _ => True
  | .move (.read i _ _), _ => i < cfg.repCount
  | .move (.write i p bytes), t => i < cfg.repCount ∧ (t.bad ≠ some i →
      (t.s.procs i).emitted p ++ bytes <+: F.answer (t.s.procs i).consumed p)
  | .move .voter, t => Roomy cfg t.s.m.v t.bad ∧
      (t.s.m.v.watchdogDue cfg env → t.bad = none ∨ t.bad = some (t.s.m.v.restartee cfg))

instance Permitted.decidable (cfg : Config) (env : Env) (F : Controller) :
    ∀ mv t, Decidable (Permitted cfg env F mv t)
  | .fail _, _ => inferInstanceAs (Decidable (_ ∨ _))
  | .move (.feed _ _), _ => inferInstanceAs (Decidable True)
  | .move (.read _ _ _), _ => inferInstanceAs (Decidable (_ < _))
  | .move (.write _ _ _), _ => inferInstanceAs (Decidable (_ ∧ _))
  | .move .voter, _ => inferInstanceAs (Decidable (_ ∧ _))

end Marked

section Restarts

variable {cfg : Config}

theorem feed_restarts (s : System) (p : Nat) (bytes : List Byte) :
    (s.feed cfg p bytes).m.v.log.restarts = s.m.v.log.restarts := by
  unfold System.feed
  split
  · split <;> rfl
  · rfl

theorem read_restarts (s : System) (i p n : Nat) :
    (s.read i p n).m.v.log.restarts = s.m.v.log.restarts := by
  unfold System.read
  dsimp only
  split
  · split <;> rfl
  · rfl

theorem write_restarts (s : System) (i p : Nat) (bytes : List Byte) :
    (s.write i p bytes).m.v.log.restarts = s.m.v.log.restarts := by
  unfold System.write
  dsimp only
  split
  · split <;> rfl
  · rfl

end Restarts

/-- The invariant: everybody is equipped, and healthy without the mark. The pipes of the outside
stay apart, which no step touches and which every step needs. -/
structure Transparent (cfg : Config) (F : Controller) (v₀ : Voter) (plan : Plan)
    (id : Nat → Nat → Nat) (t : Marked) : Prop where
  equipped : Equipped cfg v₀ plan id t.s
  apart : Unshared cfg t.s.m.v
  healthy : AllHealthy cfg F t.s.fed t.s.m.v t.s.procs t.bad

section Run

variable {cfg : Config} {env : Env} {F : Controller} {plan : Plan} {id : Nat → Nat → Nat}
  {v₀ : Voter} {t t' : Marked} {s' : System} {i p n : Nat} {bytes : List Byte}

theorem Transparent.feed (h : Transparent cfg F v₀ plan id t) :
    Transparent cfg F v₀ plan id { t with s := t.s.feed cfg p bytes } := by
  refine ⟨h.equipped.feed, ?_, ?_⟩
  all_goals
    dsimp only
    unfold System.feed
    split
  · split
    · exact h.apart.kept (still_setUnread t.s _ _).toKept
    · exact h.apart
  · exact h.apart
  · rename_i hin
    split
    · rename_i k hk
      exact fun x hx hbad =>
        (h.healthy x hx hbad).feed h.equipped.sound h.apart hx hin.1 hin.2 hk
    · exact h.healthy
  · exact h.healthy

theorem Transparent.read (h : Transparent cfg F v₀ plan id t) (hi : i < cfg.repCount) :
    Transparent cfg F v₀ plan id { t with s := t.s.read i p n } := by
  by_cases hne : ((t.s.procs i).pipes.getD p {}).fdIn ≠ 0
  · obtain ⟨hs, hin, hlook⟩ := h.equipped.reads hi hne
    have hread : t.s.read i p n =
        (t.s.setUnread (id i p) ((t.s.m.v.kernel.unread (id i p)).drop n)).setProc i
          ((t.s.procs i).took p ((t.s.m.v.kernel.unread (id i p)).take n)) := by
      unfold System.read
      dsimp only
      rw [if_pos hne, hlook]
    refine ⟨h.equipped.read, ?_, ?_⟩
    · rw [hread]
      exact h.apart.kept (still_setUnread t.s _ _).toKept
    · rw [hread]
      intro x hx hbad
      show Healthy cfg F _ _ x (Function.update t.s.procs i _ x)
      by_cases hxi : x = i
      · subst hxi
        rw [Function.update_self]
        exact (h.healthy x hx hbad).read h.equipped.sound hs hin n
      · rw [Function.update_of_ne hxi]
        exact (h.healthy x hx hbad).of_other h.equipped.sound hs hx hxi
  · have hread : t.s.read i p n = t.s := by
      unfold System.read
      dsimp only
      rw [if_neg hne]
    rw [hread]
    exact h

theorem Transparent.write (h : Transparent cfg F v₀ plan id t) (hi : i < cfg.repCount)
    (hmay : t.bad ≠ some i →
      (t.s.procs i).emitted p ++ bytes <+: F.answer (t.s.procs i).consumed p) :
    Transparent cfg F v₀ plan id { t with s := t.s.write i p bytes } := by
  by_cases hne : ((t.s.procs i).pipes.getD p {}).fdOut ≠ 0
  · obtain ⟨hs, hout, hlook⟩ := h.equipped.writes hi hne
    have hwrite : t.s.write i p bytes =
        (t.s.setUnread (id i p) (t.s.m.v.kernel.unread (id i p) ++ bytes)).setProc i
          ((t.s.procs i).put p bytes) := by
      unfold System.write
      dsimp only
      rw [if_pos hne, hlook]
    refine ⟨h.equipped.write, ?_, ?_⟩
    · rw [hwrite]
      exact h.apart.kept (still_setUnread t.s _ _).toKept
    · rw [hwrite]
      intro x hx hbad
      show Healthy cfg F _ _ x (Function.update t.s.procs i _ x)
      by_cases hxi : x = i
      · subst hxi
        rw [Function.update_self]
        exact (h.healthy x hx hbad).write h.equipped.sound hs hout (hmay hbad)
      · rw [Function.update_of_ne hxi]
        exact (h.healthy x hx hbad).of_other h.equipped.sound hs hx hxi
  · have hwrite : t.s.write i p bytes = t.s := by
      unfold System.write
      dsimp only
      rw [if_neg hne]
    rw [hwrite]
    exact h

/-- **A piece of the main loop**, with the mark. What the piece did to the voter is `Went`; the
cloned process and the new mark are then read off what was added to the list of restarts. -/
theorem Transparent.voter (h : Transparent cfg F v₀ plan id t) (hmode : cfg.repType = .tmr)
    (henv : env.Eager) (hroom : Roomy cfg t.s.m.v t.bad)
    (hdue : t.s.m.v.watchdogDue cfg env → t.bad = none ∨ t.bad = some (t.s.m.v.restartee cfg))
    (hstep : t.s.voter cfg env = .ok s') :
    ∃ id', Transparent cfg F v₀ plan id' { s := s', bad := t.mark cfg s' } := by
  obtain ⟨id', hequipped⟩ := h.equipped.voter (Or.inr hmode) hstep
  obtain ⟨m, hgo, rfl⟩ := System.voter_ok hstep
  have hgoes := Machine.go_went h.equipped.sound h.equipped.within (Or.inr hmode) hgo
  obtain ⟨hap, hon⟩ := hgoes.remarked h.equipped.sound h.apart henv hmode hroom hdue h.healthy
  cases hon with
  | same hno hall =>
    have hmark : t.mark cfg { t.s with m } = t.bad := by
      unfold Marked.mark
      rw [hno, List.drop_length]
      rfl
    rw [hno, List.drop_length] at hequipped ⊢
    refine ⟨id', hequipped, hap, ?_⟩
    show AllHealthy cfg F _ _ _ (t.mark cfg { t.s with m })
    rw [hmark]
    exact hall
  | @one e r he hr hone hall =>
    have hmark : t.mark cfg (System.clone { t.s with m } (e, r)) = m.v.remark cfg (e, r) := by
      unfold Marked.mark
      rw [show (System.clone { t.s with m } (e, r)).m.v = m.v from rfl, hone, List.drop_left]
      rfl
    rw [hone, List.drop_left] at hequipped ⊢
    refine ⟨id', hequipped, hap, ?_⟩
    show AllHealthy cfg F _ _ _ (t.mark cfg (System.clone { t.s with m } (e, r)))
    rw [hmark]
    refine hall _ (fun x hx => Function.update_of_ne hx _ _) ?_
    have hmessage : System.message m.v e = _ := hequipped.message he
    show (Function.update t.s.procs e _ e).consumed = _ ∧
      (Function.update t.s.procs e _ e).emitted = _
    rw [Function.update_self, hmessage]
    exact restartHandler_memory _ _

/-- Nobody is restarted by what is not a piece of the voter's. -/
theorem mark_of_restarts (h : s'.m.v.log.restarts = t.s.m.v.log.restarts) :
    t.mark cfg s' = t.bad := by
  unfold Marked.mark
  rw [h, List.drop_length]
  rfl

/-- **The step lemma**, one case for each kind of move. The descriptors may be other ones after
it, as a restart makes new pipes. -/
theorem Transparent.step {mv : MarkedMove} (h : Transparent cfg F v₀ plan id t)
    (hmode : cfg.repType = .tmr) (henv : env.Eager) (hok : Marked.Permitted cfg env F mv t)
    (hstep : Marked.step cfg env mv t = .ok t') : ∃ id', Transparent cfg F v₀ plan id' t' := by
  cases mv with
  | fail i =>
    -- Nothing but the mark is changed, so there is less to show.
    obtain rfl := Except.ok.inj hstep
    refine ⟨id, h.equipped, h.apart, fun x hx hbad => h.healthy x hx ?_⟩
    rcases hok with hnone | hi
    · rw [hnone]
      simp
    · rw [hi]
      exact hbad
  | move mv =>
    unfold Marked.step at hstep
    dsimp only at hstep
    split at hstep
    · rename_i s hs
      obtain rfl := Except.ok.inj hstep
      cases mv with
      | voter => exact h.voter hmode henv hok.1 hok.2 hs
      | feed p bytes =>
        obtain rfl := Except.ok.inj hs
        have hmark : t.mark cfg (t.s.feed cfg p bytes) = t.bad :=
          mark_of_restarts (feed_restarts t.s p bytes)
        rw [hmark]
        exact ⟨id, h.feed⟩
      | read i p n =>
        obtain rfl := Except.ok.inj hs
        have hmark : t.mark cfg (t.s.read i p n) = t.bad :=
          mark_of_restarts (read_restarts t.s i p n)
        rw [hmark]
        exact ⟨id, h.read hok⟩
      | write i p bytes =>
        obtain rfl := Except.ok.inj hs
        have hmark : t.mark cfg (t.s.write i p bytes) = t.bad :=
          mark_of_restarts (write_restarts t.s i p bytes)
        rw [hmark]
        exact ⟨id, h.write hok.1 hok.2⟩
    · cases hstep

/-- When the main loop is entered nothing was read or written yet, and nobody is marked. -/
theorem Started.transparent (h : Started cfg env v₀) (hap : Unshared cfg v₀) :
    ∃ plan id, Transparent cfg F v₀ plan id (Marked.start v₀) := by
  obtain ⟨plan, id, hequipped⟩ := h.equipped
  refine ⟨plan, id, hequipped, hap, fun x hx _ => ?_⟩
  have hblank : ((System.start v₀).procs x).consumed = (fun _ => []) ∧
      ((System.start v₀).procs x).emitted = fun _ => [] := by
    show (((System.message v₀ x).map (RepProcess.launch v₀.kernel)).getD {}).consumed = _ ∧
      (((System.message v₀ x).map (RepProcess.launch v₀.kernel)).getD {}).emitted = _
    cases System.message v₀ x <;> exact ⟨rfl, rfl⟩
  have hfresh := h.fresh
  refine ⟨fun p hp hout => ?_, fun p hp hin => ?_, fun p _ => ?_, fun p => ?_⟩
  · show v₀.log.sent p ++ (v₀.queue x p ++ v₀.inFlight x p) = ((System.start v₀).procs x).emitted p
    rw [hblank.2, hfresh.log, hfresh.noVotes.queue,
      show v₀.inFlight x p = [] from ((h.blank x p ⟨hx, hp⟩).output hout).waiting]
    rfl
  · show ((System.start v₀).procs x).consumed p ++ (v₀.backlog x p ++ v₀.upstream p)
      = (System.start v₀).fed p
    rw [hblank.1, show v₀.backlog x p = [] from ((h.blank x p ⟨hx, hp⟩).input hin).waiting]
    exact (if_pos hin).symm
  · exact congrFun hblank.1 p
  · show ((System.start v₀).procs x).emitted p <+: _
    rw [hblank.2]
    exact List.nil_prefix

/-- **Three replicas look like one.** In every run in which the replicas go wrong one at a time:
what was written to an output is part of what one copy of the component may write when it has
read all that was written to the inputs. And of every replica that is not marked, no byte it
wrote or has to read is lost, doubled or out of its place, whatever was restarted.

The run is any order of moves of the outside, the replicas and the voter, and the controller any
monotone one. Nothing is said about how much of the answer has been written at a given time. -/
theorem replicas_look_like_one {moves : List MarkedMove} (F : Controller)
    (hmode : cfg.repType = .tmr) (henv : env.Eager) (h : Started cfg env v₀) (hap : Unshared cfg v₀)
    (hmeet : AllMeet (Marked.step cfg env) (Marked.Permitted cfg env F) moves (Marked.start v₀))
    (hr : runAll (Marked.step cfg env) moves (Marked.start v₀) = .ok t) :
    (∀ p, p < cfg.pipeCount → ¬ v₀.IsInput p → t.s.m.v.log.sent p <+: F.answer t.s.fed p) ∧
      ∀ x, x < cfg.repCount → t.bad ≠ some x →
        Healthy cfg F t.s.fed t.s.m.v x (t.s.procs x) := by
  obtain ⟨plan, id₀, h₀⟩ : ∃ plan id, Transparent cfg F v₀ plan id (Marked.start v₀) :=
    h.transparent hap
  obtain ⟨id, ht⟩ : ∃ id, Transparent cfg F v₀ plan id t :=
    runAll.invariant_of_meets (I := fun t => ∃ id, Transparent cfg F v₀ plan id t)
      (fun mv t t' ⟨_, ht⟩ hok hm => ht.step hmode henv hok hm) ⟨id₀, h₀⟩ hmeet hr
  refine ⟨fun p hp hout => ?_, ht.healthy⟩
  have hn : cfg.repCount = 3 := by rw [cfg.repCount_eq, hmode]; rfl
  -- One of the first two is not marked.
  obtain ⟨x, hx, hbad⟩ : ∃ x, x < cfg.repCount ∧ t.bad ≠ some x := by
    by_cases hzero : t.bad = some 0
    · exact ⟨1, by omega, by rw [hzero]; simp⟩
    · exact ⟨0, by omega, hzero⟩
  have hout' : ¬ t.s.m.v.IsInput p := fun hin => hout ((ht.equipped.isInput p).mp hin)
  exact (List.prefix_append _ _).trans ((ht.healthy x hx hbad).follows hp hout')

/-! ## An example -/

/-- A component that writes what it reads on pipe 0 to pipe 1. -/
def Controller.echo : Controller where
  answer read p := if p = 1 then read 0 else []
  monotone hread p := by
    split
    · exact hread 0
    · exact List.nil_prefix

theorem filterAtStart_unshared : Unshared (filterPipes.config .tmr 400 80) filterAtStart where
  inputs p q k hp hq hpin hqin _ _ := by
    have hzero : ∀ p, p < 3 → (filterAtStart.extPipes p).fdIn ≠ 0 → p = 0 := by decide +kernel
    rw [hzero p hp hpin, hzero q hq hqin]
  outputs p q k hp hq hin hk := by
    have hzero : ∀ p, p < 3 → (filterAtStart.extPipes p).fdIn ≠ 0 →
        filterAtStart.kernel.lookup (filterAtStart.extPipes p).fdIn = some (.readEnd 0) := by
      decide +kernel
    have hnone : ∀ q, q < 3 →
        filterAtStart.kernel.lookup (filterAtStart.extPipes q).fdOut ≠ some (.writeEnd 0) := by
      decide +kernel
    rw [hzero p hp hin] at hk
    obtain rfl := PipeEnd.readEnd.inj (Option.some.inj hk)
    exact hnone q hq

theorem steady_eager : Env.steady.Eager := fun _ _ _ => rfl

/-- The third replica fails and writes something of its own. It is outvoted, and its successor
carries on with what comes in next. -/
def oneFails : List MarkedMove := List.flatten
  [[.move (.feed 0 [7, 8])], List.replicate 6 (.move .voter),
    [.move (.read 0 0 9), .move (.read 1 0 9), .fail 2, .move (.write 2 1 [3, 3]),
      .move (.write 0 1 [7, 8]), .move (.write 1 1 [7, 8])],
    List.replicate 24 (.move .voter), [.move (.feed 0 [5])], List.replicate 20 (.move .voter),
    [.move (.read 0 0 9), .move (.read 1 0 9), .move (.read 2 0 9),
      .move (.write 0 1 [5]), .move (.write 1 1 [5]), .move (.write 2 1 [5])],
    List.replicate 30 (.move .voter)]

theorem replicas_look_like_one_filter :
    ∃ t, runAll (Marked.step (filterPipes.config .tmr 400 80) .steady) oneFails
        (Marked.start filterAtStart) = .ok t ∧
      t.s.m.v.log.restarts = [(2, 0)] ∧ t.bad = none ∧ t.s.fed 0 = [7, 8, 5] ∧
      t.s.m.v.log.sent 1 = [7, 8, 5] ∧ t.s.m.v.log.sent 1 <+: Controller.echo.answer t.s.fed 1 := by
  obtain ⟨t, ht⟩ : ∃ t, t = ended (runAll (Marked.step (filterPipes.config .tmr 400 80) .steady)
    oneFails (Marked.start filterAtStart)) (Marked.start filterAtStart) := ⟨_, rfl⟩
  have hrun : runAll (Marked.step (filterPipes.config .tmr 400 80) .steady) oneFails
      (Marked.start filterAtStart) = .ok t := by
    rw [ht]
    exact eq_ended (by decide +kernel)
  have hmeet : AllMeet (Marked.step (filterPipes.config .tmr 400 80) .steady)
      (Marked.Permitted (filterPipes.config .tmr 400 80) .steady .echo) oneFails
      (Marked.start filterAtStart) := by decide +kernel
  have hlook := replicas_look_like_one .echo rfl steady_eager filterPipes.started
    filterAtStart_unshared hmeet hrun
  have hout : ¬ filterAtStart.IsInput 1 := by
    unfold Voter.IsInput
    decide +kernel
  have hsent : t.s.m.v.log.restarts = [(2, 0)] ∧ t.bad = none ∧ t.s.fed 0 = [7, 8, 5] ∧
      t.s.m.v.log.sent 1 = [7, 8, 5] := by
    rw [ht]
    decide +kernel
  exact ⟨t, hrun, hsent.1, hsent.2.1, hsent.2.2.1, hsent.2.2.2, hlook.1 1 (by decide) hout⟩

end Run

end Pint
