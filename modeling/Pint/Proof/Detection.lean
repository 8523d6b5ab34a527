import Pint.Proof.Runs
import Pint.Proof.Settled

/-!
# Two replicas detect a disagreement

With two replicas the voter forwards what the first one wrote, and reports when the second
one wrote something else. `Twin` is the bookkeeping: what was accepted from the first replica
is what was forwarded and then its buffer, and the buffer of the second replica starts at the
same position of its stream. So what a vote compares is what it forwards and what the second
replica wrote at that position (`Compared.reported_iff`).

That nothing is forwarded late or early is `Settled`: after every step no output pipe has bytes
from both replicas left, so the shorter of the two accepted streams has been forwarded whole
(`Twin.length_sent`). Both are kept only while nobody is restarted: a clone gets the buffers of
the other replica, and with them a stream that it did not write. In DMR only the watchdog
restarts, so these runs are without it.
-/

namespace Pint

open Prog Voting

section Dmr

variable {cfg : Config} {env : Env} {plan : Plan} {id : Nat → Nat → Nat} {v v' w : Voter}
  {p r : Nat} {bytes : List Byte}

/-- The two streams of a pipe, as far as they were accepted. -/
structure Twin (cfg : Config) (v : Voter) : Prop where
  first : ∀ p, p < cfg.pipeCount → ¬ v.IsInput p →
    Accounts (v.log.accepted 0 p) (v.log.sent p) (v.queue 0 p)
  second : ∀ p, p < cfg.pipeCount → ¬ v.IsInput p →
    (v.log.sent p).length ≤ (v.log.accepted 1 p).length ∧
      (v.log.accepted 1 p).drop (v.log.sent p).length = v.queue 1 p

theorem Twin.still (h : Twin cfg v) (hs : Still v v') : Twin cfg v' := by
  constructor
  · intro p hp hout
    rw [hs.sent, hs.accepted, hs.queue]
    exact h.first p hp fun hin => hout ((hs.isInput p).mpr hin)
  · intro p hp hout
    rw [hs.sent, hs.accepted, hs.queue]
    exact h.second p hp fun hin => hout ((hs.isInput p).mpr hin)

theorem Twin.accepted (h : Twin cfg v) (ha : Accepted cfg id r p bytes v w) : Twin cfg w := by
  have hsent : w.log.sent = v.log.sent := by
    rw [ha.log]
    rfl
  -- Only one stream and one queue grow, and by the same bytes.
  have hqueue : ∀ i q, w.queue i q
      = if i = r ∧ q = p then v.queue r p ++ bytes else v.queue i q := by
    intro i q
    split
    · rename_i hiq
      rw [hiq.1, hiq.2]
      exact ha.queue
    · rename_i hiq
      unfold Voter.queue
      rw [ha.vot_ne i q hiq]
  constructor
  · intro q hq hout
    have hacc := h.first q hq fun hin => hout ((ha.kept.isInput q).mpr hin)
    rw [hsent, ha.accepted, hqueue]
    split
    · rename_i hiq
      rw [← hiq.1, ← hiq.2]
      exact hacc.deliver
    · exact hacc
  · intro q hq hout
    obtain ⟨hle, hdrop⟩ := h.second q hq fun hin => hout ((ha.kept.isInput q).mpr hin)
    rw [hsent, ha.accepted, hqueue]
    split
    · rename_i hiq
      rw [← hiq.1, ← hiq.2, List.length_append, List.drop_append_of_le_length hle, hdrop]
      exact ⟨by omega, rfl⟩
    · exact ⟨hle, hdrop⟩

theorem Twin.sent (h : Twin cfg v) (hn : cfg.repCount = 2) (hs : Sent cfg p 0 v v') :
    Twin cfg v' := by
  have hacc : v'.log.accepted = v.log.accepted := by rw [hs.log]
  have hsent : v'.log.sent = Function.update v.log.sent p
      (v.log.sent p ++ (v.queue 0 p).take (v.ready cfg p)) := by rw [hs.log]
  have hne : ∀ i q, q ≠ p → v'.queue i q = v.queue i q := by
    intro i q hq
    unfold Voter.queue
    rw [hs.vot_ne i q hq]
  constructor
  · intro q hq hout
    have hfirst := h.first q hq fun hin => hout ((hs.kept.isInput q).mpr hin)
    rw [hacc, hsent]
    by_cases hqp : q = p
    · subst hqp
      rw [Function.update_self, hs.queue 0 (by omega)]
      exact hfirst.pass rfl
    · rw [Function.update_of_ne hqp, hne 0 q hqp]
      exact hfirst
  · intro q hq hout
    obtain ⟨hle, hdrop⟩ := h.second q hq fun hin => hout ((hs.kept.isInput q).mpr hin)
    rw [hacc, hsent]
    by_cases hqp : q = p
    · subst hqp
      rw [Function.update_self, hs.queue 1 (by omega)]
      exact streams_pass hle hdrop (ready_le_queue (by omega)) (ready_le_queue (by omega))
    · rw [Function.update_of_ne hqp, hne 1 q hqp]
      exact ⟨hle, hdrop⟩

/-- Nothing accepted, nothing forwarded. -/
theorem Fresh.twin (h : Fresh cfg v) : Twin cfg v := by
  constructor
  · intro p _ _
    rw [h.noVotes.queue, h.log]
    rfl
  · intro p _ _
    rw [h.noVotes.queue, h.log]
    exact ⟨Nat.le_refl _, rfl⟩

/-- **What was forwarded is what both have delivered**, in the words of the first. -/
theorem Twin.length_sent (h : Twin cfg v) (hn : cfg.repCount = 2) (hl : Lockstep cfg v)
    (hp : p < cfg.pipeCount) (hout : ¬ v.IsInput p) (h0 : v.ready cfg p = 0) :
    (v.log.sent p).length
      = min (v.log.accepted 0 p).length (v.log.accepted 1 p).length := by
  have hfirst : (v.log.accepted 0 p).length = (v.log.sent p).length + (v.queue 0 p).length := by
    rw [h.first p hp hout, List.length_append]
  have hsecond : (v.log.accepted 1 p).length = (v.log.sent p).length + (v.queue 1 p).length := by
    obtain ⟨hle, hdrop⟩ := h.second p hp hout
    rw [← hdrop, List.length_drop]
    omega
  have hlt : (v.queue 0 p).length < maxVotePipeBuff :=
    ((hl.inStep p hp).wf 0 (by omega)).length_lt
  obtain ⟨i, hi, hlen⟩ : ∃ i, i < cfg.repCount ∧
      ready maxVotePipeBuff cfg.repCount (fun i => v.queue i p) = (v.queue i p).length :=
    ready_eq_length (by omega : 0 < cfg.repCount) hlt
  have hzero : (v.queue i p).length = 0 := hlen.symm.trans h0
  have hcases : i = 0 ∨ i = 1 := by omega
  rcases hcases with rfl | rfl <;> omega

/-! ## One step -/

/-- A disagreement was printed. -/
def Reported (v v' : Voter) : Prop :=
  ∃ ms, v'.log.said = v.log.said ++ ms ∧ .votingDisagreement ∈ ms

theorem reported_of_same (h : v'.log.said = v.log.said) : ¬ Reported v v' := by
  rintro ⟨ms, hms, hmem⟩
  rw [h] at hms
  rw [List.self_eq_append_right.mp hms] at hmem
  exact absurd hmem (by simp)

theorem reported_of_append {ms : List Message} (h : v'.log.said = v.log.said ++ ms) :
    Reported v v' ↔ .votingDisagreement ∈ ms := by
  constructor
  · rintro ⟨ms', hms', hmem⟩
    rw [h] at hms'
    rw [List.append_cancel_left hms']
    exact hmem
  · intro hmem
    exact ⟨ms, h, hmem⟩

/-- What a `processFromRep r p` does with two replicas. -/
inductive Compared (cfg : Config) (env : Env) (id : Nat → Nat → Nat) (r p : Nat)
    (v v' : Voter) : Prop where
  | refused (hs : Still v v')
    (hsaid : v'.log.said = v.log.said ++ [.buffOverflow, .internalPipe r p])
  | waiting (hw : Accepted cfg id r p (v.arriving env (id r p)) v v')
    (hsaid : v'.log.said = v.log.said)
  | sent (w : Voter) (hw : Accepted cfg id r p (v.arriving env (id r p)) v w)
    (hsaid : w.log.said = v.log.said)
    (hs : Sent cfg p 0 (if Agree (w.ready cfg p) (fun i => w.queue i p) 0 1 then w
      else w.say [.votingDisagreement]) v')

theorem processFromRep_dmr (h : Sound cfg plan id v) (hmode : cfg.repType = .dmr)
    (hs : cfg.Slot r p) (hout : ¬ v.IsInput p) :
    wp (processFromRep cfg env r p) (fun _ v' => Compared cfg env id r p v v')
      (fun stop => stop = .blocked) v := by
  refine processFromRep_wp h.wired h.lockstep hs hout (fun _ => rfl) ?_ ?_
  · intro _ v' hstill _ _ hsaid
    exact .refused hstill hsaid
  · intro _ w hacc _ hsaid
    by_cases h0 : w.ready cfg p = 0
    · unfold checkSDC
      rw [wp_bind, wp_get, bytesReady_eq (hacc.lockstep.inStep p hs.2), h0]
      exact .waiting hacc hsaid
    · exact (checkSDC_dmr hacc.lockstep hmode hs.2 h0).imp fun _ v' hsent =>
        .sent w hacc hsaid hsent

/-- The state in which the vote sends. -/
theorem still_disagree (w : Voter) (c : Prop) [Decidable c] :
    Still w (if c then w else w.say [.votingDisagreement]) := by
  split
  · exact Still.refl w
  · exact still_say w (by simp [Message.alarm])

theorem Compared.twin (h : Twin cfg v) (hn : cfg.repCount = 2)
    (hc : Compared cfg env id r p v v') : Twin cfg v' := by
  cases hc with
  | refused hs _ => exact h.still hs
  | waiting hw _ => exact h.accepted hw
  | sent w hw _ hs => exact ((h.accepted hw).still (still_disagree w _)).sent hn hs

/-- Some output was forwarded that is not what the second replica wrote at that position. -/
def Differing (cfg : Config) (v v' : Voter) : Prop :=
  ∃ p, p < cfg.pipeCount ∧ (v.extPipes p).fdIn = 0 ∧ ∃ bytes,
    v'.log.sent p = v.log.sent p ++ bytes ∧
      bytes ≠ ((v'.log.accepted 1 p).drop (v.log.sent p).length).take bytes.length

theorem not_differing (h : v'.log.sent = v.log.sent) : ¬ Differing cfg v v' := by
  rintro ⟨p, -, -, bytes, hbytes, hne⟩
  rw [h] at hbytes
  rw [List.self_eq_append_right.mp hbytes] at hne
  exact hne rfl

/-- A vote that sends prints a disagreement exactly if it found one. -/
theorem reported_sent {w : Voter} (hsaid : w.log.said = v.log.said)
    (hsend : Sent cfg p 0 (if Agree (w.ready cfg p) (fun i => w.queue i p) 0 1 then w
      else w.say [.votingDisagreement]) v') :
    Reported v v' ↔ ¬ Agree (w.ready cfg p) (fun i => w.queue i p) 0 1 := by
  by_cases hagree : Agree (w.ready cfg p) (fun i => w.queue i p) 0 1
  · rw [if_pos hagree] at hsend
    refine iff_of_false (reported_of_same ?_) (not_not.mpr hagree)
    rw [hsend.log]
    exact hsaid
  · rw [if_neg hagree] at hsend
    refine iff_of_true ⟨[.votingDisagreement], ?_, by simp⟩ hagree
    rw [hsend.log, ← hsaid]
    rfl

/-- What was sent on one pipe differs from what the second replica wrote there, or nothing
does. -/
theorem differing_sent {bytes second : List Byte} (hp : p < cfg.pipeCount)
    (hout : (v.extPipes p).fdIn = 0)
    (hsent : v'.log.sent = Function.update v.log.sent p (v.log.sent p ++ bytes))
    (hsecond : (v'.log.accepted 1 p).drop (v.log.sent p).length = second) :
    Differing cfg v v' ↔ bytes ≠ second.take bytes.length := by
  constructor
  · rintro ⟨q, -, -, sent, hq, hne⟩
    rw [hsent] at hq
    by_cases hqp : q = p
    · subst hqp
      rw [Function.update_self] at hq
      obtain rfl := List.append_cancel_left hq
      rwa [hsecond] at hne
    · rw [Function.update_of_ne hqp] at hq
      rw [List.self_eq_append_right.mp hq] at hne
      exact absurd rfl hne
  · intro hne
    refine ⟨p, hp, hout, bytes, ?_, ?_⟩
    · rw [hsent, Function.update_self]
    · rwa [hsecond]

/-- **A vote reports a disagreement exactly if it forwards one.** -/
theorem Compared.reported_iff (h : Twin cfg v) (hn : cfg.repCount = 2) (hs : cfg.Slot r p)
    (hout : ¬ v.IsInput p) (hc : Compared cfg env id r p v v') :
    Reported v v' ↔ Differing cfg v v' := by
  cases hc with
  | refused hstill hsaid =>
    rw [reported_of_append hsaid]
    exact iff_of_false (by simp) (not_differing hstill.sent)
  | waiting hw hsaid =>
    refine iff_of_false (reported_of_same hsaid) (not_differing ?_)
    rw [hw.log]
    rfl
  | sent w hw hsaid hsend =>
    have hk : w.ready cfg p ≤ (w.queue 0 p).length := ready_le_queue (by omega)
    have hsecond := (h.accepted hw).second p hs.2 fun hin => hout ((hw.kept.isInput p).mp hin)
    have hwsent : w.log.sent = v.log.sent := by
      rw [hw.log]
      rfl
    -- What was said is not read by the send, so both branches send the same.
    have hsent : v'.log.sent = Function.update v.log.sent p
        (v.log.sent p ++ (w.queue 0 p).take (w.ready cfg p)) := by
      rw [hsend.log, ← hwsent]
      split <;> rfl
    have hacc : v'.log.accepted = w.log.accepted := by
      rw [hsend.log]
      split <;> rfl
    have hat : (v'.log.accepted 1 p).drop (v.log.sent p).length = w.queue 1 p := by
      rw [hacc, ← hwsent]
      exact hsecond.2
    rw [reported_sent hsaid hsend, differing_sent hs.2 (not_not.mp hout) hsent hat,
      List.length_take, Nat.min_eq_left hk]
    exact Iff.rfl

/-! ## Runs -/

/-- An action without the watchdog is quiet, or a `processFromRep`. -/
theorem perform_dmr (h : Sound cfg plan id v) (hmode : cfg.repType = .dmr) {a : Action}
    (ha : a ≠ .watchdog) (hstep : perform cfg env a v = .ok v') :
    (Still v v' ∧ v'.log.said = v.log.said) ∨
      ∃ r p, cfg.Slot r p ∧ ¬ v.IsInput p ∧ Compared cfg env id r p v v' := by
  cases a with
  | watchdog => exact absurd rfl ha
  | deliver k bytes =>
    obtain rfl := Except.ok.inj hstep
    exact Or.inl ⟨still_deliver v k bytes, rfl⟩
  | processFromRep r p =>
    have hspec : wp (tryProcessFromRep cfg env r p) (fun _ v' => v' = v ∨
        (cfg.Slot r p ∧ ¬ v.IsInput p ∧ Compared cfg env id r p v v'))
        (fun stop => stop = .blocked) v := by
      unfold tryProcessFromRep
      rw [wp_bind, wp_get, wp_ite]
      split
      · rename_i hc
        have hs : cfg.Slot r p := ⟨hc.1, hc.2.1⟩
        have hout := (h.wired.fdIn_ne_zero hs).mp hc.2.2
        exact (processFromRep_dmr h hmode hs hout).imp fun _ v' hv => Or.inr ⟨hs, hout, hv⟩
      · exact Or.inl rfl
    rcases (exec_spec hspec).1 v' hstep with hv | ⟨hs, hout, hc⟩
    · rw [hv]
      exact Or.inl ⟨Still.refl v, rfl⟩
    · exact Or.inr ⟨r, p, hs, hout, hc⟩

/-- What holds along a run of two replicas without restarts. -/
structure Dual (cfg : Config) (plan : Plan) (v : Voter) : Prop where
  sound : ∃ id, Sound cfg plan id v
  twin : Twin cfg v
  settled : v.Settled cfg

theorem Dual.performed {a : Action} (h : Dual cfg plan v) (hmode : cfg.repType = .dmr)
    (ha : a ≠ .watchdog) (hstep : perform cfg env a v = .ok v') : Dual cfg plan v' := by
  obtain ⟨id, hsound⟩ := h.sound
  have hn : cfg.repCount = 2 := by
    rw [cfg.repCount_eq, hmode]
    rfl
  have hp := (perform_spec hsound (Or.inl hmode) a).1 v' hstep
  refine ⟨hp.sound hsound, ?_, ?_⟩
  · rcases perform_dmr hsound hmode ha hstep with ⟨hs, -⟩ | ⟨r, p, -, -, hc⟩
    · exact h.twin.still hs
    · exact hc.twin h.twin hn
  · cases hp with
    | deliver hv =>
      rw [hv]
      exact h.settled.still (still_deliver v _ _)
    | nothing hv => exact hv ▸ h.settled
    | processed hs _ hp => exact hp.settled h.settled hs
    | handled _ => exact absurd rfl ha

/-- The run lemma. -/
theorem Started.dual {v₀ : Voter} {ms : List Action} (hmode : cfg.repType = .dmr)
    (hstart : Started cfg env v₀) (hno : .watchdog ∉ ms)
    (hrun : runAll (perform cfg env) ms v₀ = .ok v) : ∃ plan, Dual cfg plan v := by
  obtain ⟨plan, id, hsound⟩ := hstart.fresh.sound
  have hn : 0 < cfg.repCount := by
    rw [cfg.repCount_eq, hmode]
    decide
  have h₀ : Dual cfg plan v₀ := ⟨⟨id, hsound⟩, hstart.fresh.twin,
    settled_of_empty hn fun q _ => hstart.fresh.noVotes.queue 0 q⟩
  have hmeet : AllMeet (perform cfg env) (fun a _ => a ≠ .watchdog) ms v₀ := by
    refine allMeet_of_forall ?_
    intro a ha hc
    exact hno (hc ▸ ha)
  exact ⟨plan, runAll.invariant_of_meets (I := Dual cfg plan)
    (fun a u u' hu ha hstep => hu.performed hmode ha hstep) h₀ hmeet hrun⟩

/-- **Detection in DMR is complete and exact.** In a run without a watchdog expiry, what was
forwarded on an output pipe is always a prefix of what was accepted from the first replica,
and as long as the shorter of the two accepted streams; and a step reports a disagreement
exactly if it forwards something else than the second replica wrote at that position. -/
theorem dmr_detects {v₀ : Voter} {ms : List Action} (hmode : cfg.repType = .dmr)
    (hstart : Started cfg env v₀) (hno : .watchdog ∉ ms)
    (hrun : runAll (perform cfg env) ms v₀ = .ok v) :
    (∀ p, p < cfg.pipeCount → (v.extPipes p).fdIn = 0 →
      v.log.sent p <+: v.log.accepted 0 p ∧
      (v.log.sent p).length
        = min (v.log.accepted 0 p).length (v.log.accepted 1 p).length) ∧
    ∀ a v', a ≠ .watchdog → perform cfg env a v = .ok v' →
      (Reported v v' ↔ Differing cfg v v') := by
  obtain ⟨plan, h⟩ := hstart.dual hmode hno hrun
  obtain ⟨id, hsound⟩ := h.sound
  have hn : cfg.repCount = 2 := by
    rw [cfg.repCount_eq, hmode]
    rfl
  constructor
  · intro p hp hout
    have hout' : ¬ v.IsInput p := not_not.mpr hout
    refine ⟨(h.twin.first p hp hout').sent_part, ?_⟩
    -- The pipe is settled, and without a third replica that means that one queue is empty.
    have h0 : v.ready cfg p = 0 := by
      rcases h.settled p hp hout' not_false with h0 | ⟨htmr, -⟩
      · exact h0
      · rw [hmode] at htmr
        exact absurd htmr (by simp)
    exact h.twin.length_sent hn hsound.lockstep hp hout' h0
  · intro a v' ha hstep
    rcases perform_dmr hsound hmode ha hstep with ⟨hs, hsaid⟩ | ⟨r, p, hslot, hout, hc⟩
    · exact iff_of_false (reported_of_same hsaid) (not_differing hs.sent)
    · exact hc.reported_iff h.twin hn hslot hout

/-- The two replicas of `Filter` deliver different second bytes. -/
theorem dmr_detects_filter :
    ∃ v v', runAll (perform (filterPipes.config .dmr 400 80) .steady)
        [.deliver 4 [7, 8], .deliver 7 [7, 9], .processFromRep 0 1]
        (filterPipes.start (filterPipes.config .dmr 400 80) .steady) = .ok v ∧
      perform (filterPipes.config .dmr 400 80) .steady (.processFromRep 1 1) v = .ok v' ∧
      v'.log.sent 1 = [7, 8] ∧ Reported v v' ∧
      Differing (filterPipes.config .dmr 400 80) v v' := by
  have hrun := eq_ended (d := {})
    (r := runAll (perform (filterPipes.config .dmr 400 80) .steady)
      [.deliver 4 [7, 8], .deliver 7 [7, 9], .processFromRep 0 1]
      (filterPipes.start (filterPipes.config .dmr 400 80) .steady)) (by decide +kernel)
  have hstep := eq_ended (d := {})
    (r := perform (filterPipes.config .dmr 400 80) .steady (.processFromRep 1 1)
      (ended (runAll (perform (filterPipes.config .dmr 400 80) .steady)
        [.deliver 4 [7, 8], .deliver 7 [7, 9], .processFromRep 0 1]
        (filterPipes.start (filterPipes.config .dmr 400 80) .steady)) {})) (by decide +kernel)
  have hiff := (dmr_detects rfl filterPipes.started (by decide) hrun).2 _ _ (by simp) hstep
  refine ⟨_, _, hrun, hstep, by decide +kernel, ?_⟩
  rw [← hiff, and_self]
  exact ⟨[.votingDisagreement], by decide +kernel, by decide⟩

end Dmr

end Pint
