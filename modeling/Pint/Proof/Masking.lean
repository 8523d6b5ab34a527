import Pint.Proof.Runs

/-!
# Two good replicas

In TMR, suppose that what is accepted from two of the replicas, `a` and `b`, is part of one
stream on every output pipe, and that the watchdog does not run out. Then the third is
masked, whatever it delivers: what the voter writes is part of that stream, and only the
third is ever restarted, from one of the two.

The invariant is the bookkeeping of `a` and `b`, `Masked`. It says nothing about the third,
and it does not mention the stream: that the two agree with each other follows from it and
from what was accepted, at every vote and on all pipes that a restart flushes.

At a vote the two agree, so they are the majority, or all three agree: what is forwarded is the
front of both their queues, and the books are right again with it moved from the queues to what
was sent (`Masked.sent`). If the third is the minority it gets the queue of one of the two, and
every pipe is flushed as far as all three then have; that is less than the two have, so both
agree on it (`Masked.restarted`).

That `a` and `b` follow the stream is asked of the end of the run only. What they had delivered
before is part of what they have delivered then, so they followed it all the time
(`Follows.of_grown`).
-/

namespace Pint

open Prog Voting

/-- The three replicas, in any order. -/
structure Trio (a b c : Nat) : Prop where
  lt : a < 3 ∧ b < 3 ∧ c < 3
  ne : a ≠ b ∧ a ≠ c ∧ b ≠ c

/-- On every output pipe, what was accepted from replica `x` is part of the stream. -/
def Follows (cfg : Config) (S : Nat → List Byte) (v : Voter) (x : Nat) : Prop :=
  ∀ p, p < cfg.pipeCount → (v.extPipes p).fdIn = 0 → v.log.accepted x p <+: S p

/-- What was accepted from `a` and from `b` is what was forwarded and their queues; and
nobody but `c` was restarted, and not from `c`. -/
structure Masked (cfg : Config) (a b c : Nat) (v : Voter) : Prop where
  accounts : ∀ x, x = a ∨ x = b → ∀ p, p < cfg.pipeCount → (v.extPipes p).fdIn = 0 →
    Accounts (v.log.accepted x p) (v.log.sent p) (v.queue x p)
  restarts : ∀ e r, (e, r) ∈ v.log.restarts → e = c ∧ r ≠ c

section Masking

variable {cfg : Config} {env : Env} {plan : Plan} {id : Nat → Nat → Nat} {v v' w : Voter}
  {S : Nat → List Byte} {a b c p r : Nat} {bytes : List Byte}

theorem Masked.still (h : Masked cfg a b c v) (hs : Still v v') : Masked cfg a b c v' where
  accounts x hx p hp hout := by
    rw [hs.extPipes] at hout
    rw [hs.accepted, hs.sent, hs.queue]
    exact h.accounts x hx p hp hout
  restarts e r hmem := by
    rw [hs.restarts] at hmem
    exact h.restarts e r hmem

/-- Accepting bytes, from whatever replica. -/
theorem Masked.accepted (h : Masked cfg a b c v) (ha : Accepted cfg id r p bytes v w) :
    Masked cfg a b c w where
  accounts x hx q hq hout := by
    rw [ha.extPipes] at hout
    have hacc := h.accounts x hx q hq hout
    have hsent : w.log.sent = v.log.sent := by rw [ha.log]; rfl
    rw [hsent, ha.accepted]
    by_cases hxq : x = r ∧ q = p
    · obtain ⟨rfl, rfl⟩ := hxq
      rw [if_pos ⟨rfl, rfl⟩, ha.queue]
      exact hacc.deliver
    · have hqueue : w.queue x q = v.queue x q := by
        unfold Voter.queue
        rw [ha.vot_ne x q hxq]
      rw [if_neg hxq, hqueue]
      exact hacc
  restarts e r hmem := by
    rw [ha.log] at hmem
    exact h.restarts e r hmem

/-- The two agree on whatever both queues hold. -/
theorem Masked.agree {k : Nat} (h : Masked cfg a b c v) (hA : Follows cfg S v a)
    (hB : Follows cfg S v b) (hp : p < cfg.pipeCount) (hout : (v.extPipes p).fdIn = 0)
    (hka : k ≤ (v.queue a p).length) (hkb : k ≤ (v.queue b p).length) :
    Agree k (fun i => v.queue i p) a b :=
  (h.accounts a (Or.inl rfl) p hp hout).agree (q := fun i => v.queue i p)
    (h.accounts b (Or.inr rfl) p hp hout) (hA p hp hout) (hB p hp hout) hka hkb

/-- Forwarding from a replica that agrees with both. -/
theorem Masked.sent (h : Masked cfg a b c v) (hs : Sent cfg p r v v') (ht : Trio a b c)
    (hn : cfg.repCount = 3)
    (hagree : ∀ x, x = a ∨ x = b → Agree (v.ready cfg p) (fun i => v.queue i p) r x) :
    Masked cfg a b c v' where
  accounts x hx q hq hout := by
    rw [hs.extPipes] at hout
    have hacc := h.accounts x hx q hq hout
    have hlt : x < cfg.repCount := by
      have := ht.lt
      omega
    rw [hs.log]
    by_cases hqp : q = p
    · subst hqp
      show Accounts _ (Function.update v.log.sent q _ q) _
      rw [Function.update_self, hs.queue x hlt]
      exact hacc.pass (hagree x hx)
    · have hqueue : v'.queue x q = v.queue x q := by
        unfold Voter.queue
        rw [hs.vot_ne x q hqp]
      show Accounts _ (Function.update v.log.sent p _ q) _
      rw [Function.update_of_ne hqp, hqueue]
      exact hacc
  restarts e r hmem := by
    rw [hs.log] at hmem
    exact h.restarts e r hmem

/-- Restarting the third from one of the two: every pipe is flushed as far as the two
have delivered, on which they agree. -/
theorem Masked.restarted (h : Masked cfg a b c v) (hr : Restarted cfg plan id c r v v')
    (ht : Trio a b c) (hn : cfg.repCount = 3) (hrab : r = a ∨ r = b)
    (hA : Follows cfg S v a) (hB : Follows cfg S v b) : Masked cfg a b c v' where
  accounts x hx q hq hout := by
    rw [hr.extPipes] at hout
    have hacc := h.accounts x hx q hq hout
    have hnot : ¬ v.IsInput q := not_not.mpr hout
    obtain ⟨⟨ha, hb, hc⟩, -, hac, hbc⟩ := ht
    -- What is flushed is no longer than either of the two queues that agree.
    have hready : ∀ y, y = a ∨ y = b → v.handedReady cfg c r q ≤ (v.queue y q).length := by
      intro y hy
      have hle : v.handedReady cfg c r q ≤ (v.handed c r q y).length := ready_le (by omega)
      rwa [handed_of_ne (by omega)] at hle
    have hab := h.agree hA hB hq hout (hready a (Or.inl rfl)) (hready b (Or.inr rfl))
    have hagree : Agree (v.handedReady cfg c r q) (fun i => v.queue i q) r x := by
      rcases hrab with rfl | rfl
      · rcases hx with rfl | rfl
        · exact Agree.refl
        · exact hab
      · rcases hx with rfl | rfl
        · exact hab.symm
        · exact Agree.refl
    have hxc : x ≠ c := by omega
    rw [hr.accepted, hr.sent q hq hnot, hr.queue x q ⟨by omega, hq⟩ hnot, handed_of_ne hxc]
    exact hacc.pass hagree
  restarts e' r' hmem := by
    rw [hr.restarts, List.mem_append, List.mem_singleton] at hmem
    rcases hmem with hmem | hmem
    · exact h.restarts e' r' hmem
    · obtain ⟨rfl, rfl⟩ := Prod.mk.inj hmem
      have hne := ht.ne
      exact ⟨rfl, by omega⟩

/-- A vote: whatever the poll finds, it finds for the two. -/
theorem Masked.voted (h : Masked cfg a b c v) (hmode : cfg.repType = .tmr) (ht : Trio a b c)
    (hA : Follows cfg S v a) (hB : Follows cfg S v b) (hp : p < cfg.pipeCount)
    (hout : (v.extPipes p).fdIn = 0) (hv : Voted cfg plan id p v v') :
    Masked cfg a b c v' := by
  have hn : cfg.repCount = 3 := by rw [cfg.repCount_eq, hmode]; rfl
  have hab : Agree (v.ready cfg p) (fun i => v.queue i p) a b :=
    h.agree hA hB hp hout (ready_le_queue (by rw [hn]; exact ht.lt.1))
      (ready_le_queue (by rw [hn]; exact ht.lt.2.1))
  have hboth : ∀ w, Agree (v.ready cfg p) (fun i => v.queue i p) w a →
      ∀ x, x = a ∨ x = b → Agree (v.ready cfg p) (fun i => v.queue i p) w x := by
    rintro w hwa x (rfl | rfl)
    · exact hwa
    · exact hwa.trans hab
  cases hv with
  | nothing _ hv => exact hv ▸ h
  | alone hsmr _ => exact absurd (hmode.symm.trans hsmr) (by simp)
  | pair hdmr _ _ _ => exact absurd (hmode.symm.trans hdmr) (by simp)
  | three _ _ hd =>
    unfold Voter.verdict at hd
    rw [hn] at hd
    -- The two agree, so the poll ends with one of them, and if it finds against somebody, against
    -- the third.
    rcases verdict_of_agree ht.lt.1 ht.lt.2.1 ht.lt.2.2 ht.ne.1 ht.ne.2.1 ht.ne.2.2 hab with
      ⟨w, hw, -, hwa⟩ | ⟨w, hw, hlt, hwc, hwa⟩
    · rw [hw] at hd
      cases hd with
      | unanimous hs => exact h.sent hs ht hn (hboth w hwa)
    · rw [hw] at hd
      obtain ⟨ha, hb, hc⟩ := ht.lt
      obtain ⟨hne, hac, hbc⟩ := ht.ne
      cases hd with
      | outvoted hr => exact h.restarted hr ht hn (by omega) hA hB

/-! ## Over a run -/

/-- A stream that is followed later was followed before. -/
theorem Follows.of_grown {x : Nat} (h : Follows cfg S v' x) (hg : Grown v v') :
    Follows cfg S v x :=
  fun p hp hout => (hg.accepted x p).trans (h p hp (by rw [hg.extPipes]; exact hout))

/-- The step lemma: one call keeps `Masked` as long as `a` and `b` follow the stream. -/
theorem Masked.performed {m : Action} (h : Masked cfg a b c v) (hmode : cfg.repType = .tmr)
    (ht : Trio a b c) (hm : m ≠ .watchdog) (hp : Performed cfg env plan id v v' m)
    (hA : Follows cfg S v' a) (hB : Follows cfg S v' b) :
    Masked cfg a b c v' := by
  cases hp with
  | deliver hv =>
    rw [hv]
    exact h.still (still_deliver v _ _)
  | nothing hv => exact hv ▸ h
  | @processed r p hs hout hp =>
    cases hp with
    | refused _ hstill _ => exact h.still hstill
    | voted _ w hw hv =>
      have hout' : (w.extPipes p).fdIn = 0 := by
        rw [hw.extPipes]
        exact not_not.mp hout
      exact (h.accepted hw).voted hmode ht (hA.of_grown hv.grown) (hB.of_grown hv.grown)
        hs.2 hout' hv
  | handled _ => exact absurd rfl hm

/-- What a run without watchdog restarts keeps. -/
structure Masking (cfg : Config) (S : Nat → List Byte) (a b c : Nat) (v : Voter) : Prop where
  sound : ∃ plan id, Sound cfg plan id v
  masked : Follows cfg S v a → Follows cfg S v b → Masked cfg a b c v

theorem Fresh.masking (h : Fresh cfg v) : Masking cfg S a b c v where
  sound := h.sound
  masked _ _ := by
    refine ⟨fun x _ p _ _ => ?_, fun e r hmem => ?_⟩
    · rw [h.noVotes.queue, h.log]
      rfl
    · rw [h.log] at hmem
      exact absurd hmem (by simp)

/-- The run lemma. -/
theorem Masking.run {ms : List Action} (h : Masking cfg S a b c v) (hmode : cfg.repType = .tmr)
    (ht : Trio a b c) (hno : ∀ m ∈ ms, m ≠ .watchdog)
    (hr : runAll (perform cfg env) ms v = .ok v') : Masking cfg S a b c v' := by
  refine runAll.invariant_of_meets (C := fun m _ => m ≠ .watchdog) (fun m u u' hu hm hstep => ?_)
    h (allMeet_of_forall hno) hr
  obtain ⟨plan, id, hsound⟩ := hu.sound
  have hp := (perform_spec hsound (Or.inr hmode) m).1 u' hstep
  have hg := hp.grown hm
  exact ⟨⟨plan, hp.sound hsound⟩, fun hA hB =>
    (hu.masked (hA.of_grown hg) (hB.of_grown hg)).performed hmode ht hm hp hA hB⟩

/-- **TMR masks one bad replica.** Where `a` and `b` follow one stream on every output pipe,
what the voter writes there is part of the stream, and every restart is one of `c`, from one
of the other two. The stream is given for the end of the run, and what `c` delivers is free. -/
theorem two_replicas_mask_the_third {v₀ : Voter} {ms : List Action} (hmode : cfg.repType = .tmr)
    (hstart : Started cfg env v₀) (ht : Trio a b c) (hno : ∀ m ∈ ms, m ≠ .watchdog)
    (hrun : runAll (perform cfg env) ms v₀ = .ok v) (hA : Follows cfg S v a)
    (hB : Follows cfg S v b) :
    (∀ p, p < cfg.pipeCount → (v.extPipes p).fdIn = 0 → v.log.sent p <+: S p) ∧
      ∀ e r, (e, r) ∈ v.log.restarts → e = c ∧ r ≠ c := by
  have h : Masked cfg a b c v :=
    (hstart.fresh.masking.run hmode ht hno hrun).masked hA hB
  refine ⟨fun p hp hout => ?_, h.restarts⟩
  exact (h.accounts a (Or.inl rfl) p hp hout).sent_part.trans (hA p hp hout)

/-- Three replicas of `Filter`, of which the last is bad: it is restarted in the middle of a
message, and again with the next. -/
theorem two_replicas_mask_the_third_filter :
    ∃ v, runAll (perform (filterPipes.config .tmr 400 80) .steady)
        [.deliver 4 [7, 8], .deliver 7 [7, 8, 9], .deliver 10 [7, 1], .processFromRep 0 1,
          .processFromRep 1 1, .processFromRep 2 1, .deliver 4 [9], .deliver 13 [2],
          .processFromRep 2 1, .processFromRep 0 1]
        (filterPipes.start (filterPipes.config .tmr 400 80) .steady) = .ok v ∧
      v.log.sent 1 = [7, 8, 9] ∧ v.log.restarts = [(2, 0), (2, 0)] ∧
      v.log.sent 1 <+: [7, 8, 9, 10] := by
  have hrun := eq_ended (d := {})
    (r := runAll (perform (filterPipes.config .tmr 400 80) .steady)
      [.deliver 4 [7, 8], .deliver 7 [7, 8, 9], .deliver 10 [7, 1], .processFromRep 0 1,
        .processFromRep 1 1, .processFromRep 2 1, .deliver 4 [9], .deliver 13 [2],
        .processFromRep 2 1, .processFromRep 0 1]
      (filterPipes.start (filterPipes.config .tmr 400 80) .steady)) (by decide +kernel)
  refine ⟨_, hrun, by decide +kernel, by decide +kernel, ?_⟩
  refine (two_replicas_mask_the_third (S := fun p => if p = 1 then [7, 8, 9, 10] else [])
    (a := 0) (b := 1) (c := 2) rfl filterPipes.started ⟨by decide, by decide⟩ ?_ hrun ?_ ?_).1
    1 (by decide) (by decide +kernel)
  · decide
  · unfold Follows
    decide +kernel
  · unfold Follows
    decide +kernel

end Masking

end Pint
