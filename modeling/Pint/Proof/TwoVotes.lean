import Pint.Proof.Runs

/-!
# What leaves the voter had two votes

`checkSDC p` compares what all replicas have delivered on pipe `p`. Where one replica is
outvoted, it then restarts that replica, and with the copied buffers in place forwards on
*every* output pipe as much as the other two have delivered. Those bytes were not compared.

`checkSDC_twoVotes` says exactly when they nevertheless had two votes: when, on every output
pipe, each byte that both of the others hold is in a second buffer. The buffers meant are those
before the call, so the copy that the restart makes is not a second vote, and `Backed` can be
asked without running anything.

Of the two others it is the one after the restartee whose bytes are forwarded. Each byte has its
second vote from the third replica, or else from the restartee itself, which may have delivered
the right byte on a pipe where nobody asked it.
-/

namespace Pint

open Prog Voting

/-- Every byte written to an external output pipe between `v` and `v'` was, at its position,
in the buffers of two replicas. -/
def TwoVotes (cfg : Config) (v v' : Voter) : Prop :=
  ∀ q, q < cfg.pipeCount → (v.extPipes q).fdIn = 0 → ∀ k x,
    (v'.log.sent q)[(v.log.sent q).length + k]? = some x →
      Seconded cfg.repCount (fun i => v.queue i q) k x

/-- If replica `e` is outvoted on pipe `p`, then on every output pipe each byte that both
others hold is in two buffers: in both of theirs, or in that of `e + 1` and that of `e`. -/
def Backed (cfg : Config) (v : Voter) (p : Nat) : Prop :=
  ∀ e, Minority (v.ready cfg p) (fun i => v.queue i p) e →
    ∀ q, q < cfg.pipeCount → (v.extPipes q).fdIn = 0 →
      ∀ k, k < (v.queue ((e + 1) % 3) q).length → k < (v.queue ((e + 2) % 3) q).length →
        (v.queue ((e + 2) % 3) q)[k]? = (v.queue ((e + 1) % 3) q)[k]? ∨
          (v.queue e q)[k]? = (v.queue ((e + 1) % 3) q)[k]?

section TwoVotes

variable {cfg : Config} {env : Env} {plan : Plan} {id : Nat → Nat → Nat} {v v' : Voter}
  {p r e : Nat}

/-- The bytes behind those already sent. -/
theorem getElem?_sent {sent queue : List Byte} {n k : Nat} :
    (sent ++ queue.take n)[sent.length + k]? = if k < n then queue[k]? else none := by
  rw [List.getElem?_append_right (Nat.le_add_right _ _), Nat.add_sub_cancel_left,
    List.getElem?_take]

/-- Nothing written needs no votes. -/
theorem TwoVotes.of_sent_eq (h : v'.log.sent = v.log.sent) : TwoVotes cfg v v' := by
  intro q _ _ k x hx
  rw [h, List.getElem?_eq_none (Nat.le_add_right _ _)] at hx
  exact absurd hx (by simp)

/-- What is forwarded from replica `r` needs a second vote. -/
theorem twoVotes_iff {n : Nat → Nat} (hr : r < cfg.repCount)
    (hsent : ∀ q, q < cfg.pipeCount → (v.extPipes q).fdIn = 0 →
      v'.log.sent q = v.log.sent q ++ (v.queue r q).take (n q))
    (hn : ∀ q, n q ≤ (v.queue r q).length) :
    TwoVotes cfg v v' ↔ ∀ q, q < cfg.pipeCount → (v.extPipes q).fdIn = 0 → ∀ k, k < n q →
      ∃ j, j < cfg.repCount ∧ j ≠ r ∧ (v.queue j q)[k]? = (v.queue r q)[k]? := by
  constructor
  · intro h q hq hout k hk
    have hlt : k < (v.queue r q).length := Nat.lt_of_lt_of_le hk (hn q)
    have hx := List.getElem?_eq_getElem hlt
    have hvotes := h q hq hout k (v.queue r q)[k] (by
      rw [hsent q hq hout, getElem?_sent, if_pos hk, hx])
    obtain ⟨j, hj, hjr, hxj⟩ := (seconded_iff hr hx).mp hvotes
    exact ⟨j, hj, hjr, hxj.trans hx.symm⟩
  · intro h q hq hout k x hx
    rw [hsent q hq hout, getElem?_sent] at hx
    split at hx
    · rename_i hk
      obtain ⟨j, hj, hjr, hxj⟩ := h q hq hout k hk
      exact (seconded_iff hr hx).mpr ⟨j, hj, hjr, hxj.trans hx⟩
    · exact absurd hx (by simp)

/-- A unanimous vote. -/
theorem TwoVotes.of_unanimous (hn : cfg.repCount = 3) (hs : Sent cfg p r v v')
    (hv : v.verdict cfg p = .unanimous r) : TwoVotes cfg v v' := by
  unfold Voter.verdict at hv
  rw [hn] at hv
  obtain ⟨hr, hall⟩ := verdict_unanimous hv
  have hr' : r < cfg.repCount := hn ▸ hr
  have hsent : ∀ q, v'.log.sent q
      = v.log.sent q ++ (v.queue r q).take (if q = p then v.ready cfg p else 0) := by
    intro q
    rw [hs.log]
    by_cases hqp : q = p
    · rw [if_pos hqp, hqp]
      exact Function.update_self _ _ _
    · rw [if_neg hqp, List.take_zero, List.append_nil]
      exact Function.update_of_ne hqp _ _
  refine (twoVotes_iff hr' (fun q _ _ => hsent q) fun q => ?_).mpr fun q _ _ k hk => ?_
  · split
    · rename_i hqp
      rw [hqp]
      exact ready_le_queue hr'
    · exact Nat.zero_le _
  · -- The next replica agrees.
    split at hk
    · rename_i hqp
      subst hqp
      have hagree : (v.queue r q).take (v.ready cfg q)
          = (v.queue ((r + 1) % 3) q).take (v.ready cfg q) :=
        hall ((r + 1) % 3) (Nat.mod_lt _ (by decide))
      refine ⟨(r + 1) % 3, by omega, by omega, ?_⟩
      calc (v.queue ((r + 1) % 3) q)[k]?
          = ((v.queue ((r + 1) % 3) q).take (v.ready cfg q))[k]? := by
            rw [List.getElem?_take, if_pos hk]
        _ = ((v.queue r q).take (v.ready cfg q))[k]? := by rw [hagree]
        _ = (v.queue r q)[k]? := by rw [List.getElem?_take, if_pos hk]
    · exact absurd hk (Nat.not_lt_zero k)

/-- How much is flushed on a pipe once the minority was given the buffer of the next: what both
others have. The minority's own buffer sets no bound any more. -/
theorem lt_handedReady (hl : Lockstep cfg v) (hn : cfg.repCount = 3) (he : e < 3) {q k : Nat}
    (hq : q < cfg.pipeCount) :
    k < v.handedReady cfg e ((e + 1) % 3) q ↔
      k < (v.queue ((e + 1) % 3) q).length ∧ k < (v.queue ((e + 2) % 3) q).length := by
  have hle : ∀ i, i < cfg.repCount →
      v.handedReady cfg e ((e + 1) % 3) q ≤ (v.handed e ((e + 1) % 3) q i).length :=
    fun i hi => ready_le hi
  constructor
  · intro hk
    have h1 := hle ((e + 1) % 3) (by omega)
    have h2 := hle ((e + 2) % 3) (by omega)
    rw [handed_of_ne (by omega)] at h1 h2
    omega
  · rintro ⟨h1, h2⟩
    refine Nat.lt_of_succ_le (le_ready ?_ fun i hi => ?_)
    · have hwf := (hl.inStep q hq).wf ((e + 1) % 3) (by omega)
      have hlen : ((v.queue ((e + 1) % 3) q).length : Int) < maxVotePipeBuff := by
        have := hwf.count_lt
        rwa [hwf.count_eq] at this
      omega
    · by_cases hie : i = e
      · rw [hie, handed_self]
        exact h1
      · rw [handed_of_ne hie]
        rcases three_cases (r := e) he (by omega : i < 3) with rfl | rfl | rfl
        · exact absurd rfl hie
        · exact h1
        · exact h2

/-- A restart: what is flushed has two votes exactly when it is backed. -/
theorem Restarted.twoVotes_iff (hl : Lockstep cfg v) (hn : cfg.repCount = 3)
    (hm : Minority (v.ready cfg p) (fun i => v.queue i p) e)
    (hr : Restarted cfg plan id e ((e + 1) % 3) v v') : TwoVotes cfg v v' ↔ Backed cfg v p := by
  have he := hm.1
  have hlt : (e + 1) % 3 < cfg.repCount := by omega
  rw [Pint.twoVotes_iff (n := v.handedReady cfg e ((e + 1) % 3)) hlt
    (fun q hq hout => hr.sent q hq (not_not.mpr hout)) fun q => ?_]
  · constructor
    · intro h e' hm' q hq hout k h1 h2
      -- There is only one minority.
      have hee' : e' = e := by
        have h1 := verdict_outvoted_iff.mpr ⟨rfl, hm⟩
        have h2 := verdict_outvoted_iff.mpr ⟨rfl, hm'⟩
        exact (Verdict.outvoted.inj (h2.symm.trans h1)).1
      subst hee'
      obtain ⟨j, hj, hjr, hx⟩ := h q hq hout k ((lt_handedReady hl hn he hq).mpr ⟨h1, h2⟩)
      rcases three_cases (r := e') he (by omega : j < 3) with rfl | rfl | rfl
      · exact Or.inr hx
      · exact absurd rfl hjr
      · exact Or.inl hx
    · intro h q hq hout k hk
      obtain ⟨h1, h2⟩ := (lt_handedReady hl hn he hq).mp hk
      rcases h e hm q hq hout k h1 h2 with hx | hx
      · exact ⟨(e + 2) % 3, by omega, by omega, hx⟩
      · exact ⟨e, by omega, by omega, hx⟩
  · have : v.handedReady cfg e ((e + 1) % 3) q
        ≤ (v.handed e ((e + 1) % 3) q ((e + 1) % 3)).length := ready_le hlt
    rwa [handed_of_ne (by omega)] at this

/-- **When nothing leaves the voter without two agreeing votes.** In TMR a call of `checkSDC`
returns, and every byte it writes was in two buffers exactly when the pipe voted on has no
minority or the buffers of the majority are backed. Without a minority both sides are true:
what is sent is the front of all three queues, and nothing is sent where no two agree. -/
theorem checkSDC_twoVotes (h : Sound cfg plan id v) (hmode : cfg.repType = .tmr)
    (hp : p < cfg.pipeCount) :
    ∃ v', exec (checkSDC cfg env p) v = .ok v' ∧ (TwoVotes cfg v v' ↔ Backed cfg v p) := by
  have hn : cfg.repCount = 3 := by rw [cfg.repCount_eq, hmode]; rfl
  obtain ⟨_, v', hrun, hv⟩ :=
    (checkSDC_spec h.wired h.lockstep (by omega) hp : wp (checkSDC cfg env p) _ _ v).exists_run
  refine ⟨v', exec_of_run hrun, ?_⟩
  cases hv with
  | nothing h0 hv =>
    refine iff_of_true (.of_sent_eq (by rw [hv])) fun e hm => absurd ?_ hm.2.2
    rw [h0]
    rfl
  | alone hsmr _ => exact absurd (hmode.symm.trans hsmr) (by simp)
  | pair hdmr _ _ _ => exact absurd (hmode.symm.trans hdmr) (by simp)
  | three _ _ hd =>
    have hverdict : ∀ e, Minority (v.ready cfg p) (fun i => v.queue i p) e →
        v.verdict cfg p = .outvoted e ((e + 1) % 3) := by
      intro e hm
      unfold Voter.verdict
      rw [hn]
      exact verdict_outvoted_iff.mpr ⟨rfl, hm⟩
    cases hv : v.verdict cfg p with
    | noTwo =>
      rw [hv] at hd
      cases hd with
      | noTwo hv' =>
        refine iff_of_true (.of_sent_eq (by rw [hv']; rfl)) fun e hm => ?_
        exact absurd (hv.symm.trans (hverdict e hm)) (by simp)
    | unanimous r =>
      rw [hv] at hd
      cases hd with
      | unanimous hs =>
        refine iff_of_true (.of_unanimous hn hs hv) fun e hm => ?_
        exact absurd (hv.symm.trans (hverdict e hm)) (by simp)
    | outvoted e r =>
      rw [hv] at hd
      unfold Voter.verdict at hv
      rw [hn] at hv
      obtain ⟨rfl, hm⟩ := verdict_outvoted_iff.mp hv
      cases hd with
      | outvoted hr => exact hr.twoVotes_iff h.lockstep hn hm

/-! ## A flush of bytes without a second vote -/

/-- The vote pipe of replica `i` holds `bytes`, from the front of its buffer on. -/
def Voter.holding (v : Voter) (i p : Nat) (bytes : List Byte) : Voter :=
  v.setVot i p
    { v.vot i p with
      buffer := fun k => bytes.getD k 0
      buffIndex := 0
      buffCount := bytes.length }

theorem kept_holding (v : Voter) (i p : Nat) (bytes : List Byte) :
    Kept v (v.holding i p bytes) := kept_setVot rfl rfl

/-- `Filter` with three replicas, which have delivered these bytes on the timed output. -/
def deliveredFilter (first second third : List Byte) : Voter :=
  (((filterPipes.start (filterPipes.config .tmr 400 80) .steady).holding 0 1 first).holding
    1 1 second).holding 2 1 third

theorem deliveredFilter_sound {first second third : List Byte}
    (hbuf : ∀ p < 3, ∀ i < 3, ((deliveredFilter first second third).vot i p).buffIndex = 0 ∧
      0 ≤ ((deliveredFilter first second third).vot i p).buffCount ∧
      ((deliveredFilter first second third).vot i p).buffCount < 3 ∧
      (p ≠ 1 → ((deliveredFilter first second third).vot i p).buffCount = 0)) :
    ∃ plan id, Sound (filterPipes.config .tmr 400 80) plan id
      (deliveredFilter first second third) := by
  obtain ⟨plan, id, h⟩ := (filterPipes.started : Started (filterPipes.config .tmr 400 80)
    .steady _).fresh.sound
  have hkept : Kept (filterPipes.start (filterPipes.config .tmr 400 80) .steady)
      (deliveredFilter first second third) :=
    (kept_holding _ 0 1 _).trans ((kept_holding _ 1 1 _).trans (kept_holding _ 2 1 _))
  have hin : ∀ p < 3, ((deliveredFilter first second third).extPipes p).fdIn ≠ 0 → p ≠ 1 := by
    intro p hp
    rw [(hkept.ext p).1]
    revert p
    decide +kernel
  have hmax : (3 : Int) < maxVotePipeBuff := by decide
  refine ⟨plan, id, h.wired.kept hkept, fun p hp => ⟨fun i hi => ?_, fun i j hi hj => ?_⟩,
    fun i p hs hip => ?_⟩
  · obtain ⟨h0, h1, h2, -⟩ := hbuf p hp i hi
    exact ⟨by omega, by omega, h1, by omega⟩
  · rw [(hbuf p hp i hi).1, (hbuf p hp j hj).1]
  · obtain ⟨h0, -, -, h3⟩ := hbuf p hs.2 i hs.1
    exact ⟨h3 (hin p hs.2 hip), h0⟩

/-- The third replica is outvoted, and the other two have delivered the same. -/
theorem backed_filter :
    Backed (filterPipes.config .tmr 400 80) (deliveredFilter [7, 8] [7, 8] [9]) 1 := by
  intro e hm q hq _ k _ _
  have honly : ∀ e < 3, Minority
      ((deliveredFilter [7, 8] [7, 8] [9]).ready (filterPipes.config .tmr 400 80) 1)
      (fun i => (deliveredFilter [7, 8] [7, 8] [9]).queue i 1) e → e = 2 := by
    decide +kernel
  have hsame : ∀ q < (filterPipes.config .tmr 400 80).pipeCount,
      (deliveredFilter [7, 8] [7, 8] [9]).queue 1 q
        = (deliveredFilter [7, 8] [7, 8] [9]).queue 0 q := by
    decide +kernel
  obtain rfl := honly e hm.1 hm
  exact Or.inl (congrArg (·[k]?) (hsame q hq))

theorem checkSDC_twoVotes_filter :
    ∃ v', exec (checkSDC (filterPipes.config .tmr 400 80) .steady 1)
        (deliveredFilter [7, 8] [7, 8] [9]) = .ok v' ∧ v'.log.sent 1 = [7, 8] ∧
      TwoVotes (filterPipes.config .tmr 400 80) (deliveredFilter [7, 8] [7, 8] [9]) v' := by
  obtain ⟨plan, id, h⟩ : ∃ plan id, Sound (filterPipes.config .tmr 400 80) plan id
      (deliveredFilter [7, 8] [7, 8] [9]) := deliveredFilter_sound (by decide +kernel)
  obtain ⟨v', hrun, hiff⟩ : ∃ v', exec (checkSDC _ .steady 1) _ = .ok v' ∧ _ :=
    checkSDC_twoVotes h rfl (by decide : 1 < _)
  have hsent : (ended (exec (checkSDC (filterPipes.config .tmr 400 80) .steady 1)
      (deliveredFilter [7, 8] [7, 8] [9])) {}).log.sent 1 = [7, 8] := by decide +kernel
  rw [hrun] at hsent
  exact ⟨v', hrun, hsent, hiff.mpr backed_filter⟩

/-- On the timed output the first replica has delivered 7, 8, the second 7, 5, and from the third
a 9 has just been accepted. -/
def outvotedFilter : Voter := deliveredFilter [7, 8] [7, 5] [9]

/-- The third replica is outvoted on the one byte it delivered; the flush then writes 8, for
which only the first replica has voted. -/
theorem flush_without_two_votes :
    (∃ plan id, Sound (filterPipes.config .tmr 400 80) plan id outvotedFilter) ∧
    ∃ v', exec (checkSDC (filterPipes.config .tmr 400 80) .steady 1) outvotedFilter = .ok v' ∧
      v'.log.sent 1 = [7, 8] ∧
      ¬ TwoVotes (filterPipes.config .tmr 400 80) outvotedFilter v' := by
  have hrun := eq_ended (d := {})
    (r := exec (checkSDC (filterPipes.config .tmr 400 80) .steady 1) outvotedFilter)
    (by decide +kernel)
  have hsent : (ended (exec (checkSDC (filterPipes.config .tmr 400 80) .steady 1)
      outvotedFilter) {}).log.sent 1 = [7, 8] := by decide +kernel
  refine ⟨deliveredFilter_sound (by decide +kernel), _, hrun, hsent, fun h => ?_⟩
  obtain ⟨i, j, hi, hj, hij, hxi, hxj⟩ := h 1 (by decide) (by decide +kernel) 1 8 (by
    rw [hsent]
    decide +kernel)
  have honly : ∀ i < 3, (outvotedFilter.queue i 1)[1]? = some 8 → i = 0 := by
    decide +kernel
  exact hij ((honly i hi hxi).trans (honly j hj hxj).symm)

end TwoVotes

end Pint
