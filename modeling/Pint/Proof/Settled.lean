import Pint.Proof.Loop

/-!
# Votable output leaves at once

A pipe is settled when nothing on it is left to vote on: some replica has nothing buffered,
or no two of three agree on what all have. Only an arrival on a pipe is followed by a vote on
it, so what has to be shown is that nothing else brings agreed output about. A restart
rewrites the buffers of every output pipe, but it forwards on every one of them what is ready
(`Restarted.settled`).

Between the arrival on a pipe and the vote on it that pipe may be unsettled, and only that one:
`Voter.SettledBut`. It is never seen from outside, as the two are one piece of the main loop.
-/

namespace Pint

open Prog Voting

/-- Nothing that the voter could forward is waiting on pipe `p`. -/
def Voter.SettledOn (v : Voter) (cfg : Config) (p : Nat) : Prop :=
  v.ready cfg p = 0 ∨ cfg.repType = .tmr ∧ ∀ i j, i < 3 → j < 3 → i ≠ j →
    ¬ Agree (v.ready cfg p) (fun i => v.queue i p) i j

/-- All output pipes are settled, but for those in `B`. -/
def Voter.SettledBut (v : Voter) (cfg : Config) (B : Nat → Prop) : Prop :=
  ∀ p, p < cfg.pipeCount → ¬ v.IsInput p → ¬ B p → v.SettledOn cfg p

/-- All output pipes are settled. -/
def Voter.Settled (v : Voter) (cfg : Config) : Prop := v.SettledBut cfg fun _ => False

section Settled

variable {cfg : Config} {env : Env} {plan : Plan} {id : Nat → Nat → Nat} {v v' w : Voter}
  {p r e : Nat} {B : Nat → Prop} {bytes : List Byte}

theorem Voter.SettledOn.congr (h : v.SettledOn cfg p)
    (hq : ∀ i, v'.queue i p = v.queue i p) : v'.SettledOn cfg p := by
  unfold SettledOn Voter.ready at *
  simp only [hq]
  exact h

theorem Voter.SettledBut.congr (h : v.SettledBut cfg B) (hin : ∀ q, v'.IsInput q ↔ v.IsInput q)
    (hq : ∀ i q, ¬ B q → v'.queue i q = v.queue i q) : v'.SettledBut cfg B := by
  intro q hlt hout hB
  refine (h q hlt ?_ hB).congr fun i => hq i q hB
  intro hc
  exact hout ((hin q).mpr hc)

theorem Voter.SettledBut.still (h : v.SettledBut cfg B) (hs : Still v v') :
    v'.SettledBut cfg B :=
  h.congr hs.isInput fun i q _ => hs.queue i q

theorem Voter.Settled.armed (h : v.Settled cfg) (ha : Armed env v v') : v'.Settled cfg :=
  h.congr ha.kept.isInput fun i q _ => ha.queue i q

theorem Voter.Settled.of_same (h : v.Settled cfg) (he : v'.extPipes = v.extPipes)
    (hr : v'.replicas = v.replicas) : v'.Settled cfg := by
  refine h.congr ?_ ?_
  · intro q
    unfold Voter.IsInput
    rw [he]
  · intro i q _
    unfold Voter.queue Voter.vot
    rw [hr]

/-- Where nobody has anything buffered there is nothing to vote on. -/
theorem settled_of_empty (hn : 0 < cfg.repCount) (h : ∀ q, q < cfg.pipeCount → v.queue 0 q = []) :
    v.Settled cfg := by
  intro q hlt _ _
  refine Or.inl (Nat.le_zero.mp ?_)
  have hle : v.ready cfg q ≤ (v.queue 0 q).length := ready_le_queue hn
  rw [h q hlt] at hle
  exact hle

/-- A send settles its pipe: the shortest queue is empty after it. -/
theorem Sent.settledOn (h : Sent cfg p r v v') (hn : 0 < cfg.repCount)
    (hlt : (v.queue 0 p).length < maxVotePipeBuff) : v'.SettledOn cfg p := by
  refine Or.inl ?_
  calc v'.ready cfg p
      = Voting.ready maxVotePipeBuff cfg.repCount
          (fun i => (v.queue i p).drop (v.ready cfg p)) :=
        ready_congr fun i hi => by rw [h.queue i hi]
    _ = 0 := ready_drop hn hlt

theorem Sent.settled (h : Sent cfg p r v v') (hn : 0 < cfg.repCount)
    (hlt : (v.queue 0 p).length < maxVotePipeBuff) (hv : v.SettledBut cfg (· = p)) :
    v'.Settled cfg := by
  intro q hq hout _
  by_cases hqp : q = p
  · rw [hqp]
    exact h.settledOn hn hlt
  · have hout' : ¬ v.IsInput q := fun hc => hout ((h.kept.isInput q).mpr hc)
    refine (hv q hq hout' hqp).congr ?_
    intro i
    unfold Voter.queue
    rw [h.vot_ne i q hqp]

theorem Restarted.isInput (h : Restarted cfg plan id e r v v') (q : Nat) :
    v'.IsInput q ↔ v.IsInput q := by
  unfold Voter.IsInput
  rw [h.extPipes]

/-- **A restart settles every pipe**, whatever was waiting before. It gives the clone the queues
of its source, and forwards on each pipe as much as all three then have. -/
theorem Restarted.settled (h : Restarted cfg plan id e r v v') (hl : Lockstep cfg v)
    (hr : r < cfg.repCount) (hne : r ≠ e) : v'.Settled cfg := by
  intro q hq hout _
  have hout' : ¬ v.IsInput q := fun hc => hout ((h.isInput q).mpr hc)
  have hlt : (v.handed e r q r).length < maxVotePipeBuff := by
    rw [handed_of_ne hne]
    exact ((hl.inStep q hq).wf r hr).length_lt
  refine Or.inl ?_
  calc v'.ready cfg q
      = Voting.ready maxVotePipeBuff cfg.repCount
          (fun i => (v.handed e r q i).drop (v.handedReady cfg e r q)) :=
        ready_congr fun i hi => by rw [h.queue i q ⟨hi, hq⟩ hout']
    _ = 0 := ready_drop hr hlt

/-- **A vote on a pipe settles it**, and leaves the others settled. -/
theorem Voted.settled (hl : Lockstep cfg v) (hn : 0 < cfg.repCount) (hp : p < cfg.pipeCount)
    (h : v.SettledBut cfg (· = p)) (hv : Voted cfg plan id p v v') : v'.Settled cfg := by
  have hlt : (v.queue 0 p).length < maxVotePipeBuff := ((hl.inStep p hp).wf 0 hn).length_lt
  -- When the vote changes no buffer, `p` has to be settled by what the vote found.
  have hstill : ∀ {u : Voter}, Still v u → v.SettledOn cfg p → u.Settled cfg := by
    intro u hs hon q hq hout _
    by_cases hqp : q = p
    · rw [hqp]
      exact hon.congr fun i => hs.queue i p
    · exact h.still hs q hq hout hqp
  cases hv with
  | nothing h0 hv => exact hstill (hv ▸ Still.refl v) (Or.inl h0)
  | alone _ hs => exact hs.settled hn hlt h
  | pair _ w hw hs =>
    have hvw : Still v w := by
      rcases hw with rfl | rfl
      · exact Still.refl _
      · exact still_say v (by simp [Message.alarm])
    refine hs.settled hn ?_ (h.still hvw)
    rw [hvw.queue]
    exact hlt
  | three hmode _ hd =>
    have hthree : cfg.repCount = 3 := by
      rw [cfg.repCount_eq, hmode]
      rfl
    cases hverdict : v.verdict cfg p with
    | noTwo =>
      rw [hverdict] at hd
      unfold Voter.verdict at hverdict
      rw [hthree] at hverdict
      cases hd with
      | noTwo hv =>
        refine hstill (hv ▸ still_say v (by simp [Message.alarm])) (Or.inr ⟨hmode, ?_⟩)
        intro i j hi hj hij
        exact verdict_noTwo hverdict hi hj hij
    | unanimous winner =>
      rw [hverdict] at hd
      cases hd with
      | unanimous hs => exact hs.settled hn hlt h
    | outvoted loser winner =>
      obtain ⟨hw, hne⟩ := (verdict_lt hthree).2 loser winner hverdict
      rw [hverdict] at hd
      cases hd with
      | outvoted hr => exact hr.settled hl hw hne

/-! ## The pieces of the loop -/

theorem Accepted.settled (h : v.Settled cfg) (hw : Accepted cfg id r p bytes v w) :
    w.SettledBut cfg (· = p) := by
  intro q hq hout hqp
  have hout' : ¬ v.IsInput q := fun hc => hout ((hw.kept.isInput q).mpr hc)
  refine (h q hq hout' not_false).congr ?_
  intro i
  unfold Voter.queue
  rw [hw.vot_ne i q (fun hc => hqp hc.2)]

theorem Processed.settled (h : v.Settled cfg) (hs : cfg.Slot r p)
    (hp : Processed cfg env plan id r p v v') : v'.Settled cfg := by
  cases hp with
  | refused _ hstill _ => exact h.still hstill
  | voted _ w hw hv =>
    exact hv.settled hw.lockstep (Nat.zero_lt_of_lt hs.1) hs.2 (hw.settled h)

theorem ColdStarted.settled (h : ColdStarted cfg env plan id v v') (hmode : cfg.repType = .smr) :
    v'.Settled cfg := by
  refine settled_of_empty ?_ h.noVotes
  rw [cfg.repCount_eq, hmode]
  decide

theorem Handled.settled (h : Handled cfg env plan id v v') (hl : Lockstep cfg v)
    (hmode : cfg.Replicated) : v'.Settled cfg := by
  obtain ⟨w, hw, rfl⟩ := h.state
  obtain ⟨hr, hne⟩ := restarter_ne hmode (v.restartee cfg)
  exact (hw.settled (hl.of_same rfl rfl) hr hne).of_same rfl rfl

theorem Recovered.settled (h : Recovered cfg env plan id v v') (hl : Lockstep cfg v) :
    v'.Settled cfg := by
  cases h with
  | cold hmode h => exact h.settled hmode
  | cloned hmode h => exact h.settled hl hmode

theorem Reaped.settled (h : v.Settled cfg) (hr : Reaped cfg env plan id v v') :
    v'.Settled cfg := by
  cases hr with
  | passed _ hv => exact hv ▸ h
  | alive _ _ hv =>
    obtain ⟨-, he, hreps, -⟩ := v.reap_same env
    rw [hv]
    exact h.of_same he hreps
  | exited hmode _ w hw hv =>
    rw [hv]
    exact (hw.settled hmode).of_same rfl rfl

theorem Checked.settled (h : v.Settled cfg) (hl : Lockstep cfg v)
    (hc : Checked cfg env plan id v v') : v'.Settled cfg := by
  cases hc with
  | quiet _ hs => exact h.still hs
  | expired _ hr => exact hr.settled (hl.of_same rfl rfl)

theorem Updated.settled (h : v.Settled cfg) (hu : Updated cfg env plan id v v') :
    v'.Settled cfg := by
  obtain ⟨u, w, id', hr, hsound, hc, ha, -⟩ := hu.parts
  exact (hc.settled (hr.settled h) hsound.lockstep).armed ha

/-- The step lemma. A move of somebody else writes to a kernel pipe, and changes no buffer. -/
theorem Stepped.settled {m m' : Machine} {mv : Move} (h : m.v.Settled cfg)
    (hst : Stepped cfg env plan id m mv m') : m'.v.Settled cfg := by
  cases hst with
  | deliver => exact h.still (still_deliver _ _ _)
  | updated hu => exact hu.settled h
  | selected _ => exact h
  | woken => exact h
  | external ha _ _ => exact h.armed ha
  | externalsDone => exact h
  | skipped => exact h
  | served hs _ _ hp => exact hp.settled h hs
  | replicasDone => exact h

/-- The run lemma. -/
theorem settled_run {v₀ : Voter} {moves : List Move} {m : Machine} (hmode : cfg.Voting)
    (hstart : Started cfg env v₀)
    (hrun : runAll (Machine.step cfg env) moves ⟨.top, v₀⟩ = .ok m) :
    (∃ plan, Running cfg plan m) ∧ m.v.Settled cfg := by
  obtain ⟨plan, h₀⟩ := hstart.running
  have hn : 0 < cfg.repCount := by
    rcases hmode with hmode | hmode
    · rw [cfg.repCount_eq, hmode]
      decide
    · rcases hmode.repCount with hn | hn <;> omega
  have hsettled : v₀.Settled cfg := settled_of_empty hn fun q _ => hstart.fresh.noVotes.queue 0 q
  obtain ⟨hm, hs⟩ := runAll.invariant (I := fun u => Running cfg plan u ∧ u.v.Settled cfg)
    (fun mv u u' hu hstep => by
      obtain ⟨id, -, hst, hu'⟩ := hu.1.stepped hmode hstep
      exact ⟨hu', hst.settled hu.2⟩)
    ⟨h₀, hsettled⟩ hrun
  exact ⟨⟨plan, hm⟩, hs⟩

/-- **Votable output is never held back.** At any moment of a run, with `n` the least
`buff_count` on an output pipe, either `n` is 0, or three replicas vote and no two of them
agree on the first `n` bytes. -/
theorem votable_output_leaves {v₀ : Voter} {moves : List Move} {m : Machine} {n : Nat}
    (hmode : cfg.Voting) (hstart : Started cfg env v₀)
    (hrun : runAll (Machine.step cfg env) moves ⟨.top, v₀⟩ = .ok m) (hp : p < cfg.pipeCount)
    (hout : (m.v.extPipes p).fdIn = 0)
    (hle : ∀ i, i < cfg.repCount → (n : Int) ≤ (m.v.vot i p).buffCount)
    (hmin : ∃ i, i < cfg.repCount ∧ (m.v.vot i p).buffCount = n) :
    n = 0 ∨ cfg.repType = .tmr ∧ ∀ i j, i < 3 → j < 3 → i ≠ j →
      (m.v.vot i p).content.take n ≠ (m.v.vot j p).content.take n := by
  obtain ⟨⟨plan, hm⟩, hs⟩ := settled_run hmode hstart hrun
  obtain ⟨id, hsound⟩ := hm.sound
  have hstep := hsound.lockstep.inStep p hp
  have hlen : ∀ i, i < cfg.repCount → (m.v.vot i p).buffCount = ((m.v.queue i p).length : Int) :=
    fun i hi => (hstep.wf i hi).count_eq
  obtain ⟨i, hi, hcount⟩ := hmin
  have hready : m.v.ready cfg p = n := by
    refine Nat.le_antisymm ?_ (le_ready ?_ ?_)
    · have h1 := hlen i hi
      have h2 : m.v.ready cfg p ≤ (m.v.queue i p).length := ready_le_queue hi
      omega
    · have h1 := (hstep.wf i hi).count_lt
      omega
    · intro j hj
      have h1 := hlen j hj
      have h2 := hle j hj
      omega
  have hsettled := hs p hp (not_not.mpr hout) not_false
  unfold Voter.SettledOn at hsettled
  rw [hready] at hsettled
  exact hsettled

/-- The three replicas of `Filter` each deliver another byte; nothing is forwarded. -/
def disputingFilter : List Move :=
  [.deliver 4 [7], .deliver 7 [8], .deliver 10 [9]] ++ gos 12

theorem votable_output_leaves_filter :
    ∃ m, runAll (Machine.step (filterPipes.config .tmr 400 80) .steady) disputingFilter
        ⟨.top, filterPipes.start (filterPipes.config .tmr 400 80) .steady⟩ = .ok m ∧
      (m.v.vot 0 1).buffCount = 1 ∧
      (m.v.vot 0 1).content.take 1 ≠ (m.v.vot 1 1).content.take 1 := by
  have hrun := eq_ended (d := ⟨.top, {}⟩)
    (r := runAll (Machine.step (filterPipes.config .tmr 400 80) .steady) disputingFilter
      ⟨.top, filterPipes.start (filterPipes.config .tmr 400 80) .steady⟩) (by decide +kernel)
  refine ⟨_, hrun, by decide +kernel, ?_⟩
  have hleft := votable_output_leaves (n := 1) (p := 1) (Or.inr (Or.inr rfl)) filterPipes.started
    hrun (by decide) (by decide +kernel) (by decide +kernel) ⟨0, by decide, by decide +kernel⟩
  rcases hleft with h | h
  · exact absurd h (by decide)
  · exact h.2 0 1 (by decide) (by decide) (by decide)

end Settled

end Pint
