import Pint.Proof.Loop

/-!
# The watchdog while the replicas differ

While the replicas do not hold the same number of votes the voter does not read its inputs,
so only a restart, or more output, gets it going again. A component that is not real-time
(`voter_priority` below 5) always has the watchdog running in that case, `armed_at_select`.
For a real-time component nothing but a timed input arms it, and what holds of every component
is that from a timed input on the timer runs until an answer is forwarded to the timed output
or a replica is restarted.

`Onward` is what every piece does: it takes nothing back that was sent, and it leaves a timer that
runs alone, unless it has sent something to the timed output or restarted somebody. It is a
relation of two states, so that it can be put together along a run. The other half is about one
state only, the one at `select` (`ArmedAtSelect`), since `doOneUpdate` arms the timer right before
it.
-/

namespace Pint

open Prog Voting

/-- From `v` on: nothing sent is taken back, and a timer that ran is still running, unless
the timed output was answered or a replica was restarted. -/
structure Onward (cfg : Config) (v v' : Voter) : Prop where
  sent : (v.log.sent cfg.timerStopIndex).length ≤ (v'.log.sent cfg.timerStopIndex).length
  restarts : v.log.restarts.length ≤ v'.log.restarts.length
  timer : v.timerStarted = true → v'.timerStarted = true ∨
    (v.log.sent cfg.timerStopIndex).length < (v'.log.sent cfg.timerStopIndex).length ∨
    v.log.restarts.length < v'.log.restarts.length

section Onward

variable {cfg : Config} {env : Env} {plan : Plan} {id : Nat → Nat → Nat} {v v' v'' w : Voter}
  {p r e : Nat} {bytes : List Byte}

/-- What does not write to the outside, restart a replica or stop the timer. -/
theorem Onward.of_eq (hsent : v'.log.sent = v.log.sent)
    (hrestarts : v'.log.restarts = v.log.restarts)
    (htimer : v.timerStarted = true → v'.timerStarted = true) : Onward cfg v v' :=
  ⟨by rw [hsent], by rw [hrestarts], fun h => Or.inl (htimer h)⟩

theorem Onward.refl (v : Voter) : Onward cfg v v := .of_eq rfl rfl fun h => h

theorem Onward.trans (h : Onward cfg v v') (h' : Onward cfg v' v'') : Onward cfg v v'' where
  sent := Nat.le_trans h.sent h'.sent
  restarts := Nat.le_trans h.restarts h'.restarts
  timer ht := by
    have h1 := h.sent
    have h2 := h.restarts
    have h3 := h'.sent
    have h4 := h'.restarts
    rcases h.timer ht with ht' | hlt | hlt
    · rcases h'.timer ht' with ht'' | hlt | hlt
      · exact Or.inl ht''
      · exact Or.inr (Or.inl (by omega))
      · exact Or.inr (Or.inr (by omega))
    · exact Or.inr (Or.inl (by omega))
    · exact Or.inr (Or.inr (by omega))

theorem Still.onward (h : Still v v') : Onward cfg v v' :=
  .of_eq h.sent h.restarts fun ht => h.timerStarted.trans ht

theorem Armed.onward (h : Armed env v v') : Onward cfg v v' :=
  .of_eq (by rw [h.log]) (by rw [h.log]) fun ht => by
    rcases h.timer with ⟨h1, -⟩ | ⟨-, h1, -⟩
    · exact h1.trans ht
    · exact h1

theorem Accepted.onward (h : Accepted cfg id r p bytes v w) : Onward cfg v w :=
  .of_eq (by rw [h.log]; rfl) (by rw [h.log]; rfl) fun ht => h.timerStarted.trans ht

/-- `sendPipe` stops the timer only if it forwards something to the timed output. -/
theorem Sent.onward (h : Sent cfg p r v v') (hr : r < cfg.repCount) : Onward cfg v v' := by
  have hsent : v'.log.sent p = v.log.sent p ++ (v.queue r p).take (v.ready cfg p) := by
    rw [h.log]
    exact Function.update_self _ _ _
  have hne : ∀ q, q ≠ p → v'.log.sent q = v.log.sent q := fun q hq => by
    rw [h.log]
    exact Function.update_of_ne hq _ _
  have hlen : (v'.log.sent p).length = (v.log.sent p).length + v.ready cfg p := by
    rw [hsent, List.length_append, List.length_take, Nat.min_eq_left (ready_le_queue hr)]
  refine ⟨?_, by rw [h.log], fun ht => ?_⟩
  · by_cases hp : cfg.timerStopIndex = p
    · rw [hp, hlen]
      exact Nat.le_add_right _ _
    · rw [hne _ hp]
  · rw [h.timerStarted]
    split
    · rename_i hc
      refine Or.inr (Or.inl ?_)
      rw [← hc.1, hlen]
      omega
    · exact Or.inl ht

theorem Restarted.onward (h : Restarted cfg plan id e r v v') : Onward cfg v v' := by
  have hlen : v'.log.restarts.length = v.log.restarts.length + 1 := by
    rw [h.restarts, List.length_append, List.length_singleton]
  refine ⟨?_, by omega, fun _ => Or.inr (Or.inr (by omega))⟩
  by_cases hq : cfg.timerStopIndex < cfg.pipeCount ∧ ¬ v.IsInput cfg.timerStopIndex
  · rw [h.sent _ hq.1 hq.2, List.length_append]
    exact Nat.le_add_right _ _
  · rw [h.sent_ne]
    by_cases hlt : cfg.timerStopIndex < cfg.pipeCount
    · exact Or.inr (not_not.mp fun hc => hq ⟨hlt, hc⟩)
    · exact Or.inl (Nat.not_lt.mp hlt)

theorem Voted.onward (hmode : cfg.Replicated) (hv : Voted cfg plan id p v v') :
    Onward cfg v v' := by
  have hn : 0 < cfg.repCount := by
    rcases hmode.repCount with hn | hn <;> omega
  cases hv with
  | nothing _ hv =>
    rw [hv]
    exact .refl v
  | alone _ hs => exact hs.onward hn
  | pair _ w hw hs =>
    rcases hw with rfl | rfl
    · exact hs.onward hn
    · exact (still_say v (by simp [Message.alarm])).onward.trans (hs.onward hn)
  | three hmode _ hd =>
    have hthree : cfg.repCount = 3 := by rw [cfg.repCount_eq, hmode]; rfl
    have hlt := (verdict_lt (v := v) hthree (p := p)).1
    generalize v.verdict cfg p = verdict at hd hlt
    cases hd with
    | noTwo hv => exact hv ▸ (still_say v (by simp [Message.alarm])).onward
    | unanimous hs => exact hs.onward (hlt _ rfl)
    | outvoted hr => exact hr.onward

theorem Processed.onward (hmode : cfg.Replicated) (hp : Processed cfg env plan id r p v v') :
    Onward cfg v v' := by
  cases hp with
  | refused _ hs _ => exact hs.onward
  | voted _ w hw hv => exact hw.onward.trans (hv.onward hmode)

theorem Handled.onward (h : Handled cfg env plan id v v') : Onward cfg v v' := by
  obtain ⟨w, hr, rfl⟩ := h.state
  have hnote : ∀ (u : Voter) (c : Call), Onward cfg u (u.note c) := fun u c =>
    .of_eq rfl rfl fun h => h
  exact ((hnote v _).trans hr.onward).trans ((still_tick w).onward.trans (hnote _ _))

theorem Config.Replicated.ne_smr (h : cfg.Replicated) : cfg.repType ≠ .smr := by
  rcases h with h | h <;> rw [h] <;> simp

theorem Updated.onward (hmode : cfg.Replicated) (h : Updated cfg env plan id v v') :
    Onward cfg v v' := by
  obtain ⟨u, w, id', hu, -, hw, hv, -⟩ := h.parts
  have hvu : u = v := by
    cases hu with
    | passed _ hu => exact hu
    | alive hsmr _ _ => exact absurd hsmr hmode.ne_smr
    | exited hsmr _ _ _ _ => exact absurd hsmr hmode.ne_smr
  subst hvu
  have huw : Onward cfg u w := by
    cases hw with
    | quiet _ hs => exact hs.onward
    | expired _ hr =>
      cases hr with
      | cold hsmr _ => exact absurd hsmr hmode.ne_smr
      | cloned _ hh =>
        have hread : Onward cfg u (u.read (.expired (env.clock u.tick))) :=
          .of_eq rfl rfl fun h => h
        exact hread.trans hh.onward
  exact huw.trans hv.onward

/-- The step lemma. A move of somebody else has nothing to do with the timer. -/
theorem Stepped.onward {m m' : Machine} {mv : Move} (hmode : cfg.Replicated)
    (h : Stepped cfg env plan id m mv m') : Onward cfg m.v m'.v := by
  cases h with
  | deliver => exact (still_deliver _ _ _).onward
  | updated hu => exact hu.onward hmode
  | selected _ => exact .refl _
  | woken => exact .refl _
  | external ha _ _ => exact ha.onward
  | externalsDone => exact .refl _
  | skipped => exact .refl _
  | served _ _ _ hp => exact hp.onward hmode
  | replicasDone => exact .refl _

/-! ## At `select` -/

/-- At its `select` the voter of a component that is not real-time has the timer running, if
the replicas differ. -/
def ArmedAtSelect (cfg : Config) (m : Machine) : Prop :=
  ∀ watched, m.pc = .atSelect watched → cfg.voterPriority < 5 → checkSync cfg m.v = false →
    m.v.timerStarted = true

theorem Stepped.armedAtSelect {m m' : Machine} {mv : Move} (ha : ArmedAtSelect cfg m)
    (h : Stepped cfg env plan id m mv m') : ArmedAtSelect cfg m' := by
  intro watched hpc hprio hsync
  cases h with
  | deliver => exact ha watched hpc hprio hsync
  | updated hu => exact hu.sync hsync hprio
  | selected _ => exact absurd hpc (by simp)
  | woken => exact absurd hpc (by simp)
  | external _ _ _ => exact absurd hpc (by simp)
  | externalsDone => exact absurd hpc (by simp)
  | skipped => exact absurd hpc (by simp)
  | served _ _ _ _ => exact absurd hpc (by simp)
  | replicasDone => exact absurd hpc (by simp)

theorem onward_run {moves : List Move} {m m' : Machine} (h : Running cfg plan m)
    (hmode : cfg.Replicated) (hrun : runAll (Machine.step cfg env) moves m = .ok m') :
    Onward cfg m.v m'.v := by
  refine (runAll.invariant (I := fun u => Running cfg plan u ∧ Onward cfg m.v u.v)
    (fun mv u u' hu hstep => ?_) ⟨h, .refl m.v⟩ hrun).2
  obtain ⟨id, -, hst, hu'⟩ := hu.1.stepped (Or.inr hmode) hstep
  exact ⟨hu', hu.2.trans (hst.onward hmode)⟩

/-- **Where the voter cannot wedge.** If the component is not real-time, the timer runs
whenever the voter selects without its inputs. Whatever the component, passing a timed input
on leaves the timer running; and from any point of a run where it runs, it runs until more was
forwarded to the timed output or a replica was restarted. -/
theorem armed_at_select {v₀ : Voter} {moves : List Move} {m : Machine} (hmode : cfg.Replicated)
    (hstart : Started cfg env v₀)
    (hrun : runAll (Machine.step cfg env) moves ⟨.top, v₀⟩ = .ok m) :
    (∀ watched, m.pc = .atSelect watched → cfg.voterPriority < 5 → checkSync cfg m.v = false →
      m.v.timerStarted = true) ∧
    (∀ ready rest m', m.pc = .externals ready (cfg.timerStartIndex :: rest) →
      m.v.inputDue ready cfg.timerStartIndex → m.step cfg env .go = .ok m' →
      m'.v.timerStarted = true) ∧
    ∀ moves' m', m.v.timerStarted = true →
      runAll (Machine.step cfg env) moves' m = .ok m' → m'.v.timerStarted = true ∨
      (m.v.log.sent cfg.timerStopIndex).length < (m'.v.log.sent cfg.timerStopIndex).length ∨
      m.v.log.restarts.length < m'.v.log.restarts.length := by
  obtain ⟨plan, h₀⟩ := hstart.running
  obtain ⟨hm, harm⟩ := runAll.invariant (I := fun u => Running cfg plan u ∧ ArmedAtSelect cfg u)
    (fun mv u u' hu hstep => by
      obtain ⟨id, -, hst, hu'⟩ := hu.1.stepped (Or.inr hmode) hstep
      exact ⟨hu', hst.armedAtSelect hu.2⟩)
    ⟨h₀, fun _ hpc => absurd hpc (by simp)⟩ hrun
  refine ⟨harm, fun ready rest m' hpc hdue hstep => ?_, fun moves' m' ht hrun' =>
    (onward_run hm hmode hrun').timer ht⟩
  obtain ⟨id, -, hst, -⟩ := hm.stepped (Or.inr hmode) hstep
  obtain ⟨pc, v⟩ := m
  obtain rfl : pc = _ := hpc
  cases hst with
  | external _ _ htimer => exact htimer rfl hdue

/-- The third replica of `Filter` dies after the timed one of its two answers. -/
def dyingFilter : List Move :=
  gos 1 ++ .deliver 0 [1] :: gos 16 ++
    [.deliver 4 [7], .deliver 7 [7], .deliver 10 [7], .deliver 5 [8], .deliver 8 [8]] ++ gos 16

theorem armed_at_select_filter :
    ∃ m, runAll (Machine.step (filterPipes.config .tmr 400 2) .steady) dyingFilter
        ⟨.top, filterPipes.start (filterPipes.config .tmr 400 2) .steady⟩ = .ok m ∧
      checkSync (filterPipes.config .tmr 400 2) m.v = false ∧ m.v.timerStarted = true := by
  have hrun := eq_ended (d := ⟨.top, {}⟩)
    (r := runAll (Machine.step (filterPipes.config .tmr 400 2) .steady) dyingFilter
      ⟨.top, filterPipes.start (filterPipes.config .tmr 400 2) .steady⟩) (by decide +kernel)
  have hsync : checkSync (filterPipes.config .tmr 400 2)
      (ended (runAll (Machine.step (filterPipes.config .tmr 400 2) .steady) dyingFilter
        ⟨.top, filterPipes.start (filterPipes.config .tmr 400 2) .steady⟩) ⟨.top, {}⟩).v
      = false := by decide +kernel
  refine ⟨_, hrun, hsync, ?_⟩
  exact (armed_at_select (Or.inr rfl) filterPipes.started hrun).1
    [7, 13, 19, 9, 15, 21] (by decide +kernel) (by decide) hsync

/-- The same in a real-time component: the two living replicas have both answered on the
second output, the inputs are not watched, and no timer runs. -/
theorem wedged_realtime_filter :
    ∃ m watched, runAll (Machine.step (filterPipes.config .tmr 400 80) .steady) dyingFilter
        ⟨.top, filterPipes.start (filterPipes.config .tmr 400 80) .steady⟩ = .ok m ∧
      m.pc = .atSelect watched ∧ checkSync (filterPipes.config .tmr 400 80) m.v = false ∧
      m.v.timerStarted = false := by
  have hrun := eq_ended (d := ⟨.top, {}⟩)
    (r := runAll (Machine.step (filterPipes.config .tmr 400 80) .steady) dyingFilter
      ⟨.top, filterPipes.start (filterPipes.config .tmr 400 80) .steady⟩) (by decide +kernel)
  exact ⟨_, [7, 13, 19, 9, 15, 21], hrun, by decide +kernel, by decide +kernel,
    by decide +kernel⟩

end Onward

end Pint
