import Pint.Proof.Loop
import Mathlib.Order.Monotone.Defs

/-!
# A voting period between two restarts

When the watchdog calls the handler, a full voting period should have gone by since the
handler last returned. It has, if the timer that ran out was armed after that. With two or
three replicas it always was, because a restart stops the timer. With one replica the handler
leaves the timer running that has just run out, and unless the new process answers before the
next update it runs out again at once.

`Timed` is the invariant. It compares what the voter remembers of the clock with what the clock
shows: every return of the handler and the arming of the timer are in the past, and, but for a
single replica, a running timer was armed after every return. Votes and reads stop the timer at
most, so they keep this; a chunk of input arms it with the time that it is; and a restart
stops it, so that nothing is left to say. When the timer runs out, the period has gone by since it
was armed, and so since every return.

The clock is any that does not go back, and the times are those at which it was read.
-/

namespace Pint

open Prog Voting

/-- `b` is a call by the watchdog only if a voting period has gone by since the return `a`. -/
def Apart (cfg : Config) (a b : Call) : Prop :=
  ∀ t' t, a = .returned t' → b = .expired t → cfg.votingTimeout ≤ (t : Int) - t'

/-- Each call of the handler by the watchdog comes at least a voting period after every
earlier return of the handler. -/
def FullPeriod (cfg : Config) (v : Voter) : Prop := v.log.calls.Pairwise (Apart cfg)

/-- A timer that runs out in this update was armed after the handler last returned. -/
def ArmedSince (cfg : Config) (env : Env) (mv : Move) (m : Machine) : Prop :=
  mv = .go → m.pc = .top → ¬ m.v.exitDue env → (m.v.reap env).watchdogDue cfg env →
    ∀ c ∈ m.v.log.calls, ∀ t', c = .returned t' → t' ≤ m.v.watchdog

/-- The time at which the handler returned, if this is a return. -/
def Call.returnTime : Call → Nat
  | .returned t => t
  | _ => 0

theorem returned_le_iff {calls : List Call} {t : Nat} :
    (∀ c ∈ calls, ∀ t', c = .returned t' → t' ≤ t) ↔ ∀ c ∈ calls, c.returnTime ≤ t := by
  constructor
  · intro h c hc
    cases c with
    | returned t' => exact h _ hc t' rfl
    | expired _ => exact Nat.zero_le t
    | exited _ _ => exact Nat.zero_le t
    | picked _ _ => exact Nat.zero_le t
  · rintro h _ hc t' rfl
    exact h _ hc

instance (cfg : Config) (env : Env) (mv : Move) (m : Machine) :
    Decidable (ArmedSince cfg env mv m) :=
  decidable_of_iff (mv = .go → m.pc = .top → ¬ m.v.exitDue env →
      (m.v.reap env).watchdogDue cfg env → ∀ c ∈ m.v.log.calls, c.returnTime ≤ m.v.watchdog)
    (by unfold ArmedSince; rw [returned_le_iff])

/-- What is known of the clock readings that the voter holds. -/
structure Timed (cfg : Config) (env : Env) (v : Voter) : Prop where
  period : FullPeriod cfg v
  returned : ∀ t', .returned t' ∈ v.log.calls → t' ≤ env.clock v.tick
  watchdog : v.timerStarted = true → v.watchdog ≤ env.clock v.tick
  /-- With several replicas a timer that runs was armed since the last restart. -/
  since : cfg.repType ≠ .smr → v.timerStarted = true →
    ∀ t', .returned t' ∈ v.log.calls → t' ≤ v.watchdog

section Timed

variable {cfg : Config} {env : Env} {plan : Plan} {id : Nat → Nat → Nat} {v v' w : Voter}
  {p r e : Nat}

/-- Time goes on, and no timer is armed. -/
theorem Timed.later (h : Timed cfg env v) (hclock : Monotone env.clock)
    (hcalls : v'.log.calls = v.log.calls) (htick : v.tick ≤ v'.tick)
    (htimer : v'.timerStarted = true → v.timerStarted = true ∧ v'.watchdog = v.watchdog) :
    Timed cfg env v' where
  period := by
    unfold FullPeriod
    rw [hcalls]
    exact h.period
  returned t' hmem := by
    rw [hcalls] at hmem
    exact Nat.le_trans (h.returned t' hmem) (hclock htick)
  watchdog ht := by
    rw [(htimer ht).2]
    exact Nat.le_trans (h.watchdog (htimer ht).1) (hclock htick)
  since hmode ht t' hmem := by
    rw [hcalls] at hmem
    rw [(htimer ht).2]
    exact h.since hmode (htimer ht).1 t' hmem

theorem Timed.still (h : Timed cfg env v) (hclock : Monotone env.clock) (hs : Still v v') :
    Timed cfg env v' :=
  h.later hclock hs.calls hs.tick fun ht => ⟨hs.timerStarted ▸ ht, hs.watchdog⟩

/-- A timer that is armed is armed after whatever happened before. -/
theorem Timed.armed (h : Timed cfg env v) (hclock : Monotone env.clock) (ha : Armed env v v') :
    Timed cfg env v' := by
  have hcalls : v'.log.calls = v.log.calls := by rw [ha.log]
  rcases ha.timer with ⟨h1, h2⟩ | ⟨-, -, t, h3, h4, h5⟩
  · exact h.later hclock hcalls ha.kept.tick fun ht => ⟨h1 ▸ ht, h2⟩
  · have hret : ∀ t', .returned t' ∈ v'.log.calls → t' ≤ env.clock t := by
      intro t' hmem
      rw [hcalls] at hmem
      exact Nat.le_trans (h.returned t' hmem) (hclock h3)
    refine ⟨?_, fun t' hmem => ?_, fun _ => ?_, fun _ _ t' hmem => ?_⟩
    · unfold FullPeriod
      rw [hcalls]
      exact h.period
    · exact Nat.le_trans (hret t' hmem) (hclock (Nat.le_of_lt h4))
    · rw [h5]
      exact hclock (Nat.le_of_lt h4)
    · rw [h5]
      exact hret t' hmem

/-! ## Votes only stop the timer -/

theorem Sent.timer (h : Sent cfg p r v v') (ht : v'.timerStarted = true) :
    v.timerStarted = true ∧ v'.watchdog = v.watchdog := by
  refine ⟨?_, h.watchdog⟩
  rw [h.timerStarted] at ht
  split at ht
  · exact absurd ht (by simp)
  · exact ht

theorem Voted.timer (hv : Voted cfg plan id p v v') (ht : v'.timerStarted = true) :
    v.timerStarted = true ∧ v'.watchdog = v.watchdog := by
  cases hv with
  | nothing _ hv => exact ⟨hv ▸ ht, by rw [hv]⟩
  | alone _ hs => exact hs.timer ht
  | pair _ w hw hs =>
    rcases hw with rfl | rfl
    · exact hs.timer ht
    · exact hs.timer ht
  | three _ _ hd =>
    generalize v.verdict cfg p = verdict at hd
    cases hd with
    | noTwo hv =>
      rw [hv] at ht ⊢
      exact ⟨ht, rfl⟩
    | unanimous hs => exact hs.timer ht
    | outvoted hr => exact absurd (hr.timerStarted.symm.trans ht) (by simp)

theorem Processed.timer (hp : Processed cfg env plan id r p v v') (ht : v'.timerStarted = true) :
    v.timerStarted = true ∧ v'.watchdog = v.watchdog := by
  cases hp with
  | refused _ hs _ => exact ⟨hs.timerStarted ▸ ht, hs.watchdog⟩
  | voted _ w hw hv =>
    obtain ⟨h1, h2⟩ := hv.timer ht
    exact ⟨hw.timerStarted ▸ h1, h2.trans hw.watchdog⟩

theorem Timed.processed (h : Timed cfg env v) (hclock : Monotone env.clock)
    (hp : Processed cfg env plan id r p v v') : Timed cfg env v' :=
  h.later hclock hp.grown.calls hp.grown.tick hp.timer

/-! ## The handler -/

theorem apart_snoc {calls : List Call} {c : Call} (h : calls.Pairwise (Apart cfg))
    (hc : ∀ a ∈ calls, Apart cfg a c) : (calls ++ [c]).Pairwise (Apart cfg) :=
  List.pairwise_append.mpr
    ⟨h, List.pairwise_singleton _ _, fun a ha _ hb => List.mem_singleton.mp hb ▸ hc a ha⟩

/-- Whatever is not a call by the watchdog can come at any time. -/
theorem apart_of_ne {a c : Call} (h : ∀ t, c ≠ .expired t) : Apart cfg a c :=
  fun _ t _ hc => absurd hc (h t)

/-- The cold start of the only replica. -/
theorem Timed.coldStarted (h : Timed cfg env v) (hclock : Monotone env.clock)
    (hmode : cfg.repType = .smr) (hc : ColdStarted cfg env plan id v v') : Timed cfg env v' := by
  obtain ⟨t, h1, h2, hlog⟩ := hc.log
  have hcalls : v'.log.calls = v.log.calls ++ [.returned (env.clock t)] := by rw [hlog]
  have htick : v.tick ≤ v'.tick := by omega
  refine ⟨?_, fun t' hmem => ?_, fun ht => ?_, fun hne => absurd hmode hne⟩
  · unfold FullPeriod
    rw [hcalls]
    exact apart_snoc h.period fun a _ => apart_of_ne (by simp)
  · rw [hcalls] at hmem
    rcases List.mem_append.mp hmem with hmem | hmem
    · exact Nat.le_trans (h.returned t' hmem) (hclock htick)
    · obtain rfl := Call.returned.inj (List.mem_singleton.mp hmem)
      exact hclock (Nat.le_of_lt h2)
  · rcases hc.timer with ⟨g1, g2⟩ | ⟨-, -, s, -, g4, g5⟩
    · rw [g2]
      exact Nat.le_trans (h.watchdog (g1 ▸ ht)) (hclock htick)
    · rw [g5]
      exact hclock (Nat.le_of_lt g4)

/-- A restart from another replica stops the timer. -/
theorem Timed.handled (h : Timed cfg env v) (hclock : Monotone env.clock)
    (hh : Handled cfg env plan id v v') : Timed cfg env v' := by
  obtain ⟨w, hr, rfl⟩ := hh.state
  have htick : v.tick ≤ w.tick := hr.tick
  have hcalls : w.log.calls = v.log.calls ++
      [.picked (v.restartee cfg) (cfg.restarter (v.restartee cfg))] := hr.calls
  have hoff : w.timerStarted = false := hr.timerStarted
  refine ⟨?_, fun t' hmem => ?_, fun ht => absurd (hoff.symm.trans ht) (by simp),
    fun _ ht => absurd (hoff.symm.trans ht) (by simp)⟩
  · show (w.log.calls ++ [Call.returned (env.clock w.tick)]).Pairwise (Apart cfg)
    rw [hcalls]
    exact apart_snoc (apart_snoc h.period fun a _ => apart_of_ne (by simp))
      fun a _ => apart_of_ne (by simp)
  · have hmem' : Call.returned t' ∈ w.log.calls ++ [Call.returned (env.clock w.tick)] := hmem
    rw [hcalls] at hmem'
    simp only [List.mem_append, List.mem_singleton, reduceCtorEq, or_false] at hmem'
    rcases hmem' with hmem' | hmem'
    · exact Nat.le_trans (h.returned t' hmem') (hclock (Nat.le_succ_of_le htick))
    · obtain rfl := Call.returned.inj hmem'
      exact hclock (Nat.le_succ _)

/-- **The watchdog runs out.** If its timer was armed after the handler last returned, a
voting period has gone by since. -/
theorem Timed.expired (h : Timed cfg env v) (hclock : Monotone env.clock)
    (hdue : v.watchdogDue cfg env)
    (hsince : ∀ t', .returned t' ∈ v.log.calls → t' ≤ v.watchdog) :
    Timed cfg env (v.read (.expired (env.clock v.tick))) := by
  have hnow := h.watchdog hdue.1
  have hperiod : cfg.votingTimeout ≤ (env.clock v.tick : Int) - v.watchdog := by
    have := hdue.2
    unfold diffTime at this
    split at this <;> omega
  have hold : ∀ t', Call.returned t' ∈ v.log.calls ++ [.expired (env.clock v.tick)] →
      .returned t' ∈ v.log.calls := by
    intro t' hmem
    rcases List.mem_append.mp hmem with hmem | hmem
    · exact hmem
    · exact absurd (List.mem_singleton.mp hmem) (by simp)
  refine ⟨apart_snoc h.period ?_, fun t' hmem => ?_, fun _ => ?_, fun _ _ t' hmem => ?_⟩
  · rintro _ hmem t' _ rfl hb
    obtain rfl := Call.expired.inj hb
    have := hsince t' hmem
    omega
  · exact Nat.le_trans (h.returned t' (hold t' hmem)) (hclock (Nat.le_succ _))
  · exact Nat.le_trans hnow (hclock (Nat.le_succ _))
  · exact hsince t' (hold t' hmem)

theorem Timed.recovered (h : Timed cfg env v) (hclock : Monotone env.clock)
    (hr : Recovered cfg env plan id v v') : Timed cfg env v' := by
  cases hr with
  | cold hmode hc => exact h.coldStarted hclock hmode hc
  | cloned _ hh => exact h.handled hclock hh

/-! ## Over a run -/

theorem Timed.reap (h : Timed cfg env v) (hclock : Monotone env.clock) :
    Timed cfg env (v.reap env) := by
  obtain ⟨-, -, -, -, ht, hw, htick, hlog⟩ := v.reap_same env
  exact h.later hclock (by rw [hlog]) (by omega) fun hon => ⟨ht ▸ hon, hw⟩

/-- An update. -/
theorem Timed.updated (h : Timed cfg env v) (hclock : Monotone env.clock)
    (hsince : cfg.repType = .smr → ¬ v.exitDue env → (v.reap env).watchdogDue cfg env →
      ∀ t', .returned t' ∈ v.log.calls → t' ≤ v.watchdog)
    (hu : Updated cfg env plan id v v') : Timed cfg env v' := by
  obtain ⟨u, w, id', hr, -, hc, ha, -⟩ := hu.parts
  -- The timer, if it runs out, was armed since the handler last returned.
  have hparts : Timed cfg env u ∧ (u.watchdogDue cfg env →
      ∀ t', .returned t' ∈ u.log.calls → t' ≤ u.watchdog) := by
    cases hr with
    | passed hmode hv =>
      rw [hv]
      exact ⟨h, fun hdue => h.since hmode hdue.1⟩
    | alive hmode hdue hv =>
      obtain ⟨-, -, -, -, -, hw, -, hlog⟩ := v.reap_same env
      rw [hv, hlog, hw]
      exact ⟨h.reap hclock, hsince hmode hdue⟩
    | exited hmode _ x hx hv =>
      have hnote : Timed cfg env
          ((v.reap env).note (.exited (env.waitpid v.tick) (v.replicas 0).pid)) := by
        have hreap := h.reap hclock
        refine ⟨apart_snoc hreap.period fun a _ => apart_of_ne (by simp), fun t' hmem => ?_,
          hreap.watchdog, fun hne => absurd hmode hne⟩
        rcases List.mem_append.mp hmem with hmem | hmem
        · exact hreap.returned t' hmem
        · exact absurd (List.mem_singleton.mp hmem) (by simp)
      have htx := hnote.coldStarted hclock hmode hx
      have hoff : u.timerStarted = false := by rw [hv]
      refine ⟨htx.later hclock (by rw [hv]) (by rw [hv]) fun ht => ?_, fun hdue => ?_⟩
      · exact absurd (hoff.symm.trans ht) (by simp)
      · exact absurd (hoff.symm.trans hdue.1) (by simp)
  have hw : Timed cfg env w := by
    cases hc with
    | quiet _ hs => exact hparts.1.still hclock hs
    | expired hdue hrec =>
      exact (hparts.1.expired hclock hdue (hparts.2 hdue)).recovered hclock hrec
  exact hw.armed hclock ha

/-- The step lemma. -/
theorem Timed.stepped {m m' : Machine} {mv : Move} (h : Timed cfg env m.v)
    (hclock : Monotone env.clock) (hsince : cfg.repType = .smr → ArmedSince cfg env mv m)
    (hs : Stepped cfg env plan id m mv m') : Timed cfg env m'.v := by
  cases hs with
  | deliver => exact h.still hclock (still_deliver _ _ _)
  | updated hu =>
    exact h.updated hclock
      (fun hmode hno hdue t' hmem => hsince hmode rfl rfl hno hdue _ hmem t' rfl) hu
  | selected _ => exact h
  | woken => exact h
  | external ha _ _ => exact h.armed hclock ha
  | externalsDone => exact h
  | skipped => exact h
  | served _ _ _ hp => exact h.processed hclock hp
  | replicasDone => exact h

theorem Fresh.timed (h : Fresh cfg v) : Timed cfg env v := by
  have hcalls : v.log.calls = [] := by rw [h.log]
  have hoff := h.timerStarted
  refine ⟨?_, fun t' hmem => ?_, fun ht => absurd (hoff.symm.trans ht) (by simp),
    fun _ ht => absurd (hoff.symm.trans ht) (by simp)⟩
  · unfold FullPeriod
    rw [hcalls]
    exact .nil
  · rw [hcalls] at hmem
    exact absurd hmem (by simp)

/-- **When a fresh replica gets a full voting period.** With two or three replicas, and with
one in every run in which each timer that runs out was armed after the handler last returned,
the watchdog calls the handler at least a voting period after every earlier return. -/
theorem watchdog_waits_full_period {v₀ : Voter} {moves : List Move} {m : Machine}
    (hmode : cfg.Voting) (hclock : Monotone env.clock) (hstart : Started cfg env v₀)
    (hsince : cfg.repType = .smr →
      AllMeet (Machine.step cfg env) (ArmedSince cfg env) moves ⟨.top, v₀⟩)
    (hrun : runAll (Machine.step cfg env) moves ⟨.top, v₀⟩ = .ok m) : FullPeriod cfg m.v := by
  obtain ⟨plan, h₀⟩ := hstart.running
  have hmeet : AllMeet (Machine.step cfg env)
      (fun mv u => cfg.repType = .smr → ArmedSince cfg env mv u) moves ⟨.top, v₀⟩ := by
    by_cases hsmr : cfg.repType = .smr
    · exact (hsince hsmr).mono fun _ _ h _ => h
    · exact (allMeet_of_forall (C := fun _ => True) fun _ _ => trivial).mono
        fun _ _ _ hc => absurd hc hsmr
  have hm := runAll.invariant_of_meets (I := fun u => Running cfg plan u ∧ Timed cfg env u.v)
    (fun mv u u' hu hsince hstep => by
      obtain ⟨id, -, hst, hu'⟩ := hu.1.stepped hmode hstep
      exact ⟨hu', hu.2.stepped hclock hsince hst⟩)
    ⟨h₀, hstart.fresh.timed⟩ hmeet hrun
  exact hm.2.period

/-- The only replica of `Filter` is replaced, and its successor answers at once; the watchdog
then waits for the next input. -/
def answeringFilter : List Move :=
  gos 1 ++ .deliver 0 [1] :: gos 10 ++ .deliver 7 [1] :: gos 10 ++ .deliver 0 [1] :: gos 10

theorem watchdog_waits_full_period_filter :
    ∃ m, runAll (Machine.step (filterPipes.config .smr 3 80) .steady) answeringFilter
        ⟨.top, filterPipes.start (filterPipes.config .smr 3 80) .steady⟩ = .ok m ∧
      m.v.log.calls = [.expired 6, .returned 9, .expired 17, .returned 20] ∧
      FullPeriod (filterPipes.config .smr 3 80) m.v := by
  have hrun := eq_ended (d := ⟨.top, {}⟩)
    (r := runAll (Machine.step (filterPipes.config .smr 3 80) .steady) answeringFilter
      ⟨.top, filterPipes.start (filterPipes.config .smr 3 80) .steady⟩) (by decide +kernel)
  refine ⟨_, hrun, by decide +kernel, ?_⟩
  exact watchdog_waits_full_period (Or.inl rfl) monotone_id filterPipes.started
    (fun _ => by decide +kernel) hrun

/-- The first input is not answered: `select` waits out what is left of the voting period of 5, and
the handler replaces the only replica. Then the next input is there, so `select` returns at once. -/
def silentFilter : List Move :=
  gos 1 ++ .deliver 0 [1] :: gos 12 ++ .deliver 0 [2] :: gos 10

/-- The handler returned at 11, and the timer that had run out still runs: it runs out again at 15,
before the successor has had its period. -/
theorem successor_loses_its_period :
    ∃ m, runAll (Machine.step (filterPipes.config .smr 5 80) .steady) silentFilter
        ⟨.top, filterPipes.start (filterPipes.config .smr 5 80) .steady⟩ = .ok m ∧
      m.v.log.calls = [.expired 8, .returned 11, .expired 15, .returned 18] ∧
      ¬ FullPeriod (filterPipes.config .smr 5 80) m.v := by
  have hrun := eq_ended (d := ⟨.top, {}⟩)
    (r := runAll (Machine.step (filterPipes.config .smr 5 80) .steady) silentFilter
      ⟨.top, filterPipes.start (filterPipes.config .smr 5 80) .steady⟩) (by decide +kernel)
  have hcalls : (ended (runAll (Machine.step (filterPipes.config .smr 5 80) .steady) silentFilter
      ⟨.top, filterPipes.start (filterPipes.config .smr 5 80) .steady⟩) ⟨.top, {}⟩).v.log.calls
      = [.expired 8, .returned 11, .expired 15, .returned 18] := by decide +kernel
  refine ⟨_, hrun, hcalls, fun h => ?_⟩
  unfold FullPeriod at h
  rw [hcalls] at h
  simp only [List.pairwise_cons, List.mem_cons] at h
  have := h.2.1 (.expired 15) (Or.inl rfl) 11 15 rfl rfl
  exact absurd this (by decide)

end Timed

end Pint
