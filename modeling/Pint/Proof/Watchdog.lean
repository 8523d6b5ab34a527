import Pint.Proof.Runs

/-!
# Whom the watchdog restarts

When the watchdog runs out in TMR, the handler restarts the replica that is furthest behind
on the timed output, and clones the one before it around the circle, whatever that one has
delivered.

`Behind` is the order in which `behindRep` looks for the last replica; `behindRep_eq_iff`
says that it finds it. The order is strict and total, because the index decides where votes and
priority do not, so the last replica is one and no other. From there, `watchdog_spares` says
exactly in which runs a given replica is never cloned. The condition is about the votes and
priorities when the watchdog runs out, and not about what the replicas have delivered: the code
does not look at that.
-/

namespace Pint

open Prog Voting

/-- Replica `i` is further behind than `j` on pipe `p`: it has fewer votes, or as many and a
higher priority, or the same of both and the lower index. -/
def Behind (reps : Nat → Replica) (p i j : Nat) : Prop :=
  ((reps i).votPipes p).buffCount < ((reps j).votPipes p).buffCount ∨
    ((reps i).votPipes p).buffCount = ((reps j).votPipes p).buffCount ∧
      ((reps j).priority < (reps i).priority ∨
        (reps i).priority = (reps j).priority ∧ i < j)

instance (reps : Nat → Replica) (p i j : Nat) : Decidable (Behind reps p i j) :=
  inferInstanceAs (Decidable (_ ∨ _))

section Behind

variable {reps : Nat → Replica} {p i j s n : Nat}

theorem Behind.asymm (h : Behind reps p i j) : ¬ Behind reps p j i := by
  unfold Behind at *
  omega

theorem Behind.total (h : i ≠ j) : Behind reps p i j ∨ Behind reps p j i := by
  unfold Behind
  omega

theorem Behind.trans {k : Nat} (h : Behind reps p i j) (h' : Behind reps p j k) :
    Behind reps p i k := by
  unfold Behind at *
  omega

/-- A turn of the loop keeps the one further behind, if the indexes come in order. -/
theorem behindStep_eq (h : i < j) :
    behindStep reps p i j = if Behind reps p j i then j else i := by
  by_cases hb : Behind reps p j i
  · rw [if_pos hb]
    unfold Behind at hb
    unfold behindStep
    split
    · rfl
    · rw [if_pos (by omega), if_pos (by omega)]
  · rw [if_neg hb]
    unfold Behind at hb
    unfold behindStep
    rw [if_neg (by omega)]
    split
    · rw [if_neg (by omega)]
    · rfl

theorem behindRep_succ (reps : Nat → Replica) (n p : Nat) :
    behindRep reps (n + 2) p = behindStep reps p (behindRep reps (n + 1) p) (n + 1) := by
  unfold behindRep
  rw [show n + 2 - 1 = n + 1 from rfl, show n + 1 - 1 = n from rfl, List.range'_concat,
    List.foldl_append, Nat.one_mul, Nat.add_comm 1 n]
  rfl

/-- Nobody is further behind than the one it finds. -/
theorem not_behind_behindRep (hj : j < n + 1) :
    ¬ Behind reps p j (behindRep reps (n + 1) p) := by
  induction n generalizing j with
  | zero =>
    obtain rfl : j = 0 := by omega
    exact fun h => h.asymm h
  | succ n ih =>
    rw [behindRep_succ, behindStep_eq (behindRep_lt (Nat.succ_pos n))]
    split
    · rename_i hlast
      intro h
      rcases Nat.lt_succ_iff_lt_or_eq.mp hj with hlt | rfl
      · exact ih hlt (h.trans hlast)
      · exact h.asymm h
    · rename_i hlast
      rcases Nat.lt_succ_iff_lt_or_eq.mp hj with hlt | rfl
      · exact ih hlt
      · exact hlast

/-- **`behindRep` finds the last replica.** -/
theorem behindRep_eq_iff (hs : s < n) :
    behindRep reps n p = s ↔ ∀ j, j < n → ¬ Behind reps p j s := by
  obtain ⟨m, rfl⟩ : ∃ m, n = m + 1 := ⟨n - 1, by omega⟩
  constructor
  · rintro rfl j hj
    exact not_behind_behindRep hj
  · intro h
    by_contra hne
    rcases (Behind.total hne : Behind reps p _ _ ∨ Behind reps p _ _) with hb | hb
    · exact h _ (behindRep_lt (Nat.succ_pos m)) hb
    · exact not_behind_behindRep hs hb

end Behind

/-! ## Who is cloned -/

section Spares

variable {cfg : Config} {env : Env} {plan : Plan} {id : Nat → Nat → Nat} {v v' : Voter} {c : Nat}

/-- If the watchdog runs out, some replica is further behind on the timed output than the one
after `c`. -/
def Spares (cfg : Config) (c : Nat) (m : Action) (v : Voter) : Prop :=
  m = .watchdog → ∃ j, j < 3 ∧ Behind v.replicas cfg.timerStopIndex j ((c + 1) % 3)

instance (c : Nat) (m : Action) (v : Voter) : Decidable (Spares cfg c m v) :=
  inferInstanceAs (Decidable (_ → _))

/-- The handler clones `c` when the replica after it is the last: it goes back from there by
adding two modulo three. -/
theorem restarter_eq_iff (hn : cfg.repCount = 3) (hc : c < 3) :
    cfg.restarter (v.restartee cfg) = c ↔
      ∀ j, j < 3 → ¬ Behind v.replicas cfg.timerStopIndex j ((c + 1) % 3) := by
  have hlt : v.restartee cfg < 3 := hn ▸ behindRep_lt (by omega)
  have hback : cfg.restarter (v.restartee cfg) = c ↔ v.restartee cfg = (c + 1) % 3 := by
    unfold Config.restarter
    rw [hn]
    omega
  rw [hback]
  unfold Voter.restartee
  rw [hn]
  exact behindRep_eq_iff (Nat.mod_lt _ (by decide))

theorem Handled.calls (h : Handled cfg env plan id v v') : ∃ t, v'.log.calls = v.log.calls ++
    [.picked (v.restartee cfg) (cfg.restarter (v.restartee cfg)), .returned t] := by
  obtain ⟨w, hr, rfl⟩ := h.state
  refine ⟨env.clock w.tick, ?_⟩
  show w.log.calls ++ [_] = _
  rw [hr.calls]
  show (v.log.calls ++ [_]) ++ [_] = _
  rw [List.append_assoc]
  rfl

/-- The step lemma: a call keeps `c` from being cloned exactly when `Spares` holds of it. Calls
other than the watchdog's pick nobody. -/
theorem Performed.picked_iff {m : Action} (hmode : cfg.repType = .tmr) (hc : c < 3)
    (h : Performed cfg env plan id v v' m) :
    (∀ e, .picked e c ∉ v'.log.calls) ↔ (∀ e, .picked e c ∉ v.log.calls) ∧ Spares cfg c m v := by
  have hn : cfg.repCount = 3 := by rw [cfg.repCount_eq, hmode]; rfl
  by_cases hm : m = .watchdog
  · subst hm
    cases h with
    | handled hh =>
      obtain ⟨t, hcalls⟩ := hh.calls
      have hpicked : Spares cfg c .watchdog v ↔ cfg.restarter (v.restartee cfg) ≠ c := by
        unfold Spares
        rw [ne_eq, restarter_eq_iff hn hc]
        simp
      rw [hcalls, hpicked]
      constructor
      · intro h
        refine ⟨fun e hmem => h e (List.mem_append_left _ hmem), fun heq => ?_⟩
        refine h (v.restartee cfg) (List.mem_append_right _ ?_)
        rw [heq]
        exact List.mem_cons_self
      · rintro ⟨hold, hne⟩ e hmem
        rcases List.mem_append.mp hmem with hmem | hmem
        · exact hold e hmem
        · simp only [List.mem_cons, List.not_mem_nil, or_false, reduceCtorEq] at hmem
          exact hne (Call.picked.inj hmem).2.symm
  · have hs : Spares cfg c m v := fun h => absurd h hm
    rw [(h.grown hm).calls]
    exact ⟨fun h => ⟨h, hs⟩, And.left⟩

/-- **When a watchdog restart never clones a given replica.** In a run of the TMR voter
replica `c` is never chosen as restarter exactly when, each time the watchdog runs out, some
replica is further behind than the one after `c`. -/
theorem watchdog_spares {v₀ : Voter} {ms : List Action} (hmode : cfg.repType = .tmr)
    (hstart : Started cfg env v₀) (hc : c < 3)
    (hrun : runAll (perform cfg env) ms v₀ = .ok v) :
    (∀ e, .picked e c ∉ v.log.calls) ↔ AllMeet (perform cfg env) (Spares cfg c) ms v₀ := by
  have hmon := runAll.monitor (I := fun v => ∃ plan id, Sound cfg plan id v)
    (P := fun v => ∀ e, .picked e c ∉ v.log.calls) (C := Spares cfg c)
    (fun m u u' hu hstep => by
      obtain ⟨plan, id, hsound⟩ := hu
      have hp := (perform_spec hsound (Or.inr hmode) m).1 u' hstep
      exact ⟨⟨plan, hp.sound hsound⟩, hp.picked_iff hmode hc⟩) hstart.fresh.sound hrun
  rw [hmon, hstart.fresh.log]
  simp

/-- The third replica of `Filter` has died; the other two delivered a byte, and the watchdog
restarts the third. -/
theorem watchdog_spares_filter :
    ∃ v, runAll (perform (filterPipes.config .tmr 400 80) .steady)
        [.deliver 4 [7], .deliver 7 [7], .processFromRep 0 1, .processFromRep 1 1, .watchdog]
        (filterPipes.start (filterPipes.config .tmr 400 80) .steady) = .ok v ∧
      v.log.restarts = [(2, 1)] ∧ ∀ e, .picked e 2 ∉ v.log.calls := by
  have hrun := eq_ended (d := {})
    (r := runAll (perform (filterPipes.config .tmr 400 80) .steady)
      [.deliver 4 [7], .deliver 7 [7], .processFromRep 0 1, .processFromRep 1 1, .watchdog]
      (filterPipes.start (filterPipes.config .tmr 400 80) .steady)) (by decide +kernel)
  refine ⟨_, hrun, by decide +kernel, ?_⟩
  exact (watchdog_spares rfl filterPipes.started (by decide) hrun).mpr (by decide +kernel)

/-- The third replica delivers a wrong byte, the second the right one, and the first has not
answered yet. The watchdog clones the third, and its byte is then forwarded by two votes. -/
theorem watchdog_clones_faulty :
    ∃ v, runAll (perform (filterPipes.config .tmr 400 80) .steady)
        [.deliver 7 [7], .deliver 10 [9], .processFromRep 1 1, .processFromRep 2 1, .watchdog]
        (filterPipes.start (filterPipes.config .tmr 400 80) .steady) = .ok v ∧
      v.log.accepted 0 1 <+: [7] ∧ v.log.accepted 1 1 <+: [7] ∧ v.log.accepted 2 1 = [9] ∧
      .picked 0 2 ∈ v.log.calls ∧ v.log.sent 1 = [9] := by
  have hrun := eq_ended (d := {})
    (r := runAll (perform (filterPipes.config .tmr 400 80) .steady)
      [.deliver 7 [7], .deliver 10 [9], .processFromRep 1 1, .processFromRep 2 1, .watchdog]
      (filterPipes.start (filterPipes.config .tmr 400 80) .steady)) (by decide +kernel)
  exact ⟨_, hrun, by decide +kernel, by decide +kernel, by decide +kernel, by decide +kernel,
    by decide +kernel⟩

end Spares

end Pint
