import Pint.Lib.TopTwo
import Pint.Proof.Still
import Mathlib.Data.Int.Order.Basic

/-!
# The order of the replicas

`balanceReps` gives the highest priority to the replica that is furthest behind and the next
one to `second`. The loop that finds them does not hand the old `starting` on to `second` when
a new one takes its place, and `second` is 1 from the start. So `second` is the largest of those
gaps that never led, and of replica 1's.

`balanceReps_ranked_iff` says for which gaps the priorities are right nevertheless. The loop is
`TopTwo.pass` on the gaps, and what that finds is known (`TopTwo.second_iff`); what is added here
is that the priorities say which replicas the loop found (`ranked_iff`), so an order of the
replicas that fits the priorities can only be the one that the loop had in mind.
-/

namespace Pint

open Prog TopTwo

/-! ## What `balanceReps` leaves behind -/

/-- The replica number `m` is first and number `s` is next, by priority and by gap. -/
structure RankedBy (reps : Nat → Replica) (num : Nat) (defaultPriority : Int) (m s : Nat) :
    Prop where
  first_lt : m < num
  second_lt : s < num
  ne : s ≠ m
  priority : ∀ i < num, (reps i).priority =
    if i = m then defaultPriority + 2 else if i = s then defaultPriority + 1 else defaultPriority
  first : ∀ i < num, repGap reps num i ≤ repGap reps num m
  second : ∀ i < num, i ≠ m → repGap reps num i ≤ repGap reps num s

/-- The replicas are ranked by how far behind they are. -/
def Ranked (reps : Nat → Replica) (num : Nat) (defaultPriority : Int) : Prop :=
  ∃ m s, RankedBy reps num defaultPriority m s

/-- The first of the largest gaps is not that of replica 1, and one of the largest among the
others is that of replica 1 or of a replica whose gap is not larger than all before it. -/
def SecondIsFound (gap : Nat → Int) (num : Nat) : Prop :=
  ∃ m < num, (∀ j < num, gap j ≤ gap m) ∧ Leads gap m ∧ m ≠ 1 ∧
    ∃ i < num, i ≠ m ∧ (∀ j < num, j ≠ m → gap j ≤ gap i) ∧ (i = 1 ∨ ¬ Leads gap i)

/-- The replicas with these priorities. -/
def prioritised (reps : Nat → Replica) (priority : Nat → Int) (num : Nat) : Nat → Replica :=
  fun i => if i < num then { reps i with priority := priority i } else reps i

/-- A gap is a matter of the buffers. -/
theorem repGap_prioritised (reps : Nat → Replica) (priority : Nat → Int) (k num i : Nat) :
    repGap (prioritised reps priority k) num i = repGap reps num i := by
  have hvot : ∀ r, (prioritised reps priority k r).votPipes = (reps r).votPipes := by
    intro r
    unfold prioritised
    split <;> rfl
  have hcount : ∀ r, (prioritised reps priority k r).pipeCount = (reps r).pipeCount := by
    intro r
    unfold prioritised
    split <;> rfl
  simp only [repGap, aheadRep, hvot, hcount]

section Balance

variable {env : Env} {v : Voter} {num : Nat} {defaultPriority : Int}

theorem setPriority_granted (hgrants : ∀ t pid priority, env.schedOk t pid priority = true)
    (i : Nat) (priority : Int) (u : Voter) :
    wp (setPriority env i priority)
      (fun _ u' => u'.replicas = Function.update u.replicas i { u.replicas i with priority })
      (fun _ => False) u := by
  unfold setPriority
  rw [wp_bind, wp_get, wp_bind, wp_schedSetPolicy, hgrants, wp_ite]
  exact rfl

/-- **`balanceReps` sets every priority**, and nothing else. -/
theorem balanceReps_spec (hgrants : ∀ t pid priority, env.schedOk t pid priority = true) :
    wp (balanceReps env num defaultPriority)
      (fun _ v' => v'.replicas = prioritised v.replicas
        (fun i => if i = (balanceOrder v.replicas num).1 then defaultPriority + 2
          else if i = (balanceOrder v.replicas num).2 then defaultPriority + 1
          else defaultPriority) num)
      (fun _ => False) v := by
  unfold balanceReps
  rw [wp_bind, wp_get]
  refine wp_loop (fun (k : Nat) (u : Voter) => u.replicas = prioritised v.replicas _ k) ?_ ?_
  · funext i
    rfl
  · intro k u hk hu
    dsimp only
    rw [wp_discard]
    refine (setPriority_granted hgrants k _ u).imp fun _ u' hu' => ?_
    rw [hu', hu]
    funext i
    unfold prioritised
    by_cases hi : i = k
    · subst hi
      simp
    · rw [Function.update_of_ne hi]
      have : i < k + 1 ↔ i < k := by omega
      simp [this]

/-- What the replicas' priorities say about their ranks. -/
theorem ranked_iff {reps : Nat → Replica} {m s : Nat} (hm : m < num) (hs : s < num)
    (hfirst : ∀ i < num, repGap reps num i ≤ repGap reps num m)
    (hpriority : ∀ i < num, (reps i).priority =
      if i = m then defaultPriority + 2 else if i = s then defaultPriority + 1
      else defaultPriority) :
    Ranked reps num defaultPriority ↔
      s ≠ m ∧ ∀ i < num, i ≠ m → repGap reps num i ≤ repGap reps num s := by
  constructor
  · rintro ⟨m', s', h⟩
    obtain rfl : m = m' := by
      have hp := h.priority m hm
      rw [hpriority m hm, if_pos rfl] at hp
      by_contra hne
      rw [if_neg hne] at hp
      split at hp <;> omega
    have hne := h.ne
    obtain rfl : s' = s := by
      have hp := h.priority s' h.second_lt
      rw [hpriority s' h.second_lt, if_neg hne, if_neg hne, if_pos rfl] at hp
      by_contra hother
      rw [if_neg hother] at hp
      omega
    exact ⟨hne, h.second⟩
  · rintro ⟨hne, hsecond⟩
    exact ⟨m, s, hm, hs, hne, hpriority, hfirst, hsecond⟩

theorem secondIsFound_iff {gap : Nat → Int} (hnum : 2 ≤ num) :
    SecondIsFound gap num ↔
      (pass gap num).2 ≠ (pass gap num).1 ∧
        ∀ i < num, i ≠ (pass gap num).1 → gap i ≤ gap (pass gap num).2 := by
  have hp := holds_pass gap num
  rw [second_iff (by omega)]
  constructor
  · rintro ⟨m, hm, hmax, hleads, hone, hrest⟩
    obtain rfl := eq_first hm hmax hleads
    exact ⟨hone, hrest⟩
  · rintro ⟨hone, hrest⟩
    exact ⟨_, pass_first_lt (by omega), hp.first, hp.leads, hone, hrest⟩

/-- **The replicas are ranked by their gaps exactly if `second` is found.** The priorities are
`starting`, `second` and the default one for the rest, so they fit an order of the gaps only if
the second place of that order is where the loop looked for it. -/
theorem balanceReps_ranked_iff (hnum : 2 ≤ num)
    (hgrants : ∀ t pid priority, env.schedOk t pid priority = true) :
    ∃ v', (balanceReps env num defaultPriority).run v = .ok ((), v') ∧
      (Ranked v'.replicas num defaultPriority ↔ SecondIsFound (repGap v.replicas num) num) := by
  obtain ⟨u, v', hrun, hreps⟩ := (@balanceReps_spec env v num defaultPriority hgrants).exists_run
  refine ⟨v', hrun, ?_⟩
  have hp := holds_pass (repGap v.replicas num) num
  have hgap : repGap v'.replicas num = repGap v.replicas num := by
    funext i
    rw [hreps, repGap_prioritised]
  have hsecond : (pass (repGap v.replicas num) num).2 < num := by
    rcases hp.second with hone | hlt
    · omega
    · exact hlt.1
  have hfirst := @pass_first_lt _ _ (repGap v.replicas num) num (by omega)
  rw [secondIsFound_iff hnum, ranked_iff hfirst hsecond, hgap]
  · rw [hgap]
    exact hp.first
  · intro i hi
    rw [hreps]
    unfold prioritised
    rw [if_pos hi]
    rfl

end Balance

/-- One output pipe that these numbers of bytes wait on. -/
def waitingReplicas (counts : List Int) : Nat → Replica := fun i =>
  { pipeCount := 1, votPipes := fun _ => { fdIn := 3, buffCount := counts.getD i 0 } }

/-- A system that grants every priority. -/
def grantingEnv : Env where
  clock _ := 0
  schedOk _ _ _ := true
  waitpid _ := 0
  pid _ := 0
  readCount _ := 0

/-- Three replicas, of which the first one is furthest behind and the last one is next. -/
theorem balanceReps_ranked_iff_three :
    ∃ v', (balanceReps grantingEnv 3 10).run { replicas := waitingReplicas [1, 5, 4] }
        = .ok ((), v') ∧ Ranked v'.replicas 3 10 := by
  have hfound : SecondIsFound (repGap (waitingReplicas [1, 5, 4]) 3) 3 := by
    have hothers : ∀ j < 3, j ≠ 0 → repGap (waitingReplicas [1, 5, 4]) 3 j
        ≤ repGap (waitingReplicas [1, 5, 4]) 3 2 := by decide
    have hleads : Leads (repGap (waitingReplicas [1, 5, 4]) 3) 0 := fun j hj => nomatch hj
    have hlast : ¬ Leads (repGap (waitingReplicas [1, 5, 4]) 3) 2 := fun h =>
      absurd (h 0 (by decide)) (by decide)
    exact ⟨0, by decide, by decide, hleads, by decide, 2, by decide, by decide, hothers,
      Or.inr hlast⟩
  obtain ⟨v', hrun, hiff⟩ := @balanceReps_ranked_iff grantingEnv
    { replicas := waitingReplicas [1, 5, 4] } 3 10 (by decide) fun _ _ _ => rfl
  exact ⟨v', hrun, hiff.mpr hfound⟩

/-- **Two replicas, and the second one is behind.** It is `starting` and `second` at once, so the
other one is not raised. -/
theorem overtaken_leader_is_forgotten :
    ∃ v', (balanceReps grantingEnv 2 10).run { replicas := waitingReplicas [5, 0] }
        = .ok ((), v') ∧
      (List.range 2).map (fun i => (v'.replicas i).priority) = [10, 12] ∧
      ¬ Ranked v'.replicas 2 10 := by
  have hdone : ((balanceReps grantingEnv 2 10).run { replicas := waitingReplicas [5, 0] }).map
      (fun r => (List.range 2).map fun i => (r.2.replicas i).priority) = .ok [10, 12] := by decide
  cases hrun : (balanceReps grantingEnv 2 10).run { replicas := waitingReplicas [5, 0] } with
  | error e =>
    rw [hrun] at hdone
    cases hdone
  | ok r =>
    obtain ⟨u, v'⟩ := r
    rw [hrun] at hdone
    have hpriorities := Except.ok.inj hdone
    refine ⟨v', rfl, hpriorities, ?_⟩
    rintro ⟨m, s, h⟩
    have hs := h.priority s h.second_lt
    rw [if_neg h.ne, if_pos rfl] at hs
    have hmem : (v'.replicas s).priority ∈ [(10 : Int), 12] := by
      rw [← hpriorities]
      exact List.mem_map_of_mem (List.mem_range.mpr h.second_lt)
    rw [hs] at hmem
    exact absurd hmem (by decide)

end Pint
