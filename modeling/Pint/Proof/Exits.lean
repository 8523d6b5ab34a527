import Pint.Proof.Loop

/-!
# Exits in SMR

With one replica the voter polls `waitpid` once in an update, and takes any child it reaps
for the replica, unless it is the one that the handler killed last. A child that was killed
before that one, and is reaped late, passes for the replica, and the handler kills a healthy
process.

`exits_are_of_current` says when this does not happen: when no restart falls due while a process
killed earlier is still to be reaped. The invariant is `Tidy`: there are at most two children,
the replica and the one that the handler killed last. An exit that is acted on is of a child, and
not of the one killed last, so it is the replica's. A restart makes a third child, and that is
why it may only come when the second is gone, or goes in the same update.
-/

namespace Pint

open Prog Voting

/-- A restart is due in the update that starts in `v`. -/
def Voter.restartDue (v : Voter) (cfg : Config) (env : Env) : Prop :=
  v.exitDue env ∨ (v.reap env).watchdogDue cfg env

/-- If an update is about to start in which a restart is due, the only children are the
replica and the one that `waitpid` reaps. -/
def NoZombies (cfg : Config) (env : Env) (mv : Move) (m : Machine) : Prop :=
  mv = .go → m.pc = .top → m.v.restartDue cfg env → ∀ c, c ∈ m.v.children →
    c = env.waitpid m.v.tick ∨ c = (m.v.replicas 0).pid

instance (v : Voter) (cfg : Config) (env : Env) : Decidable (v.restartDue cfg env) :=
  inferInstanceAs (Decidable (_ ∨ _))

instance (cfg : Config) (env : Env) (mv : Move) (m : Machine) :
    Decidable (NoZombies cfg env mv m) :=
  inferInstanceAs (Decidable (_ → _ → _ → ∀ c, c ∈ m.v.children → _))

/-- The only children are the replica and the one replaced last; and whenever an exit was
acted on, it was that of the replica. -/
structure Tidy (v : Voter) : Prop where
  children : ∀ c, c ∈ v.children → c = (v.replicas 0).pid ∨ c = v.lastDead
  exits : ∀ e c, .exited e c ∈ v.log.calls → e = c

section Exits

variable {cfg : Config} {env : Env} {plan : Plan} {id : Nat → Nat → Nat} {v v' w : Voter}
  {p r : Nat}

theorem Tidy.of_same (h : Tidy v) (hch : v'.children = v.children)
    (hpid : (v'.replicas 0).pid = (v.replicas 0).pid) (hdead : v'.lastDead = v.lastDead)
    (hcalls : v'.log.calls = v.log.calls) : Tidy v' where
  children c hc := by
    rw [hpid, hdead]
    exact h.children c (hch ▸ hc)
  exits e c hmem := h.exits e c (hcalls ▸ hmem)

theorem Tidy.still (h : Tidy v) (hs : Still v v') : Tidy v' :=
  h.of_same hs.children (hs.pid 0) hs.lastDead hs.calls

theorem Tidy.armed (h : Tidy v) (ha : Armed env v v') : Tidy v' :=
  h.of_same ha.kept.children (ha.kept.pid 0) ha.kept.lastDead (by rw [ha.log])

/-- Reading the only replica replaces nobody. -/
theorem Tidy.processed (h : Tidy v) (hmode : cfg.repType = .smr)
    (hp : Processed cfg env plan id r p v v') : Tidy v' := by
  cases hp with
  | refused _ hs _ => exact h.still hs
  | voted _ w hw hv =>
    have htw : Tidy w := h.of_same hw.kept.children (hw.kept.pid 0) hw.kept.lastDead
      hw.grown.calls
    cases hv with
    | nothing _ hv => exact hv ▸ htw
    | alone _ hs =>
      exact htw.of_same hs.kept.children (hs.kept.pid 0) hs.kept.lastDead hs.grown.calls
    | pair hdmr _ _ _ => exact absurd (hmode.symm.trans hdmr) (by simp)
    | three htmr _ _ => exact absurd (hmode.symm.trans htmr) (by simp)

/-- The handler replaces the replica; if there was no other child, the one replaced is the
only one to be reaped. -/
theorem Tidy.coldStarted (hexits : ∀ e c, .exited e c ∈ v.log.calls → e = c)
    (hch : ∀ c, c ∈ v.children → c = (v.replicas 0).pid)
    (hc : ColdStarted cfg env plan id v v') : Tidy v' where
  children c hmem := by
    rcases (hc.children c).mp hmem with hold | hnew
    · rw [hc.lastDead]
      exact Or.inr (hch c hold)
    · exact Or.inl hnew
  exits e c hmem := by
    obtain ⟨t, -, -, hlog⟩ := hc.log
    rw [hlog] at hmem
    rcases List.mem_append.mp hmem with hmem | hmem
    · exact hexits e c hmem
    · exact absurd hmem (by simp)

theorem Voter.mem_reap {c : Int} : c ∈ (v.reap env).children ↔
    c ∈ v.children ∧ c ≠ env.waitpid v.tick := by
  unfold Voter.reap
  split
  · simp
  · rename_i hnot
    constructor
    · intro hc
      exact ⟨hc, fun heq => hnot (heq ▸ hc)⟩
    · exact And.left

theorem Tidy.reap (h : Tidy v) : Tidy (v.reap env) where
  children c hc := by
    rw [v.reap_same env |>.2.2.1, v.reap_same env |>.2.2.2.1]
    exact h.children c (Voter.mem_reap.mp hc).1
  exits := by
    obtain ⟨-, -, -, -, -, -, -, hlog⟩ := v.reap_same env
    rw [hlog]
    exact h.exits

/-- An update of the only replica. -/
theorem Tidy.updated (h : Tidy v) (hmode : cfg.repType = .smr)
    (hno : v.restartDue cfg env → ∀ c, c ∈ v.children →
      c = env.waitpid v.tick ∨ c = (v.replicas 0).pid)
    (hu : Updated cfg env plan id v v') : Tidy v' := by
  obtain ⟨u, w, id', hr, -, hc, ha, -⟩ := hu.parts
  have hpid : ((v.reap env).replicas 0).pid = (v.replicas 0).pid := by
    rw [v.reap_same env |>.2.2.1]
  -- Once the reaped one is gone, the replica is alone.
  have halone : v.restartDue cfg env → ∀ c, c ∈ (v.reap env).children →
      c = ((v.reap env).replicas 0).pid := by
    intro hdue c hc
    obtain ⟨hc, hne⟩ := Voter.mem_reap.mp hc
    rw [hpid]
    exact (hno hdue c hc).resolve_left hne
  have htw : Tidy w := by
    cases hr with
    | passed hother _ => exact absurd hmode hother
    | alive _ _ hv =>
      subst hv
      cases hc with
      | quiet _ hs => exact h.reap.still hs
      | expired hdue hh =>
        cases hh with
        | cold _ hcold =>
          refine Tidy.coldStarted (v := (v.reap env).read _) (fun e c hmem => ?_)
            (halone (Or.inr hdue)) hcold
          rcases List.mem_append.mp hmem with hmem | hmem
          · exact h.reap.exits e c hmem
          · exact absurd hmem (by simp)
        | cloned hrep _ =>
          rcases hrep with hrep | hrep <;> exact absurd (hmode.symm.trans hrep) (by simp)
    | exited _ hdue x hx hv =>
      have htx : Tidy x := by
        refine Tidy.coldStarted (v := (v.reap env).note _) (fun e c hmem => ?_)
          (halone (Or.inl hdue)) hx
        rcases List.mem_append.mp hmem with hmem | hmem
        · exact h.reap.exits e c hmem
        · -- The reaped child is not the one replaced last.
          obtain ⟨rfl, rfl⟩ := Call.exited.inj (List.mem_singleton.mp hmem)
          exact (h.children _ hdue.1).resolve_right hdue.2.2
      have htu : Tidy u := by
        rw [hv]
        exact htx.of_same rfl rfl rfl rfl
      have hoff : u.timerStarted = false := by rw [hv]
      cases hc with
      | quiet _ hs => exact htu.still hs
      | expired hdue _ => exact absurd (hoff.symm.trans hdue.1) (by simp)
  exact htw.armed ha

/-- The step lemma. -/
theorem Tidy.stepped {m m' : Machine} {mv : Move} (h : Tidy m.v) (hmode : cfg.repType = .smr)
    (hno : NoZombies cfg env mv m) (hs : Stepped cfg env plan id m mv m') : Tidy m'.v := by
  cases hs with
  | deliver => exact h.still (still_deliver _ _ _)
  | updated hu => exact h.updated hmode (hno rfl rfl) hu
  | selected _ => exact h
  | woken => exact h
  | external ha _ _ => exact h.armed ha
  | externalsDone => exact h
  | skipped => exact h
  | served _ _ _ hp => exact h.processed hmode hp
  | replicasDone => exact h

theorem Fresh.tidy (h : Fresh cfg v) (hmode : cfg.repType = .smr) : Tidy v where
  children c hc := by
    obtain ⟨i, hi, rfl⟩ := h.children c hc
    rw [cfg.repCount_eq, hmode] at hi
    obtain rfl : i = 0 := Nat.lt_one_iff.mp hi
    exact Or.inl rfl
  exits e c hmem := by
    rw [h.log] at hmem
    exact absurd hmem (by simp)

/-- **When exit detection is right.** In a run of the SMR voter in which no restart falls due
while a process killed earlier is still to be reaped, the handler is only ever called for an
exit of the replica that is running. The voter remembers one killed process and no more, so a
second one is taken for the replica when it is reaped. -/
theorem exits_are_of_current {v₀ : Voter} {moves : List Move} {m : Machine}
    (hmode : cfg.repType = .smr) (hstart : Started cfg env v₀)
    (hmeet : AllMeet (Machine.step cfg env) (NoZombies cfg env) moves ⟨.top, v₀⟩)
    (hrun : runAll (Machine.step cfg env) moves ⟨.top, v₀⟩ = .ok m) :
    ∀ e c, .exited e c ∈ m.v.log.calls → e = c := by
  obtain ⟨plan, h₀⟩ := hstart.running
  have hm := runAll.invariant_of_meets (I := fun u => Running cfg plan u ∧ Tidy u.v)
    (fun mv u u' hu hno hstep => by
      obtain ⟨id, -, hst, hu'⟩ := hu.1.stepped (Or.inl hmode) hstep
      exact ⟨hu', hu.2.stepped hmode hno hst⟩)
    ⟨h₀, hstart.fresh.tidy hmode⟩ hmeet hrun
  exact hm.2.exits

/-- The replica of `Filter` exits on its own, and is replaced. -/
def exitingFilter : List Move := gos 1 ++ .deliver 0 [1] :: gos 10

theorem exits_are_of_current_filter :
    ∃ m, runAll (Machine.step (filterPipes.config .smr 400 80)
        { Env.steady with waitpid := fun t => if t = 5 then 100 else 0 }) exitingFilter
        ⟨.top, filterPipes.start (filterPipes.config .smr 400 80)
          { Env.steady with waitpid := fun t => if t = 5 then 100 else 0 }⟩ = .ok m ∧
      .exited 100 100 ∈ m.v.log.calls ∧ ∀ e c, .exited e c ∈ m.v.log.calls → e = c := by
  have hrun := eq_ended (d := ⟨.top, {}⟩)
    (r := runAll (Machine.step (filterPipes.config .smr 400 80)
        { Env.steady with waitpid := fun t => if t = 5 then 100 else 0 }) exitingFilter
        ⟨.top, filterPipes.start (filterPipes.config .smr 400 80)
          { Env.steady with waitpid := fun t => if t = 5 then 100 else 0 }⟩) (by decide +kernel)
  refine ⟨_, hrun, by decide +kernel, ?_⟩
  exact exits_are_of_current rfl filterPipes.started (by decide +kernel) hrun

/-- The watchdog replaces process 100 and then, before that one was reaped, its successor 107.
Then 100 is reaped, and the handler is called for it while 112 is running. -/
def lateZombieFilter : List Move := gos 1 ++ .deliver 0 [1] :: gos 14

theorem late_zombie_kills_healthy :
    ∃ m, runAll (Machine.step (filterPipes.config .smr 2 80)
        { Env.steady with waitpid := fun t => if t = 15 then 100 else 0 }) lateZombieFilter
        ⟨.top, filterPipes.start (filterPipes.config .smr 2 80)
          { Env.steady with waitpid := fun t => if t = 15 then 100 else 0 }⟩ = .ok m ∧
      .exited 100 112 ∈ m.v.log.calls ∧ (112, Signal.SIGKILL) ∈ m.v.log.signals := by
  have hrun := eq_ended (d := ⟨.top, {}⟩)
    (r := runAll (Machine.step (filterPipes.config .smr 2 80)
        { Env.steady with waitpid := fun t => if t = 15 then 100 else 0 }) lateZombieFilter
        ⟨.top, filterPipes.start (filterPipes.config .smr 2 80)
          { Env.steady with waitpid := fun t => if t = 15 then 100 else 0 }⟩) (by decide +kernel)
  exact ⟨_, hrun, by decide +kernel, by decide +kernel⟩

end Exits

end Pint
