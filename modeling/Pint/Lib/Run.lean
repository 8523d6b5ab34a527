import Mathlib.Tactic.Common

/-!
# Runs of a machine that is driven by a list of moves

A machine is a function `step : μ → σ → Except ε σ`: a move either takes a state to the
next one or cannot be made there. Whatever is nondeterministic about the system is in the
list of moves, so "for every run" is "for every list of moves", and a concrete run can be
computed.

`runAll.invariant` is the induction every safety argument uses. `AllMeet` restricts a run
to steps that meet a condition on the move and on the state before it, and
`runAll.invariant_of_meets` is the same induction under that restriction. `runAll.monitor`
is for a property that such a condition describes exactly.
-/

namespace Prog

variable {μ σ ε : Type}

/-- The state a list of moves leads to, or the first refusal. -/
def runAll (step : μ → σ → Except ε σ) : List μ → σ → Except ε σ
  | [], s => .ok s
  | m :: ms, s =>
    match step m s with
    | .ok t => runAll step ms t
    | .error e => .error e

variable {step : μ → σ → Except ε σ}

@[simp] theorem runAll_nil {s : σ} : runAll step [] s = .ok s := rfl

theorem runAll_cons {m : μ} {ms : List μ} {s s' : σ} :
    runAll step (m :: ms) s = .ok s' ↔ ∃ t, step m s = .ok t ∧ runAll step ms t = .ok s' := by
  rw [runAll]
  cases step m s with
  | ok t => simp
  | error e => simp

/-- A run of two lists is a run of the first followed by a run of the second. -/
theorem runAll_append {ms ms' : List μ} {s s' : σ} :
    runAll step (ms ++ ms') s = .ok s' ↔
      ∃ t, runAll step ms s = .ok t ∧ runAll step ms' t = .ok s' := by
  induction ms generalizing s with
  | nil => simp
  | cons m ms ih =>
    rw [List.cons_append, runAll_cons]
    constructor
    · rintro ⟨t, hm, hr⟩
      obtain ⟨u, hu, hu'⟩ := ih.mp hr
      exact ⟨u, runAll_cons.mpr ⟨t, hm, hu⟩, hu'⟩
    · rintro ⟨u, hu, hu'⟩
      obtain ⟨t, hm, hr⟩ := runAll_cons.mp hu
      exact ⟨t, hm, ih.mpr ⟨u, hr, hu'⟩⟩

/-- Where a run ended, and `d` if it was refused. -/
def ended (r : Except ε σ) (d : σ) : σ :=
  match r with
  | .ok s => s
  | .error _ => d

theorem eq_ended {r : Except ε σ} {d : σ} (h : r.isOk = true) : r = .ok (ended r d) := by
  cases r with
  | ok s => rfl
  | error e => exact absurd h (by simp [Except.isOk, Except.toBool])

/-- The reason for which a move was refused, if it was. -/
def refusal (r : Except ε σ) : Option ε :=
  match r with
  | .ok _ => none
  | .error e => some e

/-- **Invariant induction.** What every step preserves, every run preserves. -/
theorem runAll.invariant {I : σ → Prop}
    (hstep : ∀ m s s', I s → step m s = .ok s' → I s') {ms : List μ} {s s' : σ}
    (hs : I s) (hr : runAll step ms s = .ok s') : I s' := by
  induction ms generalizing s with
  | nil =>
    rw [runAll_nil, Except.ok.injEq] at hr
    exact hr ▸ hs
  | cons m ms ih =>
    obtain ⟨t, hm, hr⟩ := runAll_cons.mp hr
    exact ih (hstep m s t hs hm) hr

/-- Every step of the run meets `C`, a condition on the move and the state before it. -/
def AllMeet (step : μ → σ → Except ε σ) (C : μ → σ → Prop) : List μ → σ → Prop
  | [], _ => True
  | m :: ms, s => C m s ∧ ∀ t, step m s = .ok t → AllMeet step C ms t

theorem AllMeet.mono {C C' : μ → σ → Prop} (h : ∀ m s, C m s → C' m s) {ms : List μ} {s : σ}
    (hc : AllMeet step C ms s) : AllMeet step C' ms s := by
  induction ms generalizing s with
  | nil => exact trivial
  | cons m ms ih =>
    refine ⟨h m s hc.1, ?_⟩
    intro t ht
    exact ih (hc.2 t ht)

/-- A condition on the move alone. -/
theorem allMeet_of_forall {C : μ → Prop} {ms : List μ} {s : σ} (h : ∀ m ∈ ms, C m) :
    AllMeet step (fun m _ => C m) ms s := by
  induction ms generalizing s with
  | nil => exact trivial
  | cons m ms ih =>
    refine ⟨h m List.mem_cons_self, ?_⟩
    intro t _
    exact ih fun x hx => h x (List.mem_cons_of_mem m hx)

theorem AllMeet.forall_of_run {C : μ → Prop} {ms : List μ} {s s' : σ}
    (h : AllMeet step (fun m _ => C m) ms s) (hr : runAll step ms s = .ok s') :
    ∀ m ∈ ms, C m := by
  induction ms generalizing s with
  | nil => exact fun m hm => absurd hm List.not_mem_nil
  | cons m ms ih =>
    obtain ⟨t, ht, hr⟩ := runAll_cons.mp hr
    intro x hx
    rcases List.mem_cons.mp hx with rfl | hx
    · exact h.1
    · exact ih (h.2 t ht) hr x hx

/-- Invariant induction over the runs whose steps all meet `C`. -/
theorem runAll.invariant_of_meets {I : σ → Prop} {C : μ → σ → Prop}
    (hstep : ∀ m s s', I s → C m s → step m s = .ok s' → I s') {ms : List μ} {s s' : σ}
    (hs : I s) (hc : AllMeet step C ms s) (hr : runAll step ms s = .ok s') : I s' := by
  induction ms generalizing s with
  | nil =>
    rw [runAll_nil, Except.ok.injEq] at hr
    exact hr ▸ hs
  | cons m ms ih =>
    obtain ⟨t, hm, hr⟩ := runAll_cons.mp hr
    exact ih (hstep m s t hs hc.1 hm) (hc.2 t hm) hr

/-- **Monitoring.** Over runs whose steps all meet `L`: if such a step keeps `P` exactly when
it meets `C`, a run keeps `P` exactly when all its steps meet `C`. -/
theorem runAll.monitor_of_meets {I P : σ → Prop} {L C : μ → σ → Prop}
    (hstep : ∀ m s s', I s → L m s → step m s = .ok s' → I s' ∧ (P s' ↔ P s ∧ C m s))
    {ms : List μ} {s s' : σ} (hs : I s) (hl : AllMeet step L ms s)
    (hr : runAll step ms s = .ok s') : P s' ↔ P s ∧ AllMeet step C ms s := by
  induction ms generalizing s with
  | nil =>
    obtain rfl := Except.ok.inj hr
    exact ⟨fun h => ⟨h, trivial⟩, And.left⟩
  | cons m ms ih =>
    obtain ⟨t, hm, hr⟩ := runAll_cons.mp hr
    obtain ⟨ht, hiff⟩ := hstep m s t hs hl.1 hm
    rw [ih ht (hl.2 t hm) hr, hiff]
    constructor
    · rintro ⟨⟨hp, hc⟩, hrest⟩
      refine ⟨hp, hc, fun u hu => ?_⟩
      obtain rfl := Except.ok.inj (hm.symm.trans hu)
      exact hrest
    · rintro ⟨hp, hc, hrest⟩
      exact ⟨⟨hp, hc⟩, hrest t hm⟩

/-- Monitoring over all runs. -/
theorem runAll.monitor {I P : σ → Prop} {C : μ → σ → Prop}
    (hstep : ∀ m s s', I s → step m s = .ok s' → I s' ∧ (P s' ↔ P s ∧ C m s)) {ms : List μ}
    {s s' : σ} (hs : I s) (hr : runAll step ms s = .ok s') :
    P s' ↔ P s ∧ AllMeet step C ms s :=
  runAll.monitor_of_meets (L := fun _ _ => True)
    (fun m s s' hi _ hm => hstep m s s' hi hm) hs (allMeet_of_forall fun _ _ => trivial) hr

/-- `P` is true of every state that the run gets into. -/
def Throughout (step : μ → σ → Except ε σ) (P : σ → Prop) : List μ → σ → Prop :=
  AllMeet step fun m s => ∀ s', step m s = .ok s' → P s'

/-- **The exact condition for an invariant.** If a step from a state where all is well leads to
such a state exactly when it meets `C`, all is well throughout a run exactly when all its
steps meet `C`. -/
theorem throughout_iff {I P : σ → Prop} {C : μ → σ → Prop}
    (hstep : ∀ m s s', I s → step m s = .ok s' → (P s' ↔ C m s) ∧ (P s' → I s'))
    {ms : List μ} {s s' : σ} (hs : I s) (hr : runAll step ms s = .ok s') :
    Throughout step P ms s ↔ AllMeet step C ms s := by
  induction ms generalizing s with
  | nil => exact Iff.rfl
  | cons m ms ih =>
    obtain ⟨t, hm, hrest⟩ := runAll_cons.mp hr
    obtain ⟨hiff, hkeep⟩ := hstep m s t hs hm
    constructor
    · rintro ⟨hp, hrun⟩
      have ht := hp t hm
      refine ⟨hiff.mp ht, fun u hu => ?_⟩
      obtain rfl := Except.ok.inj (hm.symm.trans hu)
      exact (ih (hkeep ht) hrest).mp (hrun t hm)
    · rintro ⟨hc, hrun⟩
      have ht := hiff.mpr hc
      refine ⟨fun u hu => ?_, fun u hu => ?_⟩
      · obtain rfl := Except.ok.inj (hm.symm.trans hu)
        exact ht
      · obtain rfl := Except.ok.inj (hm.symm.trans hu)
        exact (ih (hkeep ht) hrest).mpr (hrun t hm)

/-- Whether all steps of a run meet a condition can be computed along the run. -/
instance AllMeet.decidable {C : μ → σ → Prop} [∀ m s, Decidable (C m s)] :
    ∀ (ms : List μ) (s : σ), Decidable (AllMeet step C ms s)
  | [], _ => .isTrue trivial
  | m :: ms, s =>
    match h : step m s with
    | .ok t =>
      have : Decidable (AllMeet step C ms t) := AllMeet.decidable ms t
      decidable_of_iff (C m s ∧ AllMeet step C ms t)
        ⟨fun hc => ⟨hc.1, fun u hu => by
          obtain rfl := Except.ok.inj (h.symm.trans hu)
          exact hc.2⟩, fun hc => ⟨hc.1, hc.2 t h⟩⟩
    | .error _ =>
      decidable_of_iff (C m s)
        ⟨fun hc => ⟨hc, fun u hu => absurd (h.symm.trans hu) (by simp)⟩, And.left⟩

/-- **Forward simulation.** `abs` never refuses a move; if every step that meets `C` can be
made and is matched by `abs`, then so is every run. -/
theorem runAll.simulates {τ : Type} {abs : μ → τ → τ} {R : σ → τ → Prop} {C : μ → σ → Prop}
    (hstep : ∀ m s t, R s t → C m s → ∃ s', step m s = .ok s' ∧ R s' (abs m t))
    {ms : List μ} {s : σ} {t : τ} (hs : R s t) (hc : AllMeet step C ms s) :
    ∃ s', runAll step ms s = .ok s' ∧ R s' (ms.foldl (fun t m => abs m t) t) := by
  induction ms generalizing s t with
  | nil => exact ⟨s, rfl, hs⟩
  | cons m ms ih =>
    obtain ⟨u, hm, hu⟩ := hstep m s t hs hc.1
    obtain ⟨s', hr, hs'⟩ := ih hu (hc.2 u hm)
    exact ⟨s', runAll_cons.mpr ⟨u, hm, hr⟩, hs'⟩

/-- **The exact condition for getting through.** If a step from a state where all is well can be
made exactly when it meets `C`, and all is well then, a run can be made exactly when all its
steps meet `C`. -/
theorem runAll.completes_iff {I : σ → Prop} {C : μ → σ → Prop}
    (hstep : ∀ m s, I s → (C m s ∧ ∃ s', step m s = .ok s' ∧ I s') ∨
      (¬ C m s ∧ ∃ e, step m s = .error e))
    {ms : List μ} {s : σ} (hs : I s) :
    (∃ s', runAll step ms s = .ok s') ↔ AllMeet step C ms s := by
  induction ms generalizing s with
  | nil => exact ⟨fun _ => trivial, fun _ => ⟨s, rfl⟩⟩
  | cons m ms ih =>
    rcases hstep m s hs with ⟨hc, t, hm, ht⟩ | ⟨hc, e, hm⟩
    · constructor
      · rintro ⟨s', hr⟩
        refine ⟨hc, fun u hu => ?_⟩
        obtain ⟨v, hv, hrest⟩ := runAll_cons.mp hr
        obtain rfl := Except.ok.inj (hv.symm.trans hu)
        obtain rfl := Except.ok.inj (hm.symm.trans hv)
        exact (ih ht).mp ⟨s', hrest⟩
      · rintro ⟨-, hrun⟩
        obtain ⟨s', hr⟩ := (ih ht).mpr (hrun t hm)
        exact ⟨s', runAll_cons.mpr ⟨t, hm, hr⟩⟩
    · constructor
      · rintro ⟨s', hr⟩
        obtain ⟨v, hv, -⟩ := runAll_cons.mp hr
        rw [hm] at hv
        cases hv
      · exact fun h => absurd h.1 hc

/-- The same for a condition on the move alone. -/
theorem runAll.completes_iff_forall {I : σ → Prop} {C : μ → Prop}
    (hstep : ∀ m s, I s → (C m ∧ ∃ s', step m s = .ok s' ∧ I s') ∨
      (¬ C m ∧ ∃ e, step m s = .error e))
    {ms : List μ} {s : σ} (hs : I s) :
    (∃ s', runAll step ms s = .ok s') ↔ ∀ m ∈ ms, C m := by
  have hiff : (∃ s', runAll step ms s = .ok s') ↔ AllMeet step (fun m _ => C m) ms s :=
    runAll.completes_iff hstep hs
  constructor
  · rintro ⟨s', hr⟩
    exact (hiff.mp ⟨s', hr⟩).forall_of_run hr
  · exact fun h => hiff.mpr (allMeet_of_forall h)

end Prog
