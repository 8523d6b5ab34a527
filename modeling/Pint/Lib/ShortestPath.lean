import Mathlib.Algebra.Order.Group.Defs
import Mathlib.Data.List.Chain
import Mathlib.Tactic.Abel

/-!
# Shortest paths, and the search that finds them

A path is a list of vertices, each a step from the one before it. A best-first search keeps
a score with each vertex that it has opened, closes the vertex whose score and estimate are
least together, and opens the vertices that are a step away. If no step lowers the estimate
by more than the step costs (`Consistent`), then a vertex is closed with the cost of a
shortest path, and never has to be opened again.

`Frontier` is what such a search keeps between closing two vertices. It speaks of the scores
as relations: how a search stores them, and which of several scores of a vertex it drops, is
up to the search.

The order in which vertices are closed is that of their shortest paths and estimates, up to
ties. `Ahead` compares two vertices by these, without a search, and `Grown` is what a search
keeps that closes them in this order: what is closed is no further than what is open, and it
was reached through closed vertices only.
-/

namespace ShortestPath

variable {V K : Type} [AddCommGroup K] [LinearOrder K] [IsOrderedAddMonoid K]
  {step : V → V → Prop} {w : V → V → K} {h : V → K} {s t u : V} {c k : K}

/-! ## Paths -/

/-- The sum of the costs of the steps. -/
def cost (w : V → V → K) : List V → K
  | [] => 0
  | [_] => 0
  | u :: v :: rest => w u v + cost w (v :: rest)

/-- A path from `s` to `t`. -/
structure IsPath (step : V → V → Prop) (s t : V) (path : List V) : Prop where
  steps : path.IsChain step
  first : path.head? = some s
  last : path.getLast? = some t

/-- A path with no cheaper one between the same ends. -/
structure IsShortest (step : V → V → Prop) (w : V → V → K) (s t : V) (path : List V) : Prop
    extends IsPath step s t path where
  least : ∀ other, IsPath step s t other → cost w path ≤ cost w other

/-- There is a path from `s` to `t` of this cost. -/
inductive Walk (step : V → V → Prop) (w : V → V → K) (s : V) : V → K → Prop where
  | start : Walk step w s s 0
  | step {u v : V} {c : K} (hwalk : Walk step w s u c) (hstep : step u v) :
      Walk step w s v (c + w u v)

omit [LinearOrder K] [IsOrderedAddMonoid K] in
theorem Walk.append {path : List V} (hwalk : Walk step w s u c)
    (hchain : (u :: path).IsChain step) (hlast : (u :: path).getLast? = some t) :
    Walk step w s t (c + cost w (u :: path)) := by
  induction path generalizing u c with
  | nil =>
    have htu : u = t := by simpa using hlast
    subst htu
    simpa [cost] using hwalk
  | cons v rest ih =>
    obtain ⟨hstep, hrest⟩ := List.isChain_cons_cons.mp hchain
    have hlast' : (v :: rest).getLast? = some t := by simpa using hlast
    have hwalk' := ih (hwalk.step hstep) hrest hlast'
    rw [add_assoc] at hwalk'
    exact hwalk'

omit [LinearOrder K] [IsOrderedAddMonoid K] in
theorem IsPath.walk {path : List V} (hpath : IsPath step s t path) :
    Walk step w s t (cost w path) := by
  cases path with
  | nil => exact nomatch hpath.first
  | cons u path =>
    have hsu : u = s := by simpa using hpath.first
    subst hsu
    have hwalk := Walk.append (w := w) .start hpath.steps hpath.last
    rwa [zero_add] at hwalk

theorem IsPath.single (s : V) : IsPath step s s [s] := ⟨List.isChain_singleton s, rfl, rfl⟩

theorem IsPath.snoc {path : List V} (hpath : IsPath step s u path) (hstep : step u t) :
    IsPath step s t (path ++ [t]) where
  steps := by
    refine hpath.steps.append (List.isChain_singleton t) ?_
    intro a ha b hb
    have hau : a = u := Option.some.inj (ha.symm.trans hpath.last)
    have hbt : b = t := by simpa using hb.symm
    rw [hau, hbt]
    exact hstep
  first := by simp [hpath.first]
  last := by simp

omit [LinearOrder K] [IsOrderedAddMonoid K] in
theorem cost_snoc {path : List V} (hlast : path.getLast? = some u) :
    cost w (path ++ [t]) = cost w path + w u t := by
  induction path with
  | nil => exact nomatch hlast
  | cons a path ih =>
    cases path with
    | nil =>
      have hau : a = u := by simpa using hlast
      simp [cost, hau]
    | cons b path =>
      have hlast' : (b :: path).getLast? = some u := by simpa using hlast
      have hrest := ih hlast'
      simp only [List.cons_append, cost] at hrest ⊢
      rw [hrest, add_assoc]

/-! ## The search -/

/-- No step lowers the estimate by more than it costs. -/
def Consistent (step : V → V → Prop) (w : V → V → K) (h : V → K) : Prop :=
  ∀ u v, step u v → h u ≤ w u v + h v

/-- The scores of a search from `s` between closing two vertices. -/
structure Frontier (step : V → V → Prop) (w : V → V → K) (s : V)
    (opened closed : V → K → Prop) : Prop where
  start : (∃ k, closed s k) ∨ ∃ k ≤ 0, opened s k
  least : ∀ u k c, closed u k → Walk step w s u c → k ≤ c
  expanded : ∀ u k v, closed u k → step u v →
    (∃ j, closed v j) ∨ ∃ j ≤ k + w u v, opened v j

variable {opened closed : V → K → Prop}

/-- A path that ends at a vertex that is not closed passes an open one, whose score and
estimate are no more than the cost of the path and the estimate at its end. -/
theorem Frontier.open_on_walk (hf : Frontier step w s opened closed)
    (hh : Consistent step w h) (hwalk : Walk step w s t c) :
    (∃ k, closed t k) ∨ ∃ v k, opened v k ∧ k + h v ≤ c + h t := by
  induction hwalk with
  | start =>
    rcases hf.start with hclosed | ⟨k, hk, hopen⟩
    · exact Or.inl hclosed
    · exact Or.inr ⟨s, k, hopen, add_le_add hk le_rfl⟩
  | @step u v c hwalk hstep ih =>
    rcases ih with ⟨k, hclosed⟩ | ⟨x, k, hopen, hle⟩
    · have hkc : k ≤ c := hf.least u k c hclosed hwalk
      rcases hf.expanded u k v hclosed hstep with hv | ⟨j, hj, hopen⟩
      · exact Or.inl hv
      · exact Or.inr ⟨v, j, hopen, add_le_add (hj.trans (add_le_add hkc le_rfl)) le_rfl⟩
    · refine Or.inr ⟨x, k, hopen, ?_⟩
      calc k + h x
          ≤ c + h u := hle
        _ ≤ c + (w u v + h v) := add_le_add le_rfl (hh u v hstep)
        _ = c + w u v + h v := (add_assoc _ _ _).symm

/-- The least open vertex has the cost of a shortest path to it. -/
theorem Frontier.least_open (hf : Frontier step w s opened closed) (hh : Consistent step w h)
    (hnew : ∀ j, ¬ closed u j) (hmin : ∀ v j, opened v j → k + h u ≤ j + h v)
    (hwalk : Walk step w s u c) : k ≤ c := by
  rcases hf.open_on_walk hh hwalk with ⟨j, hclosed⟩ | ⟨v, j, hopen, hle⟩
  · exact absurd hclosed (hnew j)
  · exact le_of_add_le_add_right ((hmin v j hopen).trans hle)

/-- With nothing open, every vertex that can be reached is closed. -/
theorem Frontier.exhausted (hf : Frontier step w s opened closed) (hh : Consistent step w h)
    (hempty : ∀ v j, ¬ opened v j) (hwalk : Walk step w s t c) : ∃ k, closed t k := by
  rcases hf.open_on_walk hh hwalk with hclosed | ⟨v, j, hopen, -⟩
  · exact hclosed
  · exact absurd hopen (hempty v j)

/-- Closing the least open vertex `u`: the other open vertices stay open, and those a step
away are opened, each with a score that is no worse. -/
theorem Frontier.close {opened' closed' : V → K → Prop} (hf : Frontier step w s opened closed)
    (hh : Consistent step w h) (hnew : ∀ j, ¬ closed u j)
    (hmin : ∀ v j, opened v j → k + h u ≤ j + h v)
    (hclosed : ∀ v j, closed' v j ↔ v = u ∧ j = k ∨ closed v j)
    (hkept : ∀ v j, opened v j → v = u ∨ ∃ i ≤ j, opened' v i)
    (hstep : ∀ v, step u v → (∃ j, closed' v j) ∨ ∃ j ≤ k + w u v, opened' v j) :
    Frontier step w s opened' closed' := by
  have hu : closed' u k := (hclosed u k).mpr (Or.inl ⟨rfl, rfl⟩)
  -- what was open is open, or it is the vertex that is closed
  have hstays : ∀ v j, opened v j → (∃ i, closed' v i) ∨ ∃ i ≤ j, opened' v i := by
    intro v j hv
    rcases hkept v j hv with rfl | hopen
    · exact Or.inl ⟨k, hu⟩
    · exact Or.inr hopen
  refine ⟨?_, ?_, ?_⟩
  · rcases hf.start with ⟨j, hs⟩ | ⟨j, hj, hs⟩
    · exact Or.inl ⟨j, (hclosed s j).mpr (Or.inr hs)⟩
    · rcases hstays s j hs with hs' | ⟨i, hi, hs'⟩
      · exact Or.inl hs'
      · exact Or.inr ⟨i, hi.trans hj, hs'⟩
  · intro v j c hv hwalk
    rcases (hclosed v j).mp hv with ⟨rfl, rfl⟩ | hv
    · exact hf.least_open hh hnew hmin hwalk
    · exact hf.least v j c hv hwalk
  · intro v j x hv hx
    rcases (hclosed v j).mp hv with ⟨rfl, rfl⟩ | hv
    · exact hstep x hx
    · rcases hf.expanded v j x hv hx with ⟨i, hi⟩ | ⟨i, hi, hopen⟩
      · exact Or.inl ⟨i, (hclosed x i).mpr (Or.inr hi)⟩
      · rcases hstays x i hopen with hx' | ⟨i', hi', hx'⟩
        · exact Or.inl hx'
        · exact Or.inr ⟨i', hi'.trans hi, hx'⟩

omit [IsOrderedAddMonoid K] in
/-- At the start nothing is closed, and `s` is open. -/
theorem Frontier.initial (hs : opened s 0) (hnone : ∀ v j, ¬ closed v j) :
    Frontier step w s opened closed where
  start := Or.inr ⟨0, le_rfl, hs⟩
  least := fun v j _ hclosed => absurd hclosed (hnone v j)
  expanded := fun v j _ hclosed => absurd hclosed (hnone v j)

/-! ## The order of closing -/

/-- Some path to `u`, with the estimate of `u`, compares so with every path to `v`. -/
def Ahead (r : K → K → Prop) (step : V → V → Prop) (w : V → V → K) (h : V → K) (s u v : V) :
    Prop :=
  ∃ k, Walk step w s u k ∧ ∀ j, Walk step w s v j → r (k + h u) (j + h v)

/-- A step from a vertex of this kind. -/
def Through (P : V → Prop) (step : V → V → Prop) (u v : V) : Prop := P u ∧ step u v

omit [LinearOrder K] [IsOrderedAddMonoid K] in
theorem Walk.mono {step' : V → V → Prop} (hsub : ∀ u v, step u v → step' u v)
    (hwalk : Walk step w s t c) : Walk step' w s t c := by
  induction hwalk with
  | start => exact .start
  | step _ hstep ih => exact ih.step (hsub _ _ hstep)

/-- How a search came to its scores. -/
structure Grown (step : V → V → Prop) (w : V → V → K) (h : V → K) (s : V)
    (opened closed : V → K → Prop) : Prop where
  openWalk : ∀ u k, opened u k → Walk (Through (fun v => ∃ j, closed v j) step) w s u k
  closedWalk : ∀ u k, closed u k → Walk (Through (fun v => ∃ j, closed v j) step) w s u k
  inOrder : ∀ u k v j, closed u k → opened v j → k + h u ≤ j + h v

/-- The least open vertex is ahead of every vertex that is not closed, or level with it. -/
theorem Frontier.ahead_of_least (hf : Frontier step w s opened closed)
    (hh : Consistent step w h) (hwalk : Walk step w s u k)
    (hmin : ∀ v j, opened v j → k + h u ≤ j + h v) (hnew : ∀ j, ¬ closed t j) :
    Ahead (· ≤ ·) step w h s u t := by
  refine ⟨k, hwalk, fun j hj => ?_⟩
  rcases hf.open_on_walk hh hj with ⟨i, hi⟩ | ⟨v, i, hv, hle⟩
  · exact absurd hi (hnew i)
  · exact (hmin v i hv).trans hle

/-- A vertex that is truly ahead of the least open one is closed. -/
theorem Frontier.closed_of_ahead (hf : Frontier step w s opened closed)
    (hh : Consistent step w h) (hwalk : Walk step w s u k)
    (hmin : ∀ v j, opened v j → k + h u ≤ j + h v) (hahead : Ahead (· < ·) step w h s t u) :
    ∃ j, closed t j := by
  obtain ⟨i, hi, hlt⟩ := hahead
  rcases hf.open_on_walk hh hi with hclosed | ⟨v, j, hv, hle⟩
  · exact hclosed
  · exact absurd ((hmin v j hv).trans hle) (not_le.mpr (hlt k hwalk))

/-- Closing the least open vertex `u`. What is open afterwards was open, or is a step away from
`u` and has the score of that step. -/
theorem Grown.close {opened' closed' : V → K → Prop} (hg : Grown step w h s opened closed)
    (hh : Consistent step w h) (hopen : opened u k)
    (hmin : ∀ v j, opened v j → k + h u ≤ j + h v)
    (hclosed : ∀ v j, closed' v j ↔ v = u ∧ j = k ∨ closed v j)
    (hopened : ∀ v j, opened' v j → opened v j ∨ step u v ∧ j = k + w u v) :
    Grown step w h s opened' closed' := by
  have hthrough : ∀ {v j}, Walk (Through (fun v => ∃ j, closed v j) step) w s v j →
      Walk (Through (fun v => ∃ j, closed' v j) step) w s v j := fun hwalk =>
    hwalk.mono fun a b hstep => ⟨hstep.1.imp fun j hj => (hclosed a j).mpr (Or.inr hj), hstep.2⟩
  have hu := hthrough (hg.openWalk u k hopen)
  refine ⟨fun v j hv => ?_, fun v j hv => ?_, fun v j x i hv hx => ?_⟩
  · rcases hopened v j hv with hv | ⟨hstep, rfl⟩
    · exact hthrough (hg.openWalk v j hv)
    · exact hu.step ⟨⟨k, (hclosed u k).mpr (Or.inl ⟨rfl, rfl⟩)⟩, hstep⟩
  · rcases (hclosed v j).mp hv with ⟨rfl, rfl⟩ | hv
    · exact hu
    · exact hthrough (hg.closedWalk v j hv)
  · -- what is closed is no further than `u`, and `u` no further than what is open
    have hle : j + h v ≤ k + h u := by
      rcases (hclosed v j).mp hv with ⟨rfl, rfl⟩ | hv
      · exact le_rfl
      · exact hg.inOrder v j u k hv hopen
    rcases hopened x i hx with hx | ⟨hstep, rfl⟩
    · exact hle.trans (hmin x i hx)
    · calc j + h v
          ≤ k + h u := hle
        _ ≤ k + (w u x + h x) := add_le_add le_rfl (hh u x hstep)
        _ = k + w u x + h x := (add_assoc _ _ _).symm

omit [IsOrderedAddMonoid K] in
/-- At the start nothing is closed, and `s` is all that is open. -/
theorem Grown.initial (hs : ∀ v j, opened v j → v = s ∧ j = 0) (hnone : ∀ v j, ¬ closed v j) :
    Grown step w h s opened closed where
  openWalk v j hv := by
    obtain ⟨rfl, rfl⟩ := hs v j hv
    exact .start
  closedWalk v j hv := absurd hv (hnone v j)
  inOrder v j _ _ hv _ := absurd hv (hnone v j)

omit [LinearOrder K] [IsOrderedAddMonoid K] in
/-- A path through vertices of one kind, to a vertex of this kind, keeps clear of the others. -/
theorem Walk.within {P : V → Prop} (hwalk : Walk (Through P step) w s t c) (ht : P t) :
    Walk (fun u v => step u v ∧ P v) w s t c := by
  induction hwalk with
  | start => exact .start
  | step _ hstep ih => exact (ih hstep.1).step ⟨hstep.2, ht⟩

omit [LinearOrder K] [IsOrderedAddMonoid K] in
/-- The last step of a path. -/
theorem Walk.last_step (hwalk : Walk step w s t c) :
    t = s ∨ ∃ p i, Walk step w s p i ∧ step p t ∧ c = i + w p t := by
  cases hwalk with
  | start => exact Or.inl rfl
  | step hwalk hstep => exact Or.inr ⟨_, _, hwalk, hstep, rfl⟩

omit [LinearOrder K] [IsOrderedAddMonoid K] in
/-- A path through vertices of one kind is at its end, or starts at one of them. -/
theorem Walk.starts {P : V → Prop} (hwalk : Walk (Through P step) w s t c) : t = s ∨ P s := by
  induction hwalk with
  | start => exact Or.inl rfl
  | step _ hstep ih =>
    rcases ih with rfl | hs
    · exact Or.inr hstep.1
    · exact Or.inr hs

/-- A path keeps clear of a vertex that it does not start at, or has come to it for the first
time, at no more than its whole cost. -/
theorem Walk.clear_or_meets {x : V} (hw : ∀ u v, 0 ≤ w u v) (hwalk : Walk step w s t c) :
    Walk (fun u v => step u v ∧ v ≠ x) w s t c ∨
      ∃ p i, Walk (fun u v => step u v ∧ v ≠ x) w s p i ∧ step p x ∧ i + w p x ≤ c := by
  induction hwalk with
  | start => exact Or.inl .start
  | @step u v c _ hstep ih =>
    rcases ih with hclear | ⟨p, i, hp, hpx, hle⟩
    · by_cases hv : v = x
      · subst hv
        exact Or.inr ⟨u, c, hclear, hstep, le_rfl⟩
      · exact Or.inl (hclear.step ⟨hstep, hv⟩)
    · exact Or.inr ⟨p, i, hp, hpx, hle.trans (le_add_of_nonneg_right (hw u v))⟩

end ShortestPath
