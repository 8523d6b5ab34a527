import Mathlib.Tactic.Common

/-!
# Imperative programs, and what is true after them

A `Program σ ε α` reads and writes a state `σ`, answers an `α`, or stops for a reason in
`ε`. `wp x Q E s` says what is true of running `x` from `s`: if it answers, `Q` holds of
the answer and of the state left behind; if it stops, `E` holds of the reason.

Two readings of `E` are used. With `E := fun _ => False` the statement is total: the
program does not stop. With a weaker `E` it says which stops are still possible.

The equations for `pure`, `bind`, `get`, `set`, `modify` and `if` are simp lemmas,
so straight-line code is executed by `simp`. A call to a procedure is passed by `wp.mono`
and that procedure's own specification, and a counted loop by `wp_loop` and an invariant
that is indexed by the number of turns made.

`Matches` compares two programs, over two kinds of states: they answer the same and keep a
relation between their states. It goes through a program call by call, with `Matches.bind`.
-/

namespace Prog

variable {σ ε α β : Type}

/-- A program over a state `σ` that can stop for a reason `ε`. -/
abbrev Program (σ ε α : Type) := StateT σ (Except ε) α

/-- What is true of running `x` from `s`. -/
def wp (x : Program σ ε α) (Q : α → σ → Prop) (E : ε → Prop) (s : σ) : Prop :=
  match x.run s with
  | .ok (a, s') => Q a s'
  | .error e => E e

/-! ## The rules for straight-line code -/

@[simp] theorem wp_pure {a : α} {Q : α → σ → Prop} {E : ε → Prop} {s : σ} :
    wp (pure a) Q E s ↔ Q a s := Iff.rfl

@[simp] theorem wp_get {Q : σ → σ → Prop} {E : ε → Prop} {s : σ} :
    wp (get : Program σ ε σ) Q E s ↔ Q s s := Iff.rfl

@[simp] theorem wp_set {t : σ} {Q : PUnit → σ → Prop} {E : ε → Prop} {s : σ} :
    wp (set t : Program σ ε PUnit) Q E s ↔ Q ⟨⟩ t := Iff.rfl

@[simp] theorem wp_modify {f : σ → σ} {Q : PUnit → σ → Prop} {E : ε → Prop} {s : σ} :
    wp (modify f : Program σ ε PUnit) Q E s ↔ Q ⟨⟩ (f s) := Iff.rfl

@[simp] theorem wp_bind {x : Program σ ε α} {f : α → Program σ ε β} {Q : β → σ → Prop}
    {E : ε → Prop} {s : σ} :
    wp (x >>= f) Q E s ↔ wp x (fun a => wp (f a) Q E) E s := by
  unfold wp
  rw [StateT.run_bind]
  cases x.run s with
  | ok r => rfl
  | error e => rfl

theorem wp_throw {e : ε} {Q : α → σ → Prop} {E : ε → Prop} {s : σ} :
    wp (throw e : Program σ ε α) Q E s ↔ E e := Iff.rfl

theorem wp_map {f : α → β} {x : Program σ ε α} {Q : β → σ → Prop} {E : ε → Prop} {s : σ} :
    wp (f <$> x) Q E s ↔ wp x (fun a => Q (f a)) E s := by
  rw [map_eq_pure_bind, wp_bind]
  rfl

@[simp] theorem wp_ite {c : Prop} [Decidable c] {x y : Program σ ε α} {Q : α → σ → Prop}
    {E : ε → Prop} {s : σ} :
    wp (if c then x else y) Q E s ↔ if c then wp x Q E s else wp y Q E s := by
  split <;> rfl

@[simp] theorem wp_discard {x : Program σ ε α} {Q : PUnit → σ → Prop} {E : ε → Prop} {s : σ} :
    wp (discard x) Q E s ↔ wp x (fun _ => Q ⟨⟩) E s := by
  have hrun : (discard x).run s = (x.run s >>= fun r => pure (⟨⟩, r.2)) := rfl
  unfold wp
  rw [hrun]
  cases x.run s with
  | ok r => rfl
  | error e => rfl

/-- A computation that does not touch the state either answers or stops. -/
theorem wp_lift_ok {x : Except ε α} {a : α} {Q : α → σ → Prop} {E : ε → Prop} {s : σ}
    (hx : x = .ok a) : wp (liftM x : Program σ ε α) Q E s ↔ Q a s := by
  subst hx
  rfl

/-- Both ways such a computation can go. -/
theorem wp_lift {x : Except ε α} {Q : α → σ → Prop} {E : ε → Prop} {s : σ}
    (hok : ∀ a, x = .ok a → Q a s) (herr : ∀ e, x = .error e → E e) :
    wp (liftM x : Program σ ε α) Q E s := by
  cases x with
  | ok a => exact hok a rfl
  | error e => exact herr e rfl

/-- **Consequence.** A weaker postcondition, for answers and for stops. -/
theorem wp.mono {x : Program σ ε α} {Q Q' : α → σ → Prop} {E E' : ε → Prop} {s : σ}
    (h : wp x Q E s) (hQ : ∀ a t, Q a t → Q' a t) (hE : ∀ e, E e → E' e) :
    wp x Q' E' s := by
  unfold wp at h ⊢
  cases hx : x.run s with
  | ok r =>
    rw [hx] at h
    exact hQ _ _ h
  | error e =>
    rw [hx] at h
    exact hE _ h

/-- The form of `wp.mono` that a procedure call uses: the same stops are allowed. -/
theorem wp.imp {x : Program σ ε α} {Q Q' : α → σ → Prop} {E : ε → Prop} {s : σ}
    (h : wp x Q E s) (hQ : ∀ a t, Q a t → Q' a t) : wp x Q' E s :=
  h.mono hQ fun _ he => he

/-- Two postconditions of one program hold together. -/
theorem wp.and {x : Program σ ε α} {Q Q' : α → σ → Prop} {E E' : ε → Prop} {s : σ}
    (h : wp x Q E s) (h' : wp x Q' E' s) :
    wp x (fun a t => Q a t ∧ Q' a t) (fun e => E e ∧ E' e) s := by
  unfold wp at h h' ⊢
  cases hx : x.run s with
  | ok r =>
    rw [hx] at h h'
    exact ⟨h, h'⟩
  | error e =>
    rw [hx] at h h'
    exact ⟨h, h'⟩

/-- What `wp` promises of a run that answered. -/
theorem wp.of_run {x : Program σ ε α} {Q : α → σ → Prop} {E : ε → Prop} {s s' : σ} {a : α}
    (h : wp x Q E s) (hr : x.run s = .ok (a, s')) : Q a s' := by
  unfold wp at h
  rw [hr] at h
  exact h

/-- A total statement produces the run. -/
theorem wp.exists_run {x : Program σ ε α} {Q : α → σ → Prop} {s : σ}
    (h : wp x Q (fun _ => False) s) : ∃ a s', x.run s = .ok (a, s') ∧ Q a s' := by
  unfold wp at h
  cases hx : x.run s with
  | ok r =>
    rw [hx] at h
    exact ⟨r.1, r.2, rfl, h⟩
  | error e =>
    rw [hx] at h
    exact h.elim

/-! ## Two programs side by side -/

/-- Run from `s` and from `t`, the programs answer the same and leave states that are related by
`R`, or they stop for the same reason. -/
structure Matches {τ : Type} (R : σ → τ → Prop) (x : Program σ ε α) (y : Program τ ε α) (s : σ)
    (t : τ) : Prop where
  answers : ∀ a s', x.run s = .ok (a, s') → ∃ t', y.run t = .ok (a, t') ∧ R s' t'
  stops : ∀ e, x.run s = .error e → y.run t = .error e

section Matches

variable {τ : Type} {R R' : σ → τ → Prop} {x : Program σ ε α} {y : Program τ ε α} {s : σ} {t : τ}

theorem Matches.of_ok {a : α} {u : σ} {w : τ} (hx : x.run s = .ok (a, u))
    (hy : y.run t = .ok (a, w)) (hR : R u w) : Matches R x y s t where
  answers a' s'' hx' := by
    obtain ⟨rfl, rfl⟩ := Prod.mk.inj (Except.ok.inj (hx.symm.trans hx'))
    exact ⟨w, hy, hR⟩
  stops e hx' := by
    rw [hx] at hx'
    cases hx'

theorem Matches.of_error {e : ε} (hx : x.run s = .error e) (hy : y.run t = .error e) :
    Matches R x y s t where
  answers a' s' hx' := by
    rw [hx] at hx'
    cases hx'
  stops e' hx' := by
    obtain rfl := Except.error.inj (hx.symm.trans hx')
    exact hy

/-- The first steps of both are made. -/
theorem Matches.of_run {f : Program σ ε α} {g : Program τ ε α} {u : σ} {w : τ}
    (hx : x.run s = f.run u) (hy : y.run t = g.run w) (h : Matches R f g u w) :
    Matches R x y s t where
  answers := by
    rw [hx, hy]
    exact h.answers
  stops := by
    rw [hx, hy]
    exact h.stops

theorem Matches.pure {a : α} (hR : R s t) :
    Matches R (Pure.pure a : Program σ ε α) (Pure.pure a : Program τ ε α) s t :=
  .of_ok rfl rfl hR

/-- Both look at their states. -/
theorem Matches.get_bind {f : σ → Program σ ε α} {g : τ → Program τ ε α}
    (h : Matches R (f s) (g t) s t) : Matches R (get >>= f) (get >>= g) s t :=
  Matches.of_run (f := f s) (g := g t) rfl rfl h

/-- A step of the first alone, that does not touch the state and does not fail. -/
theorem Matches.lift_bind {e : Except ε β} {b : β} {f : β → Program σ ε α} (he : e = .ok b)
    (h : Matches R (f b) y s t) : Matches R (liftM e >>= f) y s t := by
  subst he
  exact Matches.of_run (f := f b) (g := y) rfl rfl h

/-- **Sequencing.** What comes next matches, for the same answer, in all states that are related
then. -/
theorem Matches.bind {f : α → Program σ ε β} {g : α → Program τ ε β} (h : Matches R x y s t)
    (hnext : ∀ a s' t', R s' t' → Matches R' (f a) (g a) s' t') :
    Matches R' (x >>= f) (y >>= g) s t := by
  cases hx : x.run s with
  | error e =>
    refine .of_error (e := e) ?_ ?_
    · rw [StateT.run_bind, hx]
      rfl
    · rw [StateT.run_bind, h.stops e hx]
      rfl
  | ok r =>
    obtain ⟨a, s'⟩ := r
    obtain ⟨t', hy, hR⟩ := h.answers a s' hx
    have hleft : (x >>= f).run s = (f a).run s' := by
      rw [StateT.run_bind, hx]
      rfl
    have hright : (y >>= g).run t = (g a).run t' := by
      rw [StateT.run_bind, hy]
      rfl
    obtain ⟨hanswers, hstops⟩ := hnext a s' t' hR
    constructor
    · rw [hleft, hright]
      exact hanswers
    · rw [hleft, hright]
      exact hstops

end Matches

/-! ## Counted loops -/

/-- `for (k = 0; k < n; k++) body(k)`. -/
def loop : Nat → (Nat → Program σ ε Unit) → Program σ ε Unit
  | 0, _ => pure ()
  | n + 1, body => do
    loop n body
    body n

/-- **The loop rule.** `I k` holds after `k` turns; each turn takes `I k` to `I (k + 1)`. -/
theorem wp_loop {n : Nat} {body : Nat → Program σ ε Unit} {E : ε → Prop} {s : σ}
    (I : Nat → σ → Prop) (h0 : I 0 s)
    (hstep : ∀ k t, k < n → I k t → wp (body k) (fun _ => I (k + 1)) E t) :
    wp (loop n body) (fun _ => I n) E s := by
  induction n with
  | zero => exact h0
  | succ n ih =>
    rw [loop, wp_bind]
    refine (ih fun k t hk => hstep k t (Nat.lt_succ_of_lt hk)).imp fun _ t ht => ?_
    exact hstep n t (Nat.lt_succ_self n) ht

/-- The loop rule for an invariant that does not count the turns. -/
theorem wp_loop_const {n : Nat} {body : Nat → Program σ ε Unit} {E : ε → Prop} {s : σ}
    (I : σ → Prop) (h0 : I s)
    (hstep : ∀ k t, k < n → I t → wp (body k) (fun _ => I) E t) :
    wp (loop n body) (fun _ => I) E s :=
  wp_loop (fun _ => I) h0 hstep

/-- The loop rule for a loop that is a fold over its turns. -/
theorem foldl_range {n : Nat} {f : σ → Nat → σ} {s : σ} (I : Nat → σ → Prop) (h0 : I 0 s)
    (hstep : ∀ k t, k < n → I k t → I (k + 1) (f t k)) : I n ((List.range n).foldl f s) := by
  induction n with
  | zero => exact h0
  | succ n ih =>
    rw [List.range_succ, List.foldl_append]
    exact hstep n _ (Nat.lt_succ_self n) (ih fun k t hk => hstep k t (Nat.lt_succ_of_lt hk))

/-- The same for a fold of which no turn fails. -/
theorem foldlM_range {n : Nat} {f : σ → Nat → Except ε σ} {s : σ} (I : Nat → σ → Prop)
    (h0 : I 0 s) (hstep : ∀ k t, k < n → I k t → ∃ t', f t k = .ok t' ∧ I (k + 1) t') :
    ∃ t, (List.range n).foldlM f s = .ok t ∧ I n t := by
  induction n with
  | zero => exact ⟨s, rfl, h0⟩
  | succ n ih =>
    obtain ⟨t, ht, hn⟩ := ih fun k t hk => hstep k t (Nat.lt_succ_of_lt hk)
    obtain ⟨t', ht', hn'⟩ := hstep n t (Nat.lt_succ_self n) hn
    refine ⟨t', ?_, hn'⟩
    rw [List.range_succ, List.foldlM_append, ht]
    show (f t n >>= pure) = .ok t'
    rw [ht']
    rfl

end Prog
