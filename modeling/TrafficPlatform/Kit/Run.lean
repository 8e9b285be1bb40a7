import Mathlib.Data.List.Basic

/-!
# Runs of a transition function

A system is a function `next s e` from a state and an event to the next state; a run is a list of
events. `Meets C` says that every step of a run satisfies `C` in the state before it, `Always P`
that every state of a run (the first one included) satisfies `P`. An invariant is proved for one
step and carried to whole runs by `Always.of_meets`; where a step keeps `P` exactly when it
satisfies `C`, `always_iff_meets` gives the exact condition for a run.

`follow f` goes along a partial function, as long as there is a next element.
-/

namespace Kit

variable {S E : Type*} (next : S → E → S)

/-- The state after the events of a run. -/
def run (s : S) : List E → S
  | [] => s
  | e :: es => run (next s e) es

/-- Every step of the run satisfies `C` in the state it starts from. -/
def Meets (C : S → E → Prop) : S → List E → Prop
  | _, [] => True
  | s, e :: es => C s e ∧ Meets C (next s e) es

/-- Every state of the run satisfies `P`. -/
def Always (P : S → Prop) : S → List E → Prop
  | s, [] => P s
  | s, e :: es => P s ∧ Always P (next s e) es

instance decidableMeets (C : S → E → Prop) [∀ s e, Decidable (C s e)] : ∀ s es,
    Decidable (Meets next C s es)
  | _, [] => .isTrue trivial
  | s, e :: es =>
    have := decidableMeets C (next s e) es
    inferInstanceAs (Decidable (C s e ∧ Meets next C (next s e) es))

variable {next} {C : S → E → Prop} {P I : S → Prop} {s : S} {es es' : List E}

theorem run_cons (s : S) (e : E) (es : List E) : run next s (e :: es) = run next (next s e) es := rfl

theorem run_append (s : S) (es es' : List E) :
    run next s (es ++ es') = run next (run next s es) es' := by
  induction es generalizing s with
  | nil => rfl
  | cons e es ih => exact ih (next s e)

theorem meets_append : Meets next C s (es ++ es') ↔
    Meets next C s es ∧ Meets next C (run next s es) es' := by
  induction es generalizing s with
  | nil => simp [Meets, run]
  | cons e es ih => simp only [List.cons_append, Meets, run, ih, and_assoc]

theorem meets_iff : Meets next C s es ↔
    ∀ es₁ e es₂, es = es₁ ++ e :: es₂ → C (run next s es₁) e := by
  constructor
  · rintro h es₁ e es₂ rfl
    exact (meets_append.1 h).2.1
  · intro h
    induction es generalizing s with
    | nil => trivial
    | cons e es ih =>
      exact ⟨h [] e es rfl, ih fun es₁ e' es₂ hes => h (e :: es₁) e' es₂ (by rw [hes]; rfl)⟩

theorem Always.head (h : Always next P s es) : P s := by
  cases es with
  | nil => exact h
  | cons e es => exact h.1

theorem always_append : Always next P s (es ++ es') ↔
    Always next P s es ∧ Always next P (run next s es) es' := by
  induction es generalizing s with
  | nil => exact ⟨fun h => ⟨h.head, h⟩, fun h => h.2⟩
  | cons e es ih => simp only [List.cons_append, Always, run, ih, and_assoc]

theorem always_iff : Always next P s es ↔ ∀ es₁ es₂, es = es₁ ++ es₂ → P (run next s es₁) := by
  constructor
  · rintro h es₁ es₂ rfl
    exact (always_append.1 h).2.head
  · intro h
    induction es generalizing s with
    | nil => exact h [] [] rfl
    | cons e es ih =>
      exact ⟨h [] (e :: es) rfl, ih fun es₁ es₂ hes => h (e :: es₁) es₂ (by rw [hes]; rfl)⟩

theorem run_invariant (hstep : ∀ s e, I s → I (next s e)) (h : I s) (es : List E) :
    I (run next s es) := by
  induction es generalizing s with
  | nil => exact h
  | cons e es ih => exact ih (hstep s e h)

/-- What the steps that satisfy `C` keep holds throughout a run whose steps all do. -/
theorem Always.of_meets (hstep : ∀ s e, P s → C s e → P (next s e)) (h : P s)
    (hm : Meets next C s es) : Always next P s es := by
  induction es generalizing s with
  | nil => exact h
  | cons e es ih => exact ⟨h, ih (hstep s e h hm.1) hm.2⟩

theorem always_iff_meets_of {A : E → Prop} (hI : ∀ s e, I s → A e → I (next s e))
    (hstep : ∀ s e, I s → A e → P s → (P (next s e) ↔ C s e)) (ha : ∀ e ∈ es, A e) (hi : I s)
    (h : P s) :
    Always next P s es ↔ Meets next C s es := by
  induction es generalizing s with
  | nil => exact ⟨fun _ => trivial, fun _ => h⟩
  | cons e es ih =>
    have he := ha e List.mem_cons_self
    have ih' := fun {s} => ih (s := s) fun e he => ha e (List.mem_cons_of_mem _ he)
    constructor
    · rintro ⟨-, ht⟩
      exact ⟨(hstep s e hi he h).1 ht.head, (ih' (hI s e hi he) ht.head).1 ht⟩
    · rintro ⟨hc, ht⟩
      have hp := (hstep s e hi he h).2 hc
      exact ⟨h, (ih' (hI s e hi he) hp).2 ht⟩

/-- `always_iff_meets_of` for all runs. -/
theorem always_iff_meets (hI : ∀ s e, I s → I (next s e))
    (hstep : ∀ s e, I s → P s → (P (next s e) ↔ C s e)) (hi : I s) (h : P s) :
    Always next P s es ↔ Meets next C s es :=
  always_iff_meets_of (A := fun _ => True) (fun s e hs _ => hI s e hs) (fun s e hs _ => hstep s e hs)
    (fun _ _ => trivial) hi h

/-! ### Following a partial function -/

variable {α : Type*} {f : α → Option α}

/-- Where `n` steps along `f` lead. -/
def follow (f : α → Option α) : Nat → α → Option α
  | 0, a => some a
  | n + 1, a => (f a).bind (follow f n)

theorem follow_ends {m : α → Nat} (h : ∀ a b, f a = some b → m b < m a) (a : α) : ∃ n,
    follow f n a = none := by
  suffices hall : ∀ k a, m a < k → follow f k a = none from ⟨_, hall _ a (Nat.lt_succ_self _)⟩
  intro k
  induction k with
  | zero => exact fun a hk => absurd hk (Nat.not_lt_zero _)
  | succ k ih =>
    intro a hk
    rw [follow]
    cases hfa : f a with
    | none => rfl
    | some b => exact ih b (Nat.lt_of_lt_of_le (h a b hfa) (Nat.le_of_lt_succ hk))

end Kit
