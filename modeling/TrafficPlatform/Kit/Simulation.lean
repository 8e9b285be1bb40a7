import TrafficPlatform.Kit.Run

/-!
# Forward simulation

A specification is a relation `step a l a'`: in the state `a` a step with the label `l` may lead to
`a'`. A system whose steps show labels is simulated by it along `R` if every step of the system is
one that the specification allows, to a related state. Then what the system shows in a run is a run
of the specification (`Simulates.run`), whose invariants are found by `Explains.keeps`.
-/

namespace Kit

variable {S E A L : Type*}

/-- The labels of a run. -/
def observed (next : S → E → S) (label : S → E → L) : S → List E → List L
  | _, [] => []
  | s, e :: es => label s e :: observed next label (next s e) es

/-- The specification can go from `a` to `a'` with these labels. -/
def Explains (step : A → L → A → Prop) : A → List L → A → Prop
  | a, [], a' => a = a'
  | a, l :: ls, a' => ∃ b, step a l b ∧ Explains step b ls a'

/-- Every step of the system from a state that `R` relates to `a` is allowed in `a`. -/
def Simulates (next : S → E → S) (label : S → E → L) (step : A → L → A → Prop)
    (R : S → A → Prop) : Prop :=
  ∀ s e a, R s a → ∃ b, step a (label s e) b ∧ R (next s e) b

variable {next : S → E → S} {label : S → E → L} {step : A → L → A → Prop} {R : S → A → Prop}
    {s : S} {a a' : A}

theorem forall_observed {C : L → Prop} {es : List E} :
    (∀ l ∈ observed next label s es, C l) ↔ Meets next (fun s e => C (label s e)) s es := by
  induction es generalizing s with
  | nil => simp [observed, Meets]
  | cons e es ih => simp only [observed, Meets, List.forall_mem_cons, ih]

/-- What every step keeps that has a label in `C` is kept by a run with such labels. -/
theorem Explains.keeps {I : A → Prop} {C : L → Prop} (hstep : ∀ a l b, I a → C l → step a l b → I b)
    {ls : List L} (h : Explains step a ls a') (hC : ∀ l ∈ ls, C l) (hI : I a) : I a' := by
  induction ls generalizing a with
  | nil => exact h ▸ hI
  | cons l ls ih =>
    obtain ⟨b, hb, h⟩ := h
    obtain ⟨hl, hC⟩ := List.forall_mem_cons.1 hC
    exact ih h hC (hstep a l b hI hl hb)

namespace Simulates

/-- What a run shows is a run of the specification, to a related state. -/
theorem run (h : Simulates next label step R) (hR : R s a) (es : List E) :
    ∃ b, Explains step a (observed next label s es) b ∧ R (run next s es) b := by
  induction es generalizing s a with
  | nil => exact ⟨a, rfl, hR⟩
  | cons e es ih =>
    obtain ⟨b, hb, hR⟩ := h s e a hR
    obtain ⟨c, hc, hR⟩ := ih hR
    exact ⟨c, ⟨b, hb, hc⟩, hR⟩

end Simulates

end Kit
