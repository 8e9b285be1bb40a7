import Mathlib.Data.Fintype.EquivFin
import Mathlib.Order.Interval.Finset.Nat

/-!
# The first free candidate

`while taken(x): x = candidate(n); n = n + 1`. The loop has no bound of its own: it ends because the
candidates differ from each other and only finitely many values are taken.
-/

namespace Kit

variable {α : Type} {taken : α → Prop} {candidate : Nat → α} {x y y' : α} {n m : Nat}

/-- The loop at `x`, before the candidate number `n`, ends at `y`. -/
inductive FirstFree (taken : α → Prop) (candidate : Nat → α) : α → Nat → α → Prop
  | free {x : α} {n : Nat} (h : ¬ taken x) : FirstFree taken candidate x n x
  | next {x y : α} {n : Nat} (h : taken x) (rest : FirstFree taken candidate (candidate n) (n + 1) y) :
    FirstFree taken candidate x n y

/-- Candidate `m` is free, and from `n` on no earlier one is. -/
structure LeastFree (taken : α → Prop) (candidate : Nat → α) (n m : Nat) : Prop where
  le : n ≤ m
  free : ¬ taken (candidate m)
  before : ∀ k, n ≤ k → k < m → taken (candidate k)

namespace FirstFree

theorem not_taken (h : FirstFree taken candidate x n y) : ¬ taken y := by
  induction h with
  | free h => exact h
  | next _ _ ih => exact ih

theorem unique (h : FirstFree taken candidate x n y) (h' : FirstFree taken candidate x n y') :
    y' = y := by
  induction h with
  | free hx =>
    cases h' with
    | free _ => rfl
    | next hx' _ => exact absurd hx' hx
  | next hx _ ih =>
    cases h' with
    | free hx' => exact absurd hx hx'
    | next _ rest => exact ih rest

theorem cases_least (h : FirstFree taken candidate x n y) :
    (y = x ∧ ¬ taken x) ∨ (taken x ∧ ∃ m, LeastFree taken candidate n m ∧ y = candidate m) := by
  induction h with
  | free hx => exact .inl ⟨rfl, hx⟩
  | @next x y n hx _ ih =>
    refine .inr ⟨hx, ?_⟩
    rcases ih with ⟨rfl, hfree⟩ | ⟨htaken, m, hm, rfl⟩
    · exact ⟨n, ⟨le_refl _, hfree, fun k hk hlt => absurd hlt (Nat.not_lt.2 hk)⟩, rfl⟩
    · refine ⟨m, ⟨Nat.le_of_succ_le hm.le, hm.free, fun k hk hlt => ?_⟩, rfl⟩
      rcases Nat.eq_or_lt_of_le hk with rfl | hk
      · exact htaken
      · exact hm.before k hk hlt

end FirstFree

theorem LeastFree.firstFree (h : LeastFree taken candidate n m) (hx : taken x) :
    FirstFree taken candidate x n (candidate m) := by
  obtain ⟨d, hd⟩ : ∃ d, m = n + d := ⟨m - n, (Nat.add_sub_cancel' h.le).symm⟩
  induction d generalizing n x with
  | zero =>
    subst hd
    exact .next hx (.free h.free)
  | succ d ih =>
    refine .next hx (ih ⟨by omega, h.free, fun k hk hlt => h.before k (by omega) hlt⟩ ?_ (by omega))
    exact h.before n (le_refl _) (by omega)

/-- Among one more candidates than values are taken, one is free. -/
theorem exists_leastFree (s : Finset α) (hs : ∀ a, taken a → a ∈ s)
    (hinj : Function.Injective candidate) (n : Nat) :
    ∃ m, m ≤ n + s.card ∧ LeastFree taken candidate n m := by
  classical
  have hfree : ∃ m, n ≤ m ∧ ¬ taken (candidate m) ∧ m ≤ n + s.card := by
    by_contra hall
    have hsub : (Finset.Icc n (n + s.card)).image candidate ⊆ s := by
      intro a ha
      obtain ⟨m, hm, rfl⟩ := Finset.mem_image.1 ha
      obtain ⟨hle, hle'⟩ := Finset.mem_Icc.1 hm
      exact hs _ (not_not.1 fun hnot => hall ⟨m, hle, hnot, hle'⟩)
    have hcard := Finset.card_le_card hsub
    rw [Finset.card_image_of_injective _ hinj, Nat.card_Icc] at hcard
    omega
  have hspec := Nat.find_spec hfree
  refine ⟨Nat.find hfree, hspec.2.2, hspec.1, hspec.2.1, fun k hk hlt => ?_⟩
  by_contra hnot
  exact Nat.find_min hfree hlt ⟨hk, hnot, by omega⟩

end Kit
