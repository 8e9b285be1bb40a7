import Mathlib.Algebra.Order.Field.Basic
import Mathlib.Algebra.Order.Ring.Rat
import Mathlib.Tactic.Linarith
import Mathlib.Tactic.Ring

/-!
# The ideal token bucket

A bucket of a fixed capacity that is refilled continuously at a fixed rate and never loses its
content. A check at time `t` takes one token if there is one. `granted_le` is the bound that such a
bucket gives: over any interval of length `T`, at most `capacity + rate * T` checks are allowed.
-/

namespace Kit

variable {K : Type*} [Field K] [LinearOrder K] [IsStrictOrderedRing K]

/-- The parameters of a bucket. -/
structure BucketSpec (K : Type*) [Field K] [LinearOrder K] where
  capacity : K
  rate : K
  capacity_nonneg : 0 ≤ capacity
  rate_nonneg : 0 ≤ rate

/-- A bucket: how full it is, and when that was. -/
structure TokenBucket (spec : BucketSpec K) where
  level : K
  time : K
  nonneg : 0 ≤ level
  le_capacity : level ≤ spec.capacity

namespace TokenBucket

variable {spec : BucketSpec K} {b : TokenBucket spec} {t u : K} {ts : List K}

/-- A full bucket. -/
def full (spec : BucketSpec K) (t : K) : TokenBucket spec :=
  ⟨spec.capacity, t, spec.capacity_nonneg, le_refl _⟩

/-- The level at time `t`, if nothing is taken until then. -/
def levelAt (b : TokenBucket spec) (t : K) : K :=
  min spec.capacity (b.level + max 0 (t - b.time) * spec.rate)

theorem levelAt_nonneg (b : TokenBucket spec) (t : K) : 0 ≤ b.levelAt t :=
  le_min spec.capacity_nonneg (add_nonneg b.nonneg (mul_nonneg (le_max_left _ _) spec.rate_nonneg))

omit [IsStrictOrderedRing K] in
theorem levelAt_le_capacity (b : TokenBucket spec) (t : K) : b.levelAt t ≤ spec.capacity :=
  min_le_left _ _

theorem levelAt_le (h : b.time ≤ t) : b.levelAt t ≤ b.level + spec.rate * (t - b.time) := by
  rw [levelAt, max_eq_right (sub_nonneg.2 h), mul_comm]
  exact min_le_right _ _

theorem levelAt_full (t₀ t : K) : (full spec t₀).levelAt t = spec.capacity :=
  min_eq_left (le_add_of_nonneg_right (mul_nonneg (le_max_left _ _) spec.rate_nonneg))

/-- A check at time `t`: whether it is allowed, and the bucket after it. -/
def check (b : TokenBucket spec) (t : K) : Bool × TokenBucket spec :=
  if h : 1 ≤ b.levelAt t then
    (true, ⟨b.levelAt t - 1, t, sub_nonneg.2 h, by linarith [b.levelAt_le_capacity t]⟩)
  else (false, ⟨b.levelAt t, t, b.levelAt_nonneg t, b.levelAt_le_capacity t⟩)

theorem check_time (b : TokenBucket spec) (t : K) : (b.check t).2.time = t := by
  unfold check; split <;> rfl

theorem check_fst (b : TokenBucket spec) (t : K) : (b.check t).1 = decide (1 ≤ b.levelAt t) := by
  unfold check; split <;> simp [*]

theorem check_level (b : TokenBucket spec) (t : K) :
    (b.check t).2.level = if 1 ≤ b.levelAt t then b.levelAt t - 1 else b.levelAt t := by
  unfold check; split <;> rfl

theorem check_spent (b : TokenBucket spec) (t : K) :
    (if (b.check t).1 then 1 else 0) + (b.check t).2.level = b.levelAt t := by
  unfold check; split <;> simp

theorem levelAt_levelAt {b' : TokenBucket spec} (hl : b'.level = b.levelAt t) (ht : b'.time = t)
    (hb : b.time ≤ t) (hu : t ≤ u) : b'.levelAt u = b.levelAt u := by
  have hrate := spec.rate_nonneg
  have hfill : 0 ≤ (u - t) * spec.rate := mul_nonneg (sub_nonneg.2 hu) hrate
  have hsum : b.level + (u - b.time) * spec.rate = b.level + (t - b.time) * spec.rate + (u - t) *
    spec.rate := by ring
  unfold levelAt at hl ⊢
  rw [hl, ht, max_eq_right (sub_nonneg.2 hu), max_eq_right (sub_nonneg.2 hb),
    max_eq_right (sub_nonneg.2 (hb.trans hu)),
    hsum, min_add, ← min_assoc, min_eq_left (le_add_of_nonneg_right hfill)]

theorem levelAt_rejected (h : (b.check t).1 = false) (hb : b.time ≤ t) (hu : t ≤ u) :
    (b.check t).2.levelAt u = b.levelAt u := by
  rw [check_fst, decide_eq_false_iff_not] at h
  exact levelAt_levelAt (by rw [check_level, if_neg h]) (b.check_time t) hb hu

omit [IsStrictOrderedRing K] in
theorem levelAt_congr {b' : TokenBucket spec} (hl : b'.level = b.level) (ht : b'.time = b.time) :
    b'.levelAt u = b.levelAt u := by
  rw [levelAt, levelAt, hl, ht]

/-- The checks of a run with their answers: the time, whether it was allowed, and the level left. -/
def answers (b : TokenBucket spec) : List K → List (K × Bool × K)
  | [] => []
  | t :: ts => (t, (b.check t).1, (b.check t).2.level) :: (b.check t).2.answers ts

/-- How many of the checks with a time in `[lo, hi]` are allowed. -/
def granted (lo hi : K) (answers : List (K × Bool × K)) : Nat :=
  answers.countP fun a => a.2.1 && decide (lo ≤ a.1 ∧ a.1 ≤ hi)

omit [Field K] [IsStrictOrderedRing K] in
theorem granted_cons (lo hi : K) (a : K × Bool × K) (as : List (K × Bool × K)) :
    granted lo hi (a :: as) = granted lo hi as + if a.2.1 ∧ lo ≤ a.1 ∧ a.1 ≤ hi then 1 else 0 := by
  simp [granted, List.countP_cons]

theorem answers_times (b : TokenBucket spec) (ts : List K) : (b.answers ts).map (·.1) = ts := by
  induction ts generalizing b with
  | nil => rfl
  | cons t ts ih => simp [answers, ih]

theorem granted_of_lt {lo hi : K} (b : TokenBucket spec) (h : ∀ t ∈ ts, hi < t) :
    granted lo hi (b.answers ts) = 0 := by
  induction ts generalizing b with
  | nil => rfl
  | cons t ts ih =>
    have ht := h t List.mem_cons_self
    rw [answers, granted_cons, ih _ fun t ht => h t (List.mem_cons_of_mem _ ht),
      if_neg fun hc => absurd hc.2.2 (not_le_of_gt ht)]

/-- Up to time `hi`, a bucket gives what it holds and what is refilled. -/
theorem granted_le_level {lo hi : K} (hs : ts.Pairwise (· ≤ ·)) (hb : ∀ t ∈ ts, b.time ≤ t)
    (hi' : b.time ≤ hi) :
    (granted lo hi (b.answers ts) : K) ≤ b.level + spec.rate * (hi - b.time) := by
  induction ts generalizing b with
  | nil => simpa [answers, granted] using add_nonneg b.nonneg (mul_nonneg spec.rate_nonneg (sub_nonneg.2 hi'))
  | cons t ts ih =>
    obtain ⟨hle, hs⟩ := List.pairwise_cons.1 hs
    have hbt := hb t List.mem_cons_self
    rcases le_or_gt t hi with ht | ht
    · have hrest := ih (b := (b.check t).2) hs (by simpa [check_time] using hle)
        (by simpa [check_time] using ht)
      have hspent := b.check_spent t
      have hlevel := levelAt_le (b := b) hbt
      have hone : ((if (b.check t).1 ∧ lo ≤ t ∧ t ≤ hi then 1 else 0 : Nat) : K) ≤
          if (b.check t).1 then 1 else 0 := by
        by_cases hc : (b.check t).1 = true <;> simp only [hc, true_and, if_true]
        · split <;> simp
        · simp
      rw [check_time] at hrest
      rw [answers, granted_cons, Nat.cast_add]
      calc (granted lo hi ((b.check t).2.answers ts) : K) + _
          ≤ ((b.check t).2.level + spec.rate * (hi - t)) + if (b.check t).1 then 1 else 0 :=
            add_le_add hrest hone
        _ = b.levelAt t + spec.rate * (hi - t) := by rw [← hspent]; ring
        _ ≤ b.level + spec.rate * (t - b.time) + spec.rate * (hi - t) := by linarith
        _ = b.level + spec.rate * (hi - b.time) := by ring
    · rw [granted_of_lt b fun t' ht' => ?_]
      · simpa using add_nonneg b.nonneg (mul_nonneg spec.rate_nonneg (sub_nonneg.2 hi'))
      · rcases List.mem_cons.1 ht' with rfl | ht'
        · exact ht
        · exact lt_of_lt_of_le ht (hle t' ht')

/-- Over any interval of length `T`, a bucket allows at most `capacity + rate * T` checks. -/
theorem granted_le {lo hi : K} (b : TokenBucket spec) (h : lo ≤ hi) (hs : ts.Pairwise (· ≤ ·)) :
    (granted lo hi (b.answers ts) : K) ≤ spec.capacity + spec.rate * (hi - lo) := by
  have hnonneg : 0 ≤ spec.capacity + spec.rate * (hi - lo) :=
    add_nonneg spec.capacity_nonneg (mul_nonneg spec.rate_nonneg (sub_nonneg.2 h))
  induction ts generalizing b with
  | nil => simpa [answers, granted] using hnonneg
  | cons t ts ih =>
    obtain ⟨hle, hs'⟩ := List.pairwise_cons.1 hs
    rw [answers, granted_cons]
    rcases lt_or_ge t lo with hlo | hlo
    · rw [if_neg fun hc => absurd hc.2.1 (not_le_of_gt hlo), Nat.add_zero]
      exact ih _ hs'
    rcases lt_or_ge hi t with hhi | hhi
    · rw [if_neg fun hc => absurd hc.2.2 (not_le_of_gt hhi), Nat.add_zero]
      exact ih _ hs'
    · -- the first check that counts finds at most a full bucket
      have hrest : (granted lo hi ((b.check t).2.answers ts) : K) ≤ _ :=
        granted_le_level hs' (by simpa [check_time] using hle) (by simpa [check_time] using hhi)
      have hspent := b.check_spent t
      have hcap := b.levelAt_le_capacity t
      have hone : ((if (b.check t).1 ∧ lo ≤ t ∧ t ≤ hi then 1 else 0 : Nat) : K) =
          if (b.check t).1 then 1 else 0 := by
        simp [hlo, hhi]
      rw [check_time] at hrest
      rw [Nat.cast_add, hone]
      calc (granted lo hi ((b.check t).2.answers ts) : K) + _
          ≤ ((b.check t).2.level + spec.rate * (hi - t)) + if (b.check t).1 then 1 else 0 := by linarith
        _ = b.levelAt t + spec.rate * (hi - t) := by rw [← hspent]; ring
        _ ≤ spec.capacity + spec.rate * (hi - lo) := by
          have := mul_le_mul_of_nonneg_left (sub_le_sub_left hlo hi) spec.rate_nonneg
          linarith

end TokenBucket

end Kit
