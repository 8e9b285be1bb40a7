import Mathlib.Data.Int.Log
import Mathlib.Data.List.Perm.Basic
import Mathlib.Data.List.Sort
import Mathlib.Data.Rat.Floor
import Mathlib.Tactic.Linarith
import Mathlib.Tactic.Positivity
import Mathlib.Tactic.Ring

/-!
# Double-precision arithmetic

A double is a rational with 53 significant bits; its exponent is unbounded here, so that nothing
overflows or underflows. `round` takes the exact result of an operation to the nearest double, ties
to even. Code that rounds after every operation takes the rounding as a parameter, and `Rounding`
says what its proofs need of it: exact arithmetic, which is `id`, is a rounding as well.
-/

namespace Kit.Double

/-! ### To an integer -/

/-- A way to round to an integer. -/
structure ToInt (rnd : ℚ → ℤ) : Prop where
  mono : ∀ {x y}, x ≤ y → rnd x ≤ rnd y
  int : ∀ n : ℤ, rnd n = n

theorem ToInt.neg {rnd : ℚ → ℤ} (h : ToInt rnd) : ToInt fun x => -rnd (-x) where
  mono hxy := neg_le_neg (h.mono (neg_le_neg hxy))
  int n := by rw [← Int.cast_neg, h.int, neg_neg]

/-- To the nearest integer, ties to the even one. -/
def halfEven (x : ℚ) : ℤ :=
  if x - ⌊x⌋ < 1 / 2 then ⌊x⌋ else if 1 / 2 < x - ⌊x⌋ then ⌊x⌋ + 1 else ⌊x⌋ + ⌊x⌋ % 2

theorem floor_le_halfEven (x : ℚ) : ⌊x⌋ ≤ halfEven x := by
  unfold halfEven
  split_ifs <;> omega

theorem halfEven_le (x : ℚ) : halfEven x ≤ ⌊x⌋ + 1 := by
  unfold halfEven
  split_ifs <;> omega

theorem toInt_halfEven : ToInt halfEven where
  mono {x y} hxy := by
    rcases (Int.floor_le_floor hxy).lt_or_eq with hlt | heq
    · exact (halfEven_le x).trans (le_trans (by omega) (floor_le_halfEven y))
    · unfold halfEven
      rw [heq]
      split_ifs <;> first | omega | linarith
  int n := by simp [halfEven]

theorem halfEven_error (x : ℚ) : |(halfEven x : ℚ) - x| ≤ 1 / 2 := by
  have hlo := Int.floor_le x
  have hhi := Int.lt_floor_add_one x
  unfold halfEven
  rw [abs_le]
  split_ifs with hlt hgt
  · constructor <;> linarith
  · push_cast
    constructor <;> linarith
  · have htie : x - ⌊x⌋ = 1 / 2 := le_antisymm (not_lt.1 hgt) (not_lt.1 hlt)
    have hmod : ⌊x⌋ % 2 = 0 ∨ ⌊x⌋ % 2 = 1 := by omega
    rcases hmod with hmod | hmod <;> rw [hmod] <;> push_cast <;> constructor <;> linarith

theorem halfEven_le_of_lt {x : ℚ} {n : ℤ} (h : x < n + 1 / 2) : halfEven x ≤ n := by
  have herr := (abs_le.1 (halfEven_error x)).2
  have hlt : (halfEven x : ℚ) < n + 1 := by linarith
  exact Int.lt_add_one_iff.1 (by exact_mod_cast hlt)

/-! ### To a double -/

def Representable (x : ℚ) : Prop := ∃ m e : ℤ, |m| ≤ 2 ^ 53 ∧ x = m * 2 ^ e

/-- The unit in the last place: `x` has 53 bits before it. -/
def ulp (x : ℚ) : ℚ := 2 ^ (Int.log 2 |x| - 52)

def roundTo (rnd : ℚ → ℤ) (x : ℚ) : ℚ := rnd (x / ulp x) * ulp x

/-- To the nearest double, ties to even. -/
def round (x : ℚ) : ℚ := roundTo halfEven x

section
variable {rnd : ℚ → ℤ} {a x y : ℚ}

theorem ulp_pos (x : ℚ) : 0 < ulp x := zpow_pos (by norm_num) _

theorem ulp_neg (x : ℚ) : ulp (-x) = ulp x := by rw [ulp, ulp, abs_neg]

theorem pow_mul_ulp (n : ℕ) (x : ℚ) : 2 ^ n * ulp x = 2 ^ (Int.log 2 |x| - 52 + n) := by
  rw [ulp, zpow_add₀ (by norm_num), zpow_natCast, mul_comm]

theorem ulp_le (hx : x ≠ 0) : 2 ^ 52 * ulp x ≤ |x| := by
  have hlog := Int.zpow_log_le_self (b := 2) (by norm_num) (abs_pos.2 hx)
  rw [pow_mul_ulp]
  simpa using hlog

theorem lt_ulp (x : ℚ) : |x| < 2 ^ 53 * ulp x := by
  have hlog := Int.lt_zpow_succ_log_self (b := 2) (by norm_num) |x|
  rw [pow_mul_ulp, show Int.log 2 |x| - 52 + (53 : ℕ) = Int.log 2 |x| + 1 by push_cast; ring]
  exact_mod_cast hlog

theorem representable_int {n : ℤ} (h : |n| ≤ 2 ^ 53) : Representable n := ⟨n, 0, h, by simp⟩

theorem representable_ulp (x : ℚ) : Representable (2 ^ 52 * ulp x) :=
  ⟨1, Int.log 2 |x| - 52 + 52, by norm_num, by rw [pow_mul_ulp]; push_cast; ring⟩

theorem Representable.neg (h : Representable x) : Representable (-x) := by
  obtain ⟨m, e, hm, rfl⟩ := h
  exact ⟨-m, e, by rwa [abs_neg], by push_cast; ring⟩

theorem roundTo_neg (rnd : ℚ → ℤ) (x : ℚ) : roundTo rnd (-x) = -roundTo (fun y => -rnd (-y)) x := by
  unfold roundTo
  rw [ulp_neg, neg_div]
  push_cast
  ring

theorem representable_roundTo (h : ToInt rnd) (x : ℚ) : Representable (roundTo rnd x) := by
  obtain ⟨hlo, hhi⟩ := abs_lt.1 (lt_ulp x)
  have hpos := ulp_pos x
  refine ⟨rnd (x / ulp x), Int.log 2 |x| - 52, abs_le.2 ⟨?_, ?_⟩, rfl⟩
  · rw [← h.int (-2 ^ 53)]
    refine h.mono ((le_div_iff₀ hpos).2 ?_)
    push_cast
    linarith
  · rw [← h.int (2 ^ 53)]
    refine h.mono ((div_le_iff₀ hpos).2 ?_)
    push_cast
    exact hhi.le

/-- A double has no bits beyond the unit of a larger number. -/
theorem Representable.cases (ha : Representable a) (x : ℚ) :
    (∃ n : ℤ, a = n * ulp x) ∨ |a| ≤ 2 ^ 52 * ulp x := by
  obtain ⟨m, e, hm, rfl⟩ := ha
  rcases le_or_gt (Int.log 2 |x| - 52) e with hle | hlt
  · refine .inl ⟨m * 2 ^ (e - (Int.log 2 |x| - 52)).toNat, ?_⟩
    have he : e = (Int.log 2 |x| - 52) + ((e - (Int.log 2 |x| - 52)).toNat : ℕ) := by omega
    conv_lhs => rw [he, zpow_add₀ (by norm_num), zpow_natCast]
    push_cast
    rw [ulp]
    ring
  · refine .inr ?_
    have hm' : |(m : ℚ)| ≤ 2 ^ 53 := by exact_mod_cast hm
    have hexp : (2 : ℚ) ^ e * 2 ≤ ulp x := by
      rw [← zpow_add_one₀ (by norm_num)]
      exact zpow_le_zpow_right₀ (by norm_num) (by omega)
    have hpos : (0 : ℚ) < 2 ^ e := zpow_pos (by norm_num) _
    rw [abs_mul, abs_of_pos hpos]
    calc |(m : ℚ)| * 2 ^ e ≤ 2 ^ 53 * 2 ^ e := mul_le_mul_of_nonneg_right hm' hpos.le
      _ = 2 ^ 52 * (2 ^ e * 2) := by ring
      _ ≤ 2 ^ 52 * ulp x := mul_le_mul_of_nonneg_left hexp (by norm_num)

theorem le_roundTo (h : ToInt rnd) (ha : Representable a) (hax : a ≤ x) : a ≤ roundTo rnd x := by
  have hpos := ulp_pos x
  have hint : ∀ n : ℤ, (n : ℚ) * ulp x ≤ x → n * ulp x ≤ roundTo rnd x := fun n hn =>
    mul_le_mul_of_nonneg_right (by exact_mod_cast h.int n ▸ h.mono ((le_div_iff₀ hpos).2 hn)) hpos.le
  rcases ha.cases x with ⟨n, rfl⟩ | hsmall
  · exact hint n hax
  · obtain ⟨hlo, hhi⟩ := abs_le.1 hsmall
    rcases lt_trichotomy x 0 with hneg | rfl | hx
    · -- then `a` is the power of two that `x` is at
      have hle := ulp_le hneg.ne
      rw [abs_of_neg hneg] at hle
      have heq : a = ((-2 ^ 52 : ℤ) : ℚ) * ulp x := by push_cast; linarith
      rw [heq] at hax ⊢
      exact hint _ hax
    · refine hax.trans (le_of_eq ?_)
      rw [roundTo, zero_div, ← Int.cast_zero, h.int]
      simp
    · have hle := ulp_le hx.ne'
      rw [abs_of_pos hx] at hle
      refine hhi.trans ?_
      have := hint (2 ^ 52) (by push_cast; exact hle)
      push_cast at this
      exact this

theorem roundTo_le (h : ToInt rnd) (ha : Representable a) (hxa : x ≤ a) : roundTo rnd x ≤ a := by
  have hle := le_roundTo h.neg ha.neg (neg_le_neg hxa)
  rw [roundTo_neg] at hle
  simpa using neg_le_neg hle

theorem roundTo_self (h : ToInt rnd) (hx : Representable x) : roundTo rnd x = x :=
  le_antisymm (roundTo_le h hx (le_refl _)) (le_roundTo h hx (le_refl _))

theorem roundTo_pos (h : ToInt rnd) (hx : 0 < x) : 0 < roundTo rnd x := by
  have hle := ulp_le hx.ne'
  rw [abs_of_pos hx] at hle
  exact lt_of_lt_of_le (mul_pos (by norm_num) (ulp_pos x)) (le_roundTo h (representable_ulp x) hle)

/-- Between positive numbers of different units lies a power of two. -/
theorem roundTo_mono_of_pos (h : ToInt rnd) (hx : 0 < x) (hxy : x ≤ y) :
    roundTo rnd x ≤ roundTo rnd y := by
  have hy := hx.trans_le hxy
  have hlog : Int.log 2 |x| ≤ Int.log 2 |y| := by
    rw [abs_of_pos hx, abs_of_pos hy]
    exact Int.log_mono_right hx hxy
  rcases hlog.lt_or_eq with hlt | heq
  · have hup : x ≤ 2 ^ 52 * ulp y := by
      have hx' := (le_abs_self x).trans (lt_ulp x).le
      rw [pow_mul_ulp] at hx' ⊢
      exact hx'.trans (zpow_le_zpow_right₀ (by norm_num) (by push_cast; omega))
    have hdown := ulp_le hy.ne'
    rw [abs_of_pos hy] at hdown
    exact (roundTo_le h (representable_ulp y) hup).trans (le_roundTo h (representable_ulp y) hdown)
  · have hulp : ulp x = ulp y := by rw [ulp, ulp, heq]
    unfold roundTo
    rw [hulp]
    have hle := h.mono (div_le_div_of_nonneg_right hxy (ulp_pos y).le)
    exact mul_le_mul_of_nonneg_right (by exact_mod_cast hle) (ulp_pos y).le

theorem roundTo_mono (h : ToInt rnd) (hxy : x ≤ y) : roundTo rnd x ≤ roundTo rnd y := by
  have hzero : Representable 0 := by simpa using representable_int (n := 0) (by norm_num)
  rcases lt_or_ge 0 x with hx | hx
  · exact roundTo_mono_of_pos h hx hxy
  rcases le_or_gt 0 y with hy | hy
  · exact (roundTo_le h hzero hx).trans (le_roundTo h hzero hy)
  · have hle := roundTo_mono_of_pos h.neg (neg_pos.2 hy) (neg_le_neg hxy)
    rw [roundTo_neg, roundTo_neg] at hle
    simpa using neg_le_neg hle

end

/-! ### Rounding -/

/-- What an operation in some arithmetic does to its exact result. -/
structure Rounding (fl : ℚ → ℚ) : Prop where
  mono : ∀ {x y}, x ≤ y → fl x ≤ fl y
  idem : ∀ x, fl (fl x) = fl x
  int : ∀ n : ℤ, |n| ≤ 2 ^ 53 → fl n = n
  pos : ∀ {x}, 0 < x → 0 < fl x
  /-- One less than a double is exact. -/
  sub_one : ∀ {x}, fl x = x → 1 ≤ x → x ≤ 2 ^ 53 → fl (x - 1) = x - 1

theorem rounding_id : Rounding id where
  mono h := h
  idem _ := rfl
  int _ _ := rfl
  pos h := h
  sub_one _ _ _ := rfl

theorem round_self {x : ℚ} (h : Representable x) : round x = x := roundTo_self toInt_halfEven h

theorem representable_round (x : ℚ) : Representable (round x) := representable_roundTo toInt_halfEven x

theorem representable_iff {x : ℚ} : Representable x ↔ round x = x :=
  ⟨round_self, fun h => h ▸ representable_round x⟩

theorem Representable.sub_one {x : ℚ} (h : Representable x) (hlo : 1 ≤ x) (hhi : x ≤ 2 ^ 53) :
    Representable (x - 1) := by
  obtain ⟨m, e, hm, rfl⟩ := h
  rcases le_or_gt 0 e with he | he
  · -- an integer
    obtain ⟨n, rfl⟩ := Int.eq_ofNat_of_zero_le he
    have hval : (m : ℚ) * 2 ^ (n : ℤ) - 1 = ((m * 2 ^ n - 1 : ℤ) : ℚ) := by push_cast; rfl
    rw [hval]
    have hlo' : 1 ≤ m * 2 ^ n := by exact_mod_cast hlo
    have hhi' : m * 2 ^ n ≤ 2 ^ 53 := by exact_mod_cast hhi
    exact representable_int (abs_le.2 ⟨by omega, by omega⟩)
  · obtain ⟨n, hn⟩ := Int.eq_ofNat_of_zero_le (neg_nonneg.2 he.le)
    obtain rfl : e = -(n : ℤ) := by rw [← hn, neg_neg]
    have hpow : (0 : ℚ) < 2 ^ n := by positivity
    rw [zpow_neg, zpow_natCast, ← div_eq_mul_inv] at hlo ⊢
    have hlo' : (2 : ℤ) ^ n ≤ m := by exact_mod_cast one_le_div hpow |>.1 hlo
    have hpos : (0 : ℤ) < 2 ^ n := by positivity
    have hm' := (abs_le.1 hm).2
    refine ⟨m - 2 ^ n, -(n : ℤ), abs_le.2 ⟨by omega, by omega⟩, ?_⟩
    rw [zpow_neg, zpow_natCast, ← div_eq_mul_inv]
    push_cast
    rw [sub_div, div_self hpow.ne']

theorem rounding_round : Rounding round where
  mono := roundTo_mono toInt_halfEven
  idem x := round_self (representable_round x)
  int _ h := round_self (representable_int h)
  pos := roundTo_pos toInt_halfEven
  sub_one h hlo hhi := round_self ((representable_iff.2 h).sub_one hlo hhi)

namespace Rounding

variable {fl : ℚ → ℚ} (h : Rounding fl)
include h

theorem zero : fl 0 = 0 := by simpa using h.int 0 (by norm_num)

theorem one : fl 1 = 1 := by simpa using h.int 1 (by norm_num)

theorem nonneg {x : ℚ} (hx : 0 ≤ x) : 0 ≤ fl x := h.zero ▸ h.mono hx

end Rounding

theorem round_error (x : ℚ) : |round x - x| ≤ |x| / 2 ^ 53 := by
  have hpos := ulp_pos x
  have herr := mul_le_mul_of_nonneg_right (halfEven_error (x / ulp x)) hpos.le
  have hdiff : round x - x = ((halfEven (x / ulp x) : ℚ) - x / ulp x) * ulp x := by
    rw [round, roundTo, sub_mul, div_mul_cancel₀ _ hpos.ne']
  rw [hdiff, abs_mul, abs_of_pos hpos]
  rcases eq_or_ne x 0 with rfl | hx
  · simp [halfEven]
  · refine herr.trans ((le_div_iff₀ (by norm_num)).2 ?_)
    have hle := ulp_le hx
    linarith

theorem le_round {x : ℚ} (hx : 0 ≤ x) : (1 - 1 / 2 ^ 53) * x ≤ round x := by
  have herr := (abs_le.1 (round_error x)).1
  rw [abs_of_nonneg hx] at herr
  linarith

theorem round_le {x : ℚ} (hx : 0 ≤ x) : round x ≤ (1 + 1 / 2 ^ 53) * x := by
  have herr := (abs_le.1 (round_error x)).2
  rw [abs_of_nonneg hx] at herr
  linarith

/-- The double before one. -/
theorem round_lt_one {x : ℚ} (h : x < 1 - 1 / 2 ^ 54) : round x ≤ 1 - 1 / 2 ^ 53 := by
  rcases lt_or_ge x (1 / 2) with hhalf | hhalf
  · exact (rounding_round.mono hhalf.le).trans (by decide +kernel)
  · have hlog : Int.log 2 |x| = -1 := by
      have hx : 0 < x := by linarith
      rw [abs_of_pos hx]
      refine le_antisymm (Int.lt_add_one_iff.1 ((Int.lt_zpow_iff_log_lt (by norm_num) hx).1 ?_))
        ((Int.zpow_le_iff_le_log (by norm_num) hx).1 ?_)
      · norm_num at h ⊢
        linarith
      · norm_num at hhalf ⊢
        linarith
    have hulp : ulp x = 1 / 2 ^ 53 := by
      rw [ulp, hlog]
      norm_num
    have hint : halfEven (x / ulp x) ≤ 2 ^ 53 - 1 := by
      refine halfEven_le_of_lt ?_
      rw [hulp]
      push_cast
      linarith
    have hint' : (halfEven (x / ulp x) : ℚ) ≤ 2 ^ 53 - 1 := by exact_mod_cast hint
    rw [round, roundTo, hulp] at *
    linarith

theorem one_le_round_iff {x : ℚ} : 1 ≤ round x ↔ 1 - 1 / 2 ^ 54 ≤ x := by
  constructor
  · intro h
    by_contra hlt
    have := round_lt_one (not_le.1 hlt)
    norm_num at this
    linarith
  · intro h
    exact le_trans (by decide +kernel) (rounding_round.mono h)

/-! ### Sums -/

/-- The number is what adding up the list gives, in some order and grouping. -/
inductive SumsTo : List ℚ → ℚ → Prop
  | nil : SumsTo [] 0
  | one (x : ℚ) : SumsTo [x] x
  | add {xs ys : List ℚ} {a b : ℚ} (hx : SumsTo xs a) (hy : SumsTo ys b) :
    SumsTo (xs ++ ys) (round (a + b))
  | perm {xs ys : List ℚ} {a : ℚ} (h : xs.Perm ys) (hx : SumsTo xs a) : SumsTo ys a

/-- Added up one by one. -/
def addUp (xs : List ℚ) : ℚ := xs.foldl (fun a x => round (a + x)) 0

/-- Added up in an order of its own, the least first. -/
def sum (xs : List ℚ) : ℚ := addUp (xs.insertionSort (· ≤ ·))

theorem SumsTo.foldl {xs ys : List ℚ} {a : ℚ} (h : SumsTo xs a) :
    SumsTo (xs ++ ys) (ys.foldl (fun a x => round (a + x)) a) := by
  induction ys generalizing xs a with
  | nil => simpa using h
  | cons y ys ih => simpa using ih (h.add (.one y))

theorem sumsTo_addUp (xs : List ℚ) : SumsTo xs (addUp xs) := @SumsTo.foldl [] xs 0 .nil

theorem sumsTo_sum (xs : List ℚ) : SumsTo xs (sum xs) :=
  (sumsTo_addUp _).perm (List.perm_insertionSort _ xs)

/-- A sum of sums. -/
theorem SumsTo.flatMap {α : Type*} {l : List α} {v : α → ℚ} {f : α → List ℚ} {a : ℚ}
    (h : SumsTo (l.map v) a) (hf : ∀ x ∈ l, SumsTo (f x) (v x)) : SumsTo (l.flatMap f) a := by
  generalize hxs : l.map v = xs at h
  induction h generalizing l with
  | nil =>
    rw [List.map_eq_nil_iff.1 hxs]
    exact .nil
  | one x =>
    obtain ⟨y, rfl, rfl⟩ := List.map_eq_singleton_iff.1 hxs
    simpa using hf y (by simp)
  | add hx hy ihx ihy =>
    obtain ⟨l₁, l₂, rfl, h₁, h₂⟩ := List.map_eq_append_iff.1 hxs
    rw [List.flatMap_append]
    exact (ihx (fun x hx => hf x (List.mem_append_left _ hx)) h₁).add
      (ihy (fun x hx => hf x (List.mem_append_right _ hx)) h₂)
  | @perm xs _ _ hperm _ ih =>
    -- the same order of what the numbers belong to
    have hcomp : Relation.Comp (· = List.map v ·) List.Perm xs l := by
      rw [List.eq_map_comp_perm]
      show xs.Perm (l.map v)
      rwa [hxs]
    obtain ⟨l', hmap, hl'⟩ := hcomp
    exact (ih (fun x hx => hf x (hl'.mem_iff.1 hx)) hmap.symm).perm (hl'.flatMap_right f)

theorem sum_perm {xs ys : List ℚ} (h : xs.Perm ys) : sum xs = sum ys := by
  have hperm :=
    (List.perm_insertionSort (· ≤ ·) xs).trans (h.trans (List.perm_insertionSort (· ≤ ·) ys).symm)
  have hsorted :=
    List.Perm.eq_of_pairwise (fun a b _ _ => le_antisymm) (List.pairwise_insertionSort (· ≤ ·) xs)
    (List.pairwise_insertionSort (· ≤ ·) ys) hperm
  rw [sum, hsorted, sum]

end Kit.Double
