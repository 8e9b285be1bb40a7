import Mathlib.Data.List.Dedup
import Mathlib.Data.List.Nodup
import Mathlib.Data.List.Pairwise
import Mathlib.Data.List.Perm.Basic
import Mathlib.Data.List.Sort
import Mathlib.Order.Basic

/-!
# Pages of an order with ties

`ORDER BY key DESC` leaves the order of rows with one key open, and each query may order them in its
own way (`Ordered`). `pages_perm_iff` says for which rows and page sizes the pages of independent
queries hold every row once: the rows of no key may lie on two pages.
-/

namespace Kit

variable {ρ α : Type} [LinearOrder α] {key : ρ → α} {rows out : List ρ} {a b : ρ} {L n : Nat}

/-- An answer of `ORDER BY key DESC`. -/
structure Ordered (key : ρ → α) (rows out : List ρ) : Prop where
  perm : out.Perm rows
  sorted : out.Pairwise fun a b => key b ≤ key a

/-- `LIMIT … OFFSET …`. -/
def page (limit offset : Nat) (out : List ρ) : List ρ := (out.drop offset).take limit

theorem exists_ordered (key : ρ → α) (rows : List ρ) : ∃ out, Ordered key rows out := by
  refine ⟨rows.mergeSort fun a b => decide (key b ≤ key a), List.mergeSort_perm _ _, ?_⟩
  refine (@List.pairwise_mergeSort _ (fun a b => decide (key b ≤ key a)) ?_ ?_ rows).imp
    of_decide_eq_true
  · exact fun a b c hab hbc => decide_eq_true ((of_decide_eq_true hbc).trans (of_decide_eq_true hab))
  · intro a b
    rw [Bool.or_eq_true]
    exact (le_total (key b) (key a)).imp decide_eq_true decide_eq_true

theorem Ordered.take_drop (h : Ordered key rows out) (ha : a ∈ out.take n) (hb : b ∈ out.drop n) :
    key b ≤ key a := by
  have hsorted := h.sorted
  rw [← List.take_append_drop n out] at hsorted
  exact (List.pairwise_append.1 hsorted).2.2 a ha b hb

/-! ### Positions -/

/-- The number of rows that come before those with the key of `a`. -/
def above (key : ρ → α) (rows : List ρ) (a : ρ) : Nat := rows.countP fun b => decide (key a < key b)

/-- The number of rows up to the last one with the key of `a`. -/
def atLeast (key : ρ → α) (rows : List ρ) (a : ρ) : Nat := rows.countP fun b => decide (key a ≤ key b)

/-- The rows with the key of `a` lie on one page. -/
def OnOnePage (key : ρ → α) (L : Nat) (rows : List ρ) (a : ρ) : Prop :=
  above key rows a / L = (atLeast key rows a - 1) / L

theorem mem_page (l₁ l₂ : List ρ) (a : ρ) {k : Nat} (hk : l₁.length / L = k) (hL : 0 < L) :
    a ∈ page L (k * L) (l₁ ++ a :: l₂) := by
  have hle : k * L ≤ l₁.length := hk ▸ Nat.div_mul_le_self _ _
  have hlt : l₁.length < k * L + L := by
    have := Nat.lt_div_mul_add (a := l₁.length) hL
    rwa [hk] at this
  unfold page
  rw [List.drop_append_of_le_length hle, List.take_append, List.length_drop]
  refine List.mem_append_right _ ?_
  obtain ⟨m, hm⟩ : ∃ m, L - (l₁.length - k * L) = m + 1 := ⟨L - (l₁.length - k * L) - 1, by omega⟩
  rw [hm]
  exact List.mem_cons_self

/-- A row of a page stands at a position of the page. -/
theorem exists_of_mem_page {k : Nat} (h : a ∈ page L (k * L) out) (hL : 0 < L) :
    ∃ l₁ l₂, out = l₁ ++ a :: l₂ ∧ l₁.length / L = k := by
  obtain ⟨m₁, m₂, hm⟩ := List.append_of_mem h
  have hlen : m₁.length < L := by
    have := congrArg List.length hm
    unfold page at this
    rw [List.length_take, List.length_append, List.length_cons] at this
    omega
  have hoffset : k * L ≤ out.length := by
    by_contra hgt
    unfold page at h
    rw [List.drop_eq_nil_of_le (by omega)] at h
    simp at h
  have hsplit : out = out.take (k * L) ++ (m₁ ++ a :: m₂ ++ (out.drop (k * L)).drop L) := by
    rw [← hm]
    unfold page
    rw [List.take_append_drop, List.take_append_drop]
  refine ⟨out.take (k * L) ++ m₁, m₂ ++ (out.drop (k * L)).drop L, hsplit.trans ?_, ?_⟩
  · rw [List.append_assoc, List.append_assoc, List.cons_append]
  · rw [List.length_append, List.length_take, Nat.min_eq_left hoffset, Nat.add_comm,
      Nat.add_mul_div_right _ _ hL,
      Nat.div_eq_of_lt hlen, Nat.zero_add]

theorem page_sublist (L k : Nat) (out : List ρ) : (page L k out).Sublist out :=
  (List.take_sublist _ _).trans (List.drop_sublist _ _)

section
variable {l₁ l₂ : List ρ}

theorem above_perm (h : out.Perm rows) (a : ρ) : above key out a = above key rows a := h.countP_eq _

theorem atLeast_perm (h : out.Perm rows) (a : ρ) : atLeast key out a = atLeast key rows a :=
  h.countP_eq _

/-- A row stands behind those with a later key and before those with an earlier one. -/
theorem Ordered.position (h : Ordered key rows (l₁ ++ a :: l₂)) : above key rows a ≤ l₁.length ∧
    l₁.length < atLeast key rows a := by
  obtain ⟨-, hrest, hbefore⟩ := List.pairwise_append.1 h.sorted
  have hafter := (List.pairwise_cons.1 hrest).1
  rw [← above_perm h.perm, ← atLeast_perm h.perm]
  unfold above atLeast
  rw [List.countP_append, List.countP_append]
  constructor
  · have hnone : (a :: l₂).countP (fun b => decide (key a < key b)) = 0 := by
      refine List.countP_eq_zero.2 fun b hb => ?_
      rw [decide_eq_true_iff, not_lt]
      rcases List.mem_cons.1 hb with rfl | hb
      · exact le_refl _
      · exact hafter b hb
    rw [hnone, Nat.add_zero]
    exact List.countP_le_length
  · have hall : l₁.countP (fun b => decide (key a ≤ key b)) = l₁.length :=
      List.countP_eq_length.2 fun b hb => decide_eq_true (hbefore b hb a List.mem_cons_self)
    have hself : 0 < (a :: l₂).countP fun b => decide (key a ≤ key b) :=
      List.countP_pos_iff.2 ⟨a, List.mem_cons_self, decide_eq_true (le_refl _)⟩
    omega

/-- The row at a position among those with the key of `a` has that key. -/
theorem Ordered.key_eq (h : Ordered key rows (l₁ ++ b :: l₂)) (habove : above key rows a ≤ l₁.length)
    (hatLeast : l₁.length < atLeast key rows a) : key b = key a := by
  obtain ⟨-, hrest, hbefore⟩ := List.pairwise_append.1 h.sorted
  have hafter := (List.pairwise_cons.1 hrest).1
  rw [← above_perm h.perm] at habove
  rw [← atLeast_perm h.perm] at hatLeast
  unfold above at habove
  unfold atLeast at hatLeast
  rw [List.countP_append] at habove hatLeast
  rcases lt_trichotomy (key b) (key a) with hlt | heq | hgt
  · -- all rows with the key of `a` or a later one come before
    have hnone : (b :: l₂).countP (fun c => decide (key a ≤ key c)) = 0 := by
      refine List.countP_eq_zero.2 fun c hc => ?_
      rw [decide_eq_true_iff, not_le]
      rcases List.mem_cons.1 hc with rfl | hc
      · exact hlt
      · exact (hafter c hc).trans_lt hlt
    have hle : l₁.countP (fun c => decide (key a ≤ key c)) ≤ l₁.length := List.countP_le_length
    omega
  · exact heq
  · have hall : l₁.countP (fun c => decide (key a < key c)) = l₁.length :=
      List.countP_eq_length.2
        fun c hc => decide_eq_true (hgt.trans_le (hbefore c hc b List.mem_cons_self))
    have hself : 0 < (b :: l₂).countP fun c => decide (key a < key c) :=
      List.countP_pos_iff.2 ⟨b, List.mem_cons_self, decide_eq_true hgt⟩
    omega

end

/-! ### Independent queries -/

/-- If no key is on two pages, a page has the same rows in every answer. -/
theorem Ordered.mem_page_iff (h : Ordered key rows out) (hL : 0 < L)
    (hone : ∀ a ∈ rows, OnOnePage key L rows a) {k : Nat} :
    a ∈ page L (k * L) out ↔ a ∈ rows ∧ above key rows a / L = k := by
  have hpage : ∀ l₁ l₂, out = l₁ ++ a :: l₂ → above key rows a / L = l₁.length / L := by
    rintro l₁ l₂ rfl
    obtain ⟨habove, hatLeast⟩ := h.position
    have ha := h.perm.mem_iff.1 (List.mem_append_right l₁ List.mem_cons_self)
    refine le_antisymm (Nat.div_le_div_right habove)
      ((Nat.div_le_div_right ?_).trans_eq (hone a ha).symm)
    exact Nat.le_sub_one_of_lt hatLeast
  constructor
  · intro hmem
    obtain ⟨l₁, l₂, hsplit, hk⟩ := exists_of_mem_page hmem hL
    exact ⟨h.perm.mem_iff.1 ((page_sublist _ _ _).subset hmem), (hpage l₁ l₂ hsplit).trans hk⟩
  · rintro ⟨ha, hk⟩
    obtain ⟨l₁, l₂, hsplit⟩ := List.append_of_mem (h.perm.mem_iff.2 ha)
    rw [hsplit]
    exact mem_page l₁ l₂ a ((hpage l₁ l₂ hsplit).symm.trans hk) hL

theorem above_lt_length (key : ρ → α) (ha : a ∈ rows) : above key rows a < rows.length := by
  obtain ⟨out, hout⟩ := exists_ordered key rows
  obtain ⟨l₁, l₂, rfl⟩ := List.append_of_mem (hout.perm.mem_iff.2 ha)
  have hlen := hout.perm.length_eq
  rw [List.length_append, List.length_cons] at hlen
  have := hout.position.1
  omega

theorem Ordered.swap {l₁ l₂ : List ρ} (h : Ordered key rows (l₁ ++ a :: b :: l₂))
    (heq : key a = key b) :
    Ordered key rows (l₁ ++ b :: a :: l₂) := by
  refine ⟨((List.Perm.swap a b l₂).append_left l₁).trans h.perm, ?_⟩
  have hkeys : (l₁ ++ b :: a :: l₂).map key = (l₁ ++ a :: b :: l₂).map key := by simp [heq]
  have hsorted :
    ((l₁ ++ a :: b :: l₂).map key).Pairwise fun x y => y ≤ x := List.pairwise_map.2 h.sorted
  rw [← hkeys] at hsorted
  exact List.pairwise_map.1 hsorted

/-- The pages of independent queries hold every row once, whatever the orders, exactly if no key is
on two pages. -/
theorem pages_perm_iff (hnodup : rows.Nodup) (hL : 0 < L) (hn : rows.length ≤ n * L) :
    (∀ answers : Nat → List ρ, (∀ k, Ordered key rows (answers k)) →
      ((List.range n).flatMap fun k => page L (k * L) (answers k)).Perm rows) ↔ ∀ a ∈ rows,
          OnOnePage key L rows a := by
  constructor
  · intro h a ha
    by_contra hno
    obtain ⟨out, hout⟩ := exists_ordered key rows
    set j := above key rows a / L
    obtain ⟨m₁, m₂, hsplit⟩ := List.append_of_mem (hout.perm.mem_iff.2 ha)
    obtain ⟨habove, hatLeast⟩ := (hsplit ▸ hout).position
    have hlast : atLeast key rows a ≤ rows.length := List.countP_le_length
    -- the first position of the next page is one of the key's
    have hj : j < (atLeast key rows a - 1) / L := lt_of_le_of_ne (Nat.div_le_div_right (by omega)) hno
    have hnext : (j + 1) * L ≤ atLeast key rows a - 1 := (Nat.le_div_iff_mul_le hL).1 hj
    have hfirst : above key rows a < (j + 1) * L := (Nat.div_lt_iff_lt_mul hL).1 (Nat.lt_succ_self j)
    have hlen := hout.perm.length_eq
    obtain ⟨l₁, t₁, t₂, l₂, rfl, hl₁⟩ : ∃ l₁ t₁ t₂ l₂, out = l₁ ++ t₁ :: t₂ :: l₂ ∧
        l₁.length = (j + 1) * L - 1 := by
      have hrest : 2 ≤ (out.drop ((j + 1) * L - 1)).length := by
        rw [List.length_drop]
        omega
      obtain ⟨t₁, rest, ht₁⟩ :=
        List.exists_cons_of_length_pos (by omega : 0 < (out.drop ((j + 1) * L - 1)).length)
      rw [ht₁, List.length_cons] at hrest
      obtain ⟨t₂, l₂, rfl⟩ := List.exists_cons_of_length_pos (by omega : 0 < rest.length)
      refine ⟨out.take ((j + 1) * L - 1), t₁, t₂, l₂, ?_, ?_⟩
      · rw [← ht₁, List.take_append_drop]
      · rw [List.length_take]
        omega
    have hkey₁ : key t₁ = key a := hout.key_eq (by omega) (by omega)
    have hkey₂ : key t₂ = key a := by
      have hout' : Ordered key rows ((l₁ ++ [t₁]) ++ t₂ :: l₂) := by simpa using hout
      exact hout'.key_eq (by rw [List.length_append, List.length_singleton]; omega)
        (by rw [List.length_append, List.length_singleton]; omega)
    have hswap := hout.swap (hkey₁.trans hkey₂.symm)
    have hperm := h (fun k => if k ≤ j then l₁ ++ t₁ :: t₂ :: l₂ else l₁ ++ t₂ :: t₁ :: l₂) fun k => by
      split
      · exact hout
      · exact hswap
    have hdisjoint := (List.nodup_flatMap.1 (hperm.nodup_iff.2 hnodup)).2
    have hjn : j + 1 < n := by
      by_contra hge
      have := Nat.mul_le_mul_right L (not_lt.1 hge)
      omega
    have hsymm : Std.Symm (Function.onFun List.Disjoint fun k =>
        page L (k * L) (if k ≤ j then l₁ ++ t₁ :: t₂ :: l₂ else l₁ ++ t₂ :: t₁ :: l₂)) :=
          ⟨fun _ _ h => h.symm⟩
    have hthis : t₁ ∈ page L (j * L)
        (if j ≤ j then l₁ ++ t₁ :: t₂ :: l₂ else l₁ ++ t₂ :: t₁ :: l₂) := by
      rw [if_pos le_rfl]
      refine mem_page l₁ _ t₁ ?_ hL
      rw [hl₁, Nat.div_eq_iff hL, Nat.succ_mul]
      omega
    have hother :
        t₁ ∈ page L ((j + 1) * L)
            (if j + 1 ≤ j then l₁ ++ t₁ :: t₂ :: l₂ else l₁ ++ t₂ :: t₁ :: l₂) := by
      have hpos : (l₁ ++ [t₂]).length / L = j + 1 := by
        rw [List.length_append, List.length_singleton, hl₁, Nat.div_eq_iff hL, Nat.succ_mul]
        omega
      rw [if_neg (by omega)]
      simpa using mem_page (l₁ ++ [t₂]) l₂ t₁ hpos hL
    exact hdisjoint.forall (List.mem_range.2 (by omega : j < n)) (List.mem_range.2 hjn)
      (by omega) hthis hother
  · intro hone answers hanswers
    have hmem : ∀ k a, a ∈ page L (k * L) (answers k) ↔ a ∈ rows ∧ above key rows a / L = k :=
      fun k a => (hanswers k).mem_page_iff hL hone
    refine (List.perm_ext_iff_of_nodup (List.nodup_flatMap.2 ⟨fun k _ => ?_, ?_⟩) hnodup).2 fun a => ?_
    · exact ((hanswers k).perm.nodup_iff.2 hnodup).sublist (page_sublist _ _ _)
    · refine List.nodup_range.imp fun {k k'} hne a hk hk' => hne ?_
      rw [← ((hmem k a).1 hk).2, ((hmem k' a).1 hk').2]
    · rw [List.mem_flatMap]
      constructor
      · rintro ⟨k, -, hk⟩
        exact ((hmem k a).1 hk).1
      · intro ha
        refine ⟨above key rows a / L, List.mem_range.2 ?_, (hmem _ a).2 ⟨ha, rfl⟩⟩
        exact (Nat.div_lt_iff_lt_mul hL).2 ((above_lt_length key ha).trans_le hn)

end Kit
