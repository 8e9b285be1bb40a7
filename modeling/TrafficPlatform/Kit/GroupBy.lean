import TrafficPlatform.Kit.Table
import Mathlib.Algebra.BigOperators.Group.List.Lemmas
import Mathlib.Algebra.GroupWithZero.Nat
import Mathlib.Data.List.Dedup
import Mathlib.Data.List.Sort
import Mathlib.Data.List.Perm.Basic

/-!
# Grouping and ordering the rows of a query

`groupBy` is `GROUP BY`, with the groups in the order in which their keys appear; `orderBy` is
`ORDER BY` with an order that has no ties. Neither the set of the groups nor an ordered result
depends on the order of the rows (`orderBy_perm`, `orderBy_groupBy_perm`), so a query sees a table
only through the rows that it selects (`Table.Agree.select_perm`).
-/

namespace Kit

variable {ρ κ σ : Type} [DecidableEq κ]

/-- `GROUP BY key`: the key of every group with its rows. -/
def groupBy (key : ρ → κ) (rows : List ρ) : List (κ × List ρ) :=
  (rows.map key).dedup.map fun k => (k, rows.filter fun r => decide (key r = k))

variable {key : ρ → κ} {rows rows' : List ρ} {g : κ × List ρ}

theorem mem_groupBy : g ∈ groupBy key rows ↔ (∃ r ∈ rows, key r = g.1) ∧
    g.2 = rows.filter fun r => decide (key r = g.1) := by
  unfold groupBy
  rw [List.mem_map]
  constructor
  · rintro ⟨k, hk, rfl⟩
    exact ⟨List.mem_map.1 (List.mem_dedup.1 hk), rfl⟩
  · rintro ⟨hkey, hrows⟩
    exact ⟨g.1, List.mem_dedup.2 (List.mem_map.2 hkey), by rw [← hrows]⟩

theorem keys_groupBy : (groupBy key rows).map (·.1) = (rows.map key).dedup := by
  unfold groupBy
  rw [List.map_map]
  exact List.map_id _

theorem nodup_keys_groupBy : ((groupBy key rows).map (·.1)).Nodup := by
  rw [keys_groupBy]
  exact List.nodup_dedup _

/-- The group of a key, if it has one. -/
theorem filter_groupBy (k : κ) : (groupBy key rows).filter (fun g => decide (g.1 = k)) =
    if rows.filter (fun r => decide (key r = k)) = [] then [] else
        [(k, rows.filter fun r => decide (key r = k))] := by
  unfold groupBy
  rw [List.filter_map]
  have hkeys : (rows.map key).dedup.filter ((fun g : κ × List ρ => decide (g.1 = k)) ∘
      fun k => (k, rows.filter fun r => decide (key r = k))) = if k ∈ rows.map key then
          [k] else [] := by
    have hdedup := List.filter_eq (l := (rows.map key).dedup) k
    rw [List.count_dedup] at hdedup
    refine hdedup.trans ?_
    split <;> rfl
  rw [hkeys]
  have hempty : rows.filter (fun r => decide (key r = k)) = [] ↔ ¬ k ∈ rows.map key := by
    rw [List.filter_eq_nil_iff, List.mem_map]
    constructor
    · rintro h ⟨r, hr, hk⟩
      exact h r hr (decide_eq_true hk)
    · exact fun h r hr hk => h ⟨r, hr, of_decide_eq_true hk⟩
  by_cases hk : k ∈ rows.map key
  · rw [if_pos hk, if_neg fun h => hempty.1 h hk]
    rfl
  · rw [if_neg hk, if_pos (hempty.2 hk)]
    rfl

/-- A sum over the rows, key by key. -/
theorem sum_by_key {M : Type} [AddCommMonoid M] {keys : List κ} {v : ρ → M} (hnodup : keys.Nodup)
    (hkeys : ∀ r ∈ rows, key r ∈ keys) :
    (rows.map v).sum =
        (keys.map fun k => ((rows.filter fun r => decide (key r = k)).map v).sum).sum := by
  induction rows with
  | nil => simp
  | cons r rows ih =>
    have ih := ih fun r' hr' => hkeys r' (List.mem_cons_of_mem _ hr')
    have hone : ∀ k, (((r :: rows).filter fun r => decide (key r = k)).map v).sum =
        (if key r = k then v r else 0) + ((rows.filter fun r => decide (key r = k)).map v).sum := by
      intro k
      rw [List.filter_cons]
      by_cases hk : key r = k <;> simp [hk]
    have hhead : (keys.map fun k => if key r = k then v r else 0).sum = v r := by
      have hfilter : keys.filter (fun k => decide (key r = k)) = [key r] := by
        simp only [eq_comm (a := key r)]
        rw [List.filter_eq, List.count_eq_one_of_mem hnodup (hkeys r List.mem_cons_self)]
        rfl
      rw [List.sum_map_ite, hfilter]
      simp
    rw [List.map_cons, List.sum_cons, ih]
    simp only [hone]
    rw [List.sum_map_add, hhead]

theorem sum_length_groupBy : ((groupBy key rows).map fun g => g.2.length).sum = rows.length := by
  have hsum : (rows.map fun _ => 1).sum = _ :=
    sum_by_key (List.nodup_dedup (rows.map key)) fun r hr => List.mem_dedup.2 (List.mem_map_of_mem hr)
  have hcount : ∀ l : List ρ, (l.map fun _ => 1).sum = l.length := fun l => by simp
  simp only [hcount] at hsum
  rw [hsum]
  unfold groupBy
  rw [List.map_map]
  rfl

theorem length_of_mem_groupBy (h : g ∈ groupBy key rows) :
    g.2.length = rows.countP fun r => decide (key r = g.1) := by
  rw [(mem_groupBy.1 h).2, List.countP_eq_length_filter]

/-! ### Order -/

/-- The list in another order: `n` says, digit by digit, where every element goes among those after
it. -/
def arrange {α : Type} (n : Nat) : List α → List α
  | [] => []
  | a :: l => (arrange (n / (l.length + 1)) l).insertIdx (n % (l.length + 1)) a

theorem arrange_perm {α : Type} (n : Nat) (l : List α) : (arrange n l).Perm l := by
  induction l generalizing n with
  | nil => exact .nil
  | cons a l ih =>
    have hplace : n % (l.length + 1) ≤ (arrange (n / (l.length + 1)) l).length := by
      rw [(ih _).length_eq]
      exact Nat.le_of_lt_succ (Nat.mod_lt _ (Nat.succ_pos _))
    exact (List.perm_insertIdx a _ hplace).trans ((ih _).cons a)

/-- `ORDER BY`. -/
def orderBy (le : ρ → ρ → Bool) (rows : List ρ) : List ρ := rows.mergeSort le

/-- What an order without ties needs. -/
structure Orders (le : ρ → ρ → Bool) (P : ρ → ρ → Prop) : Prop where
  trans : ∀ a b c, le a b = true → le b c = true → le a c = true
  total : ∀ a b, (le a b || le b a) = true
  antisymm : ∀ a b, P a b → le a b = true → le b a = true → a = b

theorem Orders.mono {le : ρ → ρ → Bool} {P P' : ρ → ρ → Prop} (h : Orders le P)
    (hP : ∀ a b, P' a b → P a b) : Orders le P' :=
  ⟨h.trans, h.total, fun a b hab => h.antisymm a b (hP a b hab)⟩

/-- The ordered rows do not depend on their order before. -/
theorem orderBy_perm {le : ρ → ρ → Bool} (hle : Orders le fun a b => a ∈ rows ∧ b ∈ rows)
    (h : rows.Perm rows') :
    orderBy le rows = orderBy le rows' := by
  unfold orderBy
  have hperm : (rows.mergeSort le).Perm (rows'.mergeSort le) :=
    ((List.mergeSort_perm _ _).trans h).trans (List.mergeSort_perm _ _).symm
  refine @List.Perm.eq_of_pairwise _ (fun a b => le a b = true) _ _ ?_
    (List.pairwise_mergeSort hle.trans hle.total _)
    (List.pairwise_mergeSort hle.trans hle.total _) hperm
  intro a b ha hb
  refine hle.antisymm a b ⟨List.mem_mergeSort.1 ha, h.mem_iff.2 (List.mem_mergeSort.1 hb)⟩

/-- Two queries with the same groups and the same answer for each, ordered by their keys. -/
theorem orderBy_groupBy_congr {ρ' : Type} {key' : ρ' → κ} {rows' : List ρ'} {f : κ × List ρ → σ}
    {f' : κ × List ρ' → σ}
    {le : σ → σ → Bool} {keyOf : σ → κ} (hkey : ∀ g, keyOf (f g) = g.1)
    (hle : Orders le fun a b => keyOf a = keyOf b → a = b)
    (hsame : ∀ k, k ∈ rows.map key ↔ k ∈ rows'.map key')
    (hf : ∀ k ∈ rows.map key, f (k, rows.filter fun r => decide (key r = k)) =
      f' (k, rows'.filter fun r => decide (key' r = k))) :
    orderBy le ((groupBy key rows).map f) = orderBy le ((groupBy key' rows').map f') := by
  refine orderBy_perm (hle.mono ?_) ?_
  · rintro a b ⟨ha, hb⟩ he
    obtain ⟨g, hg, rfl⟩ := List.mem_map.1 ha
    obtain ⟨g', hg', rfl⟩ := List.mem_map.1 hb
    rw [hkey, hkey] at he
    rw [List.inj_on_of_nodup_map nodup_keys_groupBy hg hg' he]
  · unfold groupBy
    rw [List.map_map, List.map_map]
    have hperm : (rows.map key).dedup.Perm (rows'.map key').dedup :=
      (List.perm_ext_iff_of_nodup (List.nodup_dedup _) (List.nodup_dedup _)).2 fun k => by
        rw [List.mem_dedup, List.mem_dedup, hsame]
    have hanswers : (rows.map key).dedup.map (fun k => f (k, rows.filter fun r => decide (key r = k))) =
        (rows.map key).dedup.map fun k => f' (k, rows'.filter fun r => decide (key' r = k)) :=
      List.map_congr_left fun k hk => hf k (List.mem_dedup.1 hk)
    exact (List.Perm.of_eq hanswers).trans (hperm.map _)

/-- The row before which no other goes is on every page that starts at the top. -/
theorem mem_take_orderBy {le : ρ → ρ → Bool} {P : ρ → ρ → Prop} (hle : Orders le P) {a : ρ}
    (ha : a ∈ rows) (hfirst : ∀ b ∈ rows, b ≠ a → ¬ le b a = true) {n : Nat} (hn : 0 < n) :
        a ∈ (orderBy le rows).take n := by
  have hsorted :
    (orderBy le rows).Pairwise
      fun a b => le a b = true := List.pairwise_mergeSort hle.trans hle.total _
  have hmem : ∀ b, b ∈ orderBy le rows ↔ b ∈ rows := fun b => List.mem_mergeSort
  cases hordered : orderBy le rows with
  | nil => exact absurd ((hmem a).2 ha) (by rw [hordered]; exact List.not_mem_nil)
  | cons b l =>
    rw [hordered] at hsorted
    have hb : b ∈ rows := (hmem b).1 (by rw [hordered]; exact List.mem_cons_self)
    have hal : a ∈ b :: l := by
      rw [← hordered]
      exact (hmem a).2 ha
    obtain ⟨m, rfl⟩ : ∃ m, n = m + 1 := ⟨n - 1, by omega⟩
    rw [List.take_succ_cons]
    rcases List.mem_cons.1 hal with rfl | hal
    · exact List.mem_cons_self
    · by_cases hba : b = a
      · exact hba ▸ List.mem_cons_self
      · exact absurd ((List.pairwise_cons.1 hsorted).1 a hal) (hfirst b hb hba)

/-- The ordered answers for the groups do not depend on the order of the rows. -/
theorem orderBy_groupBy_perm {f : κ × List ρ → σ} {le : σ → σ → Bool} {keyOf : σ → κ}
    (hkey : ∀ g, keyOf (f g) = g.1) (hle : Orders le fun a b => keyOf a = keyOf b → a = b)
    (h : rows.Perm rows') (hf : ∀ k l l', l.Perm l' → f (k, l) = f (k, l')) :
    orderBy le ((groupBy key rows).map f) = orderBy le ((groupBy key rows').map f) :=
  orderBy_groupBy_congr hkey hle (fun _ => (h.map key).mem_iff) fun k _ => hf k _ _ (h.filter _)

/-- `ORDER BY g`. -/
def byAsc {β : Type} [LinearOrder β] (g : ρ → β) (a b : ρ) : Bool := decide (g a ≤ g b)

theorem orders_byAsc {β : Type} [LinearOrder β] (g : ρ → β) :
    Orders (byAsc g) fun a b => g a = g b → a = b where
  trans _ _ _ hab hbc := decide_eq_true ((of_decide_eq_true hab).trans (of_decide_eq_true hbc))
  total a b := by
    rw [Bool.or_eq_true]
    exact (le_total (g a) (g b)).imp decide_eq_true decide_eq_true
  antisymm _ _ hP hab hba := hP (le_antisymm (of_decide_eq_true hab) (of_decide_eq_true hba))

/-- `ORDER BY f DESC, g`. -/
def byDesc {α β : Type} [LinearOrder α] [LinearOrder β] (f : ρ → α) (g : ρ → β) (a b : ρ) : Bool :=
  decide (f b < f a) || (decide (f b = f a) && decide (g a ≤ g b))

theorem byDesc_iff {α β : Type} [LinearOrder α] [LinearOrder β] {f : ρ → α} {g : ρ → β} {a b : ρ} :
    byDesc f g a b = true ↔ f b < f a ∨ (f b = f a ∧ g a ≤ g b) := by
  simp [byDesc]

/-- The second column breaks the ties of the first. -/
theorem orders_byDesc {α β : Type} [LinearOrder α] [LinearOrder β] (f : ρ → α) (g : ρ → β) :
    Orders (byDesc f g) fun a b => g a = g b → a = b where
  trans a b c hab hbc := by
    rw [byDesc_iff] at hab hbc ⊢
    rcases hab with hab | ⟨hab, hg⟩ <;> rcases hbc with hbc | ⟨hbc, hg'⟩
    · exact .inl (hbc.trans hab)
    · exact .inl (hbc ▸ hab)
    · exact .inl (hab ▸ hbc)
    · exact .inr ⟨hbc.trans hab, hg.trans hg'⟩
  total a b := by
    rw [Bool.or_eq_true, byDesc_iff, byDesc_iff]
    rcases lt_trichotomy (f a) (f b) with h | h | h
    · exact .inr (.inl h)
    · exact (le_total (g a) (g b)).imp (fun hg => .inr ⟨h.symm, hg⟩) fun hg => .inr ⟨h, hg⟩
    · exact .inl (.inl h)
  antisymm a b hP hab hba := by
    rw [byDesc_iff] at hab hba
    rcases hab with hab | ⟨he, hg⟩
    · rcases hba with hba | ⟨he, -⟩
      · exact absurd hab hba.asymm
      · exact absurd he hab.ne'
    · rcases hba with hba | ⟨-, hg'⟩
      · exact absurd he hba.ne'
      · exact hP (le_antisymm hg hg')

/-! ### Queries of tables that agree -/

/-- The rows of tables that agree where the query looks. -/
theorem Table.Agree.select_perm [Schema ρ] {t t' : Table ρ} {P : ρ → Prop} {q : ρ → Bool}
    (h : Table.Agree (fun a => a) P t t') (hrefl : ∀ a : ρ, Schema.clash a a = true)
    (hq : ∀ a, q a = true → P a) :
    (t.select q).Perm (t'.select q) := by
  have hnodup : ∀ t : Table ρ, (t.select q).Nodup := fun t =>
    (t.distinct.filter q).imp fun {a b} hab he => hab (by rw [← he]; exact hrefl a)
  refine (List.perm_ext_iff_of_nodup (hnodup t) (hnodup t')).2 fun a => ?_
  rw [Table.mem_select, Table.mem_select]
  exact and_congr_left fun ha => h.mem_iff (hq a ha)

end Kit
