import Mathlib.Algebra.GroupWithZero.Nat
import Mathlib.Data.List.Basic
import Mathlib.Data.List.Pairwise

/-!
# Tables with unique constraints

A table is a list of rows in which no two rows clash; `Schema.clash` collects the primary key and
the unique constraints of the row type. The constraint is a field of `Table`, so a table that
violates it cannot be built: an insert that would is refused (`Table.admits`), and an update may
only change columns no constraint looks at.
-/

namespace Kit

/-- The unique constraints of a row type: `clash a b` when some constraint forbids both rows. -/
class Schema (ρ : Type) where
  clash : ρ → ρ → Bool
  symm : ∀ a b, clash a b = true → clash b a = true

/-- A table: its rows, no two of which clash. -/
structure Table (ρ : Type) [Schema ρ] where
  rows : List ρ
  distinct : rows.Pairwise fun a b => ¬ Schema.clash a b = true

namespace Table

variable {ρ : Type} [Schema ρ] {t : Table ρ} {a b r : ρ} {p q : ρ → Bool}

/-- The table without rows. -/
def empty : Table ρ := ⟨[], List.Pairwise.nil⟩

/-- `SELECT … WHERE p` of at most one row (`scalar_one_or_none`). -/
def one (t : Table ρ) (p : ρ → Bool) : Option ρ := t.rows.find? p

/-- `SELECT … WHERE p`. -/
def select (t : Table ρ) (p : ρ → Bool) : List ρ := t.rows.filter p

/-- No constraint forbids adding `r`. -/
def admits (t : Table ρ) (r : ρ) : Bool := t.rows.all fun a => !Schema.clash a r

/-- `INSERT`; a row that a constraint forbids is not added. -/
def insert (t : Table ρ) (r : ρ) : Table ρ :=
  if h : t.admits r = true then
    ⟨t.rows ++ [r], List.pairwise_append.2 ⟨t.distinct, List.pairwise_singleton _ _, fun a ha b hb => by
      rw [List.mem_singleton.1 hb]
      simpa using List.all_eq_true.1 h a ha⟩⟩
  else t

/-- `UPDATE … SET f WHERE p`, for an `f` that leaves the constrained columns alone. -/
def update (t : Table ρ) (p : ρ → Bool) (f : ρ → ρ)
    (hf : ∀ a b, Schema.clash (f a) b = Schema.clash a b) : Table ρ where
  rows := t.rows.map fun a => if p a then f a else a
  distinct := by
    have hg : ∀ a b, Schema.clash (if p a then f a else a) b = Schema.clash a b := by
      intro a b; split
      · exact hf a b
      · rfl
    refine List.pairwise_map.2 (t.distinct.imp fun {a b} hab hc => hab ?_)
    rw [hg] at hc
    have hc' := Schema.symm _ _ hc
    rw [hg] at hc'
    exact Schema.symm _ _ hc'

/-- `DELETE … WHERE p`. -/
def delete (t : Table ρ) (p : ρ → Bool) : Table ρ :=
  ⟨t.rows.filter fun a => !p a, t.distinct.filter _⟩

theorem ext_rows {t t' : Table ρ} (h : t.rows = t'.rows) : t = t' := by
  cases t
  cases t'
  cases h
  rfl

@[simp] theorem rows_empty : (empty : Table ρ).rows = [] := rfl

theorem mem_of_one (h : t.one p = some r) : r ∈ t.rows := List.mem_of_find?_eq_some h

theorem pred_of_one (h : t.one p = some r) : p r = true := List.find?_some h

theorem one_eq_none : t.one p = none ↔ ∀ r ∈ t.rows, ¬ p r = true := by
  simp [one]

theorem mem_select : r ∈ t.select p ↔ r ∈ t.rows ∧ p r = true := List.mem_filter

theorem admits_iff : t.admits r = true ↔ ∀ a ∈ t.rows, ¬ Schema.clash a r = true := by
  simp [admits]

theorem eq_of_clash (ha : a ∈ t.rows) (hb : b ∈ t.rows) (h : Schema.clash a b = true) : a = b := by
  by_contra hne
  have hsymm : Std.Symm fun a b : ρ => ¬ Schema.clash a b = true :=
    ⟨fun x y hxy hyx => hxy (Schema.symm _ _ hyx)⟩
  exact t.distinct.forall ha hb hne h

theorem one_eq_some (ha : a ∈ t.rows) (hp : p a = true)
    (h : ∀ b, p b = true → Schema.clash b a = true) : t.one p = some a := by
  cases hf : t.one p with
  | none => exact absurd hp (one_eq_none.1 hf a ha)
  | some b => rw [eq_of_clash (mem_of_one hf) ha (h b (pred_of_one hf))]

theorem one_iff (h : ∀ a b, p a = true → p b = true → Schema.clash a b = true) :
    t.one p = some a ↔ a ∈ t.rows ∧ p a = true := by
  constructor
  · exact fun ha => ⟨mem_of_one ha, pred_of_one ha⟩
  · exact fun ha => one_eq_some ha.1 ha.2 fun b hb => h b a hb ha.2

theorem select_eq_toList (h : ∀ a b, p a = true → p b = true → Schema.clash a b = true) :
    t.select p = (t.one p).toList := by
  unfold select one
  rw [← List.head?_filter]
  have hdistinct := t.distinct.filter p
  cases hf : t.rows.filter p with
  | nil => rfl
  | cons a l =>
    cases l with
    | nil => rfl
    | cons b l =>
      rw [hf] at hdistinct
      have hmem : ∀ c ∈ a :: b :: l, p c = true := fun c hc => (List.mem_filter.1 (hf ▸ hc)).2
      have hab := h a b (hmem a (by simp)) (hmem b (by simp))
      exact absurd hab ((List.pairwise_cons.1 hdistinct).1 b List.mem_cons_self)

theorem rows_insert (h : t.admits r = true) : (t.insert r).rows = t.rows ++ [r] := by
  simp [insert, h]

theorem insert_of_not_admits (h : ¬ t.admits r = true) : t.insert r = t := by
  simp [insert, h]

theorem mem_insert (h : t.admits r = true) : a ∈ (t.insert r).rows ↔ a ∈ t.rows ∨ a = r := by
  simp [rows_insert h]

theorem mem_insert_iff : a ∈ (t.insert r).rows ↔ a ∈ t.rows ∨ (r = a ∧ t.admits a = true) := by
  by_cases h : t.admits r = true
  · rw [mem_insert h]
    refine or_congr_right ⟨fun e => ⟨e.symm, e ▸ h⟩, fun e => e.1.symm⟩
  · rw [insert_of_not_admits h]
    exact ⟨.inl, fun h' => h'.elim id fun e => absurd (e.1 ▸ e.2) h⟩

theorem mem_insert_of_mem (ha : a ∈ t.rows) : a ∈ (t.insert r).rows := by
  by_cases h : t.admits r = true
  · exact (mem_insert h).2 (.inl ha)
  · rwa [insert_of_not_admits h]

theorem mem_or_eq_of_mem_insert (ha : a ∈ (t.insert r).rows) : a ∈ t.rows ∨ a = r := by
  by_cases h : t.admits r = true
  · exact (mem_insert h).1 ha
  · exact .inl (by rwa [insert_of_not_admits h] at ha)

section
variable {f : ρ → ρ} {hf : ∀ a b, Schema.clash (f a) b = Schema.clash a b}

theorem mem_update : b ∈ (t.update p f hf).rows ↔ ∃ a ∈ t.rows, (if p a then f a else a) = b :=
  List.mem_map

theorem mem_update_of_mem (ha : a ∈ t.rows) :
    (if p a then f a else a) ∈ (t.update p f hf).rows :=
  mem_update.2 ⟨a, ha, rfl⟩

end

theorem mem_delete : r ∈ (t.delete p).rows ↔ r ∈ t.rows ∧ ¬ p r = true := by
  simp [delete]

theorem delete_delete (t : Table ρ) (p q : ρ → Bool) :
    (t.delete p).delete q = t.delete fun a => p a || q a := by
  refine ext_rows (List.filter_filter.trans (List.filter_congr fun a _ => ?_))
  rw [Bool.not_or, Bool.and_comm]

/-! ### Selections that a write leaves alone -/

theorem select_congr (h : ∀ a ∈ t.rows, p a = q a) : t.select p = t.select q := List.filter_congr h

theorem select_insert (h : ¬ p r = true) : (t.insert r).select p = t.select p := by
  by_cases hr : t.admits r = true
  · simp [select, rows_insert hr, h]
  · rw [insert_of_not_admits hr]

theorem select_delete (h : ∀ a ∈ t.rows, p a = true → ¬ q a = true) :
    (t.delete q).select p = t.select p := by
  unfold select delete
  dsimp only
  rw [List.filter_filter]
  refine List.filter_congr fun a ha => ?_
  cases hp : p a with
  | false => rfl
  | true => simp [h a ha hp]

/-- The selection after an `UPDATE`. -/
theorem select_update {f : ρ → ρ} (h : ∀ a ∈ t.rows, q a = true → ¬ p a = true ∧ ¬ p (f a) = true) :
    (t.rows.map fun a => if q a then f a else a).filter p = t.select p := by
  rw [List.filter_map]
  have hkeep : ∀ a ∈ t.rows.filter p, (if q a then f a else a) = a := by
    intro a ha
    obtain ⟨hmem, hp⟩ := List.mem_filter.1 ha
    exact if_neg fun hq => (h a hmem hq).1 hp
  have hsame : t.rows.filter (p ∘ fun a => if q a then f a else a) = t.rows.filter p := by
    refine List.filter_congr fun a ha => ?_
    by_cases hq : q a = true
    · simp only [Function.comp_apply, if_pos hq]
      rw [Bool.eq_iff_iff]
      exact ⟨fun hp => absurd hp (h a ha hq).2, fun hp => absurd hp (h a ha hq).1⟩
    · simp only [Function.comp_apply, if_neg hq]
  rw [hsame]
  exact (List.map_congr_left hkeep).trans (List.map_id _)

/-! ### Sums over the rows -/

theorem sum_insert {g : ρ → Nat} (h : t.admits r = true) :
    (((t.insert r).select q).map g).sum = ((t.select q).map g).sum + if q r then g r else 0 := by
  unfold select
  rw [rows_insert h, List.filter_append, List.map_append, List.sum_append]
  congr 1
  cases hq : q r <;> simp [hq]

/-- An update of one row. -/
theorem sum_update {f : ρ → ρ} {hf : ∀ a b, Schema.clash (f a) b = Schema.clash a b} {g : ρ → Nat}
    {c : Nat} (ha : a ∈ t.rows) (hp : p a = true) (hu : ∀ b, p b = true → Schema.clash b a = true)
    (hq : ∀ b, q (f b) = q b) (hg : ∀ b, g (f b) = g b + c) :
    (((t.update p f hf).select q).map g).sum = ((t.select q).map g).sum + if q a then c else 0 := by
  obtain ⟨l₁, l₂, hrows⟩ := List.append_of_mem ha
  have hdistinct := t.distinct
  rw [hrows, List.pairwise_append, List.pairwise_cons] at hdistinct
  obtain ⟨-, ⟨hafter, -⟩, hbefore⟩ := hdistinct
  have h₁ : ∀ b ∈ l₁, ¬ p b = true := fun b hb hpb => hbefore b hb a List.mem_cons_self (hu b hpb)
  have h₂ : ∀ b ∈ l₂, ¬ p b = true := fun b hb hpb => hafter b hb (Schema.symm _ _ (hu b hpb))
  have hkeep : ∀ l : List ρ, (∀ b ∈ l, ¬ p b = true) → l.map (fun b => if p b then f b else b) = l := by
    intro l hl
    refine (List.map_congr_left fun b hb => ?_).trans (List.map_id l)
    rw [if_neg (hl b hb)]
    rfl
  unfold select update
  dsimp only
  rw [hrows, List.map_append, List.map_cons, hkeep l₁ h₁, hkeep l₂ h₂, if_pos hp]
  simp only [List.filter_append, List.map_append, List.sum_append, List.filter_cons, hq]
  split
  · simp only [List.map_cons, List.sum_cons, hg]
    omega
  · rfl

/-! ### Tables that agree on some rows -/

/-- The tables do not differ in what `π` shows of a row, where it satisfies `P`. -/
def Agree {σ : Type} (π : ρ → σ) (P : σ → Prop) (t t' : Table ρ) : Prop :=
  ∀ x, P x → ((∃ a ∈ t.rows, π a = x) ↔ ∃ a ∈ t'.rows, π a = x)

namespace Agree

variable {σ : Type} {π : ρ → σ} {P : σ → Prop} {P' : ρ → Prop} {t' : Table ρ} {f : ρ → ρ}
  {hf : ∀ a b, Schema.clash (f a) b = Schema.clash a b}

theorem refl (π : ρ → σ) (P : σ → Prop) (t : Table ρ) : Agree π P t t := fun _ _ => Iff.rfl

theorem trans {t'' : Table ρ} (h : Agree π P t t') (h' : Agree π P t' t'') : Agree π P t t'' :=
  fun x hx => (h x hx).trans (h' x hx)

theorem symm (h : Agree π P t t') : Agree π P t' t := fun x hx => (h x hx).symm

theorem mem_iff (h : Agree (fun a => a) P' t t') (ha : P' a) : a ∈ t.rows ↔ a ∈ t'.rows := by
  have := h a ha
  simpa using this

theorem insert_other (h : ¬ P (π r)) : Agree π P t (t.insert r) := by
  intro x hx
  constructor
  · rintro ⟨a, ha, he⟩
    exact ⟨a, mem_insert_of_mem ha, he⟩
  · rintro ⟨a, ha, rfl⟩
    rcases mem_or_eq_of_mem_insert ha with ha | rfl
    · exact ⟨a, ha, rfl⟩
    · exact absurd hx h

theorem insert_same (h : Agree π P t t') (hr : t.admits r = t'.admits r) :
    Agree π P (t.insert r) (t'.insert r) := by
  intro x hx
  by_cases hadmits : t.admits r = true
  · rw [rows_insert hadmits, rows_insert (hr ▸ hadmits)]
    simp only [List.mem_append, List.mem_singleton, or_and_right, exists_or, h x hx]
  · rw [insert_of_not_admits hadmits, insert_of_not_admits (hr ▸ hadmits)]
    exact h x hx

theorem update_keep (hπ : ∀ a, π (f a) = π a) : Agree π P t (t.update p f hf) := by
  have hg : ∀ a, π (if p a then f a else a) = π a := by
    intro a
    split
    · exact hπ a
    · rfl
  intro x _
  constructor
  · rintro ⟨a, ha, he⟩
    exact ⟨_, mem_update_of_mem ha, (hg a).trans he⟩
  · rintro ⟨_, hb, he⟩
    obtain ⟨a, ha, rfl⟩ := mem_update.1 hb
    exact ⟨a, ha, (hg a).symm.trans he⟩

theorem update_keep_same (h : Agree π P t t') (hπ : ∀ a, π (f a) = π a) :
    Agree π P (t.update p f hf) (t'.update p f hf) :=
  ((update_keep hπ).symm.trans h).trans (update_keep hπ)

theorem update_other (hp : ∀ a, p a = true → ¬ P' a ∧ ¬ P' (f a)) :
    Agree (fun a => a) P' t (t.update p f hf) := by
  intro x hx
  constructor
  · rintro ⟨a, ha, rfl⟩
    exact ⟨a, mem_update.2 ⟨a, ha, if_neg fun h => (hp a h).1 hx⟩, rfl⟩
  · rintro ⟨_, hb, rfl⟩
    obtain ⟨a, ha, rfl⟩ := mem_update.1 hb
    split at hx
    · exact absurd hx (hp a ‹_›).2
    · exact ⟨a, ha, (if_neg ‹_›).symm⟩

theorem update_same (h : Agree (fun a => a) P' t t') (hp : ∀ a, p a = true → P' a) :
    Agree (fun a => a) P' (t.update p f hf) (t'.update p f hf) := by
  have hP : ∀ a, P' (if p a then f a else a) → P' a := by
    intro a ha
    split at ha
    · exact hp a ‹_›
    · exact ha
  intro x hx
  constructor
  · rintro ⟨_, hb, rfl⟩
    obtain ⟨a, ha, rfl⟩ := mem_update.1 hb
    exact ⟨_, mem_update_of_mem ((h.mem_iff (hP a hx)).1 ha), rfl⟩
  · rintro ⟨_, hb, rfl⟩
    obtain ⟨a, ha, rfl⟩ := mem_update.1 hb
    exact ⟨_, mem_update_of_mem ((h.mem_iff (hP a hx)).2 ha), rfl⟩

theorem exists_iff {C : σ → Prop} (h : Agree π P t t') (hC : ∀ x, C x → P x) :
    (∃ a ∈ t.rows, C (π a)) ↔ ∃ a ∈ t'.rows, C (π a) := by
  constructor
  · rintro ⟨a, ha, hc⟩
    obtain ⟨b, hb, he⟩ := (h _ (hC _ hc)).1 ⟨a, ha, rfl⟩
    exact ⟨b, hb, he ▸ hc⟩
  · rintro ⟨a, ha, hc⟩
    obtain ⟨b, hb, he⟩ := (h _ (hC _ hc)).2 ⟨a, ha, rfl⟩
    exact ⟨b, hb, he ▸ hc⟩

theorem admits_eq {C : σ → Prop} (h : Agree π P t t') (hr : ∀ a, Schema.clash a r = true ↔ C (π a))
    (hC : ∀ x, C x → P x) :
    t.admits r = t'.admits r := by
  have hexists := h.exists_iff hC
  rw [Bool.eq_iff_iff, admits_iff, admits_iff]
  simp only [hr]
  constructor
  · exact fun hall a ha hc => (hexists.2 ⟨a, ha, hc⟩).elim fun b hb => hall b hb.1 hb.2
  · exact fun hall a ha hc => (hexists.1 ⟨a, ha, hc⟩).elim fun b hb => hall b hb.1 hb.2

theorem one_eq (h : Agree (fun a => a) P' t t') (hp : ∀ a, p a = true → P' a)
    (hu : ∀ a b, p a = true → p b = true → Schema.clash a b = true) : t.one p = t'.one p := by
  ext a
  rw [one_iff hu, one_iff hu]
  exact and_congr_left fun hpa => h.mem_iff (hp a hpa)

end Agree

end Table

end Kit
