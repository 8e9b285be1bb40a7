import TrafficPlatform.Kit.Interleave
import Mathlib.Algebra.BigOperators.Group.List.Basic

/-!
# Shares of the world

A rule for interleaved requests that take something from the world and give it back later: every
request holds a share, an element of a commutative monoid, and the world accounts for the sum of all
shares (`Ledger.inv`). A request is safe if each of its steps changes the world and its own share
together, whatever the others hold (`Prog.Shares`). Then the world accounts for the shares in every
state of every run, and in a quiet state these are the shares that the successful requests have
kept.

The requests of this rule write no rows; the database is the same throughout.
-/

namespace Kit

variable {B : Backend} {ρ α β : Type} {G : Type} [AddCommMonoid G]

/-- What the world says about the sum of the shares, and the steps for which that is claimed. -/
structure Ledger (B : Backend) (G : Type) where
  ok : B.Env → B.World → Prop
  inv : B.World → G → Prop

variable {L : Ledger B G} {db : B.Db}

/-- A program that holds the share `g` keeps the account: `Q` is the share it holds when it returns;
when it raises it holds nothing. -/
def Prog.Shares (L : Ledger B G) (db : B.Db) (Q : α → G → Prop) : Prog B α → G → Prop
  | ret a, g => Q a g
  | raise _, g => g = 0
  | stmt f k, g => ∀ lk, (∀ b ops, f lk db = .ok (b, ops) → ops = [] ∧ (k b).Shares L db Q g) ∧
      ∀ e, f lk db = .error e → g = 0
  | io f k, g => ∀ env w rest, L.ok env w → L.inv w (rest + g) →
      ∃ g', L.inv (f env w).2 (rest + g') ∧ (k (f env w).1).Shares L db Q g'
  | assign _ _, _ => False
  | flush p, g => p.Shares L db Q g

section
variable {Q Q' : α → G → Prop} {R : β → G → Prop} {p : Prog B α} {k : α → Prog B β} {g : G}

theorem Prog.Shares.mono (h : p.Shares L db Q g) (hQ : ∀ a g, Q a g → Q' a g) : p.Shares L db Q' g := by
  induction p generalizing g with
  | ret a => exact hQ a g h
  | raise e => exact h
  | stmt f k ih => exact fun lk =>
    ⟨fun b ops hf => ⟨((h lk).1 b ops hf).1, ih b ((h lk).1 b ops hf).2⟩, (h lk).2⟩
  | io f k ih =>
    intro env w rest hok hinv
    obtain ⟨g', hinv', hk⟩ := h env w rest hok hinv
    exact ⟨g', hinv', ih _ hk⟩
  | assign o p ih => exact h.elim
  | flush p ih => exact ih h

theorem Prog.Shares.bind (h : p.Shares L db Q g) (hk : ∀ a g, Q a g → (k a).Shares L db R g) :
    (p >>= k).Shares L db R g := by
  induction p generalizing g with
  | ret a => exact hk a g h
  | raise e => exact h
  | stmt f k' ih => exact fun lk =>
    ⟨fun b ops hf => ⟨((h lk).1 b ops hf).1, ih b ((h lk).1 b ops hf).2⟩, (h lk).2⟩
  | io f k' ih =>
    intro env w rest hok hinv
    obtain ⟨g', hinv', hk'⟩ := h env w rest hok hinv
    exact ⟨g', hinv', ih _ hk'⟩
  | assign o p ih => exact h.elim
  | flush p ih => exact ih h

theorem Prog.Shares.query {q : B.Db → α} (h : Q (q db) g) : (query q).Shares L db Q g := by
  refine fun lk => ⟨fun b ops hf => ?_, fun e hf => by cases hf⟩
  cases hf
  exact ⟨rfl, h⟩

theorem Prog.Shares.ask {f : B.Env → B.World → α × B.World}
    (h : ∀ env w rest, L.ok env w → L.inv w (rest + g) → ∃ g', L.inv (f env w).2 (rest + g') ∧
      Q (f env w).1 g') :
    (ask f : Prog B α).Shares L db Q g :=
  fun env w rest hok hinv => h env w rest hok hinv

end

/-- The share of a transaction. -/
def Phase.Shares (L : Ledger B G) (db : B.Db) (Q : α → G → Prop) : Phase B α → G → Prop
  | .running p d w, g => d = [] ∧ w = [] ∧ p.Shares L db Q g
  | .committed a, g => Q a g
  | .rolledBack _, g => g = 0

namespace System

/-- The world accounts for the shares of the transactions. -/
def Balanced (L : Ledger B G) (Q : ρ → α → G → Prop) (s : System B ρ α) : Prop :=
  ∃ shares : List G, List.Forall₂ (fun t g => t.phase.Shares L s.db (Q t.req) g) s.threads shares ∧
    L.inv s.world shares.sum

/-- The events for which the account is claimed: no transaction dies. -/
def Regular (L : Ledger B G) (s : System B ρ α) : Event B ρ → Prop
  | .start _ => True
  | .step _ env => L.ok env s.world
  | .crash _ => False

instance [h : ∀ env w, Decidable (L.ok env w)] (s : System B ρ α) : (e : Event B ρ) →
    Decidable (s.Regular L e)
  | .start _ => .isTrue trivial
  | .step _ env => h env s.world
  | .crash _ => .isFalse id

variable {prog : ρ → Prog B α} {Q : ρ → α → G → Prop} {s : System B ρ α} {e : Event B ρ}

/-- Transaction `i` and its share, and those of the others. -/
theorem Balanced.split {i : Nat} {t : Thread B ρ α} (h : s.Balanced L Q) (hi : s.threads[i]? = some t) :
    ∃ g rest, t.phase.Shares L s.db (Q t.req) g ∧ L.inv s.world (rest + g) ∧
      ∀ r ph g' w, ph.Shares L s.db (Q r) g' → L.inv w (rest + g') →
        ({ s with threads := s.threads.set i ⟨r, ph⟩, world := w } : System B ρ α).Balanced L Q := by
  obtain ⟨shares, hall, hinv⟩ := h
  obtain ⟨hlt, rfl⟩ := List.getElem?_eq_some_iff.1 hi
  have hlt' : i < shares.length := hall.length_eq ▸ hlt
  have hsum : ∀ g', (shares.set i g').sum = (shares.take i).sum + (shares.drop (i + 1)).sum + g' := by
    intro g'
    rw [List.set_eq_take_append_cons_drop, if_pos hlt', List.sum_append, List.sum_cons]
    rw [add_comm g', add_assoc]
  refine ⟨shares[i], (shares.take i).sum + (shares.drop (i + 1)).sum, hall.get hlt hlt', ?_, ?_⟩
  · rw [← hsum, List.set_getElem_self]
    exact hinv
  · intro r ph g' w hph hw
    refine ⟨shares.set i g', ?_, by rw [hsum]; exact hw⟩
    refine List.forall₂_iff_get.2 ⟨by simpa using hall.length_eq, fun j hj hj' => ?_⟩
    simp only [List.get_eq_getElem, List.getElem_set]
    split
    · exact hph
    · exact hall.get _ _

variable [DecidableEq B.Key]

/-- Every regular event keeps the account and the database. -/
theorem Balanced.next (hp : ∀ r, (prog r).Shares L s.db (Q r) 0) (he : s.Regular L e)
    (h : s.Balanced L Q) :
    (s.next prog e).Balanced L Q ∧ (s.next prog e).db = s.db := by
  cases e with
  | crash i => exact he.elim
  | start r =>
    obtain ⟨shares, hall, hinv⟩ := h
    refine ⟨⟨shares ++ [0], ?_, by simpa [System.next] using hinv⟩, rfl⟩
    refine List.rel_append hall (List.Forall₂.cons ⟨rfl, rfl, ?_⟩ List.Forall₂.nil)
    exact (hp r).bind fun a g ha => ha
  | step i env =>
    rcases hi : s.threads[i]? with _ | ⟨r, ⟨p, d, w⟩ | a | e⟩
    · simpa [System.next, hi] using h
    · rw [next_step hi]
      obtain ⟨g, rest, ⟨rfl, rfl, hg⟩, hinv, hset⟩ := h.split hi
      cases p with
      | ret a => exact ⟨hset r (.committed a) g s.world hg hinv, rfl⟩
      | raise e => exact ⟨hset r (.rolledBack (some e)) g s.world hg hinv, rfl⟩
      | assign o p => exact hg.elim
      | flush p => exact ⟨hset r (.running p [] []) g s.world ⟨rfl, rfl, hg⟩ hinv, rfl⟩
      | io f k =>
        obtain ⟨g', hinv', hk⟩ := hg env s.world rest he hinv
        exact ⟨hset r (.running (k (f env s.world).1) [] []) g' _ ⟨rfl, rfl, hk⟩ hinv', rfl⟩
      | stmt f k =>
        obtain ⟨hok, herr⟩ := hg (s.locked i)
        simp only [advance, applyAll_nil]
        cases hf : f (s.locked i) s.db with
        | error e => exact ⟨hset r (.running (.raise e) [] []) g s.world ⟨rfl, rfl, herr e hf⟩ hinv, rfl⟩
        | ok b =>
          obtain ⟨b, ops⟩ := b
          obtain ⟨rfl, hk⟩ := hok b ops hf
          exact ⟨hset r (.running (k b) [] []) g s.world ⟨rfl, rfl, hk⟩ hinv, rfl⟩
    · simpa [System.next, hi] using h
    · simpa [System.next, hi] using h

theorem Balanced.always {es : List (Event B ρ)} (hp : ∀ r, (prog r).Shares L s.db (Q r) 0)
    (hm : Meets (System.next prog) (Regular L) s es) (h : s.Balanced L Q) :
    Always (System.next prog) (fun s' => s'.Balanced L Q ∧ s'.db = s.db) s es :=
  Always.of_meets (P := fun s' => s'.Balanced L Q ∧ s'.db = s.db)
    (fun s' e h' he => by
      obtain ⟨hbal, hdb⟩ := h'
      have hp' : ∀ r, (prog r).Shares L s'.db (Q r) 0 := by rwa [hdb]
      obtain ⟨hbal', hdb'⟩ := hbal.next hp' he
      exact ⟨hbal', hdb'.trans hdb⟩)
    ⟨h, rfl⟩ hm

omit [DecidableEq B.Key] in
theorem balanced_of_nil (h : s.threads = []) (hinv : L.inv s.world 0) : s.Balanced L Q :=
  ⟨[], by rw [h]; exact List.Forall₂.nil, hinv⟩

end System

end Kit
