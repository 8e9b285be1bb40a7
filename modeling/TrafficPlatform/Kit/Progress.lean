import TrafficPlatform.Kit.Replay
import Mathlib.Data.Finset.Max
import Mathlib.Logic.Relation

/-!
# Progress of interleaved transactions

A transaction waits while another one holds a row that it is about to write. Where every transaction
takes its rows in one order, the waiting transactions form no cycle, and the one that holds the
highest row can run to its end: the transactions in flight can all be finished, whatever they are
answered from outside (`Replay.deadlockFree`).

The order is a rank of the writes. A program climbs when each write ranks above those that it has
made before (`Prog.Climbs`), and a write may wait only for a row that was written at its rank or
above (`Orderly`).
-/

namespace Kit

variable {B : Backend} {ρ α β : Type}

/-- The writes `ops` rank above the writes `w`. -/
def Above (rank : B.Op → Nat) (w ops : List B.Op) : Prop := ∀ o ∈ w, ∀ o' ∈ ops, rank o < rank o'

/-- The program writes above what it has written, one row after the other: a statement that writes
several rows locks them in no known order. -/
def Prog.Climbs (rank : B.Op → Nat) : Prog B α → List B.Op → List B.Op → Prop
  | ret _, _, _ => True
  | raise _, _, _ => True
  | stmt f k, d, w => ∀ lk db b ops, f lk db = .ok (b, ops) →
    ops.length ≤ 1 ∧ Above rank w ops ∧ (k b).Climbs rank d (w ++ ops)
  | io _ k, d, w => ∀ x, (k x).Climbs rank d w
  | assign o p, d, w => p.Climbs rank (d ++ [o]) w
  | flush p, d, w =>
    Above rank w d ∧ d.Pairwise (fun o o' => rank o < rank o') ∧ p.Climbs rank [] (w ++ d)

section
variable {rank : B.Op → Nat} {w ops : List B.Op}

theorem above_nil_left : Above rank [] ops := by simp [Above]

theorem above_nil_right : Above rank w [] := by simp [Above]

theorem above_cons {o : B.Op} : Above rank w (o :: ops) ↔ (∀ o' ∈ w, rank o' < rank o) ∧
    Above rank w ops := by
  simp only [Above, List.mem_cons, forall_eq_or_imp]
  exact ⟨fun h => ⟨fun o' ho' => (h o' ho').1, fun o' ho' => (h o' ho').2⟩,
    fun h o' ho' => ⟨h.1 o' ho', h.2 o' ho'⟩⟩

end

namespace Prog

variable {rank : B.Op → Nat} {p : Prog B α} {k : α → Prog B β} {d w : List B.Op}
    {W : B.World → B.World → Prop}

theorem Climbs.reads (h : p.Reads W) (hk : ∀ a, (k a).Climbs rank d w) : (p >>= k).Climbs rank d w := by
  induction p with
  | ret a => exact hk a
  | raise e => trivial
  | stmt f k' ih =>
    intro lk db b ops hf
    obtain ⟨rfl, hk'⟩ := h lk db b ops hf
    refine ⟨Nat.zero_le 1, above_nil_right, ?_⟩
    rw [List.append_nil]
    exact ih b hk'
  | io f k' ih => exact fun x => ih x (h.2 x)
  | assign o p ih => exact h.elim
  | flush p ih => exact h.elim

theorem Climbs.query {q : B.Db → α} (hk : ∀ a, (k a).Climbs rank d w) :
    (Prog.query q >>= k).Climbs rank d w :=
  Climbs.reads (W := fun _ _ => True) (reads_query q) hk

theorem Climbs.ask {f : B.Env → B.World → α × B.World} (hk : ∀ a, (k a).Climbs rank d w) :
    (Prog.ask f >>= k).Climbs rank d w :=
  Climbs.reads (W := fun _ _ => True) (reads_ask fun _ _ => trivial) hk

theorem Climbs.set {o : B.Op} {k : Unit → Prog B β} (hk : (k ()).Climbs rank (d ++ [o]) w) :
    (Prog.set o >>= k).Climbs rank d w := hk

theorem Climbs.flushSession {k : Unit → Prog B β} (hd : Above rank w d)
    (hp : d.Pairwise fun o o' => rank o < rank o')
    (hk : (k ()).Climbs rank [] (w ++ d)) : (Prog.flushSession >>= k).Climbs rank d w := ⟨hd, hp, hk⟩

theorem Climbs.execute {o : B.Op} {k : Unit → Prog B β} (ho : ∀ o' ∈ w, rank o' < rank o)
    (hk : (k ()).Climbs rank d (w ++ [o])) : (Prog.execute o >>= k).Climbs rank d w := by
  intro lk db b ops hf
  dsimp only at hf
  cases hc : B.check o db with
  | error e =>
    rw [hc] at hf
    cases hf
  | ok u =>
    rw [hc] at hf
    cases hf
    exact ⟨le_refl 1, above_cons.2 ⟨ho, above_nil_right⟩, hk⟩

end Prog

namespace System

variable [DecidableEq B.Key]

/-- The writes that the next step of transaction `i` makes, if it does not have to wait. -/
def wants (s : System B ρ α) (i : Nat) : List B.Op :=
  match s.threads[i]? with
  | some ⟨_, .running (.stmt f _) _ w⟩ =>
    match f (s.locked i) (applyAll B w s.db) with
    | .ok (_, ops) => ops
    | .error _ => []
  | some ⟨_, .running (.flush _) (o :: _) w⟩ =>
    match B.check o (applyAll B w s.db) with
    | .ok () => [o]
    | .error _ => []
  | _ => []

/-- Transaction `i` is about to write a row that transaction `j` has written and not committed. -/
def Waits (s : System B ρ α) (i j : Nat) : Prop :=
  j ≠ i ∧ ∃ o ∈ s.wants i, ∃ key ∈ B.keys o, ∃ t, s.threads[j]? = some t ∧ ∃ o' ∈ t.phase.writes,
    key ∈ B.keys o'

/-- A scheduler can bring every transaction to its end, whatever the steps read from outside. -/
inductive Drains (prog : ρ → Prog B α) : System B ρ α → Prop
  | quiet {s : System B ρ α} (h : s.Quiet) : Drains prog s
  | step {s : System B ρ α} (i : Nat) (h : ∀ env, Drains prog (s.next prog (.step i env))) :
    Drains prog s

/-- No transactions wait for each other in a circle, and all of them can be finished. -/
structure DeadlockFree (prog : ρ → Prog B α) (s : System B ρ α) : Prop where
  acyclic : ∀ i, ¬ Relation.TransGen s.Waits i i
  drains : s.Drains prog

theorem free_of_not_waits {s : System B ρ α} {i : Nat} {ops : List B.Op}
    (hops : ∀ o ∈ ops, o ∈ s.wants i) (h : ∀ j, ¬ s.Waits i j) : s.free i ops = true := by
  simp only [free, List.all_eq_true, Bool.not_eq_true', Bool.eq_false_iff]
  intro o ho key hkey hlocked
  obtain ⟨j, t, hj, ht, o', ho', hkey'⟩ := locked_iff.1 hlocked
  exact h j ⟨hj, o, hops o ho, key, hkey, t, ht, o', ho', hkey'⟩

end System

/-! ### Climbing systems -/

/-- The transactions of `prog` take their rows in the order of `rank`: they climb, and a write that
is accepted next to the writes `w'` of another transaction meets none of a lower rank there. -/
structure Orderly (prog : ρ → Prog B α) (P : B.Op → Prop) (rank : B.Op → Nat) : Prop where
  climbs : ∀ r, (prog r).commit.Climbs rank [] []
  meets : ∀ w o w' db, Accepted B P (w ++ [o]) db → Accepted B P w' db → Apart w w' → ∀ o' ∈ w',
    ∀ key ∈ B.keys o, key ∈ B.keys o' → rank o ≤ rank o'

def Phase.Climbs (rank : B.Op → Nat) : Phase B α → Prop
  | .running p d w => p.Climbs rank d w
  | .committed _ => True
  | .rolledBack _ => True

/-- The rank of the highest write, and 0 without one. -/
def height (rank : B.Op → Nat) (w : List B.Op) : Nat := (w.map fun o => rank o + 1).foldr max 0

theorem lt_height {rank : B.Op → Nat} {w : List B.Op} {o : B.Op} (h : o ∈ w) :
    rank o < height rank w := by
  induction w with
  | nil => cases h
  | cons o' w ih =>
    simp only [height, List.map_cons, List.foldr_cons]
    rcases List.mem_cons.1 h with rfl | h
    · omega
    · have := ih h
      simp only [height] at this
      omega

theorem height_le {rank : B.Op → Nat} {w : List B.Op} {n : Nat} (h : ∀ o ∈ w, rank o < n) :
    height rank w ≤ n := by
  induction w with
  | nil => exact Nat.zero_le n
  | cons o w ih =>
    obtain ⟨ho, hw⟩ := List.forall_mem_cons.1 h
    have := ih hw
    simp only [height, List.map_cons, List.foldr_cons] at this ⊢
    omega

theorem height_append_le (rank : B.Op → Nat) (w w' : List B.Op) :
    height rank w ≤ height rank (w ++ w') :=
  height_le fun _ ho => lt_height (List.mem_append_left _ ho)

namespace Replay

variable [DecidableEq B.Key] {prog : ρ → Prog B α} {P : B.Op → Prop} {rank : B.Op → Nat}
  {Agree : (B.Key → Prop) → B.Db → B.Db → Prop} {Q : ρ → α → List B.Op → Prop} {s : System B ρ α}

/-- The transactions in flight are replayable and climb. -/
structure Climbing (P : B.Op → Prop) (rank : B.Op → Nat) (Q : ρ → α → List B.Op → Prop)
    (s : System B ρ α) : Prop where
  replayable : s.Replayable P Q
  climbs : ∀ t ∈ s.threads, t.phase.Climbs rank

omit [DecidableEq B.Key] in
theorem climbs_moves {lk : B.Key → Bool} {p : Prog B α} {d w : List B.Op} {ph : Phase B α} {db : B.Db}
    (hm : System.Moves lk db p d w ph) (h : p.Climbs rank d w) : ph.Climbs rank := by
  cases hm with
  | raise => trivial
  | crash => trivial
  | stmt hf hfree => exact (h _ _ _ _ hf).2.2
  | stmtError => trivial
  | io => exact h _
  | assign => exact h
  | flushNil =>
    have hp := h.2.2
    rwa [List.append_nil] at hp
  | flushCons hc hfree =>
    obtain ⟨habove, hpair, hp⟩ := h
    obtain ⟨ho, habove⟩ := above_cons.1 habove
    obtain ⟨hless, hpair⟩ := List.pairwise_cons.1 hpair
    refine ⟨fun o' ho' o'' ho'' => ?_, hpair, by rwa [List.append_assoc]⟩
    rcases List.mem_append.1 ho' with ho' | ho'
    · exact habove o' ho' o'' ho''
    · rw [List.mem_singleton.1 ho']
      exact hless o'' ho''
  | flushError => trivial

theorem Climbing.next (h : Replay prog P Agree Q) (ho : Orderly prog P rank)
    (hs : Climbing P rank Q s) (e : Event B ρ) :
    Climbing P rank Q (s.next prog e) := by
  refine ⟨h.next hs.replayable, ?_⟩
  rcases System.next_cases prog s e with
    ⟨hn, -⟩ | ⟨r, hn, -, -⟩ | ⟨i, r, p, d, w, ph, wd, hi, hm, hn, -⟩ |
    ⟨i, r, a, d, w, hi, hn, -⟩ <;> rw [hn]
  · exact hs.climbs
  · intro t ht
    rcases List.mem_append.1 ht with ht | ht
    · exact hs.climbs t ht
    · rw [List.mem_singleton.1 ht]
      exact ho.climbs r
  · intro t ht
    rcases List.mem_or_eq_of_mem_set ht with ht | rfl
    · exact hs.climbs t ht
    · exact climbs_moves hm (hs.climbs _ (List.mem_of_getElem? hi))
  · intro t ht
    rcases List.mem_or_eq_of_mem_set ht with ht | rfl
    · exact hs.climbs t ht
    · trivial

/-- What a transaction wants ranks above what it has written, and would be accepted. -/
theorem Climbing.wants {i : Nat} (hs : Climbing P rank Q s) {o : B.Op} (ho : o ∈ s.wants i) :
    ∃ t, s.threads[i]? = some t ∧ (∀ o' ∈ t.phase.writes, rank o' < rank o) ∧
        Accepted B P (t.phase.writes ++ [o]) s.db := by
  cases hi : s.threads[i]? with
  | none => simp [System.wants, hi] at ho
  | some t =>
    refine ⟨t, rfl, ?_⟩
    have hclimbs := hs.climbs t (List.mem_of_getElem? hi)
    have haccepted := hs.replayable.accepted t (List.mem_of_getElem? hi)
    obtain ⟨r, ph⟩ := t
    cases ph with
    | committed a => simp [System.wants, hi] at ho
    | rolledBack e => simp [System.wants, hi] at ho
    | running p d w =>
      obtain ⟨hchecked, hd, hw⟩ := haccepted
      cases p with
      | stmt f k =>
        cases hf : f (s.locked i) (applyAll B w s.db) with
        | error e => simp [System.wants, hi, hf] at ho
        | ok res =>
          obtain ⟨b, ops⟩ := res
          have hwants : s.wants i = ops := by simp [System.wants, hi, hf]
          rw [hwants] at ho
          obtain ⟨hone, habove, -⟩ := hclimbs _ _ _ _ hf
          obtain rfl : ops = [o] := by
            obtain ⟨o', rfl⟩ :=
              List.length_eq_one_iff.1 (Nat.le_antisymm hone (List.length_pos_of_mem ho))
            rw [List.mem_singleton.1 ho]
          exact ⟨fun o' ho' => habove o' ho' o ho, accepted_append.2 ⟨hw, (hchecked _ _ _ _ hf).1⟩⟩
      | flush p =>
        cases d with
        | nil => simp [System.wants, hi] at ho
        | cons o' d =>
          cases hc : B.check o' (applyAll B w s.db) with
          | error e => simp [System.wants, hi, hc] at ho
          | ok u =>
            have hwants : s.wants i = [o'] := by simp [System.wants, hi, hc]
            rw [hwants] at ho
            obtain rfl := List.mem_singleton.1 ho
            refine ⟨(above_cons.1 hclimbs.1).1, accepted_append.2 ⟨hw, ?_⟩⟩
            exact accepted_singleton.2 ⟨hd o List.mem_cons_self, hc⟩
      | ret a => simp [System.wants, hi] at ho
      | raise e => simp [System.wants, hi] at ho
      | io f k => simp [System.wants, hi] at ho
      | assign o' p => simp [System.wants, hi] at ho

/-- A transaction waits for one that has climbed higher. -/
theorem Climbing.height_lt (ho : Orderly prog P rank) (hs : Climbing P rank Q s) {i j : Nat}
    (h : s.Waits i j) :
    ∃ t t', s.threads[i]? = some t ∧ s.threads[j]? = some t' ∧ height rank t.phase.writes <
        height rank t'.phase.writes := by
  obtain ⟨hij, o, hwant, key, hkey, t', hj, o', ho', hkey'⟩ := h
  obtain ⟨t, hi, habove, haccepted⟩ := hs.wants hwant
  refine ⟨t, t', hi, hj, ?_⟩
  have hw' : Accepted B P t'.phase.writes s.db := by
    have hold := hs.replayable.accepted t' (List.mem_of_getElem? hj)
    obtain ⟨r', ph'⟩ := t'
    cases ph' with
    | running p d w => exact hold.2.2
    | committed a => trivial
    | rolledBack e => trivial
  have hapart := hs.replayable.guarded.exclusive i j t t' (Ne.symm hij) hi hj
  have hle := ho.meets _ _ _ _ haccepted hw' hapart o' ho' key hkey hkey'
  have hheight : height rank t.phase.writes ≤ rank o := height_le habove
  have hlt : rank o' < height rank _ := lt_height ho'
  omega

theorem Climbing.acyclic (ho : Orderly prog P rank) (hs : Climbing P rank Q s) (i : Nat) :
    ¬ Relation.TransGen s.Waits i i := by
  have hlt : ∀ j, Relation.TransGen s.Waits i j → ∃ t t', s.threads[i]? = some t ∧
      s.threads[j]? = some t' ∧
      height rank t.phase.writes < height rank t'.phase.writes := by
    intro j h
    induction h with
    | single h => exact hs.height_lt ho h
    | tail _ h ih =>
      obtain ⟨t, t', hi, hj, h₁⟩ := ih
      obtain ⟨u, u', hu, hu', h₂⟩ := hs.height_lt ho h
      cases hj.symm.trans hu
      exact ⟨t, u', hi, hu', Nat.lt_trans h₁ h₂⟩
  intro h
  obtain ⟨t, t', hi, hi', h⟩ := hlt i h
  cases hi.symm.trans hi'
  exact Nat.lt_irrefl _ h

/-- No transaction in flight has climbed higher than transaction `i`, which has written `w`. -/
def Top (rank : B.Op → Nat) (s : System B ρ α) (i : Nat) (w : List B.Op) : Prop :=
  ∀ j t, j ≠ i → s.threads[j]? = some t → height rank t.phase.writes ≤ height rank w

omit [DecidableEq B.Key] in
theorem Top.put {i : Nat} {w w' : List B.Op} (h : Top rank s i w) {t : Thread B ρ α} {s' : System B ρ α}
    (hs' : s'.threads = s.threads.set i t) : Top rank s' i (w ++ w') := by
  intro j t' hj ht
  rw [hs', List.getElem?_set_ne (Ne.symm hj)] at ht
  exact Nat.le_trans (h j t' hj ht) (height_append_le rank w w')

theorem Top.not_waits (ho : Orderly prog P rank) (hs : Climbing P rank Q s) {i : Nat} {r : ρ}
    {p : Prog B α} {d w : List B.Op} (hi : s.threads[i]? = some ⟨r, .running p d w⟩)
    (h : Top rank s i w) (j : Nat) : ¬ s.Waits i j := by
  intro hw
  obtain ⟨t, t', hi', hj, hlt⟩ := hs.height_lt ho hw
  cases hi.symm.trans hi'
  exact absurd (h j t' hw.1 hj) (Nat.not_le.2 hlt)

/-- The highest transaction can be run to its end. -/
theorem Climbing.finishes (h : Replay prog P Agree Q) (ho : Orderly prog P rank) {i : Nat} {r : ρ}
    (p : Prog B α) :
    ∀ {d w : List B.Op} {s : System B ρ α}, Climbing P rank Q s →
      s.threads[i]? = some ⟨r, .running p d w⟩ → Top rank s i w →
    (∀ s' ph, s'.threads = s.threads.set i ⟨r, ph⟩ → ph.Ended → Climbing P rank Q s' →
        s'.Drains prog) → s.Drains prog := by
  have raises : ∀ {e : B.Err} {d w : List B.Op} {s : System B ρ α}, Climbing P rank Q s →
      s.threads[i]? = some ⟨r, .running (.raise e) d w⟩ →
      (∀ s' ph, s'.threads = s.threads.set i ⟨r, ph⟩ → ph.Ended → Climbing P rank Q s' →
          s'.Drains prog) → s.Drains prog := by
    intro e d w s hs hi hk
    refine .step i fun env => ?_
    have hs' := hs.next h ho (.step i env)
    rw [System.next_step hi] at hs' ⊢
    exact hk _ (.rolledBack (some e)) rfl trivial hs'
  -- what remains after a step of `i` that leads to the state `s'`
  have later : ∀ {s s' : System B ρ α} {ph : Phase B α}, s'.threads = s.threads.set i ⟨r, ph⟩ →
      (∀ s'' ph, s''.threads = s.threads.set i ⟨r, ph⟩ → ph.Ended → Climbing P rank Q s'' →
        s''.Drains prog) →
      ∀ s'' ph, s''.threads = s'.threads.set i ⟨r, ph⟩ → ph.Ended → Climbing P rank Q s'' →
          s''.Drains prog := by
    intro s s' ph hs' hk s'' ph' hs''
    rw [hs', List.set_set] at hs''
    exact hk s'' ph' hs''
  induction p with
  | ret a =>
    intro d w s hs hi _ hk
    refine .step i fun env => ?_
    have hs' := hs.next h ho (.step i env)
    rw [System.next_step hi] at hs' ⊢
    exact hk _ (.committed a) rfl trivial hs'
  | raise e => exact fun hs hi _ hk => raises hs hi hk
  | stmt f k ih =>
    intro d w s hs hi htop hk
    refine .step i fun env => ?_
    have hs' := hs.next h ho (.step i env)
    rw [System.next_step hi] at hs' ⊢
    cases hf : f (s.locked i) (applyAll B w s.db) with
    | error e =>
      have hstep : s.advance i env r (.stmt f k) d w = s.put i r (.running (.raise e) d w) := by
        simp [System.advance, hf]
      rw [hstep] at hs' ⊢
      exact raises hs' (System.getElem?_put hi r _) (later rfl hk)
    | ok res =>
      obtain ⟨b, ops⟩ := res
      have hwants : s.wants i = ops := by simp [System.wants, hi, hf]
      have hfree : s.free i ops = true :=
        System.free_of_not_waits (fun _ => hwants ▸ id) (htop.not_waits ho hs hi)
      have hstep : s.advance i env r (.stmt f k) d w = s.put i r (.running (k b) d (w ++ ops)) := by
        simp [System.advance, hf, hfree]
      rw [hstep] at hs' ⊢
      exact ih b hs' (System.getElem?_put hi r _) (htop.put rfl) (later rfl hk)
  | io f k ih =>
    intro d w s hs hi htop hk
    refine .step i fun env => ?_
    have hs' := hs.next h ho (.step i env)
    rw [System.next_step hi] at hs' ⊢
    have htop' : Top rank (s.advance i env r (.io f k) d w) i (w ++ []) := htop.put rfl
    rw [List.append_nil] at htop'
    exact ih _ hs' (System.getElem?_put hi r _) htop' (later rfl hk)
  | assign o p ih =>
    intro d w s hs hi htop hk
    refine .step i fun env => ?_
    have hs' := hs.next h ho (.step i env)
    rw [System.next_step hi] at hs' ⊢
    have htop' : Top rank (s.advance i env r (.assign o p) d w) i (w ++ []) := htop.put rfl
    rw [List.append_nil] at htop'
    exact ih hs' (System.getElem?_put hi r _) htop' (later rfl hk)
  | flush p ih =>
    intro d w s hs hi htop hk
    induction d generalizing w s with
    | nil =>
      refine .step i fun env => ?_
      have hs' := hs.next h ho (.step i env)
      rw [System.next_step hi] at hs' ⊢
      have htop' : Top rank (s.advance i env r (.flush p) [] w) i (w ++ []) := htop.put rfl
      rw [List.append_nil] at htop'
      exact ih hs' (System.getElem?_put hi r _) htop' (later rfl hk)
    | cons o d ihd =>
      refine .step i fun env => ?_
      have hs' := hs.next h ho (.step i env)
      rw [System.next_step hi] at hs' ⊢
      cases hc : B.check o (applyAll B w s.db) with
      | error e =>
        have hstep : s.advance i env r (.flush p) (o :: d) w = s.put i r (.running (.raise e) d w) := by
          simp [System.advance, hc]
        rw [hstep] at hs' ⊢
        exact raises hs' (System.getElem?_put hi r _) (later rfl hk)
      | ok u =>
        have hwants : s.wants i = [o] := by simp [System.wants, hi, hc]
        have hfree : s.free i [o] = true :=
          System.free_of_not_waits (fun _ => hwants ▸ id) (htop.not_waits ho hs hi)
        have hstep : s.advance i env r (.flush p) (o :: d) w =
            s.put i r (.running (.flush p) d (w ++ [o])) := by
          simp [System.advance, hc, hfree]
        rw [hstep] at hs' ⊢
        exact ihd hs' (System.getElem?_put hi r _) (htop.put rfl) (later rfl hk)

omit [DecidableEq B.Key] in
/-- Some transaction in flight has climbed highest. -/
theorem exists_top (rank : B.Op → Nat) (hs : ¬ s.Quiet) : ∃ i r p d w,
    s.threads[i]? = some ⟨r, .running p d w⟩ ∧ Top rank s i w := by
  let top : Nat → Nat := fun i => height rank (s.threads[i]?.elim [] (·.phase.writes))
  let running : Finset Nat :=
    (Finset.range s.threads.length).filter
      fun i => ¬ s.threads[i]?.all (fun t => decide t.phase.Ended)
  have hrunning : running.Nonempty := by
    simp only [System.Quiet, not_forall] at hs
    obtain ⟨t, ht, hn⟩ := hs
    obtain ⟨i, hi⟩ := List.mem_iff_getElem?.1 ht
    refine ⟨i, Finset.mem_filter.2 ⟨Finset.mem_range.2 (List.getElem?_eq_some_iff.1 hi).1, ?_⟩⟩
    simp [hi, hn]
  obtain ⟨i, hmem, hmax⟩ := running.exists_max_image top hrunning
  obtain ⟨hlt, hn⟩ := Finset.mem_filter.1 hmem
  obtain ⟨⟨r, ph⟩, hi⟩ : ∃ t, s.threads[i]? = some t :=
    ⟨_, List.getElem?_eq_getElem (Finset.mem_range.1 hlt)⟩
  rw [hi] at hn
  cases ph with
  | committed a => exact absurd rfl hn
  | rolledBack e => exact absurd rfl hn
  | running p d w =>
    refine ⟨i, r, p, d, w, hi, fun j t hj ht => ?_⟩
    by_cases hended : t.phase.Ended
    · rw [hended.writes]
      exact Nat.zero_le _
    · have hjmem : j ∈ running := by
        refine Finset.mem_filter.2 ⟨Finset.mem_range.2 (List.getElem?_eq_some_iff.1 ht).1, ?_⟩
        simp [ht, hended]
      have hle := hmax j hjmem
      simpa [top, hi, ht, Phase.writes] using hle

theorem Climbing.drains (h : Replay prog P Agree Q) (ho : Orderly prog P rank)
    (hs : Climbing P rank Q s) :
    s.Drains prog := by
  induction hn : s.threads.countP (fun t => !decide t.phase.Ended) generalizing s with
  | zero =>
    refine .quiet fun t ht => ?_
    simpa using List.countP_eq_zero.1 hn t ht
  | succ n ih =>
    have hquiet : ¬ s.Quiet := by
      intro hq
      have hzero : s.threads.countP (fun t => !decide t.phase.Ended) = 0 :=
        List.countP_eq_zero.2 fun t ht => by simp [hq t ht]
      omega
    obtain ⟨i, r, p, d, w, hi, htop⟩ := exists_top rank hquiet
    refine hs.finishes h ho p hi htop fun s' ph hs' hph hgood => ih hgood ?_
    obtain ⟨hlt, hget⟩ := List.getElem?_eq_some_iff.1 hi
    have hrunning : ¬ (Phase.running p d w : Phase B α).Ended := id
    rw [hs', List.countP_set hlt, hget, hn]
    simp [hrunning, hph]

/-- Transactions that take their rows in one order never block each other for good. -/
theorem deadlockFree (h : Replay prog P Agree Q) (ho : Orderly prog P rank) (hs : s.Quiet)
    (es : List (Event B ρ)) :
    Always (System.next prog) (fun s => s.DeadlockFree prog) s es := by
  have hclimbing : Climbing P rank Q s := by
    refine ⟨hs.replayable, fun t ht => ?_⟩
    have hq := hs t ht
    obtain ⟨r, ph⟩ := t
    cases ph with
    | running p d w => exact hq.elim
    | committed a => trivial
    | rolledBack e => trivial
  refine Kit.always_iff.2 fun es₁ es₂ _ => ?_
  have hrun : Climbing P rank Q (run (System.next prog) s es₁) :=
    run_invariant (fun _ e hs => hs.next h ho e) hclimbing es₁
  exact ⟨hrun.acyclic ho, hrun.drains h ho⟩

end Replay

end Kit
