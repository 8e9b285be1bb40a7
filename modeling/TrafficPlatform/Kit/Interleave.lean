import TrafficPlatform.Kit.Run
import TrafficPlatform.Kit.Request

/-!
# Interleaved transactions at READ COMMITTED

A system runs any number of requests, each in its own transaction, and an event lets one of them
take its next step. A statement sees the rows committed at that moment and its own transaction's
writes (READ COMMITTED takes a new snapshot for every statement); it waits while another
transaction has written a row it writes. A transaction's writes reach the database in one step, its
commit. A transaction can also end without committing at any moment (`crash`).

`Relies` is the rule for reasoning about them: if every database change a commit makes is in a
preorder `R`, and a program's postcondition holds for every way the database may change along `R`
between its steps, then the postcondition holds at every commit of every run. Rows that a
transaction has written are its own until it ends: what `Own` says of a write survives the commits
of the others, since they write other rows.
-/

namespace Kit

variable {B : Backend} {ρ α β : Type}

/-- The state of one transaction: its remaining program, the assignments not flushed yet and the
rows written but not committed; or how it ended. -/
inductive Phase (B : Backend) (α : Type) : Type 1
  | running (p : Prog B α) (dirty writes : List B.Op)
  | committed (a : α)
  | rolledBack (e : Option B.Err)

/-- The transaction has committed or was rolled back. -/
def Phase.Ended : Phase B α → Prop
  | .running .. => False
  | .committed _ => True
  | .rolledBack _ => True

instance Phase.decidableEnded : (ph : Phase B α) → Decidable ph.Ended
  | .running .. => .isFalse id
  | .committed _ => .isTrue trivial
  | .rolledBack _ => .isTrue trivial

/-- A request and its transaction. -/
structure Thread (B : Backend) (ρ α : Type) : Type 1 where
  req : ρ
  phase : Phase B α

/-- The committed database, the world, all transactions started so far, and the commits in the
order in which they happened. -/
structure System (B : Backend) (ρ α : Type) : Type 1 where
  db : B.Db
  world : B.World
  threads : List (Thread B ρ α)
  history : List (ρ × α)

/-- A request arrives, transaction `i` takes its next step, or transaction `i` dies. -/
inductive Event (B : Backend) (ρ : Type)
  | start (r : ρ)
  | step (i : Nat) (env : B.Env)
  | crash (i : Nat)

/-- The rows that the transaction has written and not committed. -/
def Phase.writes : Phase B α → List B.Op
  | .running _ _ w => w
  | .committed _ => []
  | .rolledBack _ => []

/-- The transaction has written a row that `key` names and has not ended. -/
def Thread.holds [DecidableEq B.Key] (t : Thread B ρ α) (key : B.Key) : Bool :=
  t.phase.writes.any fun o => (B.keys o).contains key

namespace System

variable [DecidableEq B.Key]

/-- A transaction other than `i` holds `key`. -/
def locked (s : System B ρ α) (i : Nat) (key : B.Key) : Bool :=
  (List.range s.threads.length).any fun j => j != i && (s.threads[j]?).any fun t => t.holds key

/-- Transaction `i` can write the rows of `ops` without waiting. -/
def free (s : System B ρ α) (i : Nat) (ops : List B.Op) : Bool :=
  ops.all fun o => (B.keys o).all fun key => !s.locked i key

/-- Transaction `i` of request `r` moves on to `ph`. -/
def put (s : System B ρ α) (i : Nat) (r : ρ) (ph : Phase B α) : System B ρ α :=
  { s with threads := s.threads.set i ⟨r, ph⟩ }

/-- The next step of transaction `i`. -/
def advance (s : System B ρ α) (i : Nat) (env : B.Env) (r : ρ) :
    Prog B α → List B.Op → List B.Op → System B ρ α
  | .ret a, _, w =>
    { s with db := applyAll B w s.db, threads := s.threads.set i ⟨r, .committed a⟩,
             history := s.history ++ [(r, a)] }
  | .raise e, _, _ => s.put i r (.rolledBack (some e))
  | .stmt f k, d, w =>
    match f (s.locked i) (applyAll B w s.db) with
    | .ok (b, ops) => if s.free i ops then s.put i r (.running (k b) d (w ++ ops)) else s
    | .error e => s.put i r (.running (.raise e) d w)
  | .io f k, d, w =>
    { s.put i r (.running (k (f env s.world).1) d w) with world := (f env s.world).2 }
  | .assign o p, d, w => s.put i r (.running p (d ++ [o]) w)
  | .flush p, [], w => s.put i r (.running p [] w)
  | .flush p, o :: d, w =>
    match B.check o (applyAll B w s.db) with
    | .ok () => if s.free i [o] then s.put i r (.running (.flush p) d (w ++ [o])) else s
    | .error e => s.put i r (.running (.raise e) d w)

/-- The effect of an event; an event that is not possible changes nothing. -/
def next (prog : ρ → Prog B α) (s : System B ρ α) : Event B ρ → System B ρ α
  | .start r => { s with threads := s.threads ++ [⟨r, .running (prog r).commit [] []⟩] }
  | .step i env =>
    match s.threads[i]? with
    | some ⟨r, .running p d w⟩ => s.advance i env r p d w
    | _ => s
  | .crash i =>
    match s.threads[i]? with
    | some ⟨r, .running _ _ _⟩ => s.put i r (.rolledBack none)
    | _ => s

/-- The commit that an event performs, if it performs one: the request, its answer and the rows
its transaction wrote. -/
def commits (s : System B ρ α) : Event B ρ → Option (ρ × α × List B.Op)
  | .step i _ =>
    match s.threads[i]? with
    | some ⟨r, .running (.ret a) _ w⟩ => some (r, a, w)
    | _ => none
  | _ => none

/-- No transaction is in flight. -/
def Quiet (s : System B ρ α) : Prop := ∀ t ∈ s.threads, t.phase.Ended

instance (s : System B ρ α) : Decidable s.Quiet := inferInstanceAs (Decidable (∀ t ∈ s.threads, _))

/-- The system before the first request. -/
def init (db : B.Db) (world : B.World) : System B ρ α := ⟨db, world, [], []⟩

/-- No row that the writes name is in `locked`. -/
def Clear (lk : B.Key → Bool) (ops : List B.Op) : Prop := ∀ o ∈ ops, ∀ key ∈ B.keys o, lk key = false

/-- The steps of one transaction that do not commit, against the committed database `db` and the
rows `lk` that other transactions hold. -/
inductive Moves (lk : B.Key → Bool) (db : B.Db) : Prog B α → List B.Op → List B.Op → Phase B α → Prop
  | raise {e d w} : Moves lk db (.raise e) d w (.rolledBack (some e))
  | crash {p d w} : Moves lk db p d w (.rolledBack none)
  | stmt {β : Type} {f : (B.Key → Bool) → B.Db → Except B.Err (β × List B.Op)} {k d w b ops}
      (h : f lk (applyAll B w db) = .ok (b, ops)) (hf : Clear lk ops) :
      Moves lk db (.stmt f k) d w (.running (k b) d (w ++ ops))
  | stmtError {β : Type} {f : (B.Key → Bool) → B.Db → Except B.Err (β × List B.Op)} {k d w e} :
      Moves lk db (.stmt f k) d w (.running (.raise e) d w)
  | io {β : Type} {f : B.Env → B.World → Except B.Err β × B.World} {k d w env world} :
      Moves lk db (.io f k) d w (.running (k (f env world).1) d w)
  | assign {o p d w} : Moves lk db (.assign o p) d w (.running p (d ++ [o]) w)
  | flushNil {p w} : Moves lk db (.flush p) [] w (.running p [] w)
  | flushCons {p o d w} (h : B.check o (applyAll B w db) = .ok ()) (hf : Clear lk [o]) :
      Moves lk db (.flush p) (o :: d) w (.running (.flush p) d (w ++ [o]))
  | flushError {p o d w e} : Moves lk db (.flush p) (o :: d) w (.running (.raise e) d w)

variable {prog : ρ → Prog B α} {s : System B ρ α} {e : Event B ρ}

theorem locked_iff {i : Nat} {key : B.Key} : s.locked i key = true ↔
    ∃ j t, j ≠ i ∧ s.threads[j]? = some t ∧ ∃ o ∈ t.phase.writes, key ∈ B.keys o := by
  simp only [locked, List.any_eq_true, List.mem_range, Bool.and_eq_true, bne_iff_ne, Option.any_eq_true,
    Thread.holds, List.contains_iff_mem]
  constructor
  · rintro ⟨j, -, hj, t, ht, o, ho, hk⟩
    exact ⟨j, t, hj, ht, o, ho, hk⟩
  · rintro ⟨j, t, hj, ht, o, ho, hk⟩
    exact ⟨j, (List.getElem?_eq_some_iff.1 ht).1, hj, t, ht, o, ho, hk⟩

theorem clear_of_free {i : Nat} {ops : List B.Op} (h : s.free i ops = true) :
    Clear (s.locked i) ops := by
  simpa [free, Clear] using h

/-- What an event can do: nothing, start a transaction, move one transaction without committing
it, or commit one. -/
theorem next_cases (prog : ρ → Prog B α) (s : System B ρ α) (e : Event B ρ) :
    (s.next prog e = s ∧ s.commits e = none) ∨
    (∃ r, s.next prog e = { s with threads := s.threads ++ [⟨r, .running (prog r).commit [] []⟩] } ∧
      e = .start r ∧ s.commits e = none) ∨
    (∃ i r p d w ph world, s.threads[i]? = some ⟨r, .running p d w⟩ ∧ Moves (s.locked i) s.db p d w ph ∧
      s.next prog e = { s.put i r ph with world := world } ∧ s.commits e = none) ∨
    (∃ i r a d w, s.threads[i]? = some ⟨r, .running (.ret a) d w⟩ ∧
      s.next prog e = { s with
        db := applyAll B w s.db
        threads := s.threads.set i ⟨r, .committed a⟩
        history := s.history ++ [(r, a)] } ∧ s.commits e = some (r, a, w)) := by
  cases e with
  | start r => exact .inr (.inl ⟨r, rfl, rfl, rfl⟩)
  | crash i =>
    simp only [next, commits]
    split
    · rename_i r p d w h
      exact .inr (.inr (.inl ⟨i, r, p, d, w, _, s.world, h, .crash, rfl, trivial⟩))
    · exact .inl ⟨rfl, trivial⟩
  | step i env =>
    match h : s.threads[i]? with
    | none => exact .inl (by simp [next, commits, h])
    | some ⟨r, .committed a⟩ => exact .inl (by simp [next, commits, h])
    | some ⟨r, .rolledBack e⟩ => exact .inl (by simp [next, commits, h])
    | some ⟨r, .running p d w⟩ =>
      simp only [next, commits, h]
      cases p with
      | ret a => exact .inr (.inr (.inr ⟨i, r, a, d, w, h, rfl, by trivial⟩))
      | raise e => exact .inr (.inr (.inl ⟨i, r, _, d, w, _, s.world, h, .raise, rfl, by trivial⟩))
      | io f k => exact .inr (.inr (.inl ⟨i, r, _, d, w, _, _, h, .io, rfl, by trivial⟩))
      | assign o p => exact .inr (.inr (.inl ⟨i, r, _, d, w, _, s.world, h, .assign, rfl, by trivial⟩))
      | stmt f k =>
        simp only [advance]
        split
        · rename_i b ops hf
          split
          · rename_i hfree
            exact .inr (.inr (.inl ⟨i, r, _, d, w, _, s.world, h, .stmt hf (clear_of_free hfree), rfl,
              by trivial⟩))
          · exact .inl ⟨rfl, by trivial⟩
        · exact .inr (.inr (.inl ⟨i, r, _, d, w, _, s.world, h, .stmtError, rfl, by trivial⟩))
      | flush p =>
        cases d with
        | nil => exact .inr (.inr (.inl ⟨i, r, _, [], w, _, s.world, h, .flushNil, rfl, by trivial⟩))
        | cons o d =>
          simp only [advance]
          split
          · rename_i hc
            split
            · rename_i hfree
              exact .inr (.inr (.inl ⟨i, r, _, _, w, _, s.world, h, .flushCons hc (clear_of_free hfree),
                rfl, by trivial⟩))
            · exact .inl ⟨rfl, by trivial⟩
          · exact .inr (.inr (.inl ⟨i, r, _, _, w, _, s.world, h, .flushError, rfl, by trivial⟩))

theorem next_db (prog : ρ → Prog B α) (s : System B ρ α) (e : Event B ρ) :
    (s.next prog e).db = match s.commits e with
      | some (_, _, w) => applyAll B w s.db
      | none => s.db := by
  rcases next_cases prog s e with ⟨hn, hc⟩ | ⟨r, hn, -, hc⟩ | ⟨i, r, p, d, w, ph, wd, -, -, hn, hc⟩ |
    ⟨i, r, a, d, w, -, hn, hc⟩ <;> rw [hn, hc]
  rfl

theorem next_history (prog : ρ → Prog B α) (s : System B ρ α) (e : Event B ρ) :
    (s.next prog e).history = s.history ++ match s.commits e with
      | some (r, a, _) => [(r, a)]
      | none => [] := by
  rcases next_cases prog s e with ⟨hn, hc⟩ | ⟨r, hn, -, hc⟩ | ⟨i, r, p, d, w, ph, wd, -, -, hn, hc⟩ |
    ⟨i, r, a, d, w, -, hn, hc⟩ <;> rw [hn, hc] <;> simp [put]

omit [DecidableEq B.Key] in
theorem commits_some {r : ρ} {a : α} {w : List B.Op} (h : s.commits e = some (r, a, w)) :
    ∃ t ∈ s.threads, ∃ d, t = ⟨r, .running (.ret a) d w⟩ := by
  cases e with
  | start r => cases h
  | crash i => cases h
  | step i env =>
    simp only [commits] at h
    split at h
    · rename_i r' a' d w' hi
      cases h
      exact ⟨_, List.mem_of_getElem? hi, d, rfl⟩
    · cases h

end System

/-- Every transaction in flight runs a request that satisfies `P`. -/
def System.Only (P : ρ → Prop) (s : System B ρ α) : Prop := ∀ t ∈ s.threads, ¬ t.phase.Ended → P t.req

section
variable {P : ρ → Prop} {s : System B ρ α} {e : Event B ρ}

theorem System.Quiet.only (h : s.Quiet) : s.Only P := fun t ht hn => absurd (h t ht) hn

theorem System.Only.commits {r : ρ} {a : α} {w : List B.Op} (h : s.Only P)
    (hc : s.commits e = some (r, a, w)) :
    P r := by
  obtain ⟨t, ht, d, rfl⟩ := commits_some hc
  exact h _ ht id

theorem System.Only.next [DecidableEq B.Key] {prog : ρ → Prog B α} (h : s.Only P)
    (he : ∀ r, e = .start r → P r) : (s.next prog e).Only P := by
  have set_only : ∀ i r p d w ph, s.threads[i]? = some ⟨r, .running p d w⟩ →
      ∀ t ∈ s.threads.set i ⟨r, ph⟩, ¬ t.phase.Ended → P t.req := by
    intro i r p d w ph hi t ht hn
    rcases List.mem_or_eq_of_mem_set ht with ht | rfl
    · exact h t ht hn
    · exact h ⟨r, .running p d w⟩ (List.mem_of_getElem? hi) fun hf => hf
  rcases System.next_cases prog s e with
    ⟨hn, -⟩ | ⟨r, hn, hr, -⟩ | ⟨i, r, p, d, w, ph, wd, hi, -, hn, -⟩ |
    ⟨i, r, a, d, w, hi, hn, -⟩ <;> rw [hn]
  · exact h
  · intro t ht ht'
    rcases List.mem_append.1 ht with ht | ht
    · exact h t ht ht'
    · rw [List.mem_singleton.1 ht]; exact he r hr
  · exact set_only i r p d w ph hi
  · exact set_only i r _ d w _ hi

end

/-! ### The rely rule -/

namespace Prog

/-- However the committed database changes along `R` between the remaining steps of the program,
`Q` holds of its answer, its pending assignments, its writes and the database when it returns. What
the program may rely on can depend on how far it is: `R p` is the relation while `p` remains. It
may use `Own` of the rows it has written so far. -/
def Safe (R : Prog B α → B.Db → B.Db → Prop) (Own : B.Op → B.Db → Prop)
    (Q : α → List B.Op → List B.Op → B.Db → Prop) : Prog B α → List B.Op → List B.Op → B.Db → Prop
  | ret a, d, w, db => ∀ db', R (ret a) db db' → (∀ o ∈ w, Own o db') → Q a d w db'
  | raise _, _, _, _ => True
  | stmt f k, d, w, db => ∀ db', R (stmt f k) db db' → (∀ o ∈ w, Own o db') → ∀ lk b ops,
      f lk (applyAll B w db') = .ok (b, ops) →
        (∀ o ∈ ops, Own o db') ∧ (k b).Safe R Own Q d (w ++ ops) db'
  | io f k, d, w, db => ∀ db', R (io f k) db db' → (∀ o ∈ w, Own o db') → ∀ env world,
      (k (f env world).1).Safe R Own Q d w db'
  | assign o p, d, w, db => ∀ db', R (assign o p) db db' → (∀ o ∈ w, Own o db') →
      p.Safe R Own Q (d ++ [o]) w db'
  | flush p, d, w, db => ∀ db', R (flush p) db db' → (∀ o ∈ w ++ d, Own o db') →
      p.Safe R Own Q [] (w ++ d) db'

variable {R : Prog B α → B.Db → B.Db → Prop} {Own : B.Op → B.Db → Prop}
  {Q : α → List B.Op → List B.Op → B.Db → Prop} {p : Prog B α} {d w : List B.Op} {db db' : B.Db}

theorem Safe.mono_db (htrans : ∀ p a b c, R p a b → R p b c → R p a c) (h : p.Safe R Own Q d w db)
    (hr : R p db db') : p.Safe R Own Q d w db' := by
  cases p with
  | raise e => trivial
  | ret a => exact fun db₂ h₂ => h db₂ (htrans _ _ _ _ hr h₂)
  | stmt f k => exact fun db₂ h₂ => h db₂ (htrans _ _ _ _ hr h₂)
  | io f k => exact fun db₂ h₂ => h db₂ (htrans _ _ _ _ hr h₂)
  | assign o p => exact fun db₂ h₂ => h db₂ (htrans _ _ _ _ hr h₂)
  | flush p => exact fun db₂ h₂ => h db₂ (htrans _ _ _ _ hr h₂)

theorem Safe.mono {Q' : α → List B.Op → List B.Op → B.Db → Prop}
    (hq : ∀ a d w db, Q a d w db → Q' a d w db) (h : p.Safe R Own Q d w db) :
        p.Safe R Own Q' d w db := by
  induction p generalizing d w db with
  | raise e => trivial
  | ret a => exact fun db₂ h₂ ho => hq _ _ _ _ (h db₂ h₂ ho)
  | stmt f k ih =>
    intro db₂ h₂ ho lk b ops hf
    obtain ⟨hown, hk⟩ := h db₂ h₂ ho lk b ops hf
    exact ⟨hown, ih _ hk⟩
  | io f k ih => exact fun db₂ h₂ ho env world => ih _ (h db₂ h₂ ho env world)
  | assign o p ih => exact fun db₂ h₂ ho => ih (h db₂ h₂ ho)
  | flush p ih => exact fun db₂ h₂ ho => ih (h db₂ h₂ ho)

theorem Safe.closure {Q' : α → List B.Op → List B.Op → B.Db → Prop}
    (htrans : ∀ p a b c, R p a b → R p b c → R p a c)
    (hq : ∀ a d w db, (∀ db', R (ret a) db db' → (∀ o ∈ w, Own o db') → Q a d w db') → Q' a d w db)
    (h : p.Safe R Own Q d w db) : p.Safe R Own Q' d w db := by
  induction p generalizing d w db with
  | raise e => trivial
  | ret a => exact fun db₂ h₂ _ => hq _ _ _ _ fun db₃ h₃ => h db₃ (htrans _ _ _ _ h₂ h₃)
  | stmt f k ih =>
    intro db₂ h₂ ho lk b ops hf
    obtain ⟨hown, hk⟩ := h db₂ h₂ ho lk b ops hf
    exact ⟨hown, ih _ hk⟩
  | io f k ih => exact fun db₂ h₂ ho env world => ih _ (h db₂ h₂ ho env world)
  | assign o p ih => exact fun db₂ h₂ ho => ih (h db₂ h₂ ho)
  | flush p ih => exact fun db₂ h₂ ho => ih (h db₂ h₂ ho)

theorem Safe.bind {R : Prog B β → B.Db → B.Db → Prop} {Q : β → List B.Op → List B.Op → B.Db → Prop}
    {k : α → Prog B β} (hrefl : ∀ p a, R p a a) (hown : ∀ o ∈ w, Own o db)
    (h : p.Safe (fun p => R (p >>= k)) Own (fun a d w db => (k a).Safe R Own Q d w db) d w db) :
    (p >>= k).Safe R Own Q d w db := by
  induction p generalizing d w db with
  | raise e => trivial
  | ret a => exact h db (hrefl _ db) hown
  | stmt f k' ih =>
    intro db₂ h₂ ho lk b ops hf
    obtain ⟨hops, hk⟩ := h db₂ h₂ ho lk b ops hf
    exact ⟨hops, ih _ (List.forall_mem_append.2 ⟨ho, hops⟩) hk⟩
  | io f k' ih => exact fun db₂ h₂ ho env world => ih _ ho (h db₂ h₂ ho env world)
  | assign o p ih => exact fun db₂ h₂ ho => ih ho (h db₂ h₂ ho)
  | flush p ih => exact fun db₂ h₂ ho => ih ho (h db₂ h₂ ho)

theorem own_flush (hcheck : ∀ o w db, (∀ o' ∈ w, Own o' db) →
      B.check o (applyAll B w db) = .ok () → Own o db) (hown : ∀ o ∈ w, Own o db)
    (h : flushAll B d (applyAll B w db) = .ok db') : ∀ o ∈ w ++ d, Own o db := by
  induction d generalizing w with
  | nil => simpa using hown
  | cons o d ih =>
    simp only [flushAll] at h
    split at h
    · rename_i hc
      have hown' : ∀ o' ∈ w ++ [o], Own o' db :=
        List.forall_mem_append.2 ⟨hown, by simpa using hcheck o w db hown hc⟩
      have := ih hown' (by rwa [applyAll_append])
      simpa using this
    · cases h

/-- What a safe program does when it runs alone. -/
theorem Safe.eval (hrefl : ∀ p a, R p a a) (hcheck : ∀ o w db, (∀ o' ∈ w, Own o' db) →
      B.check o (applyAll B w db) = .ok () → Own o db) (hown : ∀ o ∈ w, Own o db)
    (h : p.Safe R Own Q d w db) {world : B.World} {envs : Nat → B.Env} {a : α} {s : Session B}
    (he : p.eval ⟨applyAll B w db, d, world, envs⟩ = (.ok a, s)) :
    ∃ w', s.db = applyAll B w' db ∧ Q a s.dirty w' db := by
  induction p generalizing d w world envs with
  | raise e => cases he
  | ret b => cases he; exact ⟨w, rfl, h db (hrefl _ db) hown⟩
  | stmt f k ih =>
    simp only [Prog.eval] at he
    split at he
    · rename_i r hf
      obtain ⟨hops, hk⟩ := h db (hrefl _ db) hown _ r.1 r.2 hf
      rw [← applyAll_append] at he
      exact ih _ (List.forall_mem_append.2 ⟨hown, hops⟩) hk he
    · cases he
  | io f k ih => exact ih _ hown (h db (hrefl _ db) hown _ _) he
  | assign o p ih => exact ih hown (h db (hrefl _ db) hown) he
  | flush p ih =>
    simp only [Prog.eval] at he
    split at he
    · rename_i db' hf
      rw [flushAll_eq hf, ← applyAll_append] at he
      have hown' := own_flush hcheck hown hf
      exact ih hown' (h db (hrefl _ db) hown') he
    · cases he

/-- A program whose writes all satisfy `P`, from pending assignments and writes that do. -/
theorem Safe.of_emits {P : B.Op → Prop} (hP : ∀ o db, P o → Own o db) (h : p.Emits P)
    (hd : ∀ o ∈ w ++ d, P o) :
    p.Safe R Own (fun _ d w _ => ∀ o ∈ w ++ d, P o) d w db := by
  induction p generalizing d w db with
  | ret a => exact fun _ _ _ => hd
  | raise e => trivial
  | stmt f k ih =>
    intro db' _ _ lk b ops hf
    obtain ⟨hops, hk⟩ := h lk _ b ops hf
    refine ⟨fun o ho => hP o db' (hops o ho), ih b hk fun o ho => ?_⟩
    simp only [List.mem_append] at ho hd
    rcases ho with (ho | ho) | ho
    exacts [hd o (.inl ho), hops o ho, hd o (.inr ho)]
  | io f k ih => exact fun _ _ _ env world => ih _ (h _) hd
  | assign o p ih =>
    refine fun _ _ _ => ih h.2 fun o' ho => ?_
    rw [← List.append_assoc] at ho
    exact (List.mem_append.1 ho).elim (hd o') fun ho => List.mem_singleton.1 ho ▸ h.1
  | flush p ih => exact fun _ _ _ => ih h (by simpa using hd)

theorem Safe.and {Q' : α → List B.Op → List B.Op → B.Db → Prop} (h : p.Safe R Own Q d w db)
    (h' : p.Safe R Own Q' d w db) : p.Safe R Own (fun a d w db => Q a d w db ∧ Q' a d w db) d w db := by
  induction p generalizing d w db with
  | raise e => trivial
  | ret a => exact fun db₂ h₂ ho => ⟨h db₂ h₂ ho, h' db₂ h₂ ho⟩
  | stmt f k ih =>
    intro db₂ h₂ ho lk b ops hf
    obtain ⟨hown, hk⟩ := h db₂ h₂ ho lk b ops hf
    exact ⟨hown, ih _ hk (h' db₂ h₂ ho lk b ops hf).2⟩
  | io f k ih => exact fun db₂ h₂ ho env world => ih _ (h db₂ h₂ ho env world) (h' db₂ h₂ ho env world)
  | assign o p ih => exact fun db₂ h₂ ho => ih (h db₂ h₂ ho) (h' db₂ h₂ ho)
  | flush p ih => exact fun db₂ h₂ ho => ih (h db₂ h₂ ho) (h' db₂ h₂ ho)

theorem Safe.rely_mono {R' : Prog B α → B.Db → B.Db → Prop} (hR : ∀ p a b, R' p a b → R p a b)
    (h : p.Safe R Own Q d w db) : p.Safe R' Own Q d w db := by
  induction p generalizing d w db with
  | raise e => trivial
  | ret a => exact fun db₂ h₂ ho => h db₂ (hR _ _ _ h₂) ho
  | stmt f k ih =>
    intro db₂ h₂ ho lk b ops hf
    obtain ⟨hown, hk⟩ := h db₂ (hR _ _ _ h₂) ho lk b ops hf
    exact ⟨hown, ih _ hk⟩
  | io f k ih => exact fun db₂ h₂ ho env world => ih _ (h db₂ (hR _ _ _ h₂) ho env world)
  | assign o p ih => exact fun db₂ h₂ ho => ih (h db₂ (hR _ _ _ h₂) ho)
  | flush p ih => exact fun db₂ h₂ ho => ih (h db₂ (hR _ _ _ h₂) ho)

/-! Rules for the building blocks of a handler. -/

theorem Safe.query {R : Prog B β → B.Db → B.Db → Prop} {Q : β → List B.Op → List B.Op → B.Db → Prop}
    {q : B.Db → α} {k : α → Prog B β}
    (h : ∀ db', R (Prog.query q >>= k) db db' → (∀ o ∈ w, Own o db') →
      (k (q (applyAll B w db'))).Safe R Own Q d w db') : (Prog.query q >>= k).Safe R Own Q d w db := by
  intro db' hr ho lk b ops hf
  cases hf
  refine ⟨by simp, ?_⟩
  rw [List.append_nil]
  exact h db' hr ho

theorem Safe.query_nil {R : Prog B β → B.Db → B.Db → Prop} {Q : β → List B.Op → List B.Op → B.Db → Prop}
    {q : B.Db → α} {k : α → Prog B β} (h : ∀ db', R (Prog.query q >>= k) db db' →
      (k (q db')).Safe R Own Q d [] db') : (Prog.query q >>= k).Safe R Own Q d [] db :=
  Safe.query fun db' hr _ => h db' hr

theorem Safe.ask_at {R : Prog B β → B.Db → B.Db → Prop} {Q : β → List B.Op → List B.Op → B.Db → Prop}
    {f : B.Env → B.World → α × B.World} {k : α → Prog B β} (h : ∀ db', R (Prog.ask f >>= k) db db' →
      (∀ o ∈ w, Own o db') → ∀ a, (k a).Safe R Own Q d w db') : (Prog.ask f >>= k).Safe R Own Q d w db :=
  fun db' hr ho env world => h db' hr ho (f env world).1

section
variable {R : B.Db → B.Db → Prop} {Q : β → List B.Op → List B.Op → B.Db → Prop}
  {k : α → Prog B β} {p : Prog B β}

theorem Safe.ask (htrans : ∀ a b c, R a b → R b c → R a c) {f : B.Env → B.World → α × B.World}
    (h : ∀ a, (k a).Safe (fun _ => R) Own Q d w db) :
    (Prog.ask f >>= k).Safe (fun _ => R) Own Q d w db :=
  fun _ hr _ env world => (h (f env world).1).mono_db (fun _ => htrans) hr

theorem Safe.of_forall (htrans : ∀ a b c, R a b → R b c → R a c) (hown : ∀ o db, Own o db)
    (h : ∀ a d w db', R db db' → Q a d w db') : p.Safe (fun _ => R) Own Q d w db := by
  induction p generalizing d w db with
  | raise e => trivial
  | ret a => exact fun db₂ h₂ _ => h a _ _ db₂ h₂
  | stmt f k ih =>
    exact fun db₂ h₂ _ _ b _ _ =>
      ⟨fun o _ => hown o db₂, ih b fun a d w db₃ h₃ => h a d w db₃ (htrans _ _ _ h₂ h₃)⟩
  | io f k ih => exact fun db₂ h₂ _ env world => ih _ fun a d w db₃ h₃ => h a d w db₃ (htrans _ _ _ h₂ h₃)
  | assign o p ih => exact fun db₂ h₂ _ => ih fun a d w db₃ h₃ => h a d w db₃ (htrans _ _ _ h₂ h₃)
  | flush p ih => exact fun db₂ h₂ _ => ih fun a d w db₃ h₃ => h a d w db₃ (htrans _ _ _ h₂ h₃)

theorem Safe.set (htrans : ∀ a b c, R a b → R b c → R a c) {o : B.Op} {k : Unit → Prog B β}
    (h : (k ()).Safe (fun _ => R) Own Q (d ++ [o]) w db) :
    (Prog.set o >>= k).Safe (fun _ => R) Own Q d w db :=
  fun _ hr _ => h.mono_db (fun _ => htrans) hr

theorem Safe.flushSession {k : Unit → Prog B β}
    (h : ∀ db', R db db' → (∀ o ∈ w ++ d, Own o db') → (k ()).Safe (fun _ => R) Own Q [] (w ++ d) db') :
    (Prog.flushSession >>= k).Safe (fun _ => R) Own Q d w db := h

theorem Safe.executeAll {ops : B.Db → List B.Op} {k : Unit → Prog B β}
    (h : ∀ db', R db db' → (∀ o ∈ w, Own o db') → (∀ o ∈ ops (applyAll B w db'), Own o db') ∧
      (k ()).Safe (fun _ => R) Own Q d (w ++ ops (applyAll B w db')) db') :
    (Prog.executeAll ops >>= k).Safe (fun _ => R) Own Q d w db := by
  intro db' hr ho lk b ops' hf
  cases hf
  exact h db' hr ho

theorem Safe.commit {p : Prog B α} {Q : α → List B.Op → B.Db → Prop} (hrefl : ∀ db, R db db)
    (htrans : ∀ a b c, R a b → R b c → R a c)
    (h : p.Safe (fun _ => R) Own (fun a d w db => Q a (w ++ d) db) [] [] db) :
    p.commit.Safe (fun _ => R) Own (fun a _ w db => Q a w db) [] [] db := by
  refine Safe.bind (fun _ => hrefl) (by simp) (h.closure (fun _ => htrans) ?_)
  intro a d w db hq db₁ h₁ _ db₂ h₂ ho
  exact hq db₂ (htrans _ _ _ h₁ h₂) fun o hw => ho o (List.mem_append_left _ hw)

end

end Prog

/-- The transactions of `prog` rely on `R` and establish `Q`: `R` is a preorder, `Own` of a row
holds once it is written and is not lost by writes to other rows, and every program is safe against
`R` when it starts on a database that satisfies `I`. -/
structure Relies (prog : ρ → Prog B α) (I : B.Db → Prop) (R : ρ → Prog B α → B.Db → B.Db → Prop)
    (Own : B.Op → B.Db → Prop) (Q : ρ → α → List B.Op → B.Db → Prop) : Prop where
  refl : ∀ r p db, R r p db db
  trans : ∀ r p a b c, R r p a b → R r p b c → R r p a c
  check : ∀ o w db, (∀ o' ∈ w, Own o' db) → B.check o (applyAll B w db) = .ok () → Own o db
  stable : ∀ o o' db, (∀ key ∈ B.keys o, key ∉ B.keys o') → Own o db → Own o (B.apply o' db)
  safe : ∀ r db, I db → (prog r).commit.Safe (R r) Own (fun a _ w => Q r a w) [] [] db

/-- A transaction in flight is safe against the committed database. -/
def Phase.Guarded (R : Prog B α → B.Db → B.Db → Prop) (Own : B.Op → B.Db → Prop)
    (Q : α → List B.Op → B.Db → Prop) (db : B.Db) : Phase B α → Prop
  | .running p d w => p.Safe R Own (fun a _ w => Q a w) d w db
  | .committed _ => True
  | .rolledBack _ => True

/-- The remaining program of a transaction in flight satisfies `P`. -/
def Phase.Running (P : Prog B α → Prop) : Phase B α → Prop
  | .running p _ _ => P p
  | .committed _ => True
  | .rolledBack _ => True

/-- No row is written by both. -/
def Apart (w w' : List B.Op) : Prop := ∀ o ∈ w, ∀ o' ∈ w', ∀ key ∈ B.keys o, key ∉ B.keys o'

theorem Apart.symm {w w' : List B.Op} (h : Apart w w') : Apart w' w :=
  fun o ho o' ho' key hk hk' => h o' ho' o ho key hk' hk

/-- The invariant behind the rely rule: the committed database satisfies `I`, every transaction in
flight is safe against it and owns what it has written, and no two have written one row. -/
structure System.Guarded (I : B.Db → Prop) (R : ρ → Prog B α → B.Db → B.Db → Prop)
    (Own : B.Op → B.Db → Prop) (Q : ρ → α → List B.Op → B.Db → Prop) (s : System B ρ α) : Prop where
  inv : I s.db
  safe : ∀ t ∈ s.threads, t.phase.Guarded (R t.req) Own (Q t.req) s.db
  owned : ∀ t ∈ s.threads, ∀ o ∈ t.phase.writes, Own o s.db
  exclusive : ∀ (i j : Nat) (t t' : Thread B ρ α), i ≠ j → s.threads[i]? = some t →
    s.threads[j]? = some t' →
    Apart t.phase.writes t'.phase.writes

namespace Relies

variable {prog : ρ → Prog B α} {I : B.Db → Prop} {R : ρ → Prog B α → B.Db → B.Db → Prop}
  {Own : B.Op → B.Db → Prop} {Q : ρ → α → List B.Op → B.Db → Prop}

theorem phase_mono {r : ρ} {q : α → List B.Op → B.Db → Prop} {ph : Phase B α} {db db' : B.Db}
    (h : Relies prog I R Own Q) (hr : ph.Running fun p => R r p db db')
    (hp : ph.Guarded (R r) Own q db) :
    ph.Guarded (R r) Own q db' := by
  cases ph with
  | running p d w => exact Prog.Safe.mono_db (h.trans r) hp hr
  | committed a => trivial
  | rolledBack e => trivial

/-- One step of a transaction that does not commit: it stays safe, owns what it wrote and wrote
nothing that another transaction holds. -/
theorem moves_guarded {r : ρ} {q : α → List B.Op → B.Db → Prop} {lk : B.Key → Bool} {p : Prog B α}
    {d w : List B.Op} {ph : Phase B α} {db : B.Db} (h : Relies prog I R Own Q)
    (hm : System.Moves lk db p d w ph) (hp : p.Safe (R r) Own (fun a _ w => q a w) d w db)
    (ho : ∀ o ∈ w, Own o db) : ph.Guarded (R r) Own q db ∧ (∀ o ∈ ph.writes, Own o db) ∧
      ∀ o ∈ ph.writes, o ∈ w ∨ ∀ key ∈ B.keys o, lk key = false := by
  have hnil : ∀ o ∈ ([] : List B.Op), Own o db := by simp
  cases hm with
  | raise => exact ⟨trivial, hnil, by simp [Phase.writes]⟩
  | crash => exact ⟨trivial, hnil, by simp [Phase.writes]⟩
  | stmt hf hc =>
    obtain ⟨hops, hk⟩ := hp db (h.refl _ _ db) ho _ _ _ hf
    refine ⟨hk, List.forall_mem_append.2 ⟨ho, hops⟩, fun o hw => ?_⟩
    exact (List.mem_append.1 hw).imp id (hc o)
  | stmtError => exact ⟨trivial, ho, fun o hw => .inl hw⟩
  | io => exact ⟨hp db (h.refl _ _ db) ho _ _, ho, fun o hw => .inl hw⟩
  | assign => exact ⟨hp db (h.refl _ _ db) ho, ho, fun o hw => .inl hw⟩
  | flushNil =>
    refine ⟨?_, ho, fun o hw => .inl hw⟩
    have := hp db (h.refl _ _ db) (by simpa using ho)
    simpa [Phase.Guarded] using this
  | flushCons hk hc =>
    rename_i p' o d
    have hown : ∀ o' ∈ w ++ [o], Own o' db :=
      List.forall_mem_append.2 ⟨ho, by simpa using h.check o w db ho hk⟩
    refine ⟨?_, hown, fun o' hw => (List.mem_append.1 hw).imp id (hc o')⟩
    simpa [Phase.Guarded, Prog.Safe] using hp
  | flushError => exact ⟨trivial, ho, fun o hw => .inl hw⟩

variable {s : System B ρ α} {e : Event B ρ}

theorem of_commits {r : ρ} {a : α} {w : List B.Op} (h : Relies prog I R Own Q)
    (hs : s.Guarded I R Own Q) (hc : s.commits e = some (r, a, w)) : Q r a w s.db := by
  obtain ⟨t, ht, d, rfl⟩ := System.commits_some hc
  exact hs.safe _ ht s.db (h.refl _ _ s.db) (hs.owned _ ht)

theorem owned_applyAll (h : Relies prog I R Own Q) {o : B.Op} {w : List B.Op} {db : B.Db}
    (ho : Own o db) (hw : ∀ o' ∈ w, ∀ key ∈ B.keys o, key ∉ B.keys o') : Own o (applyAll B w db) :=
  applyAll_invariant (P := Own o) (fun o' ho' db => h.stable o o' db (hw o' ho')) ho

theorem of_scope (h : Relies prog I R Own Q) {r : ρ} {envs : Nat → B.Env} {s : State B} {a : α}
    (hi : I s.db) (hok : (scope (prog r) envs s).1 = .ok a) :
    ∃ w, (scope (prog r) envs s).2.db = applyAll B w s.db ∧ Q r a w s.db := by
  unfold scope at hok ⊢
  split at hok
  · rename_i b s' he
    obtain ⟨w, hw, hq⟩ := (h.safe r s.db hi).eval (h.refl r) h.check (by simp) he
    cases hok
    exact ⟨w, hw, hq⟩
  · cases hok

/-- Replacing transaction `i` keeps the writes of the transactions apart. -/
theorem exclusive_set {i : Nat} {r : ρ} {ph : Phase B α} (hs : s.Guarded I R Own Q)
    (hi : ∀ j t, j ≠ i → s.threads[j]? = some t → Apart ph.writes t.phase.writes) (j k : Nat)
    (t t' : Thread B ρ α) (hjk : j ≠ k) (hj : (s.threads.set i ⟨r, ph⟩)[j]? = some t)
    (hk : (s.threads.set i ⟨r, ph⟩)[k]? = some t') : Apart t.phase.writes t'.phase.writes := by
  rw [List.getElem?_set] at hj hk
  split at hj <;> split at hk
  · omega
  · rename_i hij hik
    subst hij
    split at hj
    · cases hj; exact hi k t' (Ne.symm hik) hk
    · cases hj
  · rename_i hij hik
    subst hik
    split at hk
    · cases hk; exact (hi j t (Ne.symm hij) hj).symm
    · cases hk
  · exact hs.exclusive j k t t' hjk hj hk

variable [DecidableEq B.Key]

/-- The rely rule, one event: if the event changes the database within what every transaction in
flight relies on and keeps `I`, the invariant is kept. -/
theorem next_guarded (h : Relies prog I R Own Q) (hs : s.Guarded I R Own Q)
    (hinv : I (s.next prog e).db)
    (hrel : ∀ t ∈ s.threads, t.phase.Running fun p => R t.req p s.db (s.next prog e).db) :
    (s.next prog e).Guarded I R Own Q := by
  have old : ∀ t ∈ s.threads, t.phase.Guarded (R t.req) Own (Q t.req) (s.next prog e).db :=
    fun t ht => h.phase_mono (hrel t ht) (hs.safe t ht)
  rcases System.next_cases prog s e with
    ⟨hn, -⟩ | ⟨r, hn, -, -⟩ | ⟨i, r, p, d, w, ph, wd, hi, hm, hn, -⟩ |
    ⟨i, r, a, d, w, hi, hn, -⟩
  · rw [hn]; exact hs
  · -- a new transaction has written nothing
    rw [hn] at old hinv ⊢
    refine ⟨hinv, fun t ht => ?_, fun t ht => ?_, fun j k t t' hjk hj hk => ?_⟩
    · rcases List.mem_append.1 ht with ht | ht
      · exact old t ht
      · rw [List.mem_singleton.1 ht]; exact h.safe r _ hs.inv
    · rcases List.mem_append.1 ht with ht | ht
      · exact hs.owned t ht
      · rw [List.mem_singleton.1 ht]; simp [Phase.writes]
    · simp only [List.getElem?_append] at hj hk
      split at hj
      · split at hk
        · exact hs.exclusive j k t t' hjk hj hk
        · rw [List.mem_singleton.1 (List.mem_of_getElem? hk)]; intro o _ o' ho'; cases ho'
      · rw [List.mem_singleton.1 (List.mem_of_getElem? hj)]; intro o ho; cases ho
  · have hi' := List.mem_of_getElem? hi
    obtain ⟨hsafe, howned, hfresh⟩ := h.moves_guarded hm (hs.safe _ hi') (hs.owned _ hi')
    rw [hn] at old hinv ⊢
    refine ⟨hinv,
      fun t ht => ?_,
        fun t ht => ?_, exclusive_set hs fun j t hj ht o ho o' ho' key hkey hkey' => ?_⟩
    · rcases List.mem_or_eq_of_mem_set ht with ht | rfl
      · exact old t ht
      · exact hsafe
    · rcases List.mem_or_eq_of_mem_set ht with ht | rfl
      · exact hs.owned t ht
      · exact howned
    · rcases hfresh o ho with hw | hc
      · exact hs.exclusive i j _ t (Ne.symm hj) hi ht o hw o' ho' key hkey hkey'
      · have hlk : s.locked i key = true := System.locked_iff.2 ⟨j, t, hj, ht, o', ho', hkey'⟩
        rw [hc key hkey] at hlk
        cases hlk
  · have hi' := List.mem_of_getElem? hi
    rw [hn] at old hinv ⊢
    refine ⟨hinv, fun t ht => ?_, fun t ht => ?_, exclusive_set hs fun j t hj ht o ho => by cases ho⟩
    · rcases List.mem_or_eq_of_mem_set ht with ht | rfl
      · exact old t ht
      · trivial
    · -- the others own what they wrote: transaction `i` wrote other rows
      obtain ⟨j, hj⟩ := List.mem_iff_getElem?.1 ht
      rw [List.getElem?_set] at hj
      split at hj
      · split at hj
        · cases hj; intro o ho; cases ho
        · cases hj
      · rename_i hij
        intro o ho
        exact h.owned_applyAll (hs.owned t (List.mem_of_getElem? hj) o ho) fun o' ho' key hk =>
          hs.exclusive j i t _ (Ne.symm hij) hj hi o ho o' ho' key hk

end Relies

/-- The rely rule when every commit stays within one preorder `R`, which keeps `I`. -/
structure Bounded (prog : ρ → Prog B α) (I : B.Db → Prop) (R : B.Db → B.Db → Prop)
    (Own : B.Op → B.Db → Prop) (Q : ρ → α → List B.Op → B.Db → Prop) : Prop where
  refl : ∀ db, R db db
  trans : ∀ a b c, R a b → R b c → R a c
  inv : ∀ db db', I db → R db db' → I db'
  check : ∀ o w db, (∀ o' ∈ w, Own o' db) → B.check o (applyAll B w db) = .ok () → Own o db
  stable : ∀ o o' db, (∀ key ∈ B.keys o, key ∉ B.keys o') → Own o db → Own o (B.apply o' db)
  safe : ∀ r db, I db → (prog r).Safe (fun _ => R) Own (fun a d w => Q r a (w ++ d)) [] [] db
  commit : ∀ r a w db, I db → Q r a w db → R db (applyAll B w db)

namespace Bounded

variable {prog : ρ → Prog B α} {I : B.Db → Prop} {R : B.Db → B.Db → Prop} {Own : B.Op → B.Db → Prop}
  {Q : ρ → α → List B.Op → B.Db → Prop} {s : System B ρ α} {e : Event B ρ}

theorem relies (h : Bounded prog I R Own Q) : Relies prog I (fun _ _ => R) Own Q where
  refl _ _ := h.refl
  trans _ _ := h.trans
  check := h.check
  stable := h.stable
  safe r db hi := (h.safe r db hi).commit h.refl h.trans

variable [DecidableEq B.Key]

theorem next_rel (h : Bounded prog I R Own Q) (hs : s.Guarded I (fun _ _ => R) Own Q) :
    R s.db (s.next prog e).db := by
  rw [System.next_db]
  split
  · rename_i r a w hc
    exact h.commit r a w _ hs.inv (h.relies.of_commits hs hc)
  · exact h.refl _

theorem next_guarded (h : Bounded prog I R Own Q) (hs : s.Guarded I (fun _ _ => R) Own Q) :
    (s.next prog e).Guarded I (fun _ _ => R) Own Q := by
  refine h.relies.next_guarded hs (h.inv _ _ hs.inv (h.next_rel hs)) fun t _ => ?_
  cases t.phase with
  | running p d w => exact h.next_rel hs
  | committed a => trivial
  | rolledBack e => trivial

end Bounded

theorem Phase.Ended.writes {ph : Phase B α} (h : ph.Ended) : ph.writes = [] := by
  cases ph with
  | running p d w => exact h.elim
  | committed a => rfl
  | rolledBack e => rfl

theorem System.Quiet.guarded {I : B.Db → Prop} {R : ρ → Prog B α → B.Db → B.Db → Prop}
    {Own : B.Op → B.Db → Prop} {Q : ρ → α → List B.Op → B.Db → Prop} {s : System B ρ α} (h : s.Quiet)
    (hi : I s.db) : s.Guarded I R Own Q := by
  refine ⟨hi, fun t ht => ?_, fun t ht o ho => ?_, fun i j t t' _ hti _ o ho => ?_⟩
  · have hq := h t ht
    cases hp : t.phase with
    | running p d w => rw [hp] at hq; exact hq.elim
    | committed a => trivial
    | rolledBack e => trivial
  · rw [(h t ht).writes] at ho; cases ho
  · rw [(h t (List.mem_of_getElem? hti)).writes] at ho; cases ho

theorem System.init_quiet (db : B.Db) (world : B.World) :
    (System.init db world : System B ρ α).Quiet := by
  intro t ht; cases ht

/-! ### A request alone

A transaction whose neighbours have all ended takes the steps of `Prog.eval`: `scope` is the
schedule that runs one request from start to end. -/

namespace System

variable [DecidableEq B.Key] {prog : ρ → Prog B α}

/-- Every transaction but `i` has ended. -/
def Solo (s : System B ρ α) (i : Nat) : Prop :=
  ∀ j, j ≠ i → ∀ t, s.threads[j]? = some t → ∀ p d w, t.phase ≠ .running p d w

omit [DecidableEq B.Key] in
theorem Solo.put {s : System B ρ α} {i : Nat} (h : s.Solo i) (r : ρ) (ph : Phase B α)
    (world : B.World) :
    ({ s.put i r ph with world := world } : System B ρ α).Solo i := by
  intro j hj t ht
  have ht' : (s.threads.set i ⟨r, ph⟩)[j]? = some t := ht
  rw [List.getElem?_set_ne (Ne.symm hj)] at ht'
  exact h j hj t ht'

theorem Solo.locked {s : System B ρ α} {i : Nat} (h : s.Solo i) : s.locked i = fun _ => false := by
  funext key
  rw [← Bool.not_eq_true, locked_iff]
  rintro ⟨j, t, hj, ht, o, ho, -⟩
  have hr := h j hj t ht
  cases hp : t.phase with
  | running p d w => exact hr p d w hp
  | committed a => rw [hp] at ho; cases ho
  | rolledBack e => rw [hp] at ho; cases ho

theorem Solo.free {s : System B ρ α} {i : Nat} (h : s.Solo i) (ops : List B.Op) :
    s.free i ops = true := by
  simp [System.free, h.locked]

theorem next_step {s : System B ρ α} {i : Nat} {r : ρ} {p : Prog B α} {d w : List B.Op}
    (h : s.threads[i]? = some ⟨r, .running p d w⟩) (env : B.Env) :
    s.next prog (.step i env) = s.advance i env r p d w := by
  simp [next, h]

omit [DecidableEq B.Key] in
theorem getElem?_put {s : System B ρ α} {i : Nat} {t : Thread B ρ α} (h : s.threads[i]? = some t)
    (r : ρ) (ph : Phase B α) : (s.threads.set i ⟨r, ph⟩)[i]? = some ⟨r, ph⟩ :=
  List.getElem?_set_self (List.getElem?_eq_some_iff.1 h).1

omit [DecidableEq B.Key] in
theorem put_self {s : System B ρ α} {i : Nat} {r : ρ} {ph : Phase B α}
    (h : s.threads[i]? = some ⟨r, ph⟩) :
    s.put i r ph = s := by
  obtain ⟨hi, h⟩ := List.getElem?_eq_some_iff.1 h
  simp only [put, ← h, List.set_getElem_self]

/-- The program at the end of its evaluation. -/
def outcome : Except B.Err α → Prog B α
  | .ok a => .ret a
  | .error e => .raise e

variable (prog) in
/-- Flushing alone performs `flushAll`. -/
theorem solo_flush {i : Nat} {r : ρ} {p : Prog B α} (env : B.Env) (d : List B.Op) :
    ∀ {w : List B.Op} {s : System B ρ α}, s.threads[i]? = some ⟨r, .running (.flush p) d w⟩ → s.Solo i →
    ∃ es, match flushAll B d (applyAll B w s.db) with
      | .ok _ => run (next prog) s es = s.put i r (.running p [] (w ++ d))
      | .error e => ∃ d' w', run (next prog) s es = s.put i r (.running (.raise e) d' w') := by
  induction d with
  | nil =>
    intro w s h _
    exact ⟨[.step i env], by simp [flushAll, run, next_step h, advance]⟩
  | cons o d ih =>
    intro w s h hs
    simp only [flushAll]
    cases hc : B.check o (applyAll B w s.db) with
    | error e =>
      exact ⟨[.step i env], d, w, by simp [run, next_step h, advance, hc]⟩
    | ok u =>
      have hstep : s.next prog (.step i env) = s.put i r (.running (.flush p) d (w ++ [o])) := by
        simp [next_step h, advance, hc, hs.free]
      obtain ⟨es, hes⟩ := ih (s := s.put i r (.running (.flush p) d (w ++ [o]))) (w := w ++ [o])
        (getElem?_put h r _) (hs.put r _ s.world)
      have hdb : applyAll B (w ++ [o]) (s.put i r (.running (.flush p) d (w ++ [o]))).db =
          B.apply o (applyAll B w s.db) := applyAll_append _ _ _
      rw [hdb] at hes
      refine ⟨.step i env :: es, ?_⟩
      simp only [run, hstep]
      split <;> rename_i heq <;> simp only [heq] at hes
      · rw [hes]; simp [put, List.set_set]
      · obtain ⟨d', w', hes⟩ := hes
        exact ⟨d', w', by rw [hes]; simp [put, List.set_set]⟩

variable (prog) in
/-- Alone, a transaction performs the evaluation of its program. -/
theorem solo_eval {i : Nat} {r : ρ} (env : B.Env) (p : Prog B α) :
    ∀ {d w : List B.Op} {s : System B ρ α}, s.threads[i]? = some ⟨r, .running p d w⟩ → s.Solo i →
    ∀ envs, ∃ es d' w',
      let out := p.eval ⟨applyAll B w s.db, d, s.world, envs⟩
      run (next prog) s es =
          { s.put i r (.running (outcome out.1) d' w') with world := out.2.world } ∧
        ∀ a, out.1 = .ok a → applyAll B w' s.db = out.2.db ∧ d' = out.2.dirty := by
  induction p with
  | ret a =>
    intro d w s h _ envs
    exact ⟨[], d, w, (put_self h).symm, fun a _ => ⟨rfl, rfl⟩⟩
  | raise e =>
    intro d w s h _ envs
    exact ⟨[], d, w, (put_self h).symm, fun a ha => by cases ha⟩
  | stmt f k ih =>
    intro d w s h hs envs
    cases hf : f (fun _ => false) (applyAll B w s.db) with
    | error e =>
      refine ⟨[.step i env], d, w, ?_, fun a ha => ?_⟩
      · simp [run, next_step h, advance, hs.locked, hf, Prog.eval, outcome, put]
      · simp [Prog.eval, hf] at ha
    | ok b =>
      have hstep : s.next prog (.step i env) = s.put i r (.running (k b.1) d (w ++ b.2)) := by
        simp [next_step h, advance, hs.locked, hf, hs.free]
      obtain ⟨es, d', w', hes⟩ := ih b.1 (s := s.put i r (.running (k b.1) d (w ++ b.2)))
        (getElem?_put h r _) (hs.put r _ s.world) envs
      refine ⟨.step i env :: es, d', w', ?_⟩
      simp only [run, hstep, Prog.eval, hf, ← applyAll_append]
      simpa [put, List.set_set] using hes
  | io f k ih =>
    intro d w s h hs envs
    have hstep : s.next prog (.step i (envs 0)) =
        { s.put i r (.running (k (f (envs 0) s.world).1) d w) with
          world := (f (envs 0) s.world).2 } := by
      simp [next_step h, advance]
    obtain ⟨es, d', w', hes⟩ := ih (f (envs 0) s.world).1
      (s := { s.put i r (.running (k (f (envs 0) s.world).1) d w) with
        world := (f (envs 0) s.world).2 })
      (getElem?_put h r _) (hs.put r _ _) (fun n => envs (n + 1))
    refine ⟨.step i (envs 0) :: es, d', w', ?_⟩
    simp only [run, hstep, Prog.eval]
    simpa [put, List.set_set] using hes
  | assign o p ih =>
    intro d w s h hs envs
    have hstep : s.next prog (.step i env) = s.put i r (.running p (d ++ [o]) w) := by
      simp [next_step h, advance]
    obtain ⟨es, d', w', hes⟩ := ih (s := s.put i r (.running p (d ++ [o]) w))
      (getElem?_put h r _) (hs.put r _ s.world) envs
    refine ⟨.step i env :: es, d', w', ?_⟩
    simp only [run, hstep, Prog.eval]
    simpa [put, List.set_set] using hes
  | flush p ih =>
    intro d w s h hs envs
    obtain ⟨es₁, hes₁⟩ := solo_flush prog env d h hs
    cases hf : flushAll B d (applyAll B w s.db) with
    | error e =>
      obtain ⟨d', w', hes₁⟩ := by simpa only [hf] using hes₁
      refine ⟨es₁, d', w', ?_, fun a ha => ?_⟩
      · simpa [Prog.eval, hf, outcome, put] using hes₁
      · simp [Prog.eval, hf] at ha
    | ok db =>
      simp only [hf] at hes₁
      obtain ⟨es, d', w', hes⟩ := ih (s := s.put i r (.running p [] (w ++ d)))
        (getElem?_put h r _) (hs.put r _ s.world) envs
      refine ⟨es₁ ++ es, d', w', ?_⟩
      have hdb : applyAll B (w ++ d) s.db = db := by
        rw [applyAll_append]; exact (flushAll_eq hf).symm
      simp only [run_append, hes₁, Prog.eval, hf, ← hdb]
      simpa [put, List.set_set] using hes

/-- A request on a quiet system, run without interruption, ends as `scope` says. -/
theorem serial_scope {s : System B ρ α} (hq : s.Quiet) (r : ρ) (envs : Nat → B.Env) :
    ∃ es, let out := scope (prog r) envs ⟨s.db, s.world⟩
      let s' := run (next prog) s (.start r :: es)
      s'.db = out.2.db ∧ s'.world = out.2.world ∧ s'.Quiet ∧
        s'.history = s.history ++ match out.1 with
          | .ok a => [(r, a)]
          | .error _ => [] := by
  set i := s.threads.length with hi
  set s₁ : System B ρ α := { s with threads := s.threads ++ [⟨r, .running (prog r).commit [] []⟩] }
    with hs₁
  have hget : s₁.threads[i]? = some ⟨r, .running (prog r).commit [] []⟩ := by simp [hs₁, hi]
  have hsolo : s₁.Solo i := by
    intro j hj t ht p d w hp
    have hjl : j < i := by
      have := (List.getElem?_eq_some_iff.1 ht).1
      simp only [hs₁, List.length_append, List.length_singleton] at this
      omega
    rw [hs₁, List.getElem?_append_left hjl] at ht
    have := hq t (List.mem_of_getElem? ht)
    rw [hp] at this
    exact this
  have hquiet : ∀ ph : Phase B α, ph.Ended → ∀ t ∈ s₁.threads.set i ⟨r, ph⟩, t.phase.Ended := by
    intro ph hph t ht
    rw [show s₁.threads.set i ⟨r, ph⟩ = s.threads ++ [⟨r, ph⟩] by
      simp [hs₁, hi, List.set_append_right]] at ht
    rcases List.mem_append.1 ht with ht | ht
    · exact hq t ht
    · rw [List.mem_singleton.1 ht]; exact hph
  obtain ⟨es, d', w', hrun, hok⟩ := solo_eval prog (envs 0) _ hget hsolo envs
  -- one more step commits the transaction or rolls it back
  refine ⟨es ++ [.step i (envs 0)], ?_⟩
  have hstart : s.next prog (.start r) = s₁ := rfl
  have heval : (prog r).commit.eval ⟨applyAll B [] s₁.db, [], s₁.world, envs⟩ =
      (prog r).commit.eval ⟨s.db, [], s.world, envs⟩ := rfl
  rw [heval] at hrun hok
  simp only [run, run_append, hstart, hrun, scope]
  rw [next_step (getElem?_put hget r _)]
  generalize (prog r).commit.eval _ = out at hok ⊢
  obtain ⟨res, s'⟩ := out
  cases res with
  | error e =>
    refine ⟨rfl, rfl, fun t ht => hquiet (.rolledBack (some e)) trivial t ?_, ?_⟩
    · simpa [advance, outcome, put, List.set_set] using ht
    · simp [advance, outcome, put, hs₁]
  | ok a =>
    refine ⟨(hok a rfl).1, rfl, fun t ht => hquiet (.committed a) trivial t ?_, rfl⟩
    simpa [advance, outcome, put, List.set_set] using ht

end System

end Kit
