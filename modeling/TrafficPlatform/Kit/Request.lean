import Mathlib.Logic.Basic

/-!
# Requests as programs against a database and a world

A request handler is a program of atomic steps: a database statement (`stmt`), an effect outside
the database (`io`: clock, random source, cache, network), an assignment to a loaded entity that
the session writes later (`assign`), and the `flush` that writes the pending assignments. It ends
by returning or by raising. The same program is run alone (`scope`: one transaction that commits
when the handler returns and is rolled back when it raises) or interleaved with others
(`Kit.Interleave`).

The world is not transactional: what `io` does to it stays when the transaction is rolled back.
-/

namespace Kit

/-- What requests run against. `apply` is the effect of one row write, `check` the error the
database raises for it instead, and `keys` are the rows (or unique index entries) it locks. -/
structure Backend where
  Db : Type
  World : Type
  Env : Type
  Err : Type
  Op : Type
  Key : Type
  apply : Op → Db → Db
  check : Op → Db → Except Err Unit
  keys : Op → List Key

/-- A request handler that returns an `α`. A statement sees which keys other transactions hold and
the database with the transaction's own writes, and answers with a result and the row writes it
makes. -/
inductive Prog (B : Backend) (α : Type) : Type 1
  | ret (a : α)
  | raise (e : B.Err)
  | stmt {β : Type} (f : (B.Key → Bool) → B.Db → Except B.Err (β × List B.Op)) (k : β → Prog B α)
  | io {β : Type} (f : B.Env → B.World → Except B.Err β × B.World)
      (k : Except B.Err β → Prog B α)
  | assign (o : B.Op) (k : Prog B α)
  | flush (k : Prog B α)

variable {B : Backend} {α β γ : Type}

namespace Prog

def bind : Prog B α → (α → Prog B β) → Prog B β
  | ret a, k => k a
  | raise e, _ => raise e
  | stmt f k', k => stmt f fun b => (k' b).bind k
  | io f k', k => io f fun b => (k' b).bind k
  | assign o p, k => assign o (p.bind k)
  | flush p, k => flush (p.bind k)

instance : Monad (Prog B) where
  pure := ret
  bind := bind

@[simp] theorem pure_eq (a : α) : (pure a : Prog B α) = ret a := rfl

@[simp] theorem ret_bind (a : α) (k : α → Prog B β) : (ret a : Prog B α) >>= k = k a := rfl

@[simp] theorem raise_bind (e : B.Err) (k : α → Prog B β) : (raise e : Prog B α) >>= k = raise e := rfl

@[simp] theorem stmt_bind (f : (B.Key → Bool) → B.Db → Except B.Err (γ × List B.Op)) (k' : γ → Prog B α)
    (k : α → Prog B β) : stmt f k' >>= k = stmt f fun b => k' b >>= k := rfl

@[simp] theorem io_bind (f : B.Env → B.World → Except B.Err γ × B.World)
    (k' : Except B.Err γ → Prog B α) (k : α → Prog B β) :
    io f k' >>= k = io f fun b => k' b >>= k := rfl

@[simp] theorem assign_bind (o : B.Op) (p : Prog B α) (k : α → Prog B β) :
    assign o p >>= k = assign o (p >>= k) := rfl

@[simp] theorem flush_bind (p : Prog B α) (k : α → Prog B β) : flush p >>= k = flush (p >>= k) := rfl

theorem bind_assoc' (p : Prog B α) (k : α → Prog B β) (l : β → Prog B γ) :
    (p >>= k) >>= l = p >>= fun a => k a >>= l := by
  induction p with
  | ret a => rfl
  | raise e => rfl
  | stmt f k' ih => simp only [stmt_bind, ih]
  | io f k' ih => simp only [io_bind, ih]
  | assign o p ih => simp only [assign_bind, ih]
  | flush p ih => simp only [flush_bind, ih]

@[simp] theorem bind_ret (p : Prog B α) : p >>= ret = p := by
  induction p with
  | ret a => rfl
  | raise e => rfl
  | stmt f k' ih => simp only [stmt_bind, ih]
  | io f k' ih => simp only [io_bind, ih]
  | assign o p ih => simp only [assign_bind, ih]
  | flush p ih => simp only [flush_bind, ih]

/-- A `SELECT`. -/
def query (q : B.Db → β) : Prog B β := stmt (fun _ db => .ok (q db, [])) ret

/-- An `INSERT`, `UPDATE` or `DELETE` of one row. -/
def execute (o : B.Op) : Prog B Unit :=
  stmt (fun _ db => (B.check o db).map fun _ => ((), [o])) ret

/-- An `UPDATE … WHERE`: the rows it writes are read off the visible database. -/
def executeAll (ops : B.Db → List B.Op) : Prog B Unit := stmt (fun _ db => .ok ((), ops db)) ret

/-- An effect on the world that cannot fail. -/
def ask (f : B.Env → B.World → β × B.World) : Prog B β :=
  io (fun env w => (.ok (f env w).1, (f env w).2)) fun
    | .ok b => ret b
    | .error e => raise e

/-- An effect on the world whose error is handed to the program (`try … except`). -/
def attempt (f : B.Env → B.World → Except B.Err β × B.World) : Prog B (Except B.Err β) := io f ret

/-- A deferred attribute assignment to a loaded entity. -/
def set (o : B.Op) : Prog B Unit := assign o (ret ())

/-- `session.flush()`. -/
def flushSession : Prog B Unit := flush (ret ())

/-- The whole transaction of a handler: the session is flushed when it returns. -/
def commit (p : Prog B α) : Prog B α := p >>= fun a => flush (ret a)

end Prog

/-! ### What a program can write and do -/

/-- Every row write that the program can make satisfies `P`. -/
def Prog.Emits (P : B.Op → Prop) : Prog B α → Prop
  | ret _ => True
  | raise _ => True
  | stmt f k => ∀ lk db b ops, f lk db = .ok (b, ops) → (∀ o ∈ ops, P o) ∧ (k b).Emits P
  | io _ k => ∀ x, (k x).Emits P
  | assign o p => P o ∧ p.Emits P
  | flush p => p.Emits P

/-- Every effect of the program changes the world within `W`. -/
def Prog.Within (W : B.World → B.World → Prop) : Prog B α → Prop
  | ret _ => True
  | raise _ => True
  | stmt _ k => ∀ b, (k b).Within W
  | io f k => (∀ env w, W w (f env w).2) ∧ ∀ x, (k x).Within W
  | assign _ p => p.Within W
  | flush p => p.Within W

/-- The program has no statement left to execute. -/
def Prog.Finishing : Prog B α → Prop
  | ret _ => True
  | raise _ => True
  | stmt _ _ => False
  | io _ k => ∀ x, (k x).Finishing
  | assign _ p => p.Finishing
  | flush p => p.Finishing

section
variable {P : B.Op → Prop} {W : B.World → B.World → Prop} {p : Prog B α} {k : α → Prog B β}

theorem Prog.Emits.bind (h : p.Emits P) (hk : ∀ a, (k a).Emits P) : (p >>= k).Emits P := by
  induction p with
  | ret a => exact hk a
  | raise e => trivial
  | stmt f k' ih => exact fun lk db b ops hf => ⟨(h lk db b ops hf).1, ih b (h lk db b ops hf).2⟩
  | io f k' ih => exact fun x => ih x (h x)
  | assign o p ih => exact ⟨h.1, ih h.2⟩
  | flush p ih => exact ih h

theorem Prog.Emits.mono {P' : B.Op → Prop} (h : p.Emits P) (hP : ∀ o, P o → P' o) : p.Emits P' := by
  induction p with
  | ret a => trivial
  | raise e => trivial
  | stmt f k' ih => exact fun lk db b ops hf =>
    ⟨fun o ho => hP o ((h lk db b ops hf).1 o ho), ih b (h lk db b ops hf).2⟩
  | io f k' ih => exact fun x => ih x (h x)
  | assign o p ih => exact ⟨hP o h.1, ih h.2⟩
  | flush p ih => exact ih h

theorem Prog.finishing_ask {f : B.Env → B.World → α × B.World} (h : ∀ a, (k a).Finishing) :
    (ask f >>= k).Finishing := fun x =>
  match x with
  | .ok a => h a
  | .error _ => trivial

theorem Prog.Within.bind (h : p.Within W) (hk : ∀ a, (k a).Within W) : (p >>= k).Within W := by
  induction p with
  | ret a => exact hk a
  | raise e => trivial
  | stmt f k' ih => exact fun b => ih b (h b)
  | io f k' ih => exact ⟨h.1, fun x => ih x (h.2 x)⟩
  | assign o p ih => exact ih h
  | flush p ih => exact ih h

@[simp] theorem Prog.emits_ret (a : α) : (ret a : Prog B α).Emits P := trivial

@[simp] theorem Prog.emits_raise (e : B.Err) : (raise e : Prog B α).Emits P := trivial

@[simp] theorem Prog.emits_query (q : B.Db → α) :
    (query q >>= k).Emits P ↔ ∀ db, (k (q db)).Emits P := by
  constructor
  · exact fun h db => (h (fun _ => false) db (q db) [] rfl).2
  · intro h lk db b ops hf
    cases hf
    exact ⟨by simp, h db⟩

theorem Prog.emits_execute {o : B.Op} (h : P o) : (execute o).Emits P := by
  intro lk db b ops hf
  dsimp only at hf
  cases hc : B.check o db with
  | error e =>
    rw [hc] at hf
    cases hf
  | ok u =>
    rw [hc] at hf
    cases hf
    exact ⟨by simpa using h, trivial⟩

@[simp] theorem Prog.emits_ask (f : B.Env → B.World → α × B.World) :
    (ask f >>= k).Emits P ↔ ∀ a, (k a).Emits P := by
  constructor
  · exact fun h a => h (.ok a)
  · intro h x
    cases x with
    | ok a => exact h a
    | error e => trivial

@[simp] theorem Prog.emits_set (o : B.Op) (k : Unit → Prog B β) :
    (set o >>= k).Emits P ↔ P o ∧ (k ()).Emits P := Iff.rfl

@[simp] theorem Prog.emits_flushSession (k : Unit → Prog B β) :
    (flushSession >>= k).Emits P ↔ (k ()).Emits P := Iff.rfl

@[simp] theorem Prog.within_ret (a : α) : (ret a : Prog B α).Within W := trivial

@[simp] theorem Prog.within_raise (e : B.Err) : (raise e : Prog B α).Within W := trivial

@[simp] theorem Prog.within_query (q : B.Db → α) : (query q).Within W := fun _ => trivial

@[simp] theorem Prog.within_executeAll (ops : B.Db → List B.Op) :
    (executeAll ops : Prog B Unit).Within W :=
  fun _ => trivial

@[simp] theorem Prog.within_set (o : B.Op) : (set o : Prog B Unit).Within W := trivial

@[simp] theorem Prog.within_flushSession : (flushSession : Prog B Unit).Within W := trivial

theorem Prog.within_ask {f : B.Env → B.World → α × B.World} (h : ∀ env w, W w (f env w).2) :
    (ask f : Prog B α).Within W :=
  ⟨h, fun x => by cases x <;> trivial⟩

end

/-- The row writes in order. -/
def applyAll (B : Backend) (ops : List B.Op) (db : B.Db) : B.Db :=
  ops.foldl (fun db o => B.apply o db) db

@[simp] theorem applyAll_nil (db : B.Db) : applyAll B [] db = db := rfl

@[simp] theorem applyAll_cons (o : B.Op) (ops : List B.Op) (db : B.Db) :
    applyAll B (o :: ops) db = applyAll B ops (B.apply o db) := rfl

theorem applyAll_append (ops ops' : List B.Op) (db : B.Db) :
    applyAll B (ops ++ ops') db = applyAll B ops' (applyAll B ops db) := List.foldl_append

theorem applyAll_invariant {P : B.Db → Prop} {ops : List B.Op}
    (h : ∀ o ∈ ops, ∀ db, P db → P (B.apply o db)) {db : B.Db} (hp : P db) : P (applyAll B ops db) := by
  induction ops generalizing db with
  | nil => exact hp
  | cons o ops ih =>
    exact ih (fun o' ho' => h o' (List.mem_cons_of_mem _ ho')) (h o (List.mem_cons_self ..) db hp)

/-- `flush` of the pending assignments; the first error stops it. -/
def flushAll (B : Backend) : List B.Op → B.Db → Except B.Err B.Db
  | [], db => .ok db
  | o :: ops, db =>
    match B.check o db with
    | .ok () => flushAll B ops (B.apply o db)
    | .error e => .error e

theorem flushAll_cons {o : B.Op} {ops : List B.Op} {db : B.Db} (h : B.check o db = .ok ()) :
    flushAll B (o :: ops) db = flushAll B ops (B.apply o db) := by
  simp only [flushAll, h]

theorem flushAll_eq {ops : List B.Op} {db db' : B.Db} (h : flushAll B ops db = .ok db') :
    db' = applyAll B ops db := by
  induction ops generalizing db with
  | nil => cases h; rfl
  | cons o ops ih =>
    simp only [flushAll] at h
    split at h
    · exact ih h
    · cases h

theorem flushAll_append {ops ops' : List B.Op} {db db' : B.Db} (h : flushAll B ops db = .ok db') :
    flushAll B (ops ++ ops') db = flushAll B ops' db' := by
  induction ops generalizing db with
  | nil => cases h; rfl
  | cons o ops ih =>
    simp only [List.cons_append, flushAll] at h ⊢
    split at h
    · exact ih h
    · cases h

theorem flushAll_concat {ops : List B.Op} {o : B.Op} {db db' : B.Db}
    (h : flushAll B (ops ++ [o]) db = .ok db') :
    B.check o (applyAll B ops db) = .ok () ∧ db' = B.apply o (applyAll B ops db) := by
  induction ops generalizing db with
  | nil =>
    simp only [List.nil_append, flushAll] at h
    split at h
    · rename_i hc
      exact ⟨hc, (Except.ok.inj h).symm⟩
    · cases h
  | cons o' ops ih =>
    simp only [List.cons_append, flushAll] at h
    split at h
    · exact ih h
    · cases h

/-! ### One request alone -/

/-- The database and the world between two requests. -/
structure State (B : Backend) where
  db : B.Db
  world : B.World

/-- A session inside a transaction: the database with the transaction's writes, the assignments
not flushed yet, the world, and what the coming `io` steps will read from outside. -/
structure Session (B : Backend) where
  db : B.Db
  dirty : List B.Op
  world : B.World
  envs : Nat → B.Env

/-- The program run alone. -/
def Prog.eval : Prog B α → Session B → Except B.Err α × Session B
  | ret a, s => (.ok a, s)
  | raise e, s => (.error e, s)
  | stmt f k, s =>
    match f (fun _ => false) s.db with
    | .ok r => (k r.1).eval { s with db := applyAll B r.2 s.db }
    | .error e => (.error e, s)
  | io f k, s =>
    (k (f (s.envs 0) s.world).1).eval
      { s with world := (f (s.envs 0) s.world).2, envs := fun n => s.envs (n + 1) }
  | assign o p, s => p.eval { s with dirty := s.dirty ++ [o] }
  | flush p, s =>
    match flushAll B s.dirty s.db with
    | .ok db => p.eval { s with db := db, dirty := [] }
    | .error e => (.error e, s)

section
variable {k : α → Prog B β} {s : Session B}

@[simp] theorem Prog.eval_ret (a : α) : (ret a : Prog B α).eval s = (.ok a, s) := rfl

@[simp] theorem Prog.eval_raise (e : B.Err) : (raise e : Prog B α).eval s = (.error e, s) := rfl

@[simp] theorem Prog.eval_query (q : B.Db → α) : (query q >>= k).eval s = (k (q s.db)).eval s := rfl

@[simp] theorem Prog.eval_executeAll (ops : B.Db → List B.Op) (k : Unit → Prog B β) :
    (executeAll ops >>= k).eval s = (k ()).eval { s with db := applyAll B (ops s.db) s.db } := rfl

theorem Prog.eval_execute (o : B.Op) (k : Unit → Prog B β) :
    (execute o >>= k).eval s = match B.check o s.db with
      | .ok () => (k ()).eval { s with db := B.apply o s.db }
      | .error e => (.error e, s) := by
  simp only [execute, stmt_bind, eval]
  cases B.check o s.db <;> rfl

@[simp] theorem Prog.eval_ask (f : B.Env → B.World → α × B.World) :
    (ask f >>= k).eval s = (k (f (s.envs 0) s.world).1).eval
      { s with world := (f (s.envs 0) s.world).2, envs := fun n => s.envs (n + 1) } := rfl

@[simp] theorem Prog.eval_set (o : B.Op) (k : Unit → Prog B β) :
    (set o >>= k).eval s = (k ()).eval { s with dirty := s.dirty ++ [o] } := rfl

theorem Prog.eval_flushSession (k : Unit → Prog B β) :
    (flushSession >>= k).eval s = match flushAll B s.dirty s.db with
      | .ok db => (k ()).eval { s with db := db, dirty := [] }
      | .error e => (.error e, s) := rfl

end

theorem Prog.eval_bind (p : Prog B α) (k : α → Prog B β) (s : Session B) :
    (p >>= k).eval s = match p.eval s with
      | (.ok a, s') => (k a).eval s'
      | (.error e, s') => (.error e, s') := by
  induction p generalizing s with
  | ret a => rfl
  | raise e => rfl
  | stmt f k' ih =>
    simp only [stmt_bind, eval]
    split
    · exact ih _ _
    · rfl
  | io f k' ih => exact ih _ _
  | assign o p ih => exact ih _
  | flush p ih =>
    simp only [flush_bind, eval]
    split
    · exact ih _
    · rfl

theorem Prog.eval_bind_raise (p : Prog B α) (e : B.Err) (s : Session B) :
    ∃ e' s', (p >>= fun _ => (raise e : Prog B β)).eval s = (.error e', s') := by
  rw [eval_bind]
  split
  · exact ⟨e, _, rfl⟩
  · exact ⟨_, _, rfl⟩

/-- One request in a session scope: commit when the handler returns, roll back when it raises. -/
def scope (p : Prog B α) (envs : Nat → B.Env) (s : State B) : Except B.Err α × State B :=
  match p.commit.eval ⟨s.db, [], s.world, envs⟩ with
  | (.ok a, s') => (.ok a, ⟨s'.db, s'.world⟩)
  | (.error e, s') => (.error e, ⟨s.db, s'.world⟩)

theorem Prog.Within.eval {W : B.World → B.World → Prop} (hrefl : ∀ w, W w w)
    (htrans : ∀ a b c, W a b → W b c → W a c) {p : Prog B α} (h : p.Within W) (s : Session B) :
    W s.world (p.eval s).2.world := by
  induction p generalizing s with
  | ret a => exact hrefl _
  | raise e => exact hrefl _
  | stmt f k ih =>
    simp only [Prog.eval]
    split
    · rename_i r _
      exact ih r.1 (h r.1) { s with db := applyAll B r.2 s.db }
    · exact hrefl _
  | io f k ih =>
    have := ih _ (h.2 (f (s.envs 0) s.world).1)
      { s with world := (f (s.envs 0) s.world).2, envs := fun n => s.envs (n + 1) }
    exact htrans _ _ _ (h.1 (s.envs 0) s.world) this
  | assign o p ih => exact ih h { s with dirty := s.dirty ++ [o] }
  | flush p ih =>
    simp only [Prog.eval]
    split
    · rename_i db _
      exact ih h { s with db := db, dirty := [] }
    · exact hrefl _

theorem scope_world {W : B.World → B.World → Prop} (hrefl : ∀ w, W w w)
    (htrans : ∀ a b c, W a b → W b c → W a c) {p : Prog B α} (h : p.Within W) (envs : Nat → B.Env)
    (s : State B) : W s.world (scope p envs s).2.world := by
  have hc : p.commit.Within W := h.bind fun _ => trivial
  have := hc.eval hrefl htrans ⟨s.db, [], s.world, envs⟩
  unfold scope
  split <;> rename_i heq <;> rw [heq] at this <;> exact this

theorem scope_of_error {p : Prog B α} {envs : Nat → B.Env} {s : State B} {e : B.Err} {s' : Session B}
    (h : p.commit.eval ⟨s.db, [], s.world, envs⟩ = (.error e, s')) :
    scope p envs s = (.error e, ⟨s.db, s'.world⟩) := by
  simp only [scope, h]

theorem scope_of_ok {p : Prog B α} {envs : Nat → B.Env} {s : State B} {a : α} {s' : Session B}
    (h : p.commit.eval ⟨s.db, [], s.world, envs⟩ = (.ok a, s')) :
    scope p envs s = (.ok a, ⟨s'.db, s'.world⟩) := by
  simp only [scope, h]

theorem scope_set (o : B.Op) (envs : Nat → B.Env) (s : State B) :
    (scope (Prog.set o) envs s).2 = match B.check o s.db with
      | .ok () => ⟨B.apply o s.db, s.world⟩
      | .error _ => s := by
  have hflush : flushAll B [o] s.db = match B.check o s.db with
      | .ok () => .ok (B.apply o s.db)
      | .error e => .error e := rfl
  have hrun : (Prog.set o : Prog B Unit).commit.eval ⟨s.db, [], s.world, envs⟩ = match flushAll B
      [o] s.db with
      | .ok db => (.ok (), ⟨db, [], s.world, envs⟩)
      | .error e => (.error e, ⟨s.db, [o], s.world, envs⟩) := rfl
  unfold scope
  rw [hrun, hflush]
  cases B.check o s.db <;> rfl

theorem scope_error {p : Prog B α} {envs : Nat → B.Env} {s : State B} {e : B.Err}
    (h : (scope p envs s).1 = .error e) : (scope p envs s).2.db = s.db := by
  unfold scope at h ⊢
  split at h
  · cases h
  · rfl

end Kit
