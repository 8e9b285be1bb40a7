import TrafficPlatform.Kit.Ends
import TrafficPlatform.Kit.Interleave

/-!
# Programs against a part of a larger backend

A backend is part of another one when the larger database and world show the smaller ones and every
row write of the smaller one is a row write of the larger one. A program of the part then runs in
the whole as it runs alone in the part (`Prog.eval_embed`): it reads what the whole shows of the
part, and what it ends in is what the whole shows afterwards.
-/

namespace Kit

/-- How the backend `B` is part of `C`. -/
structure Embedding (B C : Backend) where
  db : C.Db → B.Db
  world : C.World → B.World
  put : B.World → C.World → C.World
  env : C.Env → B.Env
  err : B.Err → C.Err
  op : B.Op → C.Op
  db_apply : ∀ o d, db (C.apply (op o) d) = B.apply o (db d)
  check_op : ∀ o d, C.check (op o) d = (B.check o (db d)).mapError err
  world_put : ∀ w w', world (put w w') = w

variable {B C : Backend} {α β : Type} (E : Embedding B C)

/-- The program of the part in the whole; it runs while no other transaction holds a row. -/
def Prog.embed : Prog B α → Prog C α
  | .ret a => .ret a
  | .raise e => .raise (E.err e)
  | .stmt f k => .stmt (fun _ d => match f (fun _ => false) (E.db d) with
      | .ok r => .ok (r.1, r.2.map E.op)
      | .error e => .error (E.err e)) fun b => (k b).embed
  | .io f k => .io (fun env w =>
      let r := f (E.env env) (E.world w)
      (.ok r.1, E.put r.2 w)) fun x => match x with
        | .ok x => (k x).embed
        | .error e => .raise e
  | .assign o p => .assign (E.op o) p.embed
  | .flush p => .flush p.embed

namespace Embedding

/-- What the whole session shows of the part, whose pending assignments are `d`. -/
def session (s : Session C) (d : List B.Op) : Session B :=
  ⟨E.db s.db, d, E.world s.world, fun n => E.env (s.envs n)⟩

theorem db_applyAll (ops : List B.Op) (db : C.Db) :
    E.db (applyAll C (ops.map E.op) db) = applyAll B ops (E.db db) := by
  induction ops generalizing db with
  | nil => rfl
  | cons o ops ih => rw [List.map_cons, applyAll_cons, ih, E.db_apply, applyAll_cons]

theorem flushAll (ops : List B.Op) (db : C.Db) : flushAll C (ops.map E.op) db =
    match Kit.flushAll B ops (E.db db) with
    | .ok _ => .ok (applyAll C (ops.map E.op) db)
    | .error e => .error (E.err e) := by
  induction ops generalizing db with
  | nil => rfl
  | cons o ops ih =>
    simp only [List.map_cons, Kit.flushAll, E.check_op]
    cases hc : B.check o (E.db db) with
    | error e => rfl
    | ok u =>
      simp only [Except.mapError]
      rw [ih, E.db_apply]
      rfl

end Embedding

/-- What the run of the embedded program ends in: the same result as the run of the program, and a
session that shows the other one. -/
structure Embeds (E : Embedding B C) (r : Except B.Err α × Session B)
    (r' : Except C.Err α × Session C) : Prop where
  result : r'.1 = r.1.mapError E.err
  session : ∃ d, r'.2.dirty = d.map E.op ∧ E.session r'.2 d = r.2

/-- The embedded program runs in the whole as the program runs in the part. -/
theorem Prog.eval_embed (p : Prog B α) (s : Session C) (d : List B.Op) (hd : s.dirty = d.map E.op) :
    Embeds E (p.eval (E.session s d)) ((p.embed E).eval s) := by
  induction p generalizing s d with
  | ret a => exact ⟨rfl, d, hd, rfl⟩
  | raise e => exact ⟨rfl, d, hd, rfl⟩
  | stmt f k ih =>
    simp only [embed, eval, Embedding.session]
    cases hf : f (fun _ => false) (E.db s.db) with
    | error e => exact ⟨rfl, d, hd, rfl⟩
    | ok r =>
      dsimp only
      have hnext := ih r.1 { s with db := applyAll C (r.2.map E.op) s.db } d hd
      rw [Embedding.session, E.db_applyAll] at hnext
      exact hnext
  | io f k ih =>
    simp only [embed, eval]
    have hnext := ih (f (E.env (s.envs 0)) (E.world s.world)).1
      (s.step (E.put (f (E.env (s.envs 0)) (E.world s.world)).2 s.world)) d hd
    have hsession : E.session (s.step (E.put (f (E.env (s.envs 0)) (E.world s.world)).2 s.world)) d =
        (E.session s d).step (f (E.env (s.envs 0)) (E.world s.world)).2 := by
      simp only [Embedding.session, Session.step, E.world_put]
    rw [hsession] at hnext
    exact hnext
  | assign o p ih =>
    simp only [embed, eval]
    refine ih { s with dirty := s.dirty ++ [E.op o] } (d ++ [o]) ?_
    rw [hd, List.map_append]
    rfl
  | flush p ih =>
    simp only [embed, eval]
    rw [hd, E.flushAll]
    cases hf : flushAll B d (E.db s.db) with
    | error e =>
      simp only [Embedding.session, hf]
      exact ⟨rfl, d, hd, rfl⟩
    | ok db =>
      have hnext := ih { s with db := applyAll C (d.map E.op) s.db, dirty := [] } [] rfl
      simp only [Embedding.session, E.db_applyAll, ← flushAll_eq hf] at hnext
      simp only [Embedding.session, hf]
      exact hnext

theorem Prog.Ends.embed {p : Prog B α} {Q : α → Session B → Prop} {R : B.Err → Session B → Prop}
    {s : Session C} {d : List B.Op} (hd : s.dirty = d.map E.op)
    (h : p.Ends Q R (E.session s d)) : (p.embed E).Ends
      (fun a s' => ∃ d', s'.dirty = d'.map E.op ∧ Q a (E.session s' d'))
      (fun e s' => ∃ e₀ d', e = E.err e₀ ∧ s'.dirty = d'.map E.op ∧ R e₀ (E.session s' d')) s := by
  obtain ⟨hresult, d', hd', hsession⟩ := p.eval_embed E s d hd
  unfold Ends at h ⊢
  split at h <;> rename_i heq <;> rw [heq] at hresult hsession
  · split <;> rename_i heq' <;> rw [heq'] at hresult hsession hd'
    · cases hresult
      exact ⟨d', hd', hsession ▸ h⟩
    · cases hresult
  · split <;> rename_i heq' <;> rw [heq'] at hresult hsession hd'
    · cases hresult
    · cases hresult
      exact ⟨_, d', rfl, hd', hsession ▸ h⟩

/-- What the program writes when it runs alone is what the embedded program writes. -/
theorem Prog.Safe.embed {p : Prog B α} {Q : α → List B.Op → List B.Op → B.Db → Prop}
    {d w : List B.Op} {db : C.Db} (h : p.Safe (fun _ => Eq) (fun _ _ => True) Q d w (E.db db)) :
      (p.embed E).Safe (fun _ => Eq) (fun _ _ => True)
      (fun a d' w' db' => ∃ d w, d' = d.map E.op ∧ w' = w.map E.op ∧ Q a d w (E.db db'))
          (d.map E.op) (w.map E.op) db := by
  have htriv : ∀ ops : List B.Op, ∀ o ∈ ops, (fun (_ : B.Op) (_ : B.Db) => True) o (E.db db) :=
    fun _ _ _ => trivial
  induction p generalizing d w with
  | ret a =>
    rintro _ rfl -
    exact ⟨d, w, rfl, rfl, h _ rfl (htriv w)⟩
  | raise e => trivial
  | stmt f k ih =>
    rintro _ rfl - lk b ops hf
    dsimp only at hf
    rw [E.db_applyAll] at hf
    split at hf
    · rename_i r hr
      cases hf
      refine ⟨fun _ _ => trivial, ?_⟩
      rw [← List.map_append]
      exact ih _ (h _ rfl (htriv w) _ _ _ hr).2
    · cases hf
  | io f k ih =>
    rw [Prog.embed]
    rintro _ rfl - env world
    exact ih _ (h _ rfl (htriv w) (E.env env) (E.world world))
  | assign o p ih =>
    rintro _ rfl -
    have hnext := ih (h _ rfl (htriv w))
    rwa [List.map_append] at hnext
  | flush p ih =>
    rintro _ rfl -
    have hnext := ih (h _ rfl (htriv _))
    rwa [List.map_append] at hnext

theorem Prog.Safe.ends {p : Prog B α} {Q : α → List B.Op → List B.Op → B.Db → Prop} {s : Session B}
    (h : p.Safe (fun _ => Eq) (fun _ _ => True) Q s.dirty [] s.db) :
    p.Ends (fun a s' => ∃ w, s'.db = applyAll B w s.db ∧ Q a s'.dirty w s.db) (fun _ _ => True) s := by
  unfold Ends
  split <;> rename_i heq
  · exact h.eval (fun _ _ => rfl) (fun _ _ _ _ _ => trivial) (by simp) heq
  · trivial

theorem Prog.Within.embed {p : Prog B α} {W : B.World → B.World → Prop} {W' : C.World → C.World → Prop}
    (hW : ∀ w w', W (E.world w') w → W' w' (E.put w w')) (h : p.Within W) : (p.embed E).Within W' := by
  induction p with
  | ret a => trivial
  | raise e => trivial
  | stmt f k ih => exact fun b => ih b (h b)
  | io f k ih =>
    rw [Prog.embed]
    refine ⟨fun env w => hW _ _ (h.1 _ _), fun x => ?_⟩
    cases x with
    | ok x => exact ih _ (h.2 x)
    | error e => trivial
  | assign o p ih => exact ih h
  | flush p ih => exact ih h

/-- A program that only queries leaves the session of the whole as it is. -/
theorem Prog.Queries.embed {p : Prog B α} (h : p.Queries) : (p.embed E).Queries := by
  induction p with
  | ret a => trivial
  | raise e => trivial
  | stmt f k ih =>
    intro lk db b ops hf
    dsimp only at hf
    split at hf
    · rename_i r hr
      cases hf
      obtain ⟨hops, hk⟩ := h _ _ _ _ hr
      exact ⟨by rw [hops]; rfl, ih _ hk⟩
    · cases hf
  | io f k ih => exact h.elim
  | assign o p ih => exact h.elim
  | flush p ih => exact h.elim

theorem Prog.Queries.embed_ends {p : Prog B α} (hq : p.Queries) {P : α → Prop} {F : B.Err → Prop}
    {s : Session C} (h : p.Ends (fun a _ => P a) (fun e _ => F e) (E.session s [])) :
      (p.embed E).Ends (fun a s' => s' = s ∧ P a)
      (fun e s' => s' = s ∧ ∃ e₀, e = E.err e₀ ∧ F e₀) s := by
  -- whatever is pending, the program does not look at it
  have heval : ∀ {α : Type} (p : Prog B α), p.Queries →
      ((p.embed E).eval s).1 = (p.eval (E.session s [])).1.mapError E.err := by
    intro α p hp
    induction p with
    | ret a => rfl
    | raise e => rfl
    | stmt f k ih =>
      simp only [Prog.embed, Prog.eval, Embedding.session]
      cases hf : f (fun _ => false) (E.db s.db) with
      | error e => rfl
      | ok r =>
        obtain ⟨hops, hk⟩ := hp _ _ _ _ hf
        have hnext := ih _ hk
        dsimp only
        rw [hops]
        exact hnext
    | io f k ih => exact hp.elim
    | assign o p ih => exact hp.elim
    | flush p ih => exact hp.elim
  have hresult := heval p hq
  have hs := (hq.embed E).eval s
  have hs' := hq.eval (E.session s [])
  unfold Ends at h ⊢
  split at h <;> rename_i heq <;> rw [heq] at hresult hs' <;> cases hs'
  · split <;> rename_i heq' <;> rw [heq'] at hresult hs <;> cases hs <;> cases hresult
    exact ⟨rfl, h⟩
  · split <;> rename_i heq' <;> rw [heq'] at hresult hs <;> cases hs <;> cases hresult
    exact ⟨rfl, _, rfl, h⟩

/-! ### Embedded programs among others -/

/-- No statement writes: all writes are assignments that a flush brings to the database. -/
def Prog.Deferring : Prog B α → Prop
  | .ret _ => True
  | .raise _ => True
  | .stmt f k => ∀ lk db b ops, f lk db = .ok (b, ops) → ops = [] ∧ (k b).Deferring
  | .io _ k => ∀ x, (k x).Deferring
  | .assign _ p => p.Deferring
  | .flush p => p.Deferring

namespace Prog

theorem Deferring.bind {p : Prog B α} {k : α → Prog B β} (h : p.Deferring)
    (hk : ∀ a, (k a).Deferring) : (p >>= k).Deferring := by
  induction p with
  | ret a => exact hk a
  | raise e => trivial
  | stmt f k' ih => exact fun lk db b ops hf => ⟨(h lk db b ops hf).1, ih b (h lk db b ops hf).2⟩
  | io f k' ih => exact fun x => ih x (h x)
  | assign o p ih => exact ih h
  | flush p ih => exact ih h

theorem Queries.deferring {p : Prog B α} (h : p.Queries) : p.Deferring := by
  induction p with
  | ret a => trivial
  | raise e => trivial
  | stmt f k ih => exact fun lk db b ops hf => ⟨(h lk db b ops hf).1, ih b (h lk db b ops hf).2⟩
  | io f k ih => exact h.elim
  | assign o p ih => exact h.elim
  | flush p ih => exact h.elim

theorem deferring_query (q : B.Db → α) : (query q).Deferring := (queries_query q).deferring

theorem deferring_ask (f : B.Env → B.World → α × B.World) : (ask f).Deferring :=
  fun x => by cases x <;> trivial

theorem deferring_set (o : B.Op) : (set o).Deferring := trivial

theorem deferring_flushSession : (flushSession : Prog B Unit).Deferring := trivial

/-- What a deferring program of the part writes among others, the embedded program writes: the flush
checks what it is to own. -/
theorem Safe.embed_rely {p : Prog B α} {R : B.Db → B.Db → Prop} {R' : C.Db → C.Db → Prop}
    (hR : ∀ a b, R' a b → R (E.db a) (E.db b)) {Own : C.Op → C.Db → Prop}
    {Q : α → List B.Op → List B.Op → B.Db → Prop} {d w : List B.Op} {db : C.Db} (hp : p.Deferring)
    (h : p.Safe (fun _ => R) (fun _ _ => True) Q d w (E.db db)) :
    (p.embed E).Safe (fun _ => R') Own
      (fun a d' w' db' => ∃ d w, d' = d.map E.op ∧ w' = w.map E.op ∧ Q a d w (E.db db'))
      (d.map E.op) (w.map E.op) db := by
  have htriv : ∀ ops : List B.Op, ∀ o ∈ ops, True := fun _ _ _ => trivial
  induction p generalizing d w db with
  | ret a => exact fun db' hr _ => ⟨d, w, rfl, rfl, h _ (hR _ _ hr) (htriv w)⟩
  | raise e => trivial
  | stmt f k ih =>
    intro db' hr ho lk b ops hf
    dsimp only at hf
    rw [E.db_applyAll] at hf
    split at hf
    · rename_i r hf'
      cases hf
      obtain ⟨hops, hk⟩ := hp _ _ _ _ hf'
      have hsafe := (h _ (hR _ _ hr) (htriv w) _ _ _ hf').2
      rw [hops, List.append_nil] at hsafe
      rw [hops, List.map_nil, List.append_nil]
      exact ⟨by simp, ih _ hk hsafe⟩
    · cases hf
  | io f k ih =>
    rw [Prog.embed]
    exact fun db' hr ho env world => ih _ (hp _) (h _ (hR _ _ hr) (htriv w) (E.env env) (E.world world))
  | assign o p ih =>
    intro db' hr ho
    have hnext := ih hp (h _ (hR _ _ hr) (htriv w))
    rwa [List.map_append] at hnext
  | flush p ih =>
    intro db' hr ho
    have hnext := ih hp (h _ (hR _ _ hr) (htriv _))
    rwa [List.map_append] at hnext

end Prog

end Kit
