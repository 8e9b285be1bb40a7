import TrafficPlatform.Kit.Request

/-!
# What a request alone ends in

`p.Ends Q E s`: run alone from the session `s`, the program returns with `Q` or raises with `E`. The
two postconditions are carried through a program by `Ends.bind`, so that a handler of many early
exits is taken apart along its `do` block.
-/

namespace Kit

variable {B : Backend} {α β : Type}

/-- The session after an effect on the world. -/
def Session.step (s : Session B) (w : B.World) : Session B :=
  { s with world := w, envs := fun n => s.envs (n + 1) }

/-- Some of the environments of `s` have been used. -/
def Session.Later (s s' : Session B) : Prop := ∃ k, ∀ n, s'.envs n = s.envs (n + k)

theorem Session.Later.refl (s : Session B) : s.Later s := ⟨0, fun _ => rfl⟩

theorem Session.Later.trans {a b c : Session B} (h : a.Later b) (h' : b.Later c) : a.Later c := by
  obtain ⟨k, hk⟩ := h
  obtain ⟨k', hk'⟩ := h'
  exact ⟨k' + k, fun n => by rw [hk', hk, Nat.add_assoc]⟩

theorem Prog.eval_later (p : Prog B α) (s : Session B) : s.Later (p.eval s).2 := by
  induction p generalizing s with
  | ret a => exact .refl s
  | raise e => exact .refl s
  | stmt f k ih =>
    rw [eval]
    split
    · exact ih _ _
    · exact .refl s
  | io f k ih =>
    have hstep : s.Later
      { s with world := (f (s.envs 0) s.world).2, envs := fun n => s.envs (n + 1) } :=
        ⟨1, fun _ => rfl⟩
    exact hstep.trans (ih _ _)
  | assign o p ih => exact ih _
  | flush p ih =>
    rw [eval]
    split
    · exact ih _
    · exact .refl s

/-- The pending writes of the session make `db`. -/
def Session.Flushes (s : Session B) (db : B.Db) : Prop := flushAll B s.dirty s.db = .ok db

theorem Session.Flushes.append {s : Session B} {db : B.Db} (h : s.Flushes db) {ops : List B.Op}
    {db' : B.Db}
    (hops : flushAll B ops db = .ok db') : Session.Flushes { s with dirty := s.dirty ++ ops } db' :=
  (flushAll_append h).trans hops

theorem Session.Flushes.set {s : Session B} {db : B.Db} (h : s.Flushes db) {o : B.Op}
    (hc : B.check o db = .ok ()) :
    Session.Flushes { s with dirty := s.dirty ++ [o] } (B.apply o db) :=
  h.append (flushAll_cons hc)

def Prog.Ends (p : Prog B α) (Q : α → Session B → Prop) (E : B.Err → Session B → Prop)
    (s : Session B) : Prop :=
  match p.eval s with
  | (.ok a, s') => Q a s'
  | (.error e, s') => E e s'

namespace Prog

variable {p : Prog B α} {k : α → Prog B β} {s s' : Session B} {Q Q' : α → Session B → Prop}
    {R : β → Session B → Prop}
  {E E' : B.Err → Session B → Prop}

theorem Ends.of_ok (h : p.Ends Q E s) {a : α} (he : p.eval s = (.ok a, s')) : Q a s' := by
  unfold Ends at h
  rwa [he] at h

theorem Ends.of_error (h : p.Ends Q E s) {e : B.Err} (he : p.eval s = (.error e, s')) : E e s' := by
  unfold Ends at h
  rwa [he] at h

theorem Ends.snd {P : Session B → Prop} (h : p.Ends (fun _ => P) (fun _ => P) s) : P (p.eval s).2 := by
  unfold Ends at h
  split at h <;> rename_i heq <;> rw [heq] <;> exact h

theorem Ends.mono (h : p.Ends Q E s) (hQ : ∀ a s', Q a s' → Q' a s')
    (hE : ∀ e s', E e s' → E' e s') : p.Ends Q' E' s := by
  unfold Ends at h ⊢
  split <;> rename_i heq <;> rw [heq] at h
  · exact hQ _ _ h
  · exact hE _ _ h

theorem Ends.and (h : p.Ends Q E s) (h' : p.Ends Q' E' s) :
    p.Ends (fun a s' => Q a s' ∧ Q' a s') (fun e s' => E e s' ∧ E' e s') s := by
  unfold Ends at h h' ⊢
  split <;> rename_i heq <;> rw [heq] at h h' <;> exact ⟨h, h'⟩

theorem Ends.bind (h : p.Ends Q E s) (hk : ∀ a s', Q a s' → (k a).Ends R E s') :
    (p >>= k).Ends R E s := by
  unfold Ends at h ⊢
  rw [eval_bind]
  rcases he : p.eval s with ⟨a | e, s'⟩ <;> rw [he] at h
  · exact h
  · exact hk _ _ h

theorem ends_true (p : Prog B α) (s : Session B) : p.Ends (fun _ _ => True) (fun _ _ => True) s := by
  unfold Ends
  split <;> trivial

theorem ends_later (p : Prog B α) (s : Session B) :
    p.Ends (fun _ s' => s.Later s') (fun _ s' => s.Later s') s := by
  have h := p.eval_later s
  unfold Ends
  split <;> rename_i heq <;> rwa [heq] at h

theorem Ends.exists_ok (h : p.Ends Q (fun _ _ => False) s) : ∃ a s', p.eval s = (.ok a, s') ∧
    Q a s' := by
  unfold Ends at h
  split at h <;> rename_i heq
  · exact ⟨_, _, heq, h⟩
  · exact h.elim

theorem ends_bind_ok {a : α} (h : p.eval s = (.ok a, s')) (hk : (k a).Ends R E s') :
    (p >>= k).Ends R E s := by
  unfold Ends at hk ⊢
  rw [eval_bind, h]
  exact hk

theorem ends_bind_error {e : B.Err} (h : p.eval s = (.error e, s')) (he : E e s') :
    (p >>= k).Ends R E s := by
  unfold Ends
  rw [eval_bind, h]
  exact he

theorem ends_ret {a : α} (h : Q a s) : (ret a : Prog B α).Ends Q E s := h

theorem ends_raise {e : B.Err} (h : E e s) : (raise e : Prog B α).Ends Q E s := h

theorem ends_query {q : B.Db → α} (h : Q (q s.db) s) : (query q : Prog B α).Ends Q E s := h

theorem ends_query_bind {q : B.Db → α} (h : (k (q s.db)).Ends R E s) : (query q >>= k).Ends R E s := h

theorem ends_set {o : B.Op} {Q : Unit → Session B → Prop}
    (h : Q () { s with dirty := s.dirty ++ [o] }) :
    (set o : Prog B Unit).Ends Q E s := h

theorem ends_flush {db : B.Db} {Q : Unit → Session B → Prop} (h : flushAll B s.dirty s.db = .ok db)
    (hQ : Q () { s with db := db, dirty := [] }) : (flushSession : Prog B Unit).Ends Q E s := by
  unfold Ends flushSession
  simp only [eval, h]
  exact hQ

theorem ends_ask {f : B.Env → B.World → α × B.World}
    (h : Q (f (s.envs 0) s.world).1 (s.step (f (s.envs 0) s.world).2)) :
      (ask f : Prog B α).Ends Q E s := h

theorem ends_set_bind {o : B.Op} {k : Unit → Prog B β}
    (h : (k ()).Ends R E { s with dirty := s.dirty ++ [o] }) :
    (set o >>= k).Ends R E s := h

theorem ends_flush_bind {k : Unit → Prog B β}
    (hok : ∀ db, flushAll B s.dirty s.db = .ok db → (k ()).Ends R E { s with db := db, dirty := [] })
    (herr : ∀ e, flushAll B s.dirty s.db = .error e → E e s) : (flushSession >>= k).Ends R E s := by
  unfold Ends
  rw [eval_flushSession]
  cases hf : flushAll B s.dirty s.db with
  | ok db => exact hok db hf
  | error e => exact herr e hf

theorem ends_flushes {db : B.Db} (h : s.Flushes db) {k : Unit → Prog B β}
    (hk : (k ()).Ends R E { s with db := db, dirty := [] }) : (flushSession >>= k).Ends R E s := by
  refine ends_flush_bind (fun db' hdb' => ?_) fun e he => ?_
  · cases h.symm.trans hdb'
    exact hk
  · cases h.symm.trans he

theorem ends_attempt {f : B.Env → B.World → Except B.Err α × B.World}
    {Q : Except B.Err α → Session B → Prop}
    (h : Q (f (s.envs 0) s.world).1 (s.step (f (s.envs 0) s.world).2)) : (attempt f).Ends Q E s := h

theorem ends_execute {o : B.Op} {k : Unit → Prog B β}
    (hok : B.check o s.db = .ok () → (k ()).Ends R E { s with db := B.apply o s.db })
    (herr : ∀ e, B.check o s.db = .error e → E e s) : (execute o >>= k).Ends R E s := by
  unfold Ends
  rw [eval_execute]
  cases hc : B.check o s.db with
  | ok u => exact hok hc
  | error e => exact herr e hc

/-- What every write of the program satisfies, when the pending ones do. -/
theorem Emits.ends {P : B.Op → Prop} (h : p.Emits P) (hd : ∀ o ∈ s.dirty, P o) : p.Ends
    (fun _ s' => (∀ o ∈ s'.dirty, P o) ∧ ∃ w, s'.db = applyAll B w s.db ∧ ∀ o ∈ w, P o)
        (fun _ _ => True) s := by
  induction p generalizing s with
  | ret a => exact ⟨hd, [], rfl, by simp⟩
  | raise e => trivial
  | stmt f k ih =>
    unfold Ends
    simp only [Prog.eval]
    cases hf : f (fun _ => false) s.db with
    | error e => trivial
    | ok r =>
      obtain ⟨hops, hk⟩ := h _ _ _ _ hf
      refine (ih r.1 (s := { s with db := applyAll B r.2 s.db }) hk hd).mono ?_ fun _ _ h => h
      rintro _ s' ⟨hd', w, hw, hp⟩
      exact ⟨hd', r.2 ++ w, hw.trans (applyAll_append _ _ _).symm, List.forall_mem_append.2 ⟨hops, hp⟩⟩
  | io f k ih => exact ih _ (h _) hd
  | assign o p ih =>
    refine ih (s := { s with dirty := s.dirty ++ [o] }) h.2
      (List.forall_mem_append.2 ⟨hd, fun o' ho' => ?_⟩)
    rw [List.mem_singleton.1 ho']
    exact h.1
  | flush p ih =>
    unfold Ends
    simp only [Prog.eval]
    cases hf : flushAll B s.dirty s.db with
    | error e => trivial
    | ok db =>
      refine (ih (s := { s with db := db, dirty := [] }) h (by simp)).mono ?_ fun _ _ h => h
      rintro _ s' ⟨hd', w, hw, hp⟩
      refine ⟨hd', s.dirty ++ w, ?_, List.forall_mem_append.2 ⟨hd, hp⟩⟩
      rw [applyAll_append, ← flushAll_eq hf]
      exact hw

/-! ### Programs that write nothing -/

/-- The program makes no row writes and no assignments, and its effects change the world within `W`. -/
def Reads (W : B.World → B.World → Prop) : Prog B α → Prop
  | ret _ => True
  | raise _ => True
  | stmt f k => ∀ lk db b ops, f lk db = .ok (b, ops) → ops = [] ∧ (k b).Reads W
  | io f k => (∀ env w, W w (f env w).2) ∧ ∀ x, (k x).Reads W
  | assign _ _ => False
  | flush _ => False

variable {W W' : B.World → B.World → Prop}

theorem Reads.emits {P : B.Op → Prop} (h : p.Reads W) : p.Emits P := by
  induction p with
  | ret a => trivial
  | raise e => trivial
  | stmt f k ih =>
    intro lk db b ops hf
    obtain ⟨hops, hk⟩ := h lk db b ops hf
    exact ⟨by simp [hops], ih b hk⟩
  | io f k ih => exact fun x => ih x (h.2 x)
  | assign o p ih => exact h.elim
  | flush p ih => exact h.elim

theorem Reads.mono (h : p.Reads W) (hW : ∀ w w', W w w' → W' w w') : p.Reads W' := by
  induction p with
  | ret a => trivial
  | raise e => trivial
  | stmt f k ih => exact fun lk db b ops hf => ⟨(h lk db b ops hf).1, ih b (h lk db b ops hf).2⟩
  | io f k ih => exact ⟨fun env w => hW _ _ (h.1 env w), fun x => ih x (h.2 x)⟩
  | assign o p ih => exact h.elim
  | flush p ih => exact h.elim

theorem Reads.bind (h : p.Reads W) (hk : ∀ a, (k a).Reads W) : (p >>= k).Reads W := by
  induction p with
  | ret a => exact hk a
  | raise e => trivial
  | stmt f k' ih => exact fun lk db b ops hf => ⟨(h lk db b ops hf).1, ih b (h lk db b ops hf).2⟩
  | io f k' ih => exact ⟨h.1, fun x => ih x (h.2 x)⟩
  | assign o p ih => exact h.elim
  | flush p ih => exact h.elim

theorem reads_query (q : B.Db → α) : (query q).Reads W := by
  intro lk db b ops hf
  cases hf
  exact ⟨rfl, trivial⟩

theorem reads_ask {f : B.Env → B.World → α × B.World} (h : ∀ env w, W w (f env w).2) :
    (ask f).Reads W :=
  ⟨h, fun x => by cases x <;> trivial⟩

theorem Reads.eval (hrefl : ∀ w, W w w) (htrans : ∀ a b c, W a b → W b c → W a c) (h : p.Reads W)
    (s : Session B) :
    (p.eval s).2.db = s.db ∧ (p.eval s).2.dirty = s.dirty ∧ W s.world (p.eval s).2.world := by
  induction p generalizing s with
  | ret a => exact ⟨rfl, rfl, hrefl _⟩
  | raise e => exact ⟨rfl, rfl, hrefl _⟩
  | stmt f k ih =>
    simp only [Prog.eval]
    split
    · rename_i r hf
      obtain ⟨hops, hk⟩ := h _ _ _ _ hf
      rw [hops]
      exact ih _ hk s
    · exact ⟨rfl, rfl, hrefl _⟩
  | io f k ih =>
    obtain ⟨hdb, hdirty, hw⟩ := ih _ (h.2 (f (s.envs 0) s.world).1) (s.step (f (s.envs 0) s.world).2)
    exact ⟨hdb, hdirty, htrans _ _ _ (h.1 _ _) hw⟩
  | assign o p ih => exact h.elim
  | flush p ih => exact h.elim

theorem Reads.ends (hrefl : ∀ w, W w w) (htrans : ∀ a b c, W a b → W b c → W a c) (h : p.Reads W)
    (s : Session B) :
    p.Ends (fun _ s' => s'.db = s.db ∧ s'.dirty = s.dirty ∧ W s.world s'.world)
      (fun _ s' => s'.db = s.db ∧ s'.dirty = s.dirty ∧ W s.world s'.world) s := by
  have heval := h.eval hrefl htrans s
  unfold Ends
  split <;> rename_i heq <;> rw [heq] at heval <;> exact heval

theorem Within.ends (hrefl : ∀ w, W w w) (htrans : ∀ a b c, W a b → W b c → W a c) (h : p.Within W)
    (s : Session B) :
    p.Ends (fun _ s' => W s.world s'.world) (fun _ s' => W s.world s'.world) s := by
  have heval := h.eval hrefl htrans s
  unfold Ends
  split <;> rename_i heq <;> rw [heq] at heval <;> exact heval

theorem Reads.scope (h : p.Reads W) (envs : Nat → B.Env) (s : State B) : Kit.scope p envs s =
    ((p.eval ⟨s.db, [], s.world, envs⟩).1, ⟨s.db, (p.eval ⟨s.db, [], s.world, envs⟩).2.world⟩) := by
  have htrue : p.Reads fun _ _ => True := h.mono fun _ _ _ => trivial
  obtain ⟨hdb, hdirty, -⟩ := htrue.eval (fun _ => trivial) (fun _ _ _ _ _ => trivial)
    ⟨s.db, [], s.world, envs⟩
  unfold Kit.scope commit
  rw [eval_bind]
  cases he : p.eval ⟨s.db, [], s.world, envs⟩ with
  | mk r s' =>
    rw [he] at hdb hdirty
    cases r with
    | error e => rfl
    | ok a =>
      dsimp only at hdb hdirty ⊢
      simp only [Prog.eval, hdirty, flushAll, hdb]

/-! ### Programs that only query -/

/-- The program makes no row writes and no assignments, and has no effect on the world. -/
def Queries : Prog B α → Prop
  | ret _ => True
  | raise _ => True
  | stmt f k => ∀ lk db b ops, f lk db = .ok (b, ops) → ops = [] ∧ (k b).Queries
  | io _ _ => False
  | assign _ _ => False
  | flush _ => False

theorem Queries.bind (h : p.Queries) (hk : ∀ a, (k a).Queries) : (p >>= k).Queries := by
  induction p with
  | ret a => exact hk a
  | raise e => trivial
  | stmt f k' ih => exact fun lk db b ops hf => ⟨(h lk db b ops hf).1, ih b (h lk db b ops hf).2⟩
  | io f k' ih => exact h.elim
  | assign o p ih => exact h.elim
  | flush p ih => exact h.elim

theorem queries_query (q : B.Db → α) : (query q).Queries := by
  intro lk db b ops hf
  cases hf
  exact ⟨rfl, trivial⟩

theorem Queries.reads (h : p.Queries) : p.Reads W := by
  induction p with
  | ret a => trivial
  | raise e => trivial
  | stmt f k' ih => exact fun lk db b ops hf => ⟨(h lk db b ops hf).1, ih b (h lk db b ops hf).2⟩
  | io f k' ih => exact h.elim
  | assign o p ih => exact h.elim
  | flush p ih => exact h.elim

theorem Queries.eval (h : p.Queries) (s : Session B) : (p.eval s).2 = s := by
  induction p generalizing s with
  | ret a => rfl
  | raise e => rfl
  | stmt f k' ih =>
    simp only [Prog.eval]
    split
    · rename_i r hf
      obtain ⟨hops, hk⟩ := h _ _ _ _ hf
      rw [hops]
      exact ih _ hk s
    · rfl
  | io f k' ih => exact h.elim
  | assign o p ih => exact h.elim
  | flush p ih => exact h.elim

theorem Queries.ends (h : p.Queries) {P : α → Prop} {F : B.Err → Prop}
    (he : p.Ends (fun a _ => P a) (fun e _ => F e) s) :
    p.Ends (fun a s' => s' = s ∧ P a) (fun e s' => s' = s ∧ F e) s := by
  have hs := h.eval s
  unfold Ends at he ⊢
  split at he <;> rename_i heq <;> rw [heq] at hs <;> cases hs <;> exact ⟨rfl, he⟩

theorem eval_commit (p : Prog B α) (s : Session B) : p.commit.eval s = match p.eval s with
    | (.ok a, s') => match flushAll B s'.dirty s'.db with
      | .ok db => (.ok a, { s' with db := db, dirty := [] })
      | .error e => (.error e, s')
    | (.error e, s') => (.error e, s') := by
  unfold commit
  rw [eval_bind]
  cases p.eval s with
  | mk r s' => cases r <;> rfl

theorem scope_map (f : α → β) (p : Prog B α) (envs : Nat → B.Env) (s : State B) :
    Kit.scope (p >>= fun a => pure (f a)) envs s =
        ((Kit.scope p envs s).1.map f, (Kit.scope p envs s).2) := by
  unfold Kit.scope
  rw [eval_commit, eval_commit, eval_bind]
  rcases p.eval ⟨s.db, [], s.world, envs⟩ with ⟨a | e, s'⟩
  · rfl
  · dsimp only
    rw [pure_eq, eval_ret]
    dsimp only
    cases flushAll B s'.dirty s'.db <;> rfl

theorem Ends.scope {envs : Nat → B.Env} {s : State B} (h : p.Ends Q E ⟨s.db, [], s.world, envs⟩) :
    (∃ a s' db, Q a s' ∧ flushAll B s'.dirty s'.db = .ok db ∧
      Kit.scope p envs s = (.ok a, ⟨db, s'.world⟩)) ∨
      ∃ e s', (E e s' ∨ ∃ a, Q a s' ∧ flushAll B s'.dirty s'.db = .error e) ∧
          Kit.scope p envs s = (.error e, ⟨s.db, s'.world⟩) := by
  have heval := p.eval_commit ⟨s.db, [], s.world, envs⟩
  unfold Ends at h
  split at h <;> rename_i heq <;> rw [heq] at heval <;> dsimp only at heval
  · rename_i a s'
    cases hf : flushAll B s'.dirty s'.db with
    | ok db =>
      rw [hf] at heval
      exact .inl ⟨a, s', db, h, hf, scope_of_ok heval⟩
    | error e =>
      rw [hf] at heval
      exact .inr ⟨e, s', .inr ⟨a, h, hf⟩, scope_of_error heval⟩
  · exact .inr ⟨_, _, .inl h, scope_of_error heval⟩

theorem Ends.scope_flushed {envs : Nat → B.Env} {s : State B}
    (h : p.Ends Q E ⟨s.db, [], s.world, envs⟩) (hd : ∀ a s', Q a s' → s'.dirty = []) :
      (∃ a s', Q a s' ∧ Kit.scope p envs s = (.ok a, ⟨s'.db, s'.world⟩)) ∨
      ∃ e s', E e s' ∧ Kit.scope p envs s = (.error e, ⟨s.db, s'.world⟩) := by
  rcases h.scope with ⟨a, s', db, ha, hf, hs⟩ | ⟨e, s', he, hs⟩
  · rw [hd a s' ha] at hf
    cases hf
    exact .inl ⟨a, s', ha, hs⟩
  · rcases he with he | ⟨a, ha, hf⟩
    · exact .inr ⟨e, s', he, hs⟩
    · rw [hd a s' ha] at hf
      cases hf

end Prog

end Kit
