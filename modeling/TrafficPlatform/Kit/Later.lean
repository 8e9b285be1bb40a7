import TrafficPlatform.Kit.Interleave

/-!
# Transactions that start later

Once the committed database satisfies what no commit ends, the transactions that start from there on
can rely on it, while those in flight may have read the database before. `Bounded.answers_from` is
the rely rule for the former: what their commits establish and no later commit ends, holds of them
all.
-/

namespace Kit

variable {B : Backend} {ρ α : Type} {n : Nat} {R : B.Db → B.Db → Prop} {Own : B.Op → B.Db → Prop}
  {Q' : ρ → α → List B.Op → B.Db → Prop} {P : ρ → α → B.Db → Prop}

theorem Prog.Safe.related {p : Prog B α} {Q : α → List B.Op → List B.Op → B.Db → Prop}
    {d w : List B.Op} {db₀ db : B.Db} (htrans : ∀ a b c, R a b → R b c → R a c) (hr : R db₀ db)
    (h : p.Safe (fun _ => R) Own Q d w db) :
    p.Safe (fun _ => R) Own (fun a d w db' => R db₀ db' ∧ Q a d w db') d w db := by
  induction p generalizing d w db with
  | ret a => exact fun db' h' ho => ⟨htrans _ _ _ hr h', h db' h' ho⟩
  | raise e => trivial
  | stmt f k ih =>
    intro db' h' ho lk b ops hf
    obtain ⟨hown, hk⟩ := h db' h' ho lk b ops hf
    exact ⟨hown, ih b (htrans _ _ _ hr h') hk⟩
  | io f k ih => exact fun db' h' ho env world => ih _ (htrans _ _ _ hr h') (h db' h' ho env world)
  | assign o p ih => exact fun db' h' ho => ih (htrans _ _ _ hr h') (h db' h' ho)
  | flush p ih => exact fun db' h' ho => ih (htrans _ _ _ hr h') (h db' h' ho)

/-- The transactions from the `n`th on are safe against the committed database, and those that have
committed satisfy `P`. -/
structure System.Answering (n : Nat) (R : B.Db → B.Db → Prop) (Own : B.Op → B.Db → Prop)
    (Q' : ρ → α → List B.Op → B.Db → Prop) (P : ρ → α → B.Db → Prop) (s : System B ρ α) : Prop where
  safe : ∀ (i : Nat) (t : Thread B ρ α), n ≤ i → s.threads[i]? = some t →
    t.phase.Guarded (fun _ => R) Own (Q' t.req) s.db
  answers : ∀ (i : Nat) (r : ρ) (a : α), n ≤ i → s.threads[i]? = some ⟨r, .committed a⟩ → P r a s.db

theorem System.Answering.init (s : System B ρ α) : s.Answering s.threads.length R Own Q' P := by
  have hlt : ∀ (i : Nat) (t : Thread B ρ α), s.threads[i]? = some t → ¬ s.threads.length ≤ i := by
    intro i t hi
    exact Nat.not_le.2 (List.getElem?_eq_some_iff.1 hi).1
  exact ⟨fun i t hn hi => absurd hn (hlt i t hi), fun i r a hn hi => absurd hn (hlt i _ hi)⟩

namespace Bounded

variable [DecidableEq B.Key] {prog : ρ → Prog B α} {I J : B.Db → Prop}
    {Q : ρ → α → List B.Op → B.Db → Prop} {s : System B ρ α}
  {e : Event B ρ}

/-- One step: the transactions of before stay safe, a new one starts safe, and one that commits
establishes `P`. -/
theorem next_answering (h : Bounded prog I R Own Q) (hs : s.Guarded I (fun _ _ => R) Own Q)
    (hsafe : ∀ r db, J db →
      (prog r).Safe (fun _ => R) Own (fun a d w db => Q' r a (w ++ d) db) [] [] db)
    (hcommit : ∀ r a w db, Q' r a w db → P r a (applyAll B w db))
    (hkeeps : ∀ r a db db', P r a db → R db db' → P r a db')
    (hj : J s.db) (ha : s.Answering n R Own Q' P) : (s.next prog e).Answering n R Own Q' P := by
  have hrelies : Relies prog J (fun _ _ => R) Own Q' :=
    ⟨fun _ _ => h.refl,
      fun _ _ => h.trans, h.check, h.stable, fun r db hdb => (hsafe r db hdb).commit h.refl h.trans⟩
  have hold : ∀ i t, n ≤ i → s.threads[i]? = some t → t.phase.Guarded (fun _ => R) Own (Q' t.req)
      (s.next prog e).db := by
    intro i t hni hi
    refine hrelies.phase_mono (r := t.req) ?_ (ha.safe i t hni hi)
    cases t.phase with
    | running p d w => exact h.next_rel hs
    | committed a => trivial
    | rolledBack e => trivial
  have hkept : ∀ i r a, n ≤ i → s.threads[i]? = some ⟨r, .committed a⟩ → P r a (s.next prog e).db :=
    fun i r a hni hi => hkeeps r a _ _ (ha.answers i r a hni hi) (h.next_rel hs)
  rcases System.next_cases prog s e with
    ⟨heq, -⟩ | ⟨r, heq, -, -⟩ | ⟨i, r, p, d, w, ph, wd, hi, hm, heq, -⟩ |
    ⟨i, r, a, d, w, hi, heq, -⟩ <;> rw [heq] at hold hkept ⊢
  · exact ha
  · refine ⟨fun j t hnj hj' => ?_, fun j r' a hnj hj' => ?_⟩
    · rw [List.getElem?_append] at hj'
      split at hj'
      · exact hold j t hnj hj'
      · rw [List.mem_singleton.1 (List.mem_of_getElem? hj')]
        exact hrelies.safe r s.db hj
    · rw [List.getElem?_append] at hj'
      split at hj'
      · exact hkept j r' a hnj hj'
      · cases List.mem_singleton.1 (List.mem_of_getElem? hj')
  · refine ⟨fun j t hnj hj' => ?_, fun j r' a hnj hj' => ?_⟩ <;>
      simp only [System.put, List.getElem?_set] at hj' <;>
      split at hj'
    · rename_i hij
      subst hij
      have hsafe' :=
        hrelies.moves_guarded (r := r) hm (ha.safe i _ hnj hi)
          (hs.owned _ (List.mem_of_getElem? hi))
      split at hj' <;> cases hj'
      exact hsafe'.1
    · exact hold j t hnj hj'
    · rename_i hij
      subst hij
      split at hj' <;> cases hj'
      cases hm
    · exact hkept j r' a hnj hj'
  · refine ⟨fun j t hnj hj' => ?_, fun j r' a' hnj hj' => ?_⟩ <;>
      simp only [List.getElem?_set] at hj' <;> split at hj'
    · split at hj' <;> cases hj'
      trivial
    · exact hold j t hnj hj'
    · -- what the safe program has written establishes `P`
      rename_i hij
      subst hij
      split at hj' <;> cases hj'
      exact hcommit r a w s.db
        (ha.safe i _ hnj hi s.db (h.refl _) (hs.owned _ (List.mem_of_getElem? hi)))
    · exact hkept j r' a' hnj hj'

/-- The transactions that start when the database satisfies `J` end as the programs do that start in
`J`. -/
theorem answers_from (h : Bounded prog I R Own Q) (hs : s.Guarded I (fun _ _ => R) Own Q)
    (hjkeeps : ∀ db db', J db → R db db' → J db')
    (hsafe : ∀ r db, J db →
      (prog r).Safe (fun _ => R) Own (fun a d w db => Q' r a (w ++ d) db) [] [] db)
    (hcommit : ∀ r a w db, Q' r a w db → P r a (applyAll B w db))
    (hkeeps : ∀ r a db db', P r a db → R db db' → P r a db')
    (hj : J s.db) (es : List (Event B ρ)) :
        (run (System.next prog) s es).Answering s.threads.length R Own Q' P := by
  refine (run_invariant (I := fun s' : System B ρ α => s'.Guarded I (fun _ _ => R) Own Q ∧ J s'.db ∧
    s'.Answering s.threads.length R Own Q' P) ?_ ⟨hs, hj, .init s⟩ es).2.2
  rintro s' e ⟨hs', hj', ha⟩
  exact ⟨h.next_guarded hs', hjkeeps _ _ hj' (h.next_rel hs'),
    h.next_answering hs' hsafe hcommit hkeeps hj' ha⟩

end Bounded

end Kit
