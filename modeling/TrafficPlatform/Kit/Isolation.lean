import TrafficPlatform.Kit.Interleave

/-!
# Requests with a part of the world of their own

Two runs are compared: in the second one only the requests of interest take their steps. If these
see no more of the world than a part (`Sees`) and the others leave that part as it is (`Spares`),
the requests of interest go through the same phases in both runs (`Isolated.run`), however the steps
are interleaved.

The requests of this rule write no rows; the database is the same throughout.
-/

namespace Kit

variable {B : Backend} {ρ α β : Type}

/-- What two worlds have in common, and the steps for which isolation is claimed. -/
structure Isolation (B : Backend) where
  ok : B.Env → B.World → Prop
  Sim : B.World → B.World → Prop

/-- The effect has one answer in worlds with a common part, and keeps the part common. -/
def Isolation.Sees (S : Isolation B) (f : B.Env → B.World → Except B.Err β × B.World) : Prop :=
  ∀ env w w', S.ok env w → S.Sim w w' → (f env w).1 = (f env w').1 ∧ S.Sim (f env w).2 (f env w').2

/-- The effect leaves the part as it is. -/
def Isolation.Spares (S : Isolation B) (f : B.Env → B.World → Except B.Err β × B.World) : Prop :=
  ∀ env w w', S.ok env w → S.Sim w w' → S.Sim (f env w).2 w'

/-! ### Programs -/

/-- On the database `db` the program only reads, its effects satisfy `G`, and what it returns
satisfies `Q`. -/
def Prog.Effects (G : {β : Type} → (B.Env → B.World → Except B.Err β × B.World) → Prop) (db : B.Db)
    (Q : α → Prop) : Prog B α → Prop
  | ret a => Q a
  | raise _ => True
  | stmt f k => ∀ lk b ops, f lk db = .ok (b, ops) → ops = [] ∧ (k b).Effects G db Q
  | io f k => G f ∧ ∀ x, (k x).Effects G db Q
  | assign _ _ => False
  | flush p => p.Effects G db Q

section
variable {G : {β : Type} → (B.Env → B.World → Except B.Err β × B.World) → Prop} {db : B.Db}
    {Q Q' : α → Prop} {R : β → Prop}
  {p : Prog B α} {k : α → Prog B β}

theorem Prog.Effects.mono (h : p.Effects G db Q) (hq : ∀ a, Q a → Q' a) : p.Effects G db Q' := by
  induction p with
  | ret a => exact hq a h
  | raise e => trivial
  | stmt f k ih => exact fun lk b ops hf => ⟨(h lk b ops hf).1, ih b (h lk b ops hf).2⟩
  | io f k ih => exact ⟨h.1, fun x => ih x (h.2 x)⟩
  | assign o p ih => exact h.elim
  | flush p ih => exact ih h

theorem Prog.Effects.bind (h : p.Effects G db Q) (hk : ∀ a, Q a → (k a).Effects G db R) :
    (p >>= k).Effects G db R := by
  induction p with
  | ret a => exact hk a h
  | raise e => trivial
  | stmt f k' ih => exact fun lk b ops hf => ⟨(h lk b ops hf).1, ih b (h lk b ops hf).2⟩
  | io f k' ih => exact ⟨h.1, fun x => ih x (h.2 x)⟩
  | assign o p ih => exact h.elim
  | flush p ih => exact ih h

theorem Prog.effects_query {q : B.Db → α} (h : Q (q db)) : (query q).Effects G db Q := by
  intro lk b ops hf
  cases hf
  exact ⟨rfl, h⟩

theorem Prog.effects_ask {f : B.Env → B.World → α × B.World}
    (h : G (β := α) fun env w => (.ok (f env w).1, (f env w).2)) :
        (ask f : Prog B α).Effects G db fun _ => True := by
  refine ⟨h, fun x => ?_⟩
  cases x <;> trivial

theorem Prog.effects_ask_sees {S : Isolation B} {f : B.Env → B.World → α × B.World}
    (h : ∀ env w w', S.ok env w → S.Sim w w' →
    (f env w).1 = (f env w').1 ∧ S.Sim (f env w).2 (f env w').2) : (ask f :
        Prog B α).Effects S.Sees db fun _ => True := by
  refine Prog.effects_ask fun env w w' hok hsim => ?_
  obtain ⟨hanswer, hnext⟩ := h env w w' hok hsim
  exact ⟨congrArg Except.ok hanswer, hnext⟩

theorem Prog.effects_ask_spares {S : Isolation B} {f : B.Env → B.World → α × B.World}
    (h : ∀ env w w', S.ok env w → S.Sim w w' →
    S.Sim (f env w).2 w') : (ask f : Prog B α).Effects S.Spares db fun _ => True := Prog.effects_ask h

/-- The next step of a program that only reads, while no row is locked. -/
def Prog.readStep (db : B.Db) (env : B.Env) (world : B.World) : Prog B α → Phase B α × B.World
  | ret a => (.committed a, world)
  | raise e => (.rolledBack (some e), world)
  | stmt f k => match f (fun _ => false) db with
    | .ok (b, _) => (.running (k b) [] [], world)
    | .error e => (.running (.raise e) [] [], world)
  | io f k => (.running (k (f env world).1) [] [], (f env world).2)
  | assign o p => (.running p [o] [], world)
  | flush p => (.running p [] [], world)

/-- The remaining program of a transaction only reads, and its effects satisfy `G`. -/
def Phase.Effects (G : {β : Type} → (B.Env → B.World → Except B.Err β × B.World) → Prop)
    (db : B.Db) : Phase B α → Prop
  | .running p d w => d = [] ∧ w = [] ∧ p.Effects G db fun _ => True
  | .committed _ => True
  | .rolledBack _ => True

theorem Phase.Effects.writes {ph : Phase B α} (h : ph.Effects G db) : ph.writes = [] := by
  cases ph with
  | running p d w => exact h.2.1
  | committed a => rfl
  | rolledBack e => rfl

theorem Prog.Effects.readStep (h : p.Effects G db Q) (env : B.Env) (world : B.World) :
    (p.readStep db env world).1.Effects G db := by
  cases p with
  | ret a => trivial
  | raise e => trivial
  | stmt f k =>
    simp only [Prog.readStep]
    cases hf : f (fun _ => false) db with
    | error e => exact ⟨rfl, rfl, trivial⟩
    | ok r => exact ⟨rfl, rfl, (h _ r.1 r.2 hf).2.mono fun _ _ => trivial⟩
  | io f k => exact ⟨rfl, rfl, (h.2 _).mono fun _ _ => trivial⟩
  | assign o p => exact h.elim
  | flush p => exact ⟨rfl, rfl, Prog.Effects.mono (p := p) h fun _ _ => trivial⟩

variable {S : Isolation B} {env : B.Env} {w w' : B.World} {ph : Phase B α}

theorem Prog.Effects.sees (h : p.Effects S.Sees db Q) (hok : S.ok env w) (hsim : S.Sim w w') :
    (p.readStep db env w').1 = (p.readStep db env w).1 ∧
        S.Sim (p.readStep db env w).2 (p.readStep db env w').2 := by
  cases p with
  | io f k =>
    obtain ⟨hanswer, hnext⟩ := h.1 env w w' hok hsim
    simp only [Prog.readStep]
    rw [hanswer]
    exact ⟨rfl, hnext⟩
  | stmt f k =>
    simp only [Prog.readStep]
    cases f (fun _ => false) db <;> exact ⟨rfl, hsim⟩
  | assign o p => exact h.elim
  | _ => exact ⟨rfl, hsim⟩

theorem Prog.Effects.spares (h : p.Effects S.Spares db Q) (hok : S.ok env w) (hsim : S.Sim w w') :
    S.Sim (p.readStep db env w).2 w' := by
  cases p with
  | io f k => exact h.1 env w w' hok hsim
  | stmt f k =>
    simp only [Prog.readStep]
    cases f (fun _ => false) db <;> exact hsim
  | assign o p => exact h.elim
  | _ => exact hsim

/-- The next step of a transaction. -/
def Phase.readStep (db : B.Db) (env : B.Env) (world : B.World) : Phase B α → Phase B α × B.World
  | .running p _ _ => p.readStep db env world
  | .committed a => (.committed a, world)
  | .rolledBack e => (.rolledBack e, world)

/-- The transaction dies, if it has not ended. -/
def Phase.crash : Phase B α → Phase B α
  | .running _ _ _ => .rolledBack none
  | .committed a => .committed a
  | .rolledBack e => .rolledBack e

theorem Phase.Effects.readStep (h : ph.Effects G db) (env : B.Env) (world : B.World) :
    (ph.readStep db env world).1.Effects G db := by
  cases ph with
  | running p d w => exact Prog.Effects.readStep h.2.2 env world
  | committed a => trivial
  | rolledBack e => trivial

theorem Phase.Effects.crash (h : ph.Effects G db) : ph.crash.Effects G db := by
  cases ph with
  | running p d w => trivial
  | committed a => exact h
  | rolledBack e => exact h

theorem Phase.Effects.sees (h : ph.Effects S.Sees db) (hok : S.ok env w) (hsim : S.Sim w w') :
    (ph.readStep db env w').1 = (ph.readStep db env w).1 ∧
        S.Sim (ph.readStep db env w).2 (ph.readStep db env w').2 := by
  cases ph with
  | running p d w => exact Prog.Effects.sees h.2.2 hok hsim
  | committed a => exact ⟨rfl, hsim⟩
  | rolledBack e => exact ⟨rfl, hsim⟩

theorem Phase.Effects.spares (h : ph.Effects S.Spares db) (hok : S.ok env w) (hsim : S.Sim w w') :
    S.Sim (ph.readStep db env w).2 w' := by
  cases ph with
  | running p d w => exact Prog.Effects.spares h.2.2 hok hsim
  | committed a => exact hsim
  | rolledBack e => exact hsim

end

/-! ### Systems -/

theorem set_of_getElem? {γ : Type*} {l : List γ} {i : Nat} {a : γ} (h : l[i]? = some a) :
    l.set i a = l := by
  obtain ⟨hlt, rfl⟩ := List.getElem?_eq_some_iff.1 h
  exact List.set_getElem_self hlt

namespace System

variable {prog : ρ → Prog B α} {mine : ρ → Prop} {S : Isolation B} {s s' : System B ρ α} {e : Event B ρ}
  {G : {β : Type} → (B.Env → B.World → Except B.Err β × B.World) → Prop}

/-- A transaction in both runs: one of interest is in the same phase and sees its part alone,
another one spares it. -/
structure Twin (S : Isolation B) (mine : ρ → Prop) (db : B.Db) (t t' : Thread B ρ α) : Prop where
  req : t'.req = t.req
  writes : t'.phase.writes = []
  sees : mine t.req → t'.phase = t.phase ∧ t.phase.Effects S.Sees db
  spares : ¬ mine t.req → t.phase.Effects S.Spares db

theorem Twin.clean {db : B.Db} {t t' : Thread B ρ α} (h : Twin S mine db t t') :
    t.phase.writes = [] := by
  by_cases hm : mine t.req
  · exact (h.sees hm).2.writes
  · exact (h.spares hm).writes

/-- The invariant of the two runs. -/
structure Isolated (S : Isolation B) (mine : ρ → Prop) (s s' : System B ρ α) : Prop where
  db : s'.db = s.db
  world : S.Sim s.world s'.world
  length : s'.threads.length = s.threads.length
  twins : ∀ (i : Nat) (t t' : Thread B ρ α), s.threads[i]? = some t → s'.threads[i]? = some t' →
    Twin S mine s.db t t'

namespace Isolated

theorem twin (h : Isolated S mine s s') {i : Nat} {t : Thread B ρ α} (hi : s.threads[i]? = some t) :
    ∃ t', s'.threads[i]? = some t' ∧ Twin S mine s.db t t' := by
  have hlt : i < s'.threads.length := by
    rw [h.length]
    exact (List.getElem?_eq_some_iff.1 hi).1
  exact ⟨_, List.getElem?_eq_getElem hlt, h.twins i t _ hi (List.getElem?_eq_getElem hlt)⟩

theorem clean (h : Isolated S mine s s') : (∀ t ∈ s.threads, t.phase.writes = []) ∧
    ∀ t ∈ s'.threads, t.phase.writes = [] := by
  refine ⟨fun t ht => ?_, fun t' ht' => ?_⟩
  · obtain ⟨i, hi⟩ := List.mem_iff_getElem?.1 ht
    obtain ⟨t', -, htwin⟩ := h.twin hi
    exact htwin.clean
  · obtain ⟨i, hi⟩ := List.mem_iff_getElem?.1 ht'
    have hlt : i < s.threads.length := by
      rw [← h.length]
      exact (List.getElem?_eq_some_iff.1 hi).1
    exact (h.twins i _ t' (List.getElem?_eq_getElem hlt) hi).writes

theorem set (h : Isolated S mine s s') (i : Nat) {t t' : Thread B ρ α} {w w' : B.World}
    (htwin : Twin S mine s.db t t') (hworld : S.Sim w w') (history history' : List (ρ × α)) :
    Isolated S mine { s with threads := s.threads.set i t, world := w, history := history }
      { s' with threads := s'.threads.set i t', world := w', history := history' } := by
  refine ⟨h.db, hworld, by simpa using h.length, fun j u u' hj hj' => ?_⟩
  simp only [List.getElem?_set] at hj hj'
  split at hj
  · rename_i hij
    subst hij
    rw [if_pos rfl] at hj'
    split at hj <;> split at hj' <;> cases hj <;> cases hj'
    exact htwin
  · rename_i hij
    rw [if_neg hij] at hj'
    exact h.twins j u u' hj hj'

theorem set_left (h : Isolated S mine s s') {i : Nat} {t t' : Thread B ρ α} {w : B.World}
    (hi : s'.threads[i]? = some t') (htwin : Twin S mine s.db t t') (hworld : S.Sim w s'.world)
    (history : List (ρ × α)) :
    Isolated S mine { s with threads := s.threads.set i t, world := w, history := history } s' := by
  have hset := h.set i htwin hworld history s'.history
  rw [set_of_getElem? hi] at hset
  exact hset

end Isolated

variable [DecidableEq B.Key]

variable (prog) in
/-- A step of a transaction that only reads, while no row is locked. -/
theorem next_readStep {i : Nat} {t : Thread B ρ α} (hi : s.threads[i]? = some t)
    (h : t.phase.Effects G s.db) (hfree : s.locked i = fun _ => false)
    (env : B.Env) : ∃ history, s.next prog (.step i env) =
      { s with threads := s.threads.set i ⟨t.req, (t.phase.readStep s.db env s.world).1⟩
               world := (t.phase.readStep s.db env s.world).2
               history := history } := by
  have hself : s.threads.set i t = s.threads := set_of_getElem? hi
  obtain ⟨r, ph⟩ := t
  cases ph with
  | committed a => exact ⟨s.history, by simp only [next, hi, Phase.readStep, hself]⟩
  | rolledBack e => exact ⟨s.history, by simp only [next, hi, Phase.readStep, hself]⟩
  | running p d w =>
    obtain ⟨rfl, rfl, hp⟩ := h
    rw [next_step hi]
    cases p with
    | ret a => exact ⟨s.history ++ [(r, a)], rfl⟩
    | raise e => exact ⟨s.history, rfl⟩
    | io f k => exact ⟨s.history, rfl⟩
    | assign o p => exact hp.elim
    | flush p => exact ⟨s.history, rfl⟩
    | stmt f k =>
      refine ⟨s.history, ?_⟩
      simp only [advance, applyAll_nil, hfree, Phase.readStep, Prog.readStep]
      cases hf : f (fun _ => false) s.db with
      | error e => rfl
      | ok r =>
        obtain ⟨b, ops⟩ := r
        obtain ⟨rfl, -⟩ := hp _ _ _ hf
        rfl

theorem next_crash {i : Nat} {t : Thread B ρ α} (hi : s.threads[i]? = some t) : s.next prog (.crash i) =
    { s with threads := s.threads.set i ⟨t.req, t.phase.crash⟩ } := by
  have hself : s.threads.set i t = s.threads := set_of_getElem? hi
  obtain ⟨r, ph⟩ := t
  cases ph with
  | running p d w => simp only [next, hi, put, Phase.crash]
  | committed a => simp only [next, hi, Phase.crash, hself]
  | rolledBack e => simp only [next, hi, Phase.crash, hself]

theorem locked_eq_false (h : ∀ t ∈ s.threads, t.phase.writes = []) (i : Nat) :
    s.locked i = fun _ => false := by
  funext key
  by_contra hlocked
  obtain ⟨j, t, -, ht, o, ho, -⟩ := locked_iff.1 (eq_true_of_ne_false hlocked)
  rw [h t (List.mem_of_getElem? ht)] at ho
  cases ho

/-- The event starts a request, or is a step of one of interest. -/
def Concerns (mine : ρ → Prop) [DecidablePred mine] (s : System B ρ α) : Event B ρ → Bool
  | .start _ => true
  | .step i _ => s.threads[i]?.any fun t => decide (mine t.req)
  | .crash i => s.threads[i]?.any fun t => decide (mine t.req)

/-- The run without the steps of the other requests. -/
def restrict (prog : ρ → Prog B α) (mine : ρ → Prop) [DecidablePred mine] : System B ρ α →
    List (Event B ρ) → List (Event B ρ)
  | _, [] => []
  | s, e :: es =>
    if s.Concerns mine e then e :: restrict prog mine (s.next prog e) es else restrict prog mine
      (s.next prog e) es

/-- The steps for which isolation is claimed. -/
def Timely (S : Isolation B) (s : System B ρ α) : Event B ρ → Prop
  | .step _ env => S.ok env s.world
  | .start _ => True
  | .crash _ => True

instance [h : ∀ env w, Decidable (S.ok env w)] (s : System B ρ α) : (e : Event B ρ) →
    Decidable (s.Timely S e)
  | .step _ env => h env s.world
  | .start _ => .isTrue trivial
  | .crash _ => .isTrue trivial

namespace Isolated

theorem start (h : Isolated S mine s s') (r : ρ)
    (hsees : mine r → (prog r).Effects S.Sees s.db fun _ => True)
    (hspares : ¬ mine r → (prog r).Effects S.Spares s.db fun _ => True) :
    Isolated S mine (s.next prog (.start r)) (s'.next prog (.start r)) := by
  refine ⟨h.db, h.world, by simp [System.next, h.length], fun j u u' hj hj' => ?_⟩
  simp only [System.next, List.getElem?_append, h.length] at hj hj'
  split at hj
  · rename_i hlt
    rw [if_pos hlt] at hj'
    exact h.twins j u u' hj hj'
  · rename_i hlt
    rw [if_neg hlt] at hj'
    cases List.mem_singleton.1 (List.mem_of_getElem? hj)
    cases List.mem_singleton.1 (List.mem_of_getElem? hj')
    have hcommit : ∀ {G : {β : Type} → (B.Env → B.World → Except B.Err β × B.World) → Prop},
        (prog r).Effects G s.db (fun _ => True) → (prog r).commit.Effects G s.db fun _ => True :=
      fun h => h.bind fun _ _ => trivial
    exact ⟨rfl, rfl,
      fun hm => ⟨rfl, rfl, rfl, hcommit (hsees hm)⟩, fun hm => ⟨rfl, rfl, hcommit (hspares hm)⟩⟩

/-- One event. -/
theorem next [DecidablePred mine] (hsees : ∀ r, mine r → (prog r).Effects S.Sees s.db fun _ => True)
    (hspares : ∀ r, ¬ mine r → (prog r).Effects S.Spares s.db fun _ => True) (he : s.Timely S e)
    (h : Isolated S mine s s') :
    Isolated S mine (s.next prog e) (if s.Concerns mine e then s'.next prog e else s') ∧
        (s.next prog e).db = s.db := by
  obtain ⟨hclean, hclean'⟩ := h.clean
  cases e with
  | start r => exact ⟨h.start r (hsees r) (hspares r), rfl⟩
  | crash i =>
    rcases hi : s.threads[i]? with _ | t
    · have hstay : s.next prog (.crash i) = s := by simp [System.next, hi]
      rw [hstay]
      simpa [Concerns, hi] using h
    · obtain ⟨t', hi', htwin⟩ := h.twin hi
      rw [next_crash hi]
      refine ⟨?_, rfl⟩
      by_cases hm : mine t.req
      · obtain ⟨hphase, heffects⟩ := htwin.sees hm
        simp only [Concerns, hi, Option.any_some, hm, decide_true, if_true]
        rw [next_crash hi', htwin.req, hphase]
        have hnext := heffects.crash
        have hdead : Twin S mine s.db ⟨t.req, t.phase.crash⟩ ⟨t.req, t.phase.crash⟩ :=
          ⟨rfl, hnext.writes, fun _ => ⟨rfl, hnext⟩, fun hn => absurd hm hn⟩
        exact h.set i hdead h.world s.history s'.history
      · simp only [Concerns, hi, Option.any_some, hm, decide_false, Bool.false_eq_true, if_false]
        have hdead : Twin S mine s.db ⟨t.req, t.phase.crash⟩ t' :=
          ⟨htwin.req, htwin.writes, fun hn => absurd hn hm, fun _ => (htwin.spares hm).crash⟩
        exact h.set_left hi' hdead h.world s.history
  | step i env =>
    rcases hi : s.threads[i]? with _ | t
    · have hstay : s.next prog (.step i env) = s := by simp [System.next, hi]
      rw [hstay]
      simpa [Concerns, hi] using h
    · obtain ⟨t', hi', htwin⟩ := h.twin hi
      by_cases hm : mine t.req
      · obtain ⟨hphase, heffects⟩ := htwin.sees hm
        have heffects' : t'.phase.Effects S.Sees s'.db := by rwa [hphase, h.db]
        obtain ⟨history, hstep⟩ := next_readStep prog hi heffects (locked_eq_false hclean i) env
        obtain ⟨history', hstep'⟩ := next_readStep prog hi' heffects' (locked_eq_false hclean' i) env
        obtain ⟨hsame, hworld⟩ := heffects.sees he h.world
        simp only [Concerns, hi, Option.any_some, hm, decide_true, if_true]
        have hphases : t'.phase.readStep s'.db env s'.world = t.phase.readStep s.db env s'.world := by
          rw [hphase, h.db]
        rw [hstep, hstep', htwin.req, hphases]
        refine ⟨?_, rfl⟩
        have hnext := heffects.readStep env s.world
        have hmoved : Twin S mine s.db ⟨t.req, (t.phase.readStep s.db env s.world).1⟩
            ⟨t.req, (t.phase.readStep s.db env s'.world).1⟩ :=
          ⟨rfl, by rw [hsame]; exact hnext.writes, fun _ => ⟨hsame, hnext⟩, fun hn => absurd hm hn⟩
        exact h.set i hmoved hworld history history'
      · have heffects := htwin.spares hm
        obtain ⟨history, hstep⟩ := next_readStep prog hi heffects (locked_eq_false hclean i) env
        simp only [Concerns, hi, Option.any_some, hm, decide_false, Bool.false_eq_true, if_false]
        rw [hstep]
        refine ⟨?_, rfl⟩
        have hmoved : Twin S mine s.db ⟨t.req, (t.phase.readStep s.db env s.world).1⟩ t' :=
          ⟨htwin.req, htwin.writes, fun hn => absurd hn hm, fun _ => heffects.readStep env s.world⟩
        exact h.set_left hi' hmoved (heffects.spares he h.world) history

/-- The requests of interest go through the same phases in both runs. -/
theorem run [DecidablePred mine] {es : List (Event B ρ)}
    (hsees : ∀ r, mine r → (prog r).Effects S.Sees s.db fun _ => True)
    (hspares : ∀ r, ¬ mine r → (prog r).Effects S.Spares s.db fun _ => True)
    (hm : Meets (System.next prog) (Timely S) s es) (h : Isolated S mine s s') :
    Isolated S mine (Kit.run (System.next prog) s es)
        (Kit.run (System.next prog) s' (restrict prog mine s es)) := by
  induction es generalizing s s' with
  | nil => exact h
  | cons e es ih =>
    obtain ⟨he, hm⟩ := hm
    obtain ⟨hnext, hdb⟩ := h.next hsees hspares he
    rw [← hdb] at hsees hspares
    unfold restrict
    split
    · rename_i hc
      rw [if_pos hc] at hnext
      exact ih hsees hspares hm hnext
    · rename_i hc
      rw [if_neg hc] at hnext
      exact ih hsees hspares hm hnext

end Isolated

end System

end Kit
