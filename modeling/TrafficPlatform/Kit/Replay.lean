import TrafficPlatform.Kit.Ends
import TrafficPlatform.Kit.Interleave

/-!
# Writes that can be replayed

A transaction's writes were accepted one after the other when it made them. Until it ends, the
others write other rows; so where a write depends on the rows that it names only (`Backend.Local`),
its commit finds a database on which all of them are accepted again. With that, what a commit does
to the database follows from the writes alone (`Replay.always_iff`).
-/

namespace Kit

variable {B : Backend} {ρ α β : Type}

/-- The writes are among `P`, and accepted one after the other. -/
def Accepted (B : Backend) (P : B.Op → Prop) : List B.Op → B.Db → Prop
  | [], _ => True
  | o :: w, db => P o ∧ B.check o db = .ok () ∧ Accepted B P w (B.apply o db)

variable {P : B.Op → Prop}

theorem accepted_append {w w' : List B.Op} {db : B.Db} :
    Accepted B P (w ++ w') db ↔ Accepted B P w db ∧ Accepted B P w' (applyAll B w db) := by
  induction w generalizing db with
  | nil => simp [Accepted]
  | cons o w ih => simp only [List.cons_append, Accepted, applyAll_cons, ih, and_assoc]

theorem accepted_singleton {o : B.Op} {db : B.Db} : Accepted B P [o] db ↔ P o ∧
    B.check o db = .ok () := by
  simp [Accepted]

theorem Accepted.of_mem {w : List B.Op} {db : B.Db} (h : Accepted B P w db) : ∀ o ∈ w, P o := by
  induction w generalizing db with
  | nil => intro o ho; cases ho
  | cons o w ih => exact List.forall_mem_cons.2 ⟨h.1, ih h.2.2⟩

/-- `Agree K a b`: the databases agree on what the writes to the rows in `K` depend on, so that
these are accepted on both and do the same to them. Writes to other rows do not matter. -/
structure Backend.Local (B : Backend) (P : B.Op → Prop)
    (Agree : (B.Key → Prop) → B.Db → B.Db → Prop) : Prop where
  refl : ∀ K db, Agree K db db
  trans : ∀ K a b c, Agree K a b → Agree K b c → Agree K a c
  other : ∀ K o db, P o → (∀ key ∈ B.keys o, ¬ K key) → Agree K db (B.apply o db)
  same : ∀ K o a b, P o → (∀ key ∈ B.keys o, K key) → Agree K a b → B.check o a = .ok () →
    B.check o b = .ok () ∧ Agree K (B.apply o a) (B.apply o b)

namespace Backend.Local

variable {Agree : (B.Key → Prop) → B.Db → B.Db → Prop} {K : B.Key → Prop} {w w' : List B.Op}
    {a b db : B.Db}

theorem applyAll (h : B.Local P Agree) (hP : ∀ o ∈ w, P o) (hw : ∀ o ∈ w, ∀ key ∈ B.keys o, ¬ K key) :
    Agree K db (applyAll B w db) := by
  induction w generalizing db with
  | nil => exact h.refl K db
  | cons o w ih =>
    obtain ⟨hPo, hP⟩ := List.forall_mem_cons.1 hP
    obtain ⟨hwo, hw⟩ := List.forall_mem_cons.1 hw
    exact h.trans K _ _ _ (h.other K o db hPo hwo) (ih hP hw)

theorem accepted (h : B.Local P Agree) (hw : ∀ o ∈ w, ∀ key ∈ B.keys o, K key) (hab : Agree K a b)
    (ha : Accepted B P w a) :
    Accepted B P w b := by
  induction w generalizing a b with
  | nil => trivial
  | cons o w ih =>
    obtain ⟨hwo, hw⟩ := List.forall_mem_cons.1 hw
    obtain ⟨hPo, hc, ha⟩ := ha
    obtain ⟨hb, hab'⟩ := h.same K o a b hPo hwo hab hc
    exact ⟨hPo, hb, ih hw hab' ha⟩

theorem accepted_apart (h : B.Local P Agree) (hw : Apart w w') (hP : ∀ o ∈ w', P o)
    (hdb : Accepted B P w db) :
    Accepted B P w (Kit.applyAll B w' db) := by
  let K : B.Key → Prop := fun key => ∃ o ∈ w, key ∈ B.keys o
  have hK : Agree K db (Kit.applyAll B w' db) := by
    refine h.applyAll hP fun o' ho' key hkey hk => ?_
    obtain ⟨o, ho, hkey'⟩ := hk
    exact hw o ho o' ho' key hkey' hkey
  exact h.accepted (fun o ho key hkey => ⟨o, ho, hkey⟩) hK hdb

end Backend.Local

/-! ### Checked programs -/

namespace Prog

/-- Every write is among `P`, and every statement makes writes that the database accepts. -/
def Checked (P : B.Op → Prop) : Prog B α → Prop
  | ret _ => True
  | raise _ => True
  | stmt f k => ∀ lk db b ops, f lk db = .ok (b, ops) → Accepted B P ops db ∧ (k b).Checked P
  | io _ k => ∀ x, (k x).Checked P
  | assign o p => P o ∧ p.Checked P
  | flush p => p.Checked P

variable {p : Prog B α} {k : α → Prog B β} {W : B.World → B.World → Prop}

theorem Checked.bind (h : p.Checked P) (hk : ∀ a, (k a).Checked P) : (p >>= k).Checked P := by
  induction p with
  | ret a => exact hk a
  | raise e => trivial
  | stmt f k' ih => exact fun lk db b ops hf => ⟨(h lk db b ops hf).1, ih b (h lk db b ops hf).2⟩
  | io f k' ih => exact fun x => ih x (h x)
  | assign o p ih => exact ⟨h.1, ih h.2⟩
  | flush p ih => exact ih h

theorem Reads.checked (h : p.Reads W) : p.Checked P := by
  induction p with
  | ret a => trivial
  | raise e => trivial
  | stmt f k ih =>
    intro lk db b ops hf
    obtain ⟨rfl, hk⟩ := h lk db b ops hf
    exact ⟨trivial, ih b hk⟩
  | io f k ih => exact fun x => ih x (h.2 x)
  | assign o p ih => exact h.elim
  | flush p ih => exact h.elim

theorem Safe.reads {R : B.Db → B.Db → Prop} {Own : B.Op → B.Db → Prop}
    {Q : β → List B.Op → List B.Op → B.Db → Prop} {d w : List B.Op} {db : B.Db}
    (hrefl : ∀ db, R db db) (htrans : ∀ a b c, R a b → R b c → R a c) (h : p.Reads W)
    (hk : ∀ a db', R db db' → (k a).Safe (fun _ => R) Own Q d w db') :
    (p >>= k).Safe (fun _ => R) Own Q d w db := by
  induction p generalizing db with
  | ret a => exact hk a db (hrefl db)
  | raise e => trivial
  | stmt f k' ih =>
    intro db' hr ho lk b ops hf
    obtain ⟨rfl, hk'⟩ := h lk _ b ops hf
    refine ⟨fun o ho => absurd ho List.not_mem_nil, ?_⟩
    rw [List.append_nil]
    exact ih b hk' fun a db'' hr' => hk a db'' (htrans _ _ _ hr hr')
  | io f k' ih => exact fun db' hr ho env world => ih _ (h.2 _) fun a db'' hr' => hk a db'' (htrans _ _ _ hr hr')
  | assign o p ih => exact h.elim
  | flush p ih => exact h.elim

theorem Safe.execute {R : B.Db → B.Db → Prop} {Own : B.Op → B.Db → Prop}
    {Q : β → List B.Op → List B.Op → B.Db → Prop}
    {d w : List B.Op} {db : B.Db} {o : B.Op} {k : Unit → Prog B β}
    (h : ∀ db', R db db' → (∀ o' ∈ w, Own o' db') →
      B.check o (applyAll B w db') = .ok () → Own o db' ∧
        (k ()).Safe (fun _ => R) Own Q d (w ++ [o]) db') :
    (execute o >>= k).Safe (fun _ => R) Own Q d w db := by
  intro db' hr hw lk b ops hf
  dsimp only at hf
  cases hc : B.check o (applyAll B w db') with
  | error e =>
    rw [hc] at hf
    cases hf
  | ok u =>
    rw [hc] at hf
    cases hf
    obtain ⟨ho, hk⟩ := h db' hr hw hc
    exact ⟨List.forall_mem_singleton.2 ho, hk⟩

theorem checked_query (q : B.Db → α) : (query q).Checked P := by
  intro lk db b ops hf
  cases hf
  exact ⟨trivial, trivial⟩

theorem checked_ask (f : B.Env → B.World → α × B.World) : (ask f).Checked P :=
  fun x => by cases x <;> trivial

theorem checked_set {o : B.Op} (h : P o) : (set o).Checked P := ⟨h, trivial⟩

theorem checked_execute {o : B.Op} (h : P o) : (execute o).Checked P := by
  intro lk db b ops hf
  dsimp only at hf
  cases hc : B.check o db with
  | error e =>
    rw [hc] at hf
    cases hf
  | ok u =>
    rw [hc] at hf
    cases hf
    exact ⟨accepted_singleton.2 ⟨h, hc⟩, trivial⟩

theorem Checked.commit (h : p.Checked P) : p.commit.Checked P := h.bind fun _ => trivial

/-! ### What a program writes, whatever the database does -/

/-- However the database changes meanwhile, `Q` holds of the answer and the writes. -/
abbrev Writes (p : Prog B α) (Q : α → List B.Op → List B.Op → Prop) (d w : List B.Op) : Prop :=
  ∀ db, p.Safe (fun _ _ _ => True) (fun _ _ => True) (fun a d w _ => Q a d w) d w db

section
variable {Q : β → List B.Op → List B.Op → Prop} {d w : List B.Op}

theorem Writes.reads (h : p.Reads W) (hk : ∀ a, (k a).Writes Q d w) : (p >>= k).Writes Q d w := by
  induction p with
  | ret a => exact hk a
  | raise e => exact fun _ => trivial
  | stmt f k' ih =>
    intro _ db _ _ lk b ops hf
    obtain ⟨rfl, hk'⟩ := h lk _ b ops hf
    refine ⟨fun _ _ => trivial, ?_⟩
    rw [List.append_nil]
    exact ih b hk' db
  | io f k' ih => exact fun _ db _ _ env world => ih _ (h.2 _) db
  | assign o p ih => exact h.elim
  | flush p ih => exact h.elim

theorem Writes.query {q : B.Db → α} (hk : ∀ a, (k a).Writes Q d w) :
    (Prog.query q >>= k).Writes Q d w :=
  Writes.reads (W := fun _ _ => True) (reads_query q) hk

theorem Writes.ask {f : B.Env → B.World → α × B.World} (hk : ∀ a, (k a).Writes Q d w) :
    (Prog.ask f >>= k).Writes Q d w :=
  Writes.reads (W := fun _ _ => True) (reads_ask fun _ _ => trivial) hk

theorem Writes.set {o : B.Op} {k : Unit → Prog B β} (hk : (k ()).Writes Q (d ++ [o]) w) :
    (Prog.set o >>= k).Writes Q d w :=
  fun _ db _ _ => hk db

theorem Writes.flushSession {k : Unit → Prog B β} (hk : (k ()).Writes Q [] (w ++ d)) :
    (Prog.flushSession >>= k).Writes Q d w :=
  fun _ db _ _ => hk db

theorem Writes.execute {o : B.Op} {k : Unit → Prog B β} (hk : (k ()).Writes Q d (w ++ [o])) :
    (Prog.execute o >>= k).Writes Q d w := by
  intro _ db _ _ lk b ops hf
  dsimp only at hf
  refine ⟨fun _ _ => trivial, ?_⟩
  cases hc : B.check o (applyAll B w db) with
  | error e =>
    rw [hc] at hf
    cases hf
  | ok u =>
    rw [hc] at hf
    cases hf
    exact hk db

theorem Writes.ret {a : β} (h : Q a d w) : (Prog.ret a).Writes Q d w := fun _ _ _ _ => h

theorem Writes.raise {e : B.Err} : (Prog.raise e : Prog B β).Writes Q d w := fun _ => trivial

end

end Prog

/-! ### Systems -/

/-- The remaining program is checked, and what was written is accepted on the committed database. -/
def Phase.Accepted (P : B.Op → Prop) (db : B.Db) : Phase B α → Prop
  | .running p d w => p.Checked P ∧ (∀ o ∈ d, P o) ∧ Kit.Accepted B P w db
  | .committed _ => True
  | .rolledBack _ => True

/-- The transactions of `prog` are checked, write `Q`, and lock all that their writes depend on. -/
structure Replay (prog : ρ → Prog B α) (P : B.Op → Prop) (Agree : (B.Key → Prop) → B.Db → B.Db → Prop)
    (Q : ρ → α → List B.Op → Prop) : Prop where
  rows : B.Local P Agree
  checked : ∀ r, (prog r).Checked P
  writes : ∀ r, (prog r).Writes (fun a d w => Q r a (w ++ d)) [] []

/-- The invariant: what the transactions in flight have written is accepted, and they have written
apart. -/
structure System.Replayable (P : B.Op → Prop) (Q : ρ → α → List B.Op → Prop)
    (s : System B ρ α) : Prop where
  guarded : s.Guarded (fun _ => True) (fun _ _ _ _ => True) (fun _ _ => True) (fun r a w _ => Q r a w)
  accepted : ∀ t ∈ s.threads, t.phase.Accepted P s.db

theorem System.Quiet.replayable {Q : ρ → α → List B.Op → Prop} {s : System B ρ α} (h : s.Quiet) :
    s.Replayable P Q := by
  refine ⟨h.guarded trivial, fun t ht => ?_⟩
  have hq := h t ht
  cases hp : t.phase with
  | running p d w => rw [hp] at hq; exact hq.elim
  | committed a => trivial
  | rolledBack e => trivial

namespace Replay

variable {prog : ρ → Prog B α} {Agree : (B.Key → Prop) → B.Db → B.Db → Prop}
    {Q : ρ → α → List B.Op → Prop}
  {s : System B ρ α} {e : Event B ρ}

theorem bounded (h : Replay prog P Agree Q) :
    Bounded prog (fun _ => True) (fun _ _ => True) (fun _ _ => True) (fun r a w _ => Q r a w) where
  refl _ := trivial
  trans _ _ _ _ _ := trivial
  inv _ _ _ _ := trivial
  check _ _ _ _ _ := trivial
  stable _ _ _ _ _ := trivial
  safe r db _ := h.writes r db
  commit _ _ _ _ _ _ := trivial

theorem of_commits (h : Replay prog P Agree Q) (hs : s.Replayable P Q) {r : ρ} {a : α} {w : List B.Op}
    (hc : s.commits e = some (r, a, w)) : Q r a w ∧ Accepted B P w s.db := by
  refine ⟨h.bounded.relies.of_commits hs.guarded hc, ?_⟩
  obtain ⟨t, ht, d, rfl⟩ := System.commits_some hc
  exact (hs.accepted _ ht).2.2

theorem accepted_moves {lk : B.Key → Bool} {p : Prog B α} {d w : List B.Op} {ph : Phase B α} {db : B.Db}
    (hm : System.Moves lk db p d w ph) (hp : p.Checked P) (hd : ∀ o ∈ d, P o) (hw : Accepted B P w db) :
    ph.Accepted P db := by
  cases hm with
  | raise => trivial
  | crash => trivial
  | stmt hf hfree =>
    obtain ⟨hops, hk⟩ := hp _ _ _ _ hf
    exact ⟨hk, hd, accepted_append.2 ⟨hw, hops⟩⟩
  | stmtError => exact ⟨trivial, hd, hw⟩
  | io => exact ⟨hp _, hd, hw⟩
  | assign => exact ⟨hp.2, List.forall_mem_append.2 ⟨hd, List.forall_mem_singleton.2 hp.1⟩, hw⟩
  | flushNil => exact ⟨hp, hd, hw⟩
  | flushCons hc hfree =>
    obtain ⟨ho, hd⟩ := List.forall_mem_cons.1 hd
    exact ⟨hp, hd, accepted_append.2 ⟨hw, accepted_singleton.2 ⟨ho, hc⟩⟩⟩
  | flushError => exact ⟨trivial, (List.forall_mem_cons.1 hd).2, hw⟩

variable [DecidableEq B.Key]

theorem next (h : Replay prog P Agree Q) (hs : s.Replayable P Q) : (s.next prog e).Replayable P Q := by
  refine ⟨h.bounded.next_guarded hs.guarded, ?_⟩
  rcases System.next_cases prog s e with
    ⟨hn, -⟩ | ⟨r, hn, -, -⟩ | ⟨i, r, p, d, w, ph, wd, hi, hm, hn, -⟩ |
    ⟨i, r, a, d, w, hi, hn, -⟩ <;> rw [hn]
  · exact hs.accepted
  · intro t ht
    rcases List.mem_append.1 ht with ht | ht
    · exact hs.accepted t ht
    · rw [List.mem_singleton.1 ht]
      exact ⟨(h.checked r).commit, by simp, trivial⟩
  · intro t ht
    rcases List.mem_or_eq_of_mem_set ht with ht | rfl
    · exact hs.accepted t ht
    · obtain ⟨hp, hd, hw⟩ := hs.accepted _ (List.mem_of_getElem? hi)
      exact accepted_moves hm hp hd hw
  · -- the other transactions have written other rows than the one that commits
    intro t ht
    obtain ⟨j, hj⟩ := List.mem_iff_getElem?.1 ht
    dsimp only at hj
    rw [List.getElem?_set] at hj
    split at hj
    · split at hj
      · cases hj; trivial
      · cases hj
    · rename_i hij
      have hapart := hs.guarded.exclusive j i t _ (Ne.symm hij) hj hi
      have hold := hs.accepted t (List.mem_of_getElem? hj)
      have hw : Accepted B P w s.db := (hs.accepted _ (List.mem_of_getElem? hi)).2.2
      cases hp : t.phase with
      | running p' d' w' =>
        rw [hp] at hold hapart
        exact ⟨hold.1, hold.2.1, h.rows.accepted_apart hapart hw.of_mem hold.2.2⟩
      | committed a' => trivial
      | rolledBack e' => trivial

/-- If a commit of accepted writes keeps `I` exactly when it satisfies `C`, then `I` holds in every
state of a run exactly when every commit of the run satisfies `C`. -/
theorem always_iff (h : Replay prog P Agree Q) {I : B.Db → Prop} {C : List B.Op → Prop}
    (hstep : ∀ r a w db, Q r a w → Accepted B P w db → I db → (I (applyAll B w db) ↔ C w))
    (hs : s.Replayable P Q) (hI : I s.db)
    (es : List (Event B ρ)) : Always (System.next prog) (fun s => I s.db) s es ↔
      Meets (System.next prog) (fun s e => ∀ r a w, s.commits e = some (r, a, w) → C w) s es := by
  refine always_iff_meets (I := System.Replayable P Q) (fun _ _ hs => h.next hs)
    (fun s e hs hI => ?_) hs hI
  rw [System.next_db]
  rcases hc : s.commits e with _ | ⟨r, a, w⟩
  · exact iff_of_true hI fun r a w h => by cases h
  · obtain ⟨hq, hw⟩ := h.of_commits hs hc
    rw [hstep r a w s.db hq hw hI]
    constructor
    · rintro hC r' a' w' ⟨⟩
      exact hC
    · exact fun hC => hC r a w rfl

theorem always (h : Replay prog P Agree Q) {I : B.Db → Prop}
    (hstep : ∀ r a w db, Q r a w → Accepted B P w db → I db → I (applyAll B w db))
    (hs : s.Replayable P Q) (hI : I s.db)
    (es : List (Event B ρ)) : Always (System.next prog) (fun s => I s.db) s es := by
  refine (h.always_iff (C := fun _ => True) (fun r a w db hq hw hdb => ?_) hs hI es).2 ?_
  · exact iff_of_true (hstep r a w db hq hw hdb) trivial
  · exact meets_iff.2 fun _ _ _ _ _ _ _ _ => trivial

end Replay

end Kit
