import TrafficPlatform.Kit.Interleave
import Mathlib.Logic.Function.Basic

/-!
# Interleaved transactions with effects

`Relies` speaks of what transactions read and write. Here each transaction also carries a ghost,
which records what it has done outside the database. A `Contract` says what its effects may do to
the world, depending on the rows that it holds and on its ghost, when it may fail, and what it
establishes when it returns. `Prog.Traced` is the rule for one program; `Contract.Lawful.next` turns
it into what an event of a system does (`Does`), from which invariants about the world and the
ghosts follow.
-/

namespace Kit

/-- What requests `ρ` may do, with a ghost `γ` of each: what the others may do meanwhile (`Rely`),
what is known of a row that a transaction has written (`Own`), what an effect does to the world and
the ghost (`Act`; the `Bool` tells that it does not raise), when the transaction may raise, and what
it has established when it returns. -/
structure Contract (B : Backend) (ρ α γ : Type) where
  Rely : State B → State B → Prop
  Own : B.Op → B.Db → Prop
  Act : ρ → γ → List B.Op → State B → Bool → B.World → γ → Prop
  Fails : ρ → γ → Prop
  Returns : ρ → α → List B.Op → γ → B.Db → Prop
  initial : γ

variable {B : Backend} {ρ α β γ : Type}

namespace Contract

/-- The pending assignments are written one by one, and then `K` holds of the writes. -/
def Flushes (C : Contract B ρ α γ) (r : ρ) (g : γ) (K : List B.Op → State B → Prop) : List B.Op →
    List B.Op → State B → Prop
  | [], w, st => K w st
  | o :: d, w, st => ∀ st', C.Rely st st' → (∀ o ∈ w, C.Own o st'.db) →
    match B.check o (applyAll B w st'.db) with
    | .ok () => C.Own o st'.db ∧ C.Flushes r g K d (w ++ [o]) st'
    | .error _ => C.Fails r g

end Contract

/-- However the others change the database and the world within `Rely` between its steps, the
program keeps the contract. -/
def Prog.Traced (C : Contract B ρ α γ) (r : ρ) : Prog B α → List B.Op → List B.Op → γ → State B → Prop
  | ret a, _, w, g, st => ∀ st', C.Rely st st' → (∀ o ∈ w, C.Own o st'.db) → C.Returns r a w g st'.db
  | raise _, _, _, g, _ => C.Fails r g
  | stmt f k, d, w, g, st => ∀ st', C.Rely st st' → (∀ o ∈ w, C.Own o st'.db) → ∀ lk,
    match f lk (applyAll B w st'.db) with
    | .ok (b, ops) => (∀ o ∈ ops, C.Own o st'.db) ∧ (k b).Traced C r d (w ++ ops) g st'
    | .error _ => C.Fails r g
  | io f k, d, w, g, st => ∀ st', C.Rely st st' → (∀ o ∈ w, C.Own o st'.db) → ∀ env, ∃ g',
    C.Act r g w st' (f env st'.world).1.isOk (f env st'.world).2 g' ∧
      (k (f env st'.world).1).Traced C r d w g' ⟨st'.db, (f env st'.world).2⟩
  | assign o p, d, w, g, st => p.Traced C r (d ++ [o]) w g st
  | flush p, d, w, g, st => C.Flushes r g (fun w st => p.Traced C r [] w g st) d w st

/-- The laws of a contract that the requests keep. -/
structure Contract.Lawful (C : Contract B ρ α γ) (prog : ρ → Prog B α) : Prop where
  refl : ∀ st, C.Rely st st
  trans : ∀ a b c, C.Rely a b → C.Rely b c → C.Rely a c
  stable : ∀ o o' db, (∀ key ∈ B.keys o, key ∉ B.keys o') → C.Own o db → C.Own o (B.apply o' db)
  act : ∀ r g w st ok world g', C.Act r g w st ok world g' → C.Rely st ⟨st.db, world⟩
  commit : ∀ r a w g st, C.Returns r a w g st.db → C.Rely st ⟨applyAll B w st.db, st.world⟩
  traced : ∀ r st, (prog r).commit.Traced C r [] [] C.initial st

section
variable {C : Contract B ρ α γ} {r : ρ} {g : γ} {p : Prog B α} {d w : List B.Op} {st st' : State B}

theorem Contract.Flushes.mono (htrans : ∀ a b c, C.Rely a b → C.Rely b c → C.Rely a c)
    {K : List B.Op → State B → Prop} (hK : ∀ w, K w st → K w st') (h : C.Flushes r g K d w st)
    (hr : C.Rely st st') :
        C.Flushes r g K d w st' := by
  cases d with
  | nil => exact hK w h
  | cons o d => exact fun st₂ h₂ => h st₂ (htrans _ _ _ hr h₂)

theorem Prog.Traced.mono (htrans : ∀ a b c, C.Rely a b → C.Rely b c → C.Rely a c)
    (h : p.Traced C r d w g st) (hr : C.Rely st st') : p.Traced C r d w g st' := by
  induction p generalizing d w with
  | ret a => exact fun st₂ h₂ => h st₂ (htrans _ _ _ hr h₂)
  | raise e => exact h
  | stmt f k ih => exact fun st₂ h₂ => h st₂ (htrans _ _ _ hr h₂)
  | io f k ih => exact fun st₂ h₂ => h st₂ (htrans _ _ _ hr h₂)
  | assign o p ih => exact ih h
  | flush p ih => exact Contract.Flushes.mono htrans (fun w hw => ih hw) h hr

/-! Rules for the building blocks of a handler. -/

theorem Prog.traced_stmt {f : (B.Key → Bool) → B.Db → Except B.Err (β × List B.Op)} {k : β → Prog B α}
    (h : ∀ st', C.Rely st st' → (∀ o ∈ w, C.Own o st'.db) → ∀ lk, match f lk (applyAll B w st'.db) with
      | .ok (b, ops) => (∀ o ∈ ops, C.Own o st'.db) ∧ (k b).Traced C r d (w ++ ops) g st'
      | .error _ => C.Fails r g) : (Prog.stmt f .ret >>= k).Traced C r d w g st := h

theorem Prog.traced_attempt {f : B.Env → B.World → Except B.Err β × B.World}
    {k : Except B.Err β → Prog B α}
    (h : ∀ st', C.Rely st st' → (∀ o ∈ w, C.Own o st'.db) → ∀ env, ∃ g',
      C.Act r g w st' (f env st'.world).1.isOk (f env st'.world).2 g' ∧
        (k (f env st'.world).1).Traced C r d w g' ⟨st'.db, (f env st'.world).2⟩) :
    (Prog.attempt f >>= k).Traced C r d w g st := h

theorem Prog.traced_ask {f : B.Env → B.World → β × B.World} {k : β → Prog B α}
    (h : ∀ st', C.Rely st st' → (∀ o ∈ w, C.Own o st'.db) → ∀ env, ∃ g',
      C.Act r g w st' true (f env st'.world).2 g' ∧
      (k (f env st'.world).1).Traced C r d w g' ⟨st'.db, (f env st'.world).2⟩) : (Prog.ask f >>=
        k).Traced C r d w g st := h

theorem Prog.traced_set {o : B.Op} {k : Unit → Prog B α} (h : (k ()).Traced C r (d ++ [o]) w g st) :
    (Prog.set o >>= k).Traced C r d w g st := h

theorem Prog.traced_flushSession {k : Unit → Prog B α}
    (h : C.Flushes r g (fun w st => (k ()).Traced C r [] w g st) d w st) :
      (Prog.flushSession >>= k).Traced C r d w g st := h

/-- A flush whose writes are all owned once the rows held so far are, and which fails only where the
transaction may. -/
theorem Contract.Flushes.of_own (w₀ : List B.Op) (hrefl : ∀ st, C.Rely st st)
    (htrans : ∀ a b c, C.Rely a b → C.Rely b c → C.Rely a c) {K : List B.Op → State B → Prop}
    (hown : ∀ o ∈ d, ∀ db, (∀ o' ∈ w₀, C.Own o' db) → C.Own o db)
    (hcheck : ∀ o ∈ d, ∀ w' db e, (∀ o' ∈ w', o' ∈ w ++ d) → (∀ o' ∈ w₀, C.Own o' db) →
      B.check o (applyAll B w' db) = .error e → C.Fails r g)
    (hsub : w₀ ⊆ w) (hst : ∀ o ∈ w, C.Own o st.db)
    (hK : ∀ st', C.Rely st st' → (∀ o ∈ w ++ d, C.Own o st'.db) → K (w ++ d) st') :
        C.Flushes r g K d w st := by
  induction d generalizing w st with
  | nil =>
    have h := hK st (hrefl st) (by simpa using hst)
    rwa [List.append_nil] at h
  | cons o d ih =>
    intro st' hr hw
    have hheld : ∀ o' ∈ w₀, C.Own o' st'.db := fun o' ho' => hw o' (hsub ho')
    have ho : C.Own o st'.db := hown o List.mem_cons_self st'.db hheld
    split
    · refine ⟨ho, ih (fun o' ho' => hown o' (List.mem_cons_of_mem _ ho')) (fun o' ho' w' db e hw' => ?_)
        (fun o' ho' => List.mem_append_left _ (hsub ho'))
          (List.forall_mem_append.2 ⟨hw, by simpa using ho⟩)
        fun st₂ h₂ hown₂ => ?_⟩
      · refine hcheck o' (List.mem_cons_of_mem _ ho') w' db e fun o₂ ho₂ => ?_
        simpa using hw' o₂ ho₂
      · rw [List.append_assoc, List.singleton_append] at hown₂ ⊢
        exact hK st₂ (htrans _ _ _ hr h₂) hown₂
    · rename_i e he
      exact hcheck o List.mem_cons_self w st'.db e (fun o' ho' => List.mem_append_left _ ho') hheld he

end

/-- A transaction of writes that satisfy `P` and of effects within `W`, where neither matters to the
contract. -/
theorem Prog.Traced.of_emits {C : Contract B ρ α γ} {r : ρ} {g : γ} {P : B.Op → Prop}
    {W : B.World → B.World → Prop} (hown : ∀ o db, P o → C.Own o db)
    (hact : ∀ w st ok world, W st.world world → C.Act r g w st ok world g)
    (hret : ∀ a w db, (∀ o ∈ w, P o) → C.Returns r a w g db) (hfail : C.Fails r g) {p : Prog B α}
    (h : p.Emits P) (hwithin : p.Within W) {d w : List B.Op} (hd : ∀ o ∈ w ++ d, P o)
    {st : State B} :
        p.Traced C r d w g st := by
  induction p generalizing d w st with
  | ret a => exact fun st' _ _ => hret a w st'.db fun o ho => hd o (List.mem_append_left d ho)
  | raise e => exact hfail
  | stmt f k ih =>
    intro st' _ _ lk
    split
    · rename_i b ops hf
      obtain ⟨hops, hk⟩ := h lk _ b ops hf
      refine ⟨fun o ho => hown o _ (hops o ho), ih b hk (hwithin b) fun o ho => ?_⟩
      simp only [List.mem_append] at ho hd
      rcases ho with (ho | ho) | ho
      exacts [hd o (.inl ho), hops o ho, hd o (.inr ho)]
    · exact hfail
  | io f k ih => exact fun st' _ _ env =>
    ⟨g, hact w st' _ _ (hwithin.1 env st'.world), ih _ (h _) (hwithin.2 _) hd⟩
  | assign o p ih =>
    refine ih h.2 hwithin fun o' ho => ?_
    rw [← List.append_assoc] at ho
    exact (List.mem_append.1 ho).elim (hd o') fun ho => List.mem_singleton.1 ho ▸ h.1
  | flush p ih =>
    show C.Flushes r g _ d w st
    induction d generalizing w st with
    | nil => exact ih h hwithin hd
    | cons o d ihd =>
      intro st' _ _
      split
      · exact ⟨hown o _ (hd o (by simp)), ihd fun o' ho => hd o' (by simpa using ho)⟩
      · exact hfail

/-! ### What an event does -/

namespace System

/-- Transaction `i` runs request `r` and has written `w`. -/
def InFlight (s : System B ρ α) (i : Nat) (r : ρ) (w : List B.Op) : Prop :=
  ∃ p d, s.threads[i]? = some ⟨r, .running p d w⟩

/-- No two transactions have written one row. -/
def Exclusive (s : System B ρ α) : Prop := ∀ (i j : Nat) (t t' : Thread B ρ α), i ≠ j →
    s.threads[i]? = some t →
  s.threads[j]? = some t' → Apart t.phase.writes t'.phase.writes

/-- The step is an effect that raises. -/
def raises (s : System B ρ α) : Event B ρ → Bool
  | .step i env => match s.threads[i]? with
    | some ⟨_, .running (.io f _) _ _⟩ => !(f env s.world).1.isOk
    | _ => false
  | _ => false

/-- The invariant: every transaction in flight keeps the contract from here on, with its ghost, and
owns what it has written. -/
structure Traced (C : Contract B ρ α γ) (ghost : Nat → γ) (s : System B ρ α) : Prop where
  traced : ∀ (i : Nat) (r : ρ) (p : Prog B α) (d w : List B.Op),
    s.threads[i]? = some ⟨r, .running p d w⟩ →
    p.Traced C r d w (ghost i) ⟨s.db, s.world⟩
  owned : ∀ t ∈ s.threads, ∀ o ∈ t.phase.writes, C.Own o s.db
  exclusive : s.Exclusive
  fresh : ∀ i, s.threads.length ≤ i → ghost i = C.initial

/-- What the event `e` that leads from `s` to `s'` has done. -/
inductive Does (C : Contract B ρ α γ) (ghost : Nat → γ) (s : System B ρ α) (e : Event B ρ)
    (s' : System B ρ α) :
    (Nat → γ) → Prop
  | quiet (hdb : s'.db = s.db) (hworld : s'.world = s.world)
      (hkeep : ∀ j r w, s.InFlight j r w → ∃ w', w ⊆ w' ∧ s'.InFlight j r w') :
        Does C ghost s e s' ghost
  | act {i : Nat} {r : ρ} {w : List B.Op} {g : γ} (env : B.Env) (he : e = .step i env)
      (hi : s.InFlight i r w) (hdb : s'.db = s.db)
      (hact : C.Act r (ghost i) w ⟨s.db, s.world⟩ (!s.raises e) s'.world g)
      (hkeep : ∀ j r w, s.InFlight j r w → ∃ w', w ⊆ w' ∧ s'.InFlight j r w') :
        Does C ghost s e s' (Function.update ghost i g)
  | commit {i : Nat} {r : ρ} {a : α} {w : List B.Op} (hi : s.InFlight i r w)
      (hret : C.Returns r a w (ghost i) s.db)
      (hdb : s'.db = applyAll B w s.db) (hworld : s'.world = s.world)
        (hend : ∀ r w, ¬ s'.InFlight i r w)
      (hkeep : ∀ j r w, j ≠ i → s.InFlight j r w → ∃ w', w ⊆ w' ∧ s'.InFlight j r w') :
        Does C ghost s e s' ghost
  | drop {i : Nat} {r : ρ} {w : List B.Op} (hi : s.InFlight i r w)
      (he : e = .crash i ∨ C.Fails r (ghost i)) (hdb : s'.db = s.db)
      (hworld : s'.world = s.world) (hend : ∀ r w, ¬ s'.InFlight i r w)
      (hkeep : ∀ j r w, j ≠ i → s.InFlight j r w → ∃ w', w ⊆ w' ∧ s'.InFlight j r w') :
        Does C ghost s e s' ghost

section
variable {C : Contract B ρ α γ} {prog : ρ → Prog B α} {ghost ghost' : Nat → γ} {s : System B ρ α}
    {i j : Nat} {r r' : ρ}
  {p : Prog B α} {d w w' : List B.Op} {ph : Phase B α}

theorem InFlight.unique (h : s.InFlight i r w) (h' : s.InFlight i r' w') : r = r' ∧ w = w' := by
  obtain ⟨p, d, h⟩ := h
  obtain ⟨p', d', h'⟩ := h'
  rw [h] at h'
  cases h'
  exact ⟨rfl, rfl⟩

theorem InFlight.of_set (hj : j ≠ i) {s' : System B ρ α} {t : Thread B ρ α}
    (hs : s'.threads = s.threads.set i t) (h : s.InFlight j r w) : s'.InFlight j r w := by
  obtain ⟨p, d, h⟩ := h
  refine ⟨p, d, ?_⟩
  rwa [hs, List.getElem?_set_ne (Ne.symm hj)]

theorem inFlight_moved (hi : s.threads[i]? = some ⟨r, .running p d w⟩) {s' : System B ρ α}
    {p' : Prog B α} {d' w' : List B.Op} (hs : s'.threads = s.threads.set i ⟨r, .running p' d' w'⟩)
    (hw : w ⊆ w') (j : Nat) (r' : ρ) (w₀ : List B.Op)
    (h : s.InFlight j r' w₀) : ∃ w₁, w₀ ⊆ w₁ ∧ s'.InFlight j r' w₁ := by
  by_cases hj : j = i
  · subst hj
    obtain ⟨p₀, d₀, h⟩ := h
    rw [hi] at h
    cases h
    exact ⟨w', hw, p', d', by rw [hs]; exact getElem?_put hi r _⟩
  · exact ⟨w₀, fun _ => id, h.of_set hj hs⟩

theorem inFlight_ended (hi : s.threads[i]? = some ⟨r, .running p d w⟩) {s' : System B ρ α}
    (hs : s'.threads = s.threads.set i ⟨r, ph⟩) (hph : ph.Ended) (r' : ρ) (w₀ : List B.Op) :
        ¬ s'.InFlight i r' w₀ := by
  rintro ⟨p₀, d₀, h⟩
  rw [hs, getElem?_put hi] at h
  cases h
  exact hph

/-- Transaction `i` moves on to `ph`, with what remains of its program, and the others rely on what
has happened. -/
theorem Traced.put (hlaw : C.Lawful prog) (hs : s.Traced C ghost)
    (hi : s.threads[i]? = some ⟨r, .running p d w⟩) {s' : System B ρ α}
    (ht : s'.threads = s.threads.set i ⟨r, ph⟩) (hghost : ∀ j, j ≠ i → ghost' j = ghost j)
    (hrely : C.Rely ⟨s.db, s.world⟩ ⟨s'.db, s'.world⟩) (hx : s'.Exclusive)
    (hph : ∀ p d w, ph = .running p d w → p.Traced C r d w (ghost' i) ⟨s'.db, s'.world⟩)
    (hown : ∀ o ∈ ph.writes, C.Own o s'.db)
    (howns : ∀ j, j ≠ i → ∀ t, s.threads[j]? = some t → ∀ o ∈ t.phase.writes, C.Own o s'.db) :
        s'.Traced C ghost' := by
  refine ⟨fun j r' p' d' w' hj => ?_, fun t htm o ho => ?_, hx, fun j hj => ?_⟩
  · by_cases hji : j = i
    · subst hji
      rw [ht, getElem?_put hi] at hj
      cases hj
      exact hph p' d' w' rfl
    · rw [ht, List.getElem?_set_ne (Ne.symm hji)] at hj
      rw [hghost j hji]
      exact (hs.traced j r' p' d' w' hj).mono hlaw.trans hrely
  · obtain ⟨j, hj⟩ := List.mem_iff_getElem?.1 htm
    by_cases hji : j = i
    · subst hji
      rw [ht, getElem?_put hi] at hj
      cases hj
      exact hown o ho
    · rw [ht, List.getElem?_set_ne (Ne.symm hji)] at hj
      exact howns j hji t hj o ho
  · rw [ht, List.length_set] at hj
    have hlt := (List.getElem?_eq_some_iff.1 hi).1
    rw [hghost j (by omega)]
    exact hs.fresh j hj

variable [DecidableEq B.Key]

theorem Exclusive.next (prog : ρ → Prog B α) (h : s.Exclusive) (e : Event B ρ) :
    (s.next prog e).Exclusive := by
  have hany : Relies prog (fun _ => True) (fun _ _ _ _ => True) (fun _ _ => True)
      (fun _ _ _ _ => True) :=
    ⟨fun _ _ _ => trivial,
        fun _ _ _ _ _ _ _ => trivial,
            fun _ _ _ _ _ => trivial, fun _ _ _ _ _ => trivial, fun r db _ =>
      Prog.Safe.of_forall (fun _ _ _ _ _ => trivial) (fun _ _ => trivial) fun _ _ _ _ _ => trivial⟩
  have hsafe : ∀ t ∈ s.threads, t.phase.Guarded (fun _ _ _ => True) (fun _ _ => True)
      (fun _ _ _ => True) s.db := by
    intro t _
    cases t.phase with
    | running p d w =>
      exact Prog.Safe.of_forall (fun _ _ _ _ _ => trivial) (fun _ _ => trivial)
        fun _ _ _ _ _ => trivial
    | committed a => trivial
    | rolledBack e => trivial
  refine (hany.next_guarded (e := e) ⟨trivial, hsafe, fun _ _ _ _ => trivial, h⟩ trivial
    fun t _ => ?_).exclusive
  cases t.phase <;> trivial

/-- A step of transaction `i`. -/
theorem Traced.step (hlaw : C.Lawful prog) (hs : s.Traced C ghost)
    (hi : s.threads[i]? = some ⟨r, .running p d w⟩) (env : B.Env) :
    ∃ ghost', Does C ghost s (.step i env) (s.advance i env r p d w) ghost' ∧
        (s.advance i env r p d w).Traced C ghost' := by
  have htraced := hs.traced i r p d w hi
  have howned : ∀ o ∈ w, C.Own o s.db := hs.owned _ (List.mem_of_getElem? hi)
  have hothers : ∀ j, j ≠ i → ∀ t, s.threads[j]? = some t → ∀ o ∈ t.phase.writes, C.Own o s.db :=
    fun j _ t ht => hs.owned t (List.mem_of_getElem? ht)
  have hx : (s.advance i env r p d w).Exclusive := by
    have hnext := hs.exclusive.next prog (.step i env)
    rwa [next_step hi] at hnext
  have waits : s.advance i env r p d w = s → ∃ ghost',
      Does C ghost s (.step i env) (s.advance i env r p d w) ghost' ∧
      (s.advance i env r p d w).Traced C ghost' := by
    intro he
    rw [he]
    exact ⟨ghost, .quiet rfl rfl fun j r w h => ⟨w, fun _ => id, h⟩, hs⟩
  have moved : ∀ p' d' w', s.advance i env r p d w = s.put i r (.running p' d' w') → w ⊆ w' →
      p'.Traced C r d' w' (ghost i) ⟨s.db, s.world⟩ → (∀ o ∈ w', C.Own o s.db) → ∃ ghost',
        Does C ghost s (.step i env) (s.advance i env r p d w) ghost' ∧
            (s.advance i env r p d w).Traced C ghost' := by
    intro p' d' w' he hw hp' hown
    rw [he] at hx ⊢
    refine ⟨ghost, .quiet rfl rfl (inFlight_moved hi rfl hw),
      hs.put hlaw hi rfl (fun _ _ => rfl) (hlaw.refl _) hx ?_ hown hothers⟩
    intro p d w hph
    cases hph
    exact hp'
  cases p with
  | ret a =>
    have hret := htraced _ (hlaw.refl _) howned
    refine ⟨ghost, .commit ⟨_, _, hi⟩ hret rfl rfl (inFlight_ended hi rfl trivial)
      fun j r' w' hj h => ⟨w', fun _ => id, h.of_set hj rfl⟩, ?_⟩
    refine hs.put hlaw hi rfl (fun _ _ => rfl) (hlaw.commit r a w _ _ hret) hx
      (fun p d w hph => by cases hph)
      (fun o ho => absurd ho List.not_mem_nil) fun j hj t ht o ho => ?_
    exact applyAll_invariant (P := C.Own o) (fun o' ho' db => hlaw.stable o o' db fun key hkey =>
      hs.exclusive j i t _ hj ht hi o ho o' ho' key hkey) (hothers j hj t ht o ho)
  | raise e =>
    refine ⟨ghost, .drop ⟨_, _, hi⟩ (.inr htraced) rfl rfl (inFlight_ended hi rfl trivial)
      fun j r' w' hj h => ⟨w', fun _ => id, h.of_set hj rfl⟩, ?_⟩
    exact hs.put hlaw hi rfl (fun _ _ => rfl) (hlaw.refl _) hx (fun p d w hph => by cases hph)
      (fun o ho => absurd ho List.not_mem_nil) hothers
  | stmt f k =>
    have hstmt := htraced _ (hlaw.refl _) howned (s.locked i)
    dsimp only at hstmt
    cases hf : f (s.locked i) (applyAll B w s.db) with
    | error e =>
      rw [hf] at hstmt
      exact moved (.raise e) d w (by simp [advance, hf]) (fun _ => id) hstmt howned
    | ok b =>
      rw [hf] at hstmt
      by_cases hfree : s.free i b.2 = true
      · exact moved (k b.1) d (w ++ b.2) (by simp [advance, hf, hfree])
          (List.subset_append_left _ _) hstmt.2
          (List.forall_mem_append.2 ⟨howned, hstmt.1⟩)
      · exact waits (by simp [advance, hf, hfree])
  | io f k =>
    obtain ⟨g', hact, hk⟩ := htraced _ (hlaw.refl _) howned env
    have hok : (f env s.world).1.isOk = !s.raises (.step i env) := by simp [raises, hi]
    rw [hok] at hact
    refine ⟨Function.update ghost i g',
      .act env rfl ⟨_, _, hi⟩ rfl hact (inFlight_moved hi rfl fun _ => id), ?_⟩
    refine hs.put hlaw hi rfl (fun j hj => Function.update_of_ne hj _ _)
      (hlaw.act _ _ _ _ _ _ _ hact) hx ?_ howned hothers
    intro p d w hph
    cases hph
    rw [Function.update_self]
    exact hk
  | assign o p => exact moved p (d ++ [o]) w rfl (fun _ => id) htraced howned
  | flush p =>
    cases d with
    | nil => exact moved p [] w rfl (fun _ => id) htraced howned
    | cons o d =>
      have hflush := htraced _ (hlaw.refl _) howned
      cases hc : B.check o (applyAll B w s.db) with
      | error e =>
        rw [hc] at hflush
        exact moved (.raise e) d w (by simp [advance, hc]) (fun _ => id) hflush howned
      | ok u =>
        rw [hc] at hflush
        by_cases hfree : s.free i [o] = true
        · exact moved (.flush p) d (w ++ [o]) (by simp [advance, hc, hfree])
            (List.subset_append_left _ _) hflush.2
            (List.forall_mem_append.2 ⟨howned, by simpa using hflush.1⟩)
        · exact waits (by simp [advance, hc, hfree])

/-- What an event does, in a system whose transactions keep the contract. -/
theorem Traced.next (hlaw : C.Lawful prog) (hs : s.Traced C ghost) (e : Event B ρ) :
    ∃ ghost', Does C ghost s e (s.next prog e) ghost' ∧ (s.next prog e).Traced C ghost' := by
  have same : s.next prog e = s → ∃ ghost', Does C ghost s e (s.next prog e) ghost' ∧
      (s.next prog e).Traced C ghost' := by
    intro he
    rw [he]
    exact ⟨ghost, .quiet rfl rfl fun j r w h => ⟨w, fun _ => id, h⟩, hs⟩
  cases e with
  | start r =>
    refine ⟨ghost, .quiet rfl rfl fun j r' w h => ⟨w, fun _ => id, ?_⟩, ?_⟩
    · obtain ⟨p, d, h⟩ := h
      exact ⟨p, d, by rwa [System.next, List.getElem?_append_left (List.getElem?_eq_some_iff.1 h).1]⟩
    · refine ⟨fun j r' p d w hj => ?_,
        fun t ht => ?_, hs.exclusive.next prog (.start r), fun j hj => hs.fresh j ?_⟩
      · rcases Nat.lt_or_ge j s.threads.length with hlt | hge
        · rw [System.next, List.getElem?_append_left hlt] at hj
          exact hs.traced j r' p d w hj
        · -- the new transaction
          rw [hs.fresh j hge]
          have hnew : (⟨r', .running p d w⟩ : Thread B ρ α) ∈
              [⟨r, .running (prog r).commit [] []⟩] := by
            rw [System.next, List.getElem?_append_right hge] at hj
            exact List.mem_of_getElem? hj
          cases List.mem_singleton.1 hnew
          exact hlaw.traced r _
      · rcases List.mem_append.1 ht with ht | ht
        · exact hs.owned t ht
        · rw [List.mem_singleton.1 ht]
          exact fun o ho => absurd ho List.not_mem_nil
      · rw [System.next, List.length_append] at hj
        omega
  | step i env =>
    rcases h : s.threads[i]? with _ | ⟨r, ⟨p, d, w⟩ | a | e⟩
    · exact same (by simp [System.next, h])
    · rw [next_step h]
      exact hs.step hlaw h env
    · exact same (by simp [System.next, h])
    · exact same (by simp [System.next, h])
  | crash i =>
    rcases h : s.threads[i]? with _ | ⟨r, ⟨p, d, w⟩ | a | e⟩
    · exact same (by simp [System.next, h])
    · have he : s.next prog (.crash i) = s.put i r (.rolledBack none) := by simp [System.next, h]
      have hx := hs.exclusive.next prog (.crash i)
      rw [he] at hx ⊢
      refine ⟨ghost, .drop ⟨_, _, h⟩ (.inl rfl) rfl rfl (inFlight_ended h rfl trivial)
        fun j r' w' hj hf => ⟨w', fun _ => id, hf.of_set hj rfl⟩, ?_⟩
      exact hs.put hlaw h rfl (fun _ _ => rfl) (hlaw.refl _) hx (fun p d w hph => by cases hph)
        (fun o ho => absurd ho List.not_mem_nil) fun j _ t ht => hs.owned t (List.mem_of_getElem? ht)
    · exact same (by simp [System.next, h])
    · exact same (by simp [System.next, h])

/-- Who is in flight after an event was in flight before, or is new. -/
theorem InFlight.before {e : Event B ρ} (h : (s.next prog e).InFlight j r w) :
    (∃ w₀, s.InFlight j r w₀) ∨ s.threads.length ≤ j := by
  have hset : ∀ {i r' p d w' ph} {s' : System B ρ α}, s.threads[i]? = some ⟨r', .running p d w'⟩ →
      s'.threads = s.threads.set i ⟨r', ph⟩ → s'.InFlight j r w → ∃ w₀, s.InFlight j r w₀ := by
    rintro i r' p d w' ph s' hi ht ⟨p₁, d₁, hj⟩
    by_cases hji : j = i
    · subst hji
      rw [ht, getElem?_put hi] at hj
      cases hj
      exact ⟨w', p, d, hi⟩
    · rw [ht, List.getElem?_set_ne (Ne.symm hji)] at hj
      exact ⟨w, p₁, d₁, hj⟩
  rcases next_cases prog s e with ⟨hn, -⟩ | ⟨r', hn, -, -⟩ | ⟨i, r', p, d, w', ph, wd, hi, -, hn, -⟩ |
    ⟨i, r', a, d, w', hi, hn, -⟩ <;> rw [hn] at h
  · exact .inl ⟨w, h⟩
  · rcases Nat.lt_or_ge j s.threads.length with hlt | hge
    · obtain ⟨p, d, h⟩ := h
      exact .inl ⟨w, p, d, by rwa [List.getElem?_append_left hlt] at h⟩
    · exact .inr hge
  · exact .inl (hset hi rfl h)
  · exact .inl (hset hi rfl h)

end

end System

end Kit
