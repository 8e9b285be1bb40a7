import TrafficPlatform.Kit.Expiring

/-!
# Counters that are incremented and decremented again

A unit is taken from an expiring counter and later given back, perhaps to another counter (the code
that gives it back computes the key anew), or not at all. `Refund.undone_iff` says when that leaves
every counter as it would read if nothing had been done, in terms of the counters before and of the
times. Either the unit goes back to its counter while that is there, or the counters that it has
touched have expired by the time they are read.
-/

namespace Kit

variable {κ ν τ : Type} [LinearOrder τ]

/-- The entry has not expired. -/
def Entry.Live (now : τ) (e : Entry ν τ) : Prop := ∀ t ∈ e.expiry, now ≤ t

instance (now : τ) (e : Entry ν τ) : Decidable (e.Live now) :=
  inferInstanceAs (Decidable (∀ t ∈ e.expiry, now ≤ t))

theorem Entry.Live.mono {now later : τ} {e : Entry ν τ} (h : e.Live later) (hle : now ≤ later) :
    e.Live now :=
  fun t ht => le_trans hle (h t ht)

namespace Store

variable {s : Store κ Int τ} {k : κ} {now later : τ} {e : Entry Int τ}

/-- What a counter reads; a missing one reads 0. -/
def read (s : Store κ Int τ) (now : τ) (k : κ) : Int := (s.get now k).getD 0

theorem read_congr {s' : Store κ Int τ} (h : s' k = s k) : s'.read now k = s.read now k := by
  unfold read
  rw [get_congr h]

theorem live_of_live (h : s k = some e) (he : e.Live now) : s.live now k = some e := live_some h he

theorem live_of_not_live (h : ∀ e ∈ s k, ¬ e.Live now) : s.live now k = none := by
  cases hk : s k with
  | none => exact live_of_none hk
  | some e =>
    obtain ⟨t, ht, hlt⟩ := not_forall₂.1 (h e hk)
    exact live_expired hk ht (not_le.1 hlt)

theorem read_of_live (h : s k = some e) (he : e.Live now) : s.read now k = e.value := by
  unfold read get
  rw [live_of_live h he]
  rfl

theorem read_of_not_live (h : ∀ e ∈ s k, ¬ e.Live now) : s.read now k = 0 := by
  unfold read get
  rw [live_of_not_live h]
  rfl

theorem exists_of_read_ne (h : s.read now k ≠ 0) : ∃ e, s k = some e ∧ e.Live now ∧
    e.value = s.read now k := by
  by_contra hno
  refine h (read_of_not_live fun e he hlive => hno ⟨e, he, hlive, (read_of_live he hlive).symm⟩)

theorem read_zero_of_le (h : s.read now k = 0) (hle : now ≤ later) : s.read later k = 0 := by
  by_contra hne
  obtain ⟨e, he, hlive, hv⟩ := exists_of_read_ne hne
  rw [read_of_live he (hlive.mono hle)] at h
  exact hne (hv.symm.trans h)

end Store

/-! ### Units -/

/-- A unit: the counter that it is taken from and the time, and the expiry `life` which that counter
gets at `later` if it read 0 before. -/
structure Take (κ τ : Type) where
  taken : κ
  start : τ
  later : τ
  life : τ

/-- The counter with the unit has not expired at `t`: one that read 0 gets its new expiry, if it is
there for it, and any other one keeps the one it had. -/
def Take.Lives (s : Store κ Int τ) (u : Take κ τ) (t : τ) : Prop :=
  if s.read u.start u.taken = 0 then (∀ e ∈ s.live u.start u.taken, e.Live u.later) ∧
    t ≤ u.life else ∃ e ∈ s u.taken, e.Live t

theorem Take.read_taken {t : τ} (s : Store κ Int τ) (u : Take κ τ) (hle : u.start ≤ t) :
    (u.Lives s t → s.read t u.taken = s.read u.start u.taken) ∧
        (¬ u.Lives s t → s.read t u.taken = 0) := by
  unfold Lives
  by_cases hzero : s.read u.start u.taken = 0
  · have hlater := Store.read_zero_of_le hzero hle
    exact ⟨fun _ => hlater.trans hzero.symm, fun _ => hlater⟩
  · obtain ⟨e, he, -, hv⟩ := Store.exists_of_read_ne hzero
    simp only [if_neg hzero, he, Option.mem_some_iff, exists_eq_left']
    exact ⟨fun hl => (Store.read_of_live he hl).trans hv,
      fun hl => Store.read_of_not_live (by simpa [he] using hl)⟩

/-- A unit with the counter that it is given back to and the time, if it is. -/
structure Refund (κ τ : Type) extends Take κ τ where
  given : Option (κ × τ)

namespace Refund

/-- The unit goes back to its counter while that lives; or to another one that lives, and both have
expired at `stop`; or it does not go back, and its counter has expired at `stop`. -/
def Settles (s : Store κ Int τ) (stop : τ) (r : Refund κ τ) : Prop :=
  match r.given with
  | none => ¬ r.Lives s stop
  | some g => (g.1 = r.taken ∧ r.Lives s g.2) ∨
    (g.1 ≠ r.taken ∧ ¬ r.Lives s stop ∧ (∃ e ∈ s g.1, e.Live g.2) ∧ ∀ e ∈ s g.1, ¬ e.Live stop)

/-- The unit was taken when the store was `s`, which is done at `done` and leaves `s₁`, and what was
given back leaves `s'`. -/
structure Happens (s s₁ s' : Store κ Int τ) (stop done : τ) (r : Refund κ τ) : Prop where
  start_le : r.start ≤ done
  done_le : done ≤ stop
  value : ∀ e ∈ s₁ r.taken, e.value = s.read r.start r.taken + 1
  lives : ∀ t, done ≤ t → ((∃ e ∈ s₁ r.taken, e.Live t) ↔ r.Lives s t)
  kept : r.given = none → s' r.taken = s₁ r.taken
  back : ∀ g ∈ r.given, done ≤ g.2 ∧ g.2 ≤ stop ∧
    s' g.1 = some ⟨s₁.read g.2 g.1 - 1, (s₁.live g.2 g.1).bind (·.expiry)⟩ ∧
    (g.1 ≠ r.taken → s₁ g.1 = s g.1 ∧ s' r.taken = s₁ r.taken)

variable {s s₁ s' : Store κ Int τ} {stop done t : τ} {r : Refund κ τ} {k : κ} {e : Entry Int τ}

theorem Happens.read_left (h : r.Happens s s₁ s' stop done) (hle : done ≤ t) :
    (r.Lives s t → s₁.read t r.taken = s.read r.start r.taken + 1) ∧
        (¬ r.Lives s t → s₁.read t r.taken = 0) := by
  rw [← h.lives t hle]
  constructor
  · rintro ⟨e, he, hl⟩
    rw [Store.read_of_live he hl, h.value e he]
  · exact fun hno => Store.read_of_not_live fun e he hl => hno ⟨e, he, hl⟩

theorem read_dead (hback : s' k = some ⟨s₁.read t k - 1, (s₁.live t k).bind (·.expiry)⟩)
    (hdead : ∀ e ∈ s₁ k, ¬ e.Live t) (later : τ) : s'.read later k = -1 := by
  rw [Store.read_of_not_live hdead, Store.live_of_not_live hdead] at hback
  rw [Store.read_of_live hback]
  · rfl
  · intro t ht
    cases ht

theorem read_live (hback : s' k = some ⟨s₁.read t k - 1, (s₁.live t k).bind (·.expiry)⟩)
    (he : s₁ k = some e) (hlive : e.Live t)
    (later : τ) : s'.read later k = if e.Live later then e.value - 1 else 0 := by
  rw [Store.read_of_live he hlive, Store.live_of_live he hlive, Option.bind_some] at hback
  by_cases hl : e.Live later
  · rw [if_pos hl, Store.read_of_live hback hl]
  · rw [if_neg hl, Store.read_of_not_live fun e' he' => ?_]
    rw [hback] at he'
    rwa [← Option.some.inj he']

theorem Happens.kept_iff (h : r.Happens s s₁ s' stop done) (hkept : s' r.taken = s₁ r.taken) :
    s'.read stop r.taken = s.read stop r.taken ↔ ¬ r.Lives s stop := by
  rw [Store.read_congr hkept]
  obtain ⟨hlive, hdead⟩ := h.read_left h.done_le
  obtain ⟨hlive', hdead'⟩ := r.toTake.read_taken s (h.start_le.trans h.done_le)
  constructor
  · intro he hl
    rw [hlive hl, hlive' hl] at he
    omega
  · intro hl
    rw [hdead hl, hdead' hl]

/-- The counter of a unit that goes back to it. -/
theorem Happens.same_iff (h : r.Happens s s₁ s' stop done) {time : τ} (hg : (r.taken, time) ∈ r.given)
    (hpos : 0 ≤ s.read stop r.taken) : s'.read stop r.taken = s.read stop r.taken ↔ r.Lives s time := by
  obtain ⟨hdone, -, hback, -⟩ := h.back _ hg
  rw [← h.lives time hdone]
  constructor
  · intro he
    by_contra hno
    rw [read_dead hback fun e he hl => hno ⟨e, he, hl⟩] at he
    omega
  · rintro ⟨e, he, hlive⟩
    have hstop : e.Live stop ↔ r.Lives s stop := by
      rw [← h.lives stop h.done_le, he]
      simp
    obtain ⟨hread, hread'⟩ := r.toTake.read_taken s (h.start_le.trans h.done_le)
    rw [read_live hback he hlive, h.value e he]
    by_cases hl : r.Lives s stop
    · rw [if_pos (hstop.2 hl), hread hl]
      omega
    · rw [if_neg (mt hstop.1 hl), hread' hl]

/-- Another counter that a unit goes to. -/
theorem Happens.other_iff (h : r.Happens s s₁ s' stop done) {g : κ × τ} (hg : g ∈ r.given)
    (hne : g.1 ≠ r.taken) (hpos : 0 ≤ s.read stop g.1) :
    s'.read stop g.1 = s.read stop g.1 ↔ (∃ e ∈ s g.1, e.Live g.2) ∧ ∀ e ∈ s g.1, ¬ e.Live stop := by
  obtain ⟨-, -, hback, hothers⟩ := h.back g hg
  have hsame := (hothers hne).1
  by_cases hex : ∃ e ∈ s g.1, e.Live g.2
  · obtain ⟨e, he, hlive⟩ := hex
    rw [read_live hback (hsame.trans he) hlive]
    by_cases hl : e.Live stop
    · rw [if_pos hl, Store.read_of_live he hl]
      exact iff_of_false (by omega) fun hall => hall.2 e he hl
    · have hdead : ∀ e' ∈ s g.1, ¬ e'.Live stop := by
        intro e' he'
        rwa [Option.mem_unique he' he]
      rw [if_neg hl, Store.read_of_not_live hdead]
      exact iff_of_true rfl ⟨⟨e, he, hlive⟩, hdead⟩
  · have hread := read_dead hback (by rw [hsame]; exact fun e he hl => hex ⟨e, he, hl⟩) stop
    exact iff_of_false (by omega) fun hall => hex hall.1

/-- One unit: its counters read the same as if it had not been taken exactly if it settles. -/
theorem Happens.iff (h : r.Happens s s₁ s' stop done) (ht : 0 ≤ s.read stop r.taken)
    (hg : ∀ g ∈ r.given, 0 ≤ s.read stop g.1) :
    (s'.read stop r.taken = s.read stop r.taken ∧ ∀ g ∈ r.given, s'.read stop g.1 = s.read stop g.1)
        ↔ r.Settles s stop := by
  cases hgiven : r.given with
  | none =>
    rw [Settles, hgiven, h.kept_iff (h.kept hgiven)]
    exact and_iff_left (by simp)
  | some g =>
    obtain ⟨x, time⟩ := g
    have hmem : (x, time) ∈ r.given := by rw [hgiven]; rfl
    simp only [Settles, hgiven, Option.mem_some_iff, forall_eq']
    by_cases hsame : x = r.taken
    · subst hsame
      rw [and_self, h.same_iff hmem ht]
      simp
    · rw [h.kept_iff ((h.back _ hmem).2.2.2 hsame).2, h.other_iff hmem hsame (hg _ hmem)]
      simp [hsame]

/-- Any number of units: all counters of a kind read the same as if no unit had been taken, and none is
negative, exactly if no counter would have been negative and every unit settles. -/
theorem undone_iff {P : κ → Prop} {rs : List (Refund κ τ)}
    (hkeys : ∀ r ∈ rs, P r.taken ∧ ∀ g ∈ r.given, P g.1)
    (hrs : ∀ r ∈ rs, ∃ s₁ done, r.Happens s s₁ s' stop done)
    (hothers : ∀ x, (∀ r ∈ rs, x ≠ r.taken ∧ ∀ g ∈ r.given, x ≠ g.1) → s' x = s x) :
    (∀ x, P x → s'.read stop x = s.read stop x ∧ 0 ≤ s'.read stop x) ↔
      (∀ x, P x → 0 ≤ s.read stop x) ∧ ∀ r ∈ rs, r.Settles s stop := by
  constructor
  · intro h
    have hpos : ∀ x, P x → 0 ≤ s.read stop x := fun x hx => by rw [← (h x hx).1]; exact (h x hx).2
    refine ⟨hpos, fun r hr => ?_⟩
    obtain ⟨s₁, done, hr'⟩ := hrs r hr
    obtain ⟨ht, hg⟩ := hkeys r hr
    exact (hr'.iff (hpos _ ht) fun g hmem => hpos _ (hg g hmem)).1
      ⟨(h _ ht).1, fun g hmem => (h _ (hg g hmem)).1⟩
  · rintro ⟨hpos, hall⟩ x hx
    have heq : s'.read stop x = s.read stop x := by
      by_cases hex : ∃ r ∈ rs, x = r.taken ∨ ∃ g ∈ r.given, x = g.1
      · obtain ⟨r, hr, hxr⟩ := hex
        obtain ⟨s₁, done, hr'⟩ := hrs r hr
        obtain ⟨ht, hg⟩ := hkeys r hr
        obtain ⟨htaken, hgiven⟩ := (hr'.iff (hpos _ ht) fun g hmem => hpos _ (hg g hmem)).2 (hall r hr)
        rcases hxr with rfl | ⟨g, hmem, rfl⟩
        · exact htaken
        · exact hgiven g hmem
      · refine Store.read_congr (hothers x fun r hr => ?_)
        exact ⟨fun he => hex ⟨r, hr, .inl he⟩, fun g hmem he => hex ⟨r, hr, .inr ⟨g, hmem, he⟩⟩⟩
    exact ⟨heq, heq ▸ hpos x hx⟩

end Refund

end Kit
