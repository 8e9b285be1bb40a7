import Mathlib.Order.Lattice
import Mathlib.Tactic.ByContra
import Mathlib.Tactic.Push
import Mathlib.Order.Monotone.Defs

/-!
# A key-value store whose keys expire

A key holds a value and possibly an expiry time; once the clock is strictly past it the key is
gone. `live now` is what a command at time `now` finds. A write to a live key keeps its expiry, a
write to a dead one creates it without an expiry.

A `Counter` is the use of one such key that counts hits and expires: the first hit creates it and
fixes its expiry, and a hit past the expiry starts it again. `Counter.granted_le_iff` says when the
hits that find the counter within a limit stay within that limit altogether.
-/

namespace Kit

/-- An entry: its value and the time past which it is dropped. -/
structure Entry (ν τ : Type) where
  value : ν
  expiry : Option τ

/-- A store with keys `κ`, values `ν` and times `τ`. -/
def Store (κ ν τ : Type) : Type := κ → Option (Entry ν τ)

namespace Store

variable {κ ν τ : Type} [LinearOrder τ] {s : Store κ ν τ} {k k' : κ} {now : τ}

/-- The store without keys. -/
def empty : Store κ ν τ := fun _ => none

/-- The entry of `k` at time `now`. -/
def live (s : Store κ ν τ) (now : τ) (k : κ) : Option (Entry ν τ) :=
  (s k).filter fun e => match e.expiry with
    | some t => decide (now ≤ t)
    | none => true

/-- The value of `k` at time `now`. -/
def get (s : Store κ ν τ) (now : τ) (k : κ) : Option ν := (s.live now k).map (·.value)

/-- Put a value under `k`, keeping the expiry of a live key. -/
def set [DecidableEq κ] (s : Store κ ν τ) (now : τ) (k : κ) (v : ν) : Store κ ν τ :=
  fun k' => if k' = k then some ⟨v, (s.live now k).bind (·.expiry)⟩ else s k'

/-- `EXPIRE`: a live key will be dropped past `t`. -/
def expire [DecidableEq κ] (s : Store κ ν τ) (now : τ) (k : κ) (t : τ) : Store κ ν τ :=
  fun k' => if k' = k then (s.live now k).map fun e => { e with expiry := some t } else s k'

/-- `DEL`. -/
def erase [DecidableEq κ] (s : Store κ ν τ) (k : κ) : Store κ ν τ :=
  fun k' => if k' = k then none else s k'

@[simp] theorem live_empty : (empty : Store κ ν τ).live now k = none := rfl

theorem live_congr {s' : Store κ ν τ} (h : s' k = s k) : s'.live now k = s.live now k := by
  simp [live, h]

theorem get_congr {s' : Store κ ν τ} (h : s' k = s k) : s'.get now k = s.get now k := by
  simp [get, live, h]

theorem live_of_none (h : s k = none) : s.live now k = none := by simp [live, h]

theorem live_some {e : Entry ν τ} (h : s k = some e) (he : ∀ t, e.expiry = some t → now ≤ t) :
    s.live now k = some e := by
  cases hx : e.expiry with
  | none => simp [live, h, hx]
  | some t => simp [live, h, hx, he t hx]

theorem live_expired {e : Entry ν τ} {t : τ} (h : s k = some e) (hx : e.expiry = some t)
    (ht : t < now) :
    s.live now k = none := by
  simp [live, h, hx, ht]

theorem eq_of_live {e : Entry ν τ} (h : s.live now k = some e) : s k = some e :=
  (Option.filter_eq_some_iff.1 h).1

theorem live_le {e : Entry ν τ} {t : τ} (h : s.live now k = some e) (hx : e.expiry = some t) :
    now ≤ t := by
  have := (Option.filter_eq_some_iff.1 h).2
  simpa [hx] using this

section
variable [DecidableEq κ]

@[simp] theorem set_self (v : ν) :
    (s.set now k v) k = some ⟨v, (s.live now k).bind (·.expiry)⟩ := by simp [set]

@[simp] theorem set_of_ne (h : k' ≠ k) (v : ν) : (s.set now k v) k' = s k' := by
  simp [set, h]

@[simp] theorem expire_self (t : τ) :
    (s.expire now k t) k = (s.live now k).map fun e => { e with expiry := some t } := by
  simp [expire]

@[simp] theorem expire_of_ne (h : k' ≠ k) (t : τ) : (s.expire now k t) k' = s k' := by
  simp [expire, h]

omit [LinearOrder τ] in
@[simp] theorem erase_self : (s.erase k) k = none := by simp [erase]

omit [LinearOrder τ] in
@[simp] theorem erase_of_ne (h : k' ≠ k) : (s.erase k) k' = s k' := by simp [erase, h]

theorem live_set_self (v : ν) : (s.set now k v).live now k =
    some ⟨v, (s.live now k).bind (·.expiry)⟩ := by
  refine live_some (set_self v) fun t ht => ?_
  obtain ⟨e, he, het⟩ := Option.bind_eq_some_iff.1 ht
  exact live_le he het

theorem set_of_live {e : Entry ν τ} (h : s.live now k = some e) (v : ν) :
    (s.set now k v) k = some ⟨v, e.expiry⟩ := by simp [h]

theorem expire_set_of_dead (h : s.live now k = none) (v : ν) (t : τ) :
    ((s.set now k v).expire now k t) k = some ⟨v, some t⟩ := by
  have hset : (s.set now k v) k = some ⟨v, none⟩ := by simp [h]
  rw [expire_self, live_some hset (by simp)]
  rfl

end

end Store

/-! ### Counters -/

/-- A counter: its hits since it was created and the time past which it is dropped. -/
structure Counter (τ : Type) where
  used : Nat
  expiry : τ

namespace Counter

variable {τ : Type} [LinearOrder τ]

/-- A hit at time `now`; a counter created at `now` expires at `life now`. -/
def hit (life : τ → τ) (now : τ) : Option (Counter τ) → Counter τ
  | some c => if now ≤ c.expiry then ⟨c.used + 1, c.expiry⟩ else ⟨1, life now⟩
  | none => ⟨1, life now⟩

/-- The counts that the hits of a run find, each counting itself. -/
def hits (life : τ → τ) : Option (Counter τ) → List τ → List Nat
  | _, [] => []
  | c, t :: ts => (hit life t c).used :: hits life (some (hit life t c)) ts

/-- The hits that find the counter within the limit. -/
def granted (life : τ → τ) (limit : Nat) (c : Option (Counter τ)) (ts : List τ) : Nat :=
  (hits life c ts).countP (· ≤ limit)

variable {life : τ → τ} {limit : Nat} {t : τ} {ts : List τ} {c : Counter τ}

theorem length_hits (c : Option (Counter τ)) : (hits life c ts).length = ts.length := by
  induction ts generalizing c with
  | nil => rfl
  | cons t ts ih => simp [hits, ih]

theorem granted_cons (c : Option (Counter τ)) : granted life limit c (t :: ts) =
    granted life limit (some (hit life t c)) ts + if (hit life t c).used ≤ limit then 1 else 0 := by
  simp [granted, hits, List.countP_cons]

theorem hit_used_pos {c : Option (Counter τ)} : 0 < (hit life t c).used := by
  cases c with
  | none => exact Nat.one_pos
  | some c => simp only [hit]; split <;> exact Nat.succ_pos _

theorem hit_used_le : (hit life t (some c)).used ≤ c.used + 1 := by
  simp only [hit]; split <;> simp

theorem le_granted (limit : Nat) (ts : List τ) (c : Counter τ) :
    min (limit - c.used) ts.length ≤ granted life limit (some c) ts := by
  induction ts generalizing c with
  | nil => simp
  | cons t ts ih =>
    have hle : (hit life t (some c)).used ≤ c.used + 1 := hit_used_le
    have := ih (hit life t (some c))
    rw [granted_cons, List.length_cons]
    split <;> omega

theorem granted_le_of_live (h : ∀ t ∈ ts, t ≤ c.expiry) :
    granted life limit (some c) ts ≤ limit - c.used := by
  induction ts generalizing c with
  | nil => simp [granted, hits]
  | cons t ts ih =>
    have hlive : hit life t (some c) = ⟨c.used + 1, c.expiry⟩ := if_pos (h t List.mem_cons_self)
    have := ih (c := ⟨c.used + 1, c.expiry⟩) fun t ht => h t (List.mem_cons_of_mem _ ht)
    rw [granted_cons, hlive]
    dsimp only at this ⊢
    split <;> omega

/-- A counter that is hit past its expiry grants one more. -/
theorem lt_granted_of_expired (hl : 0 < limit) (hc : 0 < c.used) (h : ∃ t ∈ ts, c.expiry < t) :
    min (limit - c.used + 1) ts.length ≤ granted life limit (some c) ts := by
  induction ts generalizing c with
  | nil => simp
  | cons t ts ih =>
    rw [granted_cons, List.length_cons]
    rcases le_or_gt t c.expiry with hlive | hdead
    · have hhit : hit life t (some c) = ⟨c.used + 1, c.expiry⟩ := if_pos hlive
      obtain ⟨t', ht', hlt⟩ := h
      have hmem : t' ∈ ts :=
        (List.mem_cons.1 ht').resolve_left fun he => absurd (he ▸ hlt) (not_lt_of_ge hlive)
      have hpos := List.length_pos_of_mem hmem
      have := ih (c := ⟨c.used + 1, c.expiry⟩) (Nat.succ_pos _) ⟨t', hmem, hlt⟩
      rw [hhit]
      dsimp only at this ⊢
      split <;> omega
    · have hhit : hit life t (some c) = ⟨1, life t⟩ := if_neg (not_le_of_gt hdead)
      have : min (limit - 1) ts.length ≤ granted life limit (some ⟨1, life t⟩) ts :=
        le_granted limit ts ⟨1, life t⟩
      rw [hhit, if_pos (show 1 ≤ limit from hl)]
      omega

/-- The hits of a new counter that are granted stay within the limit exactly when there are no more
hits than that, or none of them is past the expiry that the first one fixes. -/
theorem granted_le_iff (hl : 0 < limit) : granted life limit none ts ≤ limit ↔
    ts.length ≤ limit ∨ ∀ first rest, ts = first :: rest → ∀ t ∈ rest, t ≤ life first := by
  cases ts with
  | nil => simp [granted, hits]
  | cons first rest =>
    have hhit : hit life first none = ⟨1, life first⟩ := rfl
    rw [granted_cons, hhit, if_pos (show 1 ≤ limit from hl)]
    constructor
    · intro h
      by_contra hne
      simp only [not_or, not_forall, List.length_cons] at hne
      obtain ⟨hlen, f, r, he, t, ht, hlate⟩ := hne
      obtain ⟨rfl, rfl⟩ := List.cons.inj he
      have : min (limit - 1 + 1) rest.length ≤ granted life limit (some ⟨1, life first⟩) rest :=
        lt_granted_of_expired (c := ⟨1, life first⟩) hl Nat.one_pos ⟨t, ht, lt_of_not_ge hlate⟩
      omega
    · rintro (hlen | hlive)
      · have hle : granted life limit (some ⟨1, life first⟩) rest ≤
            (hits life (some ⟨1, life first⟩) rest).length :=
          List.countP_le_length
        rw [length_hits] at hle
        simp only [List.length_cons] at hlen
        omega
      · have : granted life limit (some ⟨1, life first⟩) rest ≤ limit - 1 :=
          granted_le_of_live (c := ⟨1, life first⟩) (hlive first rest rfl)
        omega

/-! #### Hits within an interval -/

/-- The hits with a time in `[lo, hi]` that find the counter within the limit. -/
def grantedIn (life : τ → τ) (limit : Nat) (lo hi : τ) (c : Option (Counter τ)) (ts : List τ) : Nat :=
  (ts.zip (hits life c ts)).countP fun x => decide (x.2 ≤ limit) && decide (lo ≤ x.1 ∧ x.1 ≤ hi)

variable {lo hi : τ}

theorem grantedIn_cons (c : Option (Counter τ)) : grantedIn life limit lo hi c (t :: ts) =
    grantedIn life limit lo hi (some (hit life t c)) ts +
      if (hit life t c).used ≤ limit ∧ lo ≤ t ∧ t ≤ hi then 1 else 0 := by
  simp [grantedIn, hits, List.countP_cons]

theorem grantedIn_of_lt (h : ∀ t ∈ ts, hi < t) (c : Option (Counter τ)) :
    grantedIn life limit lo hi c ts = 0 := by
  refine List.countP_eq_zero.2 fun x hx => ?_
  have hlt := h x.1 (List.of_mem_zip hx).1
  simp [not_le_of_gt hlt]

theorem grantedIn_le_of_outlives (hs : ts.Pairwise (· ≤ ·)) (hc : hi ≤ c.expiry) :
    grantedIn life limit lo hi (some c) ts ≤ limit - c.used := by
  induction ts generalizing c with
  | nil => simp [grantedIn, hits]
  | cons t ts ih =>
    obtain ⟨hle, hs⟩ := List.pairwise_cons.1 hs
    rw [grantedIn_cons]
    rcases le_or_gt t hi with ht | ht
    · have hlive : hit life t (some c) = ⟨c.used + 1, c.expiry⟩ := if_pos (ht.trans hc)
      have := ih (c := ⟨c.used + 1, c.expiry⟩) hs hc
      rw [hlive]
      dsimp only at this ⊢
      split <;> omega
    · rw [grantedIn_of_lt fun t' ht' => lt_of_lt_of_le ht (hle t' ht'),
        if_neg fun h => not_le_of_gt ht h.2.2]
      omega

/-- From `lo` on, a counter grants what it has left and what the next one grants, which outlives the
interval. -/
theorem grantedIn_le_of_started (hlife : Monotone life) (hspan : hi ≤ life lo)
    (hs : ts.Pairwise (· ≤ ·))
    (hlo : ∀ t ∈ ts, lo ≤ t) : grantedIn life limit lo hi (some c) ts ≤ limit - c.used + limit := by
  induction ts generalizing c with
  | nil => simp [grantedIn, hits]
  | cons t ts ih =>
    obtain ⟨-, hs'⟩ := List.pairwise_cons.1 hs
    rw [grantedIn_cons]
    rcases le_or_gt t c.expiry with hlive | hdead
    · have hhit : hit life t (some c) = ⟨c.used + 1, c.expiry⟩ := if_pos hlive
      have := ih (c := ⟨c.used + 1, c.expiry⟩) hs' fun t ht => hlo t (List.mem_cons_of_mem _ ht)
      rw [hhit]
      dsimp only at this ⊢
      split <;> omega
    · have hhit : hit life t (some c) = ⟨1, life t⟩ := if_neg (not_le_of_gt hdead)
      have hnext : hi ≤ life t := hspan.trans (hlife (hlo t List.mem_cons_self))
      have : grantedIn life limit lo hi (some ⟨1, life t⟩) ts ≤ limit - 1 :=
        grantedIn_le_of_outlives hs' hnext
      rw [hhit]
      dsimp only at this ⊢
      split <;> omega

theorem grantedIn_le (hlife : Monotone life) (hspan : hi ≤ life lo) (hs : ts.Pairwise (· ≤ ·))
    (c : Option (Counter τ)) : grantedIn life limit lo hi c ts ≤ 2 * limit := by
  induction ts generalizing c with
  | nil => simp [grantedIn, hits]
  | cons t ts ih =>
    obtain ⟨hle, hs'⟩ := List.pairwise_cons.1 hs
    rw [grantedIn_cons]
    rcases lt_or_ge t lo with hlt | hge
    · rw [if_neg fun h => not_le_of_gt hlt h.2.1, Nat.add_zero]
      exact ih hs' _
    · have hfrom : grantedIn life limit lo hi (some (hit life t c)) ts ≤ limit -
          (hit life t c).used + limit :=
        grantedIn_le_of_started hlife hspan hs' fun t' ht' => hge.trans (hle t' ht')
      have hused : 0 < (hit life t c).used := hit_used_pos
      split <;> omega

end Counter

end Kit
