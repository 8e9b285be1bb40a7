import Mathlib.Data.List.Basic
import Mathlib.Data.List.Count
import Mathlib.Tactic.Common

/-!
# Octets and characters

Latin-1 and UTF-8. Latin-1 has a character for every octet; UTF-8 has the ASCII characters in one
octet, and every other character in more. So a text that is decoded as UTF-8 and encoded as Latin-1
is the text again only if it is ASCII (`latin1Octets_eq_iff`).
-/

namespace Kit

/-! ### Latin-1 -/

/-- The characters of octets. -/
def latin1Chars (s : List UInt8) : List Char := s.map fun o => Char.ofNat o.toNat

/-- The octets of characters, which are below 256. -/
def latin1Octets (cs : List Char) : List UInt8 := cs.map fun c => UInt8.ofNat c.toNat

theorem toNat_ofNat (n : Nat) : (Char.ofNat n).toNat = if n.isValidChar then n else 0 := by
  by_cases h : n.isValidChar
  · rw [Char.ofNat, dif_pos h, if_pos h]
    rfl
  · rw [Char.ofNat, dif_neg h, if_neg h]
    rfl

theorem toNat_ofNat_octet (o : UInt8) : (Char.ofNat o.toNat).toNat = o.toNat := by
  have hlt := o.toNat_lt
  rw [toNat_ofNat, if_pos (.inl (by omega))]

theorem latin1Octets_latin1Chars (s : List UInt8) : latin1Octets (latin1Chars s) = s := by
  rw [latin1Octets, latin1Chars, List.map_map]
  refine (List.map_congr_left fun o _ => ?_).trans (List.map_id s)
  show UInt8.ofNat (Char.ofNat o.toNat).toNat = o
  rw [toNat_ofNat_octet, UInt8.ofNat_toNat]

theorem latin1Chars_latin1Octets {cs : List Char} (h : ∀ c ∈ cs, c.toNat < 256) :
    latin1Chars (latin1Octets cs) = cs := by
  rw [latin1Octets, latin1Chars, List.map_map]
  refine (List.map_congr_left fun c hc => ?_).trans (List.map_id cs)
  show Char.ofNat (UInt8.ofNat c.toNat).toNat = c
  rw [UInt8.toNat_ofNat_of_lt' (h c hc), Char.ofNat_toNat]

theorem latin1Chars_lt {s : List UInt8} {c : Char} (h : c ∈ latin1Chars s) : c.toNat < 256 := by
  obtain ⟨o, -, rfl⟩ := List.mem_map.1 h
  rw [toNat_ofNat_octet]
  exact o.toNat_lt

theorem ofNat_eq_comma {c : Char} (hc : c.toNat < 256) : UInt8.ofNat c.toNat = 44 ↔ c = ',' := by
  constructor
  · intro h
    have hnat := congrArg UInt8.toNat h
    rw [UInt8.toNat_ofNat_of_lt' hc] at hnat
    exact Char.toNat_inj.1 hnat
  · rintro rfl
    rfl

theorem count_latin1Octets {cs : List Char} (h : ∀ c ∈ cs, c.toNat < 256) :
    (latin1Octets cs).count 44 = cs.count ',' := by
  induction cs with
  | nil => rfl
  | cons c cs ih =>
    obtain ⟨hc, hcs⟩ := List.forall_mem_cons.1 h
    show (UInt8.ofNat c.toNat :: latin1Octets cs).count 44 = _
    rw [List.count_cons, List.count_cons, ih hcs]
    simp only [beq_iff_eq, ofNat_eq_comma hc]

/-! ### UTF-8 -/

/-- The octet continues a character. -/
def isTail (o : UInt8) : Bool := decide (0x80 ≤ o.toNat ∧ o.toNat ≤ 0xBF)

/-- The octets start a character of three octets: no shorter one, and no surrogate. -/
def startsThree (a b : UInt8) : Bool :=
  decide ((a.toNat = 0xE0 ∧ 0xA0 ≤ b.toNat ∧ b.toNat ≤ 0xBF) ∨
    (a.toNat = 0xED ∧ 0x80 ≤ b.toNat ∧ b.toNat ≤ 0x9F) ∨
    (0xE1 ≤ a.toNat ∧ a.toNat ≤ 0xEF ∧ a.toNat ≠ 0xED ∧ 0x80 ≤ b.toNat ∧ b.toNat ≤ 0xBF))

/-- The octets start a character of four octets: no shorter one, and none above `U+10FFFF`. -/
def startsFour (a b : UInt8) : Bool :=
  decide ((a.toNat = 0xF0 ∧ 0x90 ≤ b.toNat ∧ b.toNat ≤ 0xBF) ∨
    (a.toNat = 0xF4 ∧ 0x80 ≤ b.toNat ∧ b.toNat ≤ 0x8F) ∨
    (0xF1 ≤ a.toNat ∧ a.toNat ≤ 0xF3 ∧ 0x80 ≤ b.toNat ∧ b.toNat ≤ 0xBF))

/-- The text of UTF-8 octets. -/
def utf8Decode : List UInt8 → Option (List Char)
  | [] => some []
  | a :: s =>
    if a.toNat < 0x80 then (utf8Decode s).map (Char.ofNat a.toNat :: ·)
    else match s with
      | [] => none
      | b :: s =>
        if 0xC2 ≤ a.toNat ∧ a.toNat ≤ 0xDF ∧ isTail b = true then
          (utf8Decode s).map (Char.ofNat (a.toNat % 32 * 64 + b.toNat % 64) :: ·)
        else match s with
          | [] => none
          | c :: s =>
            if startsThree a b = true ∧ isTail c = true then
              (utf8Decode s).map
                (Char.ofNat (a.toNat % 16 * 4096 + b.toNat % 64 * 64 + c.toNat % 64) :: ·)
            else match s with
              | [] => none
              | d :: s =>
                if startsFour a b = true ∧ isTail c = true ∧ isTail d = true then
                  (utf8Decode s).map
                    (Char.ofNat (a.toNat % 8 * 262144 + b.toNat % 64 * 4096 + c.toNat % 64 * 64 +
                      d.toNat % 64) :: ·)
                else none

example : utf8Decode [0x61, 0xC3, 0xA9, 0xE2, 0x82, 0xAC] = some ['a', 'é', '€'] := by decide

variable {s : List UInt8} {cs : List Char}

theorem utf8Decode_ascii (h : ∀ o ∈ s, o.toNat < 0x80) : utf8Decode s = some (latin1Chars s) := by
  induction s with
  | nil => rfl
  | cons a s ih =>
    obtain ⟨ha, hs⟩ := List.forall_mem_cons.1 h
    rw [utf8Decode.eq_def]
    dsimp only
    rw [if_pos ha, ih hs]
    rfl

/-- What is left of an octet and its text. -/
theorem utf8Decode_cons {a : UInt8} (h : utf8Decode (a :: s) = some cs) :
    (a.toNat < 0x80 ∧ ∃ cs', utf8Decode s = some cs' ∧ cs = Char.ofNat a.toNat :: cs') ∨
      (0x80 ≤ a.toNat ∧ ∃ more rest cs' n, s = more ++ rest ∧ more ≠ [] ∧
        (∀ o ∈ more, 0x80 ≤ o.toNat) ∧
        0x80 ≤ n ∧ utf8Decode rest = some cs' ∧ cs = Char.ofNat n :: cs') := by
  rw [utf8Decode.eq_def] at h
  dsimp only at h
  split at h
  · rename_i ha
    obtain ⟨cs', hcs', rfl⟩ := Option.map_eq_some_iff.1 h
    exact .inl ⟨ha, cs', hcs', rfl⟩
  rename_i ha
  refine .inr ⟨by omega, ?_⟩
  split at h
  · cases h
  rename_i b s₁
  split at h
  · rename_i htwo
    obtain ⟨cs', hcs', rfl⟩ := Option.map_eq_some_iff.1 h
    have hb := of_decide_eq_true htwo.2.2
    refine ⟨[b], s₁, cs', _, rfl, by simp, by simpa using hb.1, by omega, hcs', rfl⟩
  split at h
  · cases h
  rename_i c s₂
  split at h
  · rename_i hthree
    obtain ⟨cs', hcs', rfl⟩ := Option.map_eq_some_iff.1 h
    have hb := of_decide_eq_true hthree.1
    have hc := of_decide_eq_true hthree.2
    refine ⟨[b, c], s₂, cs', _, rfl, by simp, ?_, by omega, hcs', rfl⟩
    simp only [List.mem_cons, List.not_mem_nil, or_false, forall_eq_or_imp, forall_eq]
    omega
  split at h
  · cases h
  rename_i d s₃
  split at h
  · rename_i hfour
    obtain ⟨cs', hcs', rfl⟩ := Option.map_eq_some_iff.1 h
    have hb := of_decide_eq_true hfour.1
    have hc := of_decide_eq_true hfour.2.1
    have hd := of_decide_eq_true hfour.2.2
    refine ⟨[b, c, d], s₃, cs', _, rfl, by simp, ?_, by omega, hcs', rfl⟩
    simp only [List.mem_cons, List.not_mem_nil, or_false, forall_eq_or_imp, forall_eq]
    omega
  · cases h

/-- A text has a character for every octet only if it is ASCII. -/
theorem length_utf8Decode (h : utf8Decode s = some cs) :
    cs.length ≤ s.length ∧ (cs.length = s.length → ∀ o ∈ s, o.toNat < 0x80) := by
  induction hn : s.length using Nat.strongRecOn generalizing s cs with
  | _ n ih =>
    subst hn
    cases s with
    | nil =>
      cases h
      exact ⟨Nat.le_refl _, fun _ o ho => absurd ho List.not_mem_nil⟩
    | cons a s =>
      rcases utf8Decode_cons h with
        ⟨ha, cs', hcs', rfl⟩ | ⟨ha, more, rest, cs', n, rfl, hmore, -, -, hcs', rfl⟩
      · obtain ⟨hle, hall⟩ := ih s.length (by simp) hcs' rfl
        refine ⟨by simpa using hle, fun he => List.forall_mem_cons.2 ⟨ha, hall (by simpa using he)⟩⟩
      · have hpos := List.length_pos_of_ne_nil hmore
        obtain ⟨hle, -⟩ := ih rest.length (by rw [List.length_cons, List.length_append]; omega) hcs' rfl
        constructor
        · simp
          omega
        · intro he
          simp at he
          omega

/-- The commas of a text are those of its octets. -/
theorem count_utf8Decode (h : utf8Decode s = some cs) : s.count 44 = cs.count ',' := by
  induction hn : s.length using Nat.strongRecOn generalizing s cs with
  | _ n ih =>
    subst hn
    cases s with
    | nil =>
      cases h
      rfl
    | cons a s =>
      rcases utf8Decode_cons h with
        ⟨ha, cs', hcs', rfl⟩ | ⟨ha, more, rest, cs', n, rfl, -, hmore, hn, hcs', rfl⟩
      · have hcomma : Char.ofNat a.toNat = ',' ↔ a = 44 := by
          rw [← ofNat_eq_comma (by rw [toNat_ofNat_octet]; omega), toNat_ofNat_octet, UInt8.ofNat_toNat]
        rw [List.count_cons, List.count_cons, ih s.length (by simp) hcs' rfl]
        simp only [beq_iff_eq, hcomma]
      · have hocta : a ≠ 44 := by
          rintro rfl
          exact absurd ha (by decide)
        have hnone : more.count 44 = 0 :=
          List.count_eq_zero.2 fun hmem => absurd (hmore 44 hmem) (by decide)
        have hchar : Char.ofNat n ≠ ',' := by
          intro he
          have hnat := congrArg Char.toNat he
          rw [toNat_ofNat] at hnat
          split at hnat
          · have : (',' : Char).toNat = 44 := rfl
            omega
          · exact absurd hnat (by decide)
        rw [List.count_cons_of_ne hocta, List.count_append, hnone, List.count_cons_of_ne hchar,
          Nat.zero_add]
        exact ih rest.length (by rw [List.length_cons, List.length_append]; omega) hcs' rfl

/-- Encoded as Latin-1 the text is the octets again exactly if they are ASCII. -/
theorem latin1Octets_eq_iff (h : utf8Decode s = some cs) : latin1Octets cs = s ↔ ∀ o ∈ s,
    o.toNat < 0x80 := by
  constructor
  · intro he
    refine (length_utf8Decode h).2 ?_
    rw [← he, latin1Octets, List.length_map]
  · intro hascii
    rw [utf8Decode_ascii hascii, Option.some.injEq] at h
    rw [← h, latin1Octets_latin1Chars]

/-! ### UTF-8 with replacement -/

/-- The text of octets, with `U+FFFD` for every longest start of a character that does not go on. -/
def utf8Replace : List UInt8 → List Char
  | [] => []
  | a :: s =>
    if a.toNat < 0x80 then Char.ofNat a.toNat :: utf8Replace s
    else match s with
      | [] => ['\uFFFD']
      | b :: s =>
        if 0xC2 ≤ a.toNat ∧ a.toNat ≤ 0xDF ∧ isTail b = true then
          Char.ofNat (a.toNat % 32 * 64 + b.toNat % 64) :: utf8Replace s
        else if startsThree a b = true then
          match s with
          | [] => ['\uFFFD']
          | c :: s =>
            if isTail c = true then
              Char.ofNat (a.toNat % 16 * 4096 + b.toNat % 64 * 64 + c.toNat % 64) :: utf8Replace s
            else '\uFFFD' :: utf8Replace (c :: s)
        else if startsFour a b = true then
          match s with
          | [] => ['\uFFFD']
          | [c] => if isTail c = true then ['\uFFFD'] else '\uFFFD' :: utf8Replace [c]
          | c :: d :: s =>
            if isTail c = true then
              if isTail d = true then
                Char.ofNat (a.toNat % 8 * 262144 + b.toNat % 64 * 4096 + c.toNat % 64 * 64 +
                  d.toNat % 64) :: utf8Replace s
              else '\uFFFD' :: utf8Replace (d :: s)
            else '\uFFFD' :: utf8Replace (c :: d :: s)
        else '\uFFFD' :: utf8Replace (b :: s)

example : utf8Replace [0x61, 0xFF, 0xE2, 0x82, 0x62, 0xC3, 0xA9] =
    ['a', '\uFFFD', '\uFFFD', 'b', 'é'] := by decide

/-- The octets of a text. -/
def utf8Text (cs : List Char) : List UInt8 := cs.flatMap String.utf8EncodeChar

theorem utf8Replace_tail {b : UInt8} (h : isTail b = true) (s : List UInt8) :
    utf8Replace (b :: s) = '\uFFFD' :: utf8Replace s := by
  have hb := of_decide_eq_true h
  have hthree : ∀ b', startsThree b b' = false := fun b' => decide_eq_false (by omega)
  have hfour : ∀ b', startsFour b b' = false := fun b' => decide_eq_false (by omega)
  rw [utf8Replace.eq_def]
  dsimp only
  rw [if_neg (by omega)]
  cases s with
  | nil => rfl
  | cons b' s =>
    dsimp only
    rw [if_neg (by omega), if_neg (by rw [hthree]; exact Bool.false_ne_true),
      if_neg (by rw [hfour]; exact Bool.false_ne_true)]

theorem utf8Replace_tails {more : List UInt8} (h : ∀ b ∈ more, isTail b = true) (rest : List UInt8) :
    utf8Replace (more ++ rest) = List.replicate more.length '\uFFFD' ++ utf8Replace rest := by
  induction more with
  | nil => rfl
  | cons b more ih =>
    obtain ⟨hb, hmore⟩ := List.forall_mem_cons.1 h
    rw [List.cons_append, utf8Replace_tail hb, ih hmore]
    rfl

/-- The first character ends before the octets that start another one. -/
theorem utf8Replace_cons (a : UInt8) (s : List UInt8) : ∃ c more rest, s = more ++ rest ∧
    (∀ b ∈ more, isTail b = true) ∧
    utf8Replace (a :: s) = c :: utf8Replace rest := by
  have hthree : ∀ b, startsThree a b = true → isTail b = true := by
    intro b h
    have hb := of_decide_eq_true h
    exact decide_eq_true (by omega)
  have hfour : ∀ b, startsFour a b = true → isTail b = true := by
    intro b h
    have hb := of_decide_eq_true h
    exact decide_eq_true (by omega)
  rw [utf8Replace.eq_def]
  dsimp only
  split
  · exact ⟨_, [], s, rfl, List.forall_mem_nil _, rfl⟩
  split
  · exact ⟨_, [], [], rfl, List.forall_mem_nil _, rfl⟩
  rename_i b s
  split
  · rename_i htwo
    exact ⟨_, [b], s, rfl, List.forall_mem_singleton.2 htwo.2.2, rfl⟩
  split
  · rename_i h
    split
    · exact ⟨_, [b], [], rfl, List.forall_mem_singleton.2 (hthree b h), rfl⟩
    · rename_i c s
      split
      · rename_i hc
        exact ⟨_, [b, c], s, rfl, by simp [hthree b h, hc], rfl⟩
      · exact ⟨_, [b], c :: s, rfl, List.forall_mem_singleton.2 (hthree b h), rfl⟩
  split
  · rename_i h
    split
    · exact ⟨_, [b], [], rfl, List.forall_mem_singleton.2 (hfour b h), rfl⟩
    · rename_i c
      split
      · rename_i hc
        exact ⟨_, [b, c], [], rfl, by simp [hfour b h, hc], rfl⟩
      · exact ⟨_, [b], [c], rfl, List.forall_mem_singleton.2 (hfour b h), rfl⟩
    · rename_i c d s
      split
      · rename_i hc
        split
        · rename_i hd
          exact ⟨_, [b, c, d], s, rfl, by simp [hfour b h, hc, hd], rfl⟩
        · exact ⟨_, [b, c], d :: s, rfl, by simp [hfour b h, hc], rfl⟩
      · exact ⟨_, [b], c :: d :: s, rfl, List.forall_mem_singleton.2 (hfour b h), rfl⟩
  · exact ⟨_, [], b :: s, rfl, List.forall_mem_nil _, rfl⟩

/-- UTF-8 is read as it was written. -/
theorem utf8Replace_char (c : Char) (s : List UInt8) : utf8Replace (String.utf8EncodeChar c ++ s) =
    c :: utf8Replace s := by
  have hoctet : ∀ n, n < 256 → (UInt8.ofNat n).toNat = n := fun n hn => UInt8.toNat_ofNat_of_lt' hn
  have hvalid : c.val.toNat < 0xd800 ∨ (0xdfff < c.val.toNat ∧ c.val.toNat < 0x110000) := c.valid
  have hchar : Char.ofNat c.val.toNat = c := Char.ofNat_toNat c
  unfold String.utf8EncodeChar
  generalize c.val.toNat = v at hvalid hchar
  dsimp only
  split
  · rw [List.singleton_append, utf8Replace.eq_def]
    dsimp only
    rw [hoctet v (by omega), if_pos (by omega), hchar]
  split
  · have ha := hoctet (v / 64 % 32 + 192) (by omega)
    have hb := hoctet (v % 64 + 128) (by omega)
    rw [List.cons_append, List.singleton_append, utf8Replace.eq_def]
    dsimp only
    rw [ha, hb, if_neg (by omega), if_pos ⟨by omega, by omega, decide_eq_true (by rw [hb]; omega)⟩]
    rw [show (v / 64 % 32 + 192) % 32 * 64 + (v % 64 + 128) % 64 = v by omega, hchar]
  split
  · have ha := hoctet (v / 4096 % 16 + 224) (by omega)
    have hb := hoctet (v / 64 % 64 + 128) (by omega)
    have hc := hoctet (v % 64 + 128) (by omega)
    rw [List.cons_append, List.cons_append, List.singleton_append, utf8Replace.eq_def]
    dsimp only
    have hstart : startsThree (UInt8.ofNat (v / 4096 % 16 + 224))
        (UInt8.ofNat (v / 64 % 64 + 128)) = true :=
      decide_eq_true (by rw [ha, hb]; omega)
    have htail : isTail (UInt8.ofNat (v % 64 + 128)) = true := decide_eq_true (by rw [hc]; omega)
    rw [if_neg (by omega), if_neg (by omega), if_pos hstart, if_pos htail, ha, hb, hc]
    rw [show (v / 4096 % 16 + 224) % 16 * 4096 + (v / 64 % 64 + 128) % 64 * 64 +
      (v % 64 + 128) % 64 = v by omega, hchar]
  · have ha := hoctet (v / 262144 % 8 + 240) (by omega)
    have hb := hoctet (v / 4096 % 64 + 128) (by omega)
    have hc := hoctet (v / 64 % 64 + 128) (by omega)
    have hd := hoctet (v % 64 + 128) (by omega)
    rw [List.cons_append, List.cons_append, List.cons_append, List.singleton_append, utf8Replace.eq_def]
    dsimp only
    have hno : ¬ startsThree (UInt8.ofNat (v / 262144 % 8 + 240))
        (UInt8.ofNat (v / 4096 % 64 + 128)) = true := by
      rw [startsThree, decide_eq_true_iff, ha, hb]
      omega
    have hstart : startsFour (UInt8.ofNat (v / 262144 % 8 + 240))
        (UInt8.ofNat (v / 4096 % 64 + 128)) = true :=
      decide_eq_true (by rw [ha, hb]; omega)
    have htail : isTail (UInt8.ofNat (v / 64 % 64 + 128)) = true := decide_eq_true (by rw [hc]; omega)
    have htail' : isTail (UInt8.ofNat (v % 64 + 128)) = true := decide_eq_true (by rw [hd]; omega)
    rw [if_neg (by omega), if_neg (by omega), if_neg hno, if_pos hstart, if_pos htail,
      if_pos htail', ha, hb, hc, hd]
    rw [show (v / 262144 % 8 + 240) % 8 * 262144 + (v / 4096 % 64 + 128) % 64 * 4096 +
      (v / 64 % 64 + 128) % 64 * 64 +
      (v % 64 + 128) % 64 = v by omega, hchar]

theorem utf8Replace_utf8Text (cs : List Char) : utf8Replace (utf8Text cs) = cs := by
  induction cs with
  | nil => rfl
  | cons c cs ih => exact (utf8Replace_char c _).trans (congrArg _ ih)

end Kit
