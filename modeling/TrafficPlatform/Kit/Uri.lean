import TrafficPlatform.Kit.Octets
import Mathlib.Algebra.GroupWithZero.Nat
import Mathlib.Data.List.TakeWhile

/-!
# URIs

The generic syntax of RFC 3986: the first `#` starts the fragment, the first `?` before it the
query, `//` the authority, and what is left is the path. Dot segments are removed from absolute
paths. A text is a list of characters, and what it denotes are octets: `percentDecode` undoes
percent-encoding and takes every other character in UTF-8.
-/

namespace Kit

/-! ### Percent-encoding -/

/-- The value of a hexadecimal digit. -/
def hexValue (c : Char) : Option Nat :=
  if '0' ≤ c ∧ c ≤ '9' then some (c.toNat - 48)
  else if 'a' ≤ c ∧ c ≤ 'f' then some (c.toNat - 87)
  else if 'A' ≤ c ∧ c ≤ 'F' then some (c.toNat - 55)
  else none

/-- Every `%` with two hexadecimal digits is the octet; any other character stays. -/
def percentDecode : List Char → List UInt8
  | '%' :: a :: b :: s =>
    match hexValue a, hexValue b with
    | some h, some l => UInt8.ofNat (16 * h + l) :: percentDecode s
    | _, _ => String.utf8EncodeChar '%' ++ percentDecode (a :: b :: s)
  | c :: s => String.utf8EncodeChar c ++ percentDecode s
  | [] => []

/-- There is no `%` with two hexadecimal digits. -/
def NoEscape (s : List Char) : Prop := ∀ a b, (hexValue a).isSome = true →
    (hexValue b).isSome = true → ¬ ['%', a, b] <:+: s

theorem NoEscape.tail {c : Char} {s : List Char} (h : NoEscape (c :: s)) : NoEscape s :=
  fun a b ha hb hin => h a b ha hb (hin.trans (List.suffix_cons c s).isInfix)

theorem noEscape_of_not_mem {s : List Char} (h : '%' ∉ s) : NoEscape s :=
  fun _ _ _ _ hin => h (hin.subset List.mem_cons_self)

theorem NoEscape.percentDecode_eq {s : List Char} (h : NoEscape s) : percentDecode s = utf8Text s := by
  fun_induction percentDecode s with
  | case1 a b s x y hb ha ih =>
    exact absurd (List.IsPrefix.isInfix ⟨s, rfl⟩) (h a b (by rw [ha]; rfl) (by rw [hb]; rfl))
  | case2 a b s hno ih =>
    rw [ih h.tail]
    rfl
  | case3 c s hno ih =>
    rw [ih h.tail]
    rfl
  | case4 => rfl

section
variable {size : List UInt8 → Nat} (hnil : size [] = 0) (hoctet : ∀ o s, size (o :: s) ≤ size s + 1)
  (hchar : ∀ c s, size (String.utf8EncodeChar c ++ s) ≤ size s + 1)
include hnil hoctet hchar

theorem size_percentDecode_le (s : List Char) : size (percentDecode s) ≤ s.length := by
  fun_induction percentDecode s with
  | case1 a b s h l ha hb ih =>
    have hle := hoctet (UInt8.ofNat (16 * h + l)) (percentDecode s)
    simp only [List.length_cons]
    omega
  | case2 a b s hno ih =>
    have hle := hchar '%' (percentDecode (a :: b :: s))
    simp only [List.length_cons] at ih ⊢
    omega
  | case3 c s hno ih =>
    have hle := hchar c (percentDecode s)
    simp only [List.length_cons]
    omega
  | case4 => exact Nat.le_of_eq hnil

/-- An escape makes it shorter. -/
theorem noEscape_of_size {s : List Char} (h : size (percentDecode s) = s.length) : NoEscape s := by
  fun_induction percentDecode s with
  | case1 a b s x y ha hb ih =>
    have hle := size_percentDecode_le hnil hoctet hchar s
    have hle' := hoctet (UInt8.ofNat (16 * x + y)) (percentDecode s)
    simp only [List.length_cons] at h
    omega
  | case2 a b s hno ih =>
    have hle := size_percentDecode_le hnil hoctet hchar (a :: b :: s)
    have hle' := hchar '%' (percentDecode (a :: b :: s))
    simp only [List.length_cons] at h ih hle
    intro a' b' ha' hb' hin
    rcases List.infix_cons_iff.1 hin with hp | hin
    · obtain ⟨t, ht⟩ := hp
      injection ht with _ ht
      injection ht with h₁ ht
      injection ht with h₂ ht
      subst h₁ h₂
      obtain ⟨x, hx⟩ := Option.isSome_iff_exists.1 ha'
      obtain ⟨y, hy⟩ := Option.isSome_iff_exists.1 hb'
      exact hno x y hx hy
    · exact ih (by omega) a' b' ha' hb' hin
  | case3 c s hno ih =>
    have hle := size_percentDecode_le hnil hoctet hchar s
    have hle' := hchar c (percentDecode s)
    simp only [List.length_cons] at h
    intro a' b' ha' hb' hin
    rcases List.infix_cons_iff.1 hin with hp | hin
    · obtain ⟨t, ht⟩ := hp
      injection ht with hc ht
      exact hno a' b' t hc.symm ht.symm
    · exact ih (by omega) a' b' ha' hb' hin
  | case4 => exact fun a b _ _ hin => by simp at hin

end

/-! ### Dot segments -/

def isDotSegment (s : List Char) : Bool := s == ['.'] || s == ['.', '.']

/-- The segments that are left of those after `out`, which is in reverse order; a dot segment at the
end leaves an empty one. -/
def dropDots (out : List (List Char)) : List (List Char) → List (List Char)
  | [] => out.reverse
  | [s] => (if s = ['.'] then [] :: out else if s = ['.', '.'] then [] :: out.tail else s :: out).reverse
  | s :: t :: segments =>
    dropDots (if s = ['.'] then out else if s = ['.', '.'] then out.tail else s :: out)
      (t :: segments)

/-- The segments of a path, after the text before its first slash. -/
def pathSegments (path : List Char) : List (List Char) := (path.splitOn '/').tail

/-- `remove_dot_segments`, of a path that is empty or starts with a slash. -/
def removeDotSegments (path : List Char) : List Char :=
  ['/'].intercalate ((path.splitOn '/').head?.toList ++ dropDots [] (pathSegments path))

/-- The characters of the segments, each with a slash. -/
def weight (segments : List (List Char)) : Nat := (segments.map fun s => s.length + 1).sum

@[simp] theorem weight_nil : weight [] = 0 := rfl

@[simp] theorem weight_cons (s : List Char) (l : List (List Char)) : weight (s :: l) = s.length +
    1 + weight l := rfl

@[simp] theorem weight_reverse (l : List (List Char)) : weight l.reverse = weight l := by
  simp [weight]

theorem weight_tail_le (l : List (List Char)) : weight l.tail ≤ weight l := by
  cases l with
  | nil => exact Nat.le_refl _
  | cons s l => exact Nat.le_add_left _ _

theorem length_intercalate (s : List Char) (l : List (List Char)) :
    (['/'].intercalate (s :: l)).length = s.length + weight l := by
  induction l generalizing s with
  | nil => simp
  | cons t l ih =>
    rw [List.intercalate_cons_cons, List.length_append, List.length_append, ih,
      List.length_singleton, weight_cons]
    omega

/-- Every dot segment costs a character at least. -/
theorem weight_dropDots_le (out segments : List (List Char)) :
    weight (dropDots out segments) + segments.countP isDotSegment ≤ weight out + weight segments := by
  have htail := weight_tail_le out
  fun_induction dropDots out segments with
  | case1 out => simp
  | case2 out s =>
    rw [weight_reverse]
    by_cases h₁ : s = ['.']
    · subst h₁
      simp [isDotSegment]
      omega
    · by_cases h₂ : s = ['.', '.']
      · subst h₂
        simp [isDotSegment]
        omega
      · simp [isDotSegment, h₁, h₂]
        omega
  | case3 out s t segments ih =>
    have hle := ih (weight_tail_le _)
    rw [List.countP_cons, weight_cons]
    clear ih
    generalize t :: segments = rest at hle ⊢
    by_cases h₁ : s = ['.']
    · subst h₁
      simp [isDotSegment] at hle ⊢
      omega
    · by_cases h₂ : s = ['.', '.']
      · subst h₂
        simp [isDotSegment] at hle ⊢
        omega
      · simp [isDotSegment, h₁, h₂] at hle ⊢
        omega

theorem dropDots_of_none {out segments : List (List Char)}
    (h : ∀ s ∈ segments, isDotSegment s = false) :
    dropDots out segments = out.reverse ++ segments := by
  fun_induction dropDots out segments with
  | case1 out => simp
  | case2 out s =>
    have hs := h s List.mem_cons_self
    simp only [isDotSegment, Bool.or_eq_false_iff, beq_eq_false_iff_ne] at hs
    simp [hs.1, hs.2]
  | case3 out s t segments ih =>
    have hs := h s List.mem_cons_self
    simp only [isDotSegment, Bool.or_eq_false_iff, beq_eq_false_iff_ne] at hs
    rw [ih fun s hs => h s (List.mem_cons_of_mem _ hs)]
    simp [hs.1, hs.2]

theorem splitOn_eq (path : List Char) : path.splitOn '/' = (path.splitOn '/').head?.toList ++
    pathSegments path := by
  unfold pathSegments
  cases path.splitOn '/' <;> rfl

theorem removeDotSegments_of_none {path : List Char}
    (h : ∀ s ∈ pathSegments path, isDotSegment s = false) :
    removeDotSegments path = path := by
  rw [removeDotSegments, dropDots_of_none h, List.reverse_nil, List.nil_append, ← splitOn_eq,
    List.intercalate_splitOn]

theorem length_removeDotSegments_le (path : List Char) :
    (removeDotSegments path).length + (pathSegments path).countP isDotSegment ≤ path.length := by
  obtain ⟨s, segments, hsplit⟩ := List.exists_cons_of_ne_nil (List.splitOn_ne_nil '/' path)
  have hpath : path.length = s.length + weight segments := by
    rw [← length_intercalate, ← hsplit, List.intercalate_splitOn]
  have hle := weight_dropDots_le [] segments
  rw [hpath, removeDotSegments, pathSegments, hsplit]
  simp only [List.head?_cons, Option.toList_some, List.singleton_append, List.tail_cons,
    length_intercalate]
  rw [weight_nil, Nat.zero_add] at hle
  omega

/-! ### The generic syntax -/

/-- What is before the first `c`, and what is after it. -/
def cut (c : Char) (s : List Char) : List Char × Option (List Char) :=
  (s.takeWhile (· != c), (s.dropWhile (· != c)).tail?)

structure Uri where
  scheme : Option (List Char)
  authority : Option (List Char)
  path : List Char
  query : Option (List Char)
  fragment : Option (List Char)
deriving DecidableEq, Repr

/-- The parts of a URI reference. -/
def Uri.parse (s : List Char) : Uri :=
  let (s, fragment) := cut '#' s
  let (s, query) := cut '?' s
  let name := s.takeWhile fun c => c != ':' && c != '/'
  let (scheme, s) := match name, s.dropWhile fun c => c != ':' && c != '/' with
    | _ :: _, ':' :: rest => (some name, rest)
    | _, _ => (none, s)
  match s with
  | '/' :: '/' :: rest =>
    ⟨scheme, some (rest.takeWhile (· != '/')), rest.dropWhile (· != '/'), query, fragment⟩
  | _ => ⟨scheme, none, s, query, fragment⟩

theorem cut_append {c : Char} {s : List Char} (h : c ∉ s) (t : List Char) :
    cut c (s ++ t) = (s ++ (cut c t).1, (cut c t).2) := by
  have hs : ∀ a ∈ s, (a != c) = true := fun a ha => bne_iff_ne.2 fun he => h (he ▸ ha)
  rw [cut, List.takeWhile_append_of_pos hs, List.dropWhile_append_of_pos hs]
  rfl

theorem not_mem_cut (c : Char) (s : List Char) : c ∉ (cut c s).1 :=
  fun h => by simpa using List.mem_takeWhile_imp h

theorem mem_of_mem_cut {c d : Char} {s : List Char} (h : d ∈ (cut c s).2.getD []) : d ∈ s := by
  refine (List.dropWhile_suffix (· != c)).subset ?_
  unfold cut at h
  cases hd : s.dropWhile (· != c) with
  | nil => rw [hd] at h; exact h
  | cons e l => rw [hd] at h; exact List.mem_cons_of_mem e h

/-- A URL with an authority, whatever follows it. -/
theorem Uri.parse_append {scheme authority rest : List Char}
    (hscheme : scheme ≠ [] ∧ ∀ c ∈ scheme, c ∉ [':', '/', '?', '#'])
    (hauthority : ∀ c ∈ authority, c ∉ ['/', '?', '#'])
    (hpath : ∀ c ∈ (cut '?' (cut '#' rest).1).1.head?, c = '/') :
    Uri.parse (scheme ++ ':' :: '/' :: '/' :: authority ++ rest) =
      ⟨some scheme, some authority, (cut '?' (cut '#' rest).1).1,
      (cut '?' (cut '#' rest).1).2, (cut '#' rest).2⟩ := by
  have hno : ∀ d ∈ ['?', '#'], d ∉ scheme ++ ':' :: '/' :: '/' :: authority := by
    intro d hd hmem
    rcases List.mem_append.1 hmem with hmem | hmem
    · exact hscheme.2 d hmem (List.mem_cons_of_mem _ (List.mem_cons_of_mem _ hd))
    · simp only [List.mem_cons] at hmem
      rcases hmem with rfl | rfl | rfl | hmem
      · simp at hd
      · simp at hd
      · simp at hd
      · exact hauthority d hmem (List.mem_cons_of_mem _ hd)
  unfold Uri.parse
  rw [cut_append (hno '#' (by simp))]
  dsimp only
  rw [cut_append (hno '?' (by simp))]
  dsimp only
  generalize (cut '?' (cut '#' rest).1).1 = path at hpath ⊢
  have hname : ∀ c ∈ scheme, (c != ':' && c != '/') = true := by
    intro c hc
    have hc := hscheme.2 c hc
    simp only [List.mem_cons, not_or] at hc
    simp [hc.1, hc.2.1]
  have hhost : ∀ c ∈ authority, (c != '/') = true :=
    fun c hc => bne_iff_ne.2 fun he => hauthority c hc (by simp [he])
  have htake : (scheme ++ ':' :: '/' :: '/' :: authority ++ path).takeWhile
      (fun c => c != ':' && c != '/') = scheme := by
    rw [List.append_assoc, List.takeWhile_append_of_pos hname]
    simp
  have hdrop : (scheme ++ ':' :: '/' :: '/' :: authority ++ path).dropWhile
      (fun c => c != ':' && c != '/') =
      ':' :: '/' :: '/' :: (authority ++ path) := by
    rw [List.append_assoc, List.dropWhile_append_of_pos hname]
    simp
  obtain ⟨c, t, hct⟩ := List.exists_cons_of_ne_nil hscheme.1
  have hslash : path.takeWhile (· != '/') = [] ∧ path.dropWhile (· != '/') = path := by
    cases path with
    | nil => exact ⟨rfl, rfl⟩
    | cons d path =>
      rw [hpath d rfl]
      exact ⟨rfl, rfl⟩
  rw [htake, hdrop, hct]
  show (⟨some (c :: t), some ((authority ++ path).takeWhile (· != '/')),
    (authority ++ path).dropWhile (· != '/'), _, _⟩ : Uri) = _
  rw [List.takeWhile_append_of_pos hhost, List.dropWhile_append_of_pos hhost, hslash.1, hslash.2,
    List.append_nil]

end Kit
