import TrafficPlatform.Analytics.Pagination

/-!
# The search of request logs

`path_contains` becomes the pattern `%…%` of an `ILIKE`, in which `%`, `_` and `\` of the search
string keep their meaning. `search_exact_iff` says for which search strings the search finds the
paths that contain them.
-/

namespace TrafficPlatform
open Kit

/-! ### Patterns -/

/-- A character that is not itself in a pattern. -/
def isWildcard (c : Char) : Bool := c == '%' || c == '_' || c == '\\'

theorem like_percent (p text : List Char) : like ('%' :: p) text = text.tails.any (like p) := by
  rw [like]

theorem like_char {c : Char} (hc : isWildcard c = false) (p text : List Char) :
    like (c :: p) text = true ↔ ∃ rest, text = c :: rest ∧ like p rest = true := by
  unfold isWildcard at hc
  simp only [Bool.or_eq_false_iff, beq_eq_false_iff_ne] at hc
  cases text with
  | nil =>
    rw [like] <;> simp_all
  | cons d text =>
    rw [like] <;> simp_all

theorem like_literal {s : List Char} (h : ∀ c ∈ s, isWildcard c = false) (text : List Char) :
    like (s ++ ['%']) text = true ↔ s <+: text := by
  induction s generalizing text with
  | nil =>
    rw [List.nil_append, like_percent]
    exact iff_of_true (List.any_eq_true.2 ⟨[], (List.mem_tails _ _).2 List.nil_suffix, rfl⟩)
      List.nil_prefix
  | cons c s ih =>
    rw [List.cons_append, like_char (h c List.mem_cons_self)]
    constructor
    · rintro ⟨rest, rfl, hrest⟩
      exact List.cons_prefix_cons.2
        ⟨rfl, (ih (fun c hc => h c (List.mem_cons_of_mem _ hc)) rest).1 hrest⟩
    · rintro ⟨rest, rfl⟩
      exact ⟨s ++ rest, rfl, (ih (fun c hc => h c (List.mem_cons_of_mem _ hc)) _).2
        (List.prefix_append _ _)⟩

theorem like_contains {s : List Char} (h : ∀ c ∈ s, isWildcard c = false) (text : List Char) :
    like ('%' :: (s ++ ['%'])) text = true ↔ s <:+: text := by
  rw [like_percent, List.any_eq_true, List.infix_iff_prefix_suffix]
  refine exists_congr fun t => ?_
  rw [List.mem_tails, like_literal h, and_comm]

/-- A text that the pattern `s%` matches: nothing for `%`, a letter for `_` and the quoted character
for a quoted one. -/
def matched : List Char → List Char
  | [] => []
  | ['\\'] => ['%']
  | '%' :: s => matched s
  | '_' :: s => 'a' :: matched s
  | '\\' :: c :: s => c :: matched s
  | c :: s => c :: matched s

theorem not_isWildcard {c : Char} {s : List Char} (hend : c = '\\' → s = [] → False)
    (hpercent : c = '%' → False) (hunder : c = '_' → False)
    (hquote : ∀ d rest, c = '\\' → s = d :: rest → False) :
        isWildcard c = false := by
  have hback : c ≠ '\\' := by
    intro hc
    cases s with
    | nil => exact hend hc rfl
    | cons d rest => exact hquote d rest hc rfl
  unfold isWildcard
  simp only [Bool.or_eq_false_iff, beq_eq_false_iff_ne]
  exact ⟨⟨hpercent, hunder⟩, hback⟩

theorem like_matched (s : List Char) : like (s ++ ['%']) (matched s) = true := by
  fun_induction matched s with
  | case1 => decide
  | case2 => decide
  | case3 s ih =>
    rw [List.cons_append, like_percent]
    exact List.any_eq_true.2 ⟨_, (List.mem_tails _ _).2 (List.suffix_refl _), ih⟩
  | case4 s ih => simpa [like] using ih
  | case5 c s ih => simpa [like] using ih
  | case6 c s h₁ h₂ h₃ h₄ ih => exact (like_char (not_isWildcard h₁ h₂ h₃ h₄) _ _).2 ⟨_, rfl, ih⟩

theorem length_matched_le (s : List Char) : (matched s).length ≤ s.length := by
  fun_induction matched s with
  | case1 => exact le_refl _
  | case2 => exact le_refl _
  | case3 s ih => exact Nat.le_succ_of_le ih
  | case4 s ih => exact Nat.succ_le_succ ih
  | case5 c s ih => exact Nat.le_succ_of_le (Nat.succ_le_succ ih)
  | case6 c s h₁ h₂ h₃ h₄ ih => exact Nat.succ_le_succ ih

/-- The text is the string itself only without wildcards. -/
theorem matched_eq {s : List Char} (h : matched s = s) : ∀ c ∈ s, isWildcard c = false := by
  fun_induction matched s with
  | case1 => exact fun c hc => absurd hc List.not_mem_nil
  | case2 => exact absurd h (by decide)
  | case3 s ih =>
    have hlen := length_matched_le s
    rw [h, List.length_cons] at hlen
    exact absurd hlen (Nat.not_succ_le_self _)
  | case4 s ih => exact absurd (List.cons.inj h).1 (by decide)
  | case5 c s ih =>
    have hlen := length_matched_le s
    have heq := congrArg List.length h
    rw [List.length_cons, List.length_cons, List.length_cons] at heq
    omega
  | case6 c s h₁ h₂ h₃ h₄ ih =>
    intro d hd
    rcases List.mem_cons.1 hd with rfl | hd
    · exact not_isWildcard h₁ h₂ h₃ h₄
    · exact ih (List.cons.inj h).2 d hd

theorem not_infix_matched {s : List Char} (h : ∃ c ∈ s, isWildcard c = true) : ¬ s <:+: matched s := by
  intro hinfix
  have heq : s = matched s := hinfix.eq_of_length (le_antisymm hinfix.length_le (length_matched_le s))
  obtain ⟨c, hc, hw⟩ := h
  rw [matched_eq heq.symm c hc] at hw
  cases hw

/-! ### Case -/

/-- `lower` maps each character by itself, and the wildcards are not letters. -/
structure CaseMapping.Charwise (cases : CaseMapping) (lowerChar : Char → Char) : Prop where
  lower : ∀ s, cases.lower s = s.map lowerChar
  idempotent : ∀ c, lowerChar (lowerChar c) = lowerChar c
  wildcard : ∀ c, isWildcard c = true → lowerChar c = c
  letter : ∀ c, isWildcard (lowerChar c) = true → isWildcard c = true
  a : lowerChar 'a' = 'a'

section
variable {cases : CaseMapping} {lowerChar : Char → Char}

theorem CaseMapping.Charwise.toList_lower (h : cases.Charwise lowerChar) (s : String) :
    (cases.lower s).toList = s.toList.map lowerChar := by
  rw [h.lower, String.toList_map]

theorem CaseMapping.Charwise.pattern (h : cases.Charwise lowerChar) (s : String) :
    (cases.lower ("%" ++ s ++ "%")).toList = '%' :: ((cases.lower s).toList ++ ['%']) := by
  have hpercent : lowerChar '%' = '%' := h.wildcard '%' rfl
  rw [h.toList_lower, h.toList_lower, String.toList_append, String.toList_append, List.map_append,
    List.map_append]
  show (lowerChar '%' :: []) ++ _ ++ [lowerChar '%'] = _
  rw [hpercent]
  rfl

theorem CaseMapping.Charwise.isWildcard_eq (h : cases.Charwise lowerChar) (c : Char) :
    isWildcard (lowerChar c) = isWildcard c := by
  cases hc : isWildcard c with
  | true => rw [h.wildcard c hc, hc]
  | false =>
    rw [← Bool.not_eq_true] at hc ⊢
    exact fun hl => hc (h.letter c hl)

theorem map_matched (h : cases.Charwise lowerChar) {s : List Char} (hs : s.map lowerChar = s) :
    (matched s).map lowerChar = matched s := by
  fun_induction matched s with
  | case1 => rfl
  | case2 => rw [List.map_singleton, h.wildcard '%' rfl]
  | case3 s ih => exact ih (List.cons.inj hs).2
  | case4 s ih => rw [List.map_cons, h.a, ih (List.cons.inj hs).2]
  | case5 c s ih =>
    obtain ⟨hc, hrest⟩ := List.cons.inj (List.cons.inj hs).2
    rw [List.map_cons, hc, ih hrest]
  | case6 c s h₁ h₂ h₃ h₄ ih => rw [List.map_cons, (List.cons.inj hs).1, ih (List.cons.inj hs).2]

end

/-! ### The search -/

/-- What the filters mean. -/
structure RequestLogFilter.Satisfied (f : RequestLogFilter) (cases : CaseMapping)
    (organizationId : Uuid) (r : RequestLog) : Prop where
  organization : r.organizationId = organizationId
  api : ∀ a, f.apiId = some a → r.apiId = a
  method : ∀ m, f.method = some m → r.method = cases.upper m
  statusMin : ∀ n, f.statusMin = some n → n ≤ r.statusCode
  statusMax : ∀ n, f.statusMax = some n → r.statusCode ≤ n
  path : ∀ s, f.pathContains = some s → s ≠ "" → (cases.lower s).toList <:+: (cases.lower r.path).toList
  since : ∀ t, f.since = some t → t ≤ r.createdAt
  until_ : ∀ t, f.until_ = some t → r.createdAt ≤ t

/-- The total counts the logs that satisfy the filters, the items are some of them, and on the first
page all of them if they fit. -/
def SearchExact (cases : CaseMapping) (organizationId : Uuid) (f : RequestLogFilter)
    (db : PlatformDb) (limit offset : Nat) (items : List RequestLog) (total : Nat) : Prop :=
  ∃ rows : List RequestLog, rows.Nodup ∧
    (∀ r, r ∈ rows ↔ r ∈ db.requestLogs.rows ∧ f.Satisfied cases organizationId r) ∧
    total = rows.length ∧ items.Subperm rows ∧ (offset = 0 → total ≤ limit → items.Perm rows)

theorem all_eq_true_iff {α : Type} {o : Option α} {p : α → Bool} : o.all p = true ↔ ∀ a,
    o = some a → p a = true := by
  cases o with
  | none => simp
  | some a => simp

section
variable {cases : CaseMapping} {lowerChar : Char → Char} {organizationId : Uuid} {f : RequestLogFilter}

/-- Without wildcards the conditions of the query are the filters. -/
theorem conditions_iff (h : cases.Charwise lowerChar)
    (hpath : ∀ s, f.pathContains = some s → ∀ c ∈ s.toList, isWildcard c = false)
    (r : RequestLog) : f.conditions cases organizationId r = true ↔
        f.Satisfied cases organizationId r := by
  have hlike : ∀ s, f.pathContains = some s →
      (like (cases.lower ("%" ++ s ++ "%")).toList (cases.lower r.path).toList = true ↔
      (cases.lower s).toList <:+: (cases.lower r.path).toList) := by
    intro s hs
    rw [h.pattern]
    refine like_contains (fun c hc => ?_) _
    rw [h.toList_lower] at hc
    obtain ⟨d, hd, rfl⟩ := List.mem_map.1 hc
    rw [h.isWildcard_eq]
    exact hpath s hs d hd
  unfold RequestLogFilter.conditions
  simp only [Bool.and_eq_true, all_eq_true_iff, beq_iff_eq, decide_eq_true_eq, Bool.or_eq_true,
    String.isEmpty_iff]
  constructor
  · rintro ⟨⟨⟨⟨⟨⟨⟨horg, hapi⟩, hmethod⟩, hmin⟩, hmax⟩, hcontains⟩, hsince⟩, huntil⟩
    exact ⟨horg, hapi, hmethod, hmin, hmax,
      fun s hs hne => (hlike s hs).1 ((hcontains s hs).resolve_left hne), hsince, huntil⟩
  · rintro ⟨horg, hapi, hmethod, hmin, hmax, hcontains, hsince, huntil⟩
    refine ⟨⟨⟨⟨⟨⟨⟨horg, hapi⟩, hmethod⟩, hmin⟩, hmax⟩, fun s hs => ?_⟩, hsince⟩, huntil⟩
    exact or_iff_not_imp_left.2 fun hne => (hlike s hs).2 (hcontains s hs hne)

theorem nodup_conditions (db : PlatformDb) :
    (db.requestLogs.select (f.conditions cases organizationId)).Nodup :=
  nodup_select fun r => by simp [Schema.clash]

theorem searchExact_of_conditions {db : PlatformDb} {limit offset : Nat} {items : List RequestLog}
    (hconditions : ∀ r, f.conditions cases organizationId r = true ↔ f.Satisfied cases organizationId r)
    (hitems : RequestLogRepository.Searches cases organizationId f limit offset db items) :
    SearchExact cases organizationId f db limit offset items
        (RequestLogRepository.search cases organizationId f limit offset db).2 := by
  obtain ⟨out, hout, rfl⟩ := hitems
  refine ⟨db.requestLogs.select (f.conditions cases organizationId), nodup_conditions db,
    fun r => ?_, rfl, ?_, fun hoffset hlimit => ?_⟩
  · rw [Table.mem_select, hconditions]
  · exact (page_sublist _ _ _).subperm.trans hout.perm.subperm
  · unfold page
    rw [hoffset, List.drop_zero, List.take_of_length_le (le_of_eq_of_le hout.perm.length_eq hlimit)]
    exact hout.perm

/-- A log that matches the pattern but does not contain the string. -/
theorem exists_matched (h : cases.Charwise lowerChar) {s : String}
    (hs : ∃ c ∈ s.toList, isWildcard c = true) :
    ∃ path : String, like (cases.lower ("%" ++ s ++ "%")).toList (cases.lower path).toList = true ∧
      ¬ (cases.lower s).toList <:+: (cases.lower path).toList := by
  have hlow : (cases.lower s).toList.map lowerChar = (cases.lower s).toList := by
    rw [h.toList_lower, List.map_map]
    exact List.map_congr_left fun c _ => h.idempotent c
  have hpath : (cases.lower (String.ofList (matched (cases.lower s).toList))).toList =
      matched (cases.lower s).toList := by
    rw [h.toList_lower, String.toList_ofList, map_matched h hlow]
  refine ⟨String.ofList (matched (cases.lower s).toList), ?_, ?_⟩
  · rw [hpath, h.pattern, like_percent]
    exact List.any_eq_true.2 ⟨_, (List.mem_tails _ _).2 (List.suffix_refl _), like_matched _⟩
  · rw [hpath]
    obtain ⟨c, hc, hw⟩ := hs
    refine not_infix_matched ⟨lowerChar c, ?_, (h.isWildcard_eq c).trans hw⟩
    rw [h.toList_lower]
    exact List.mem_map_of_mem hc

end

def pathLog (path : String) : RequestLog := { sampleLog 201 5 200 with path := path }

def pathDb (path : String) : PlatformDb :=
  { sampleDailyDb with requestLogs := ⟨[pathLog path], List.pairwise_singleton _ _⟩ }

def pathFilter (pathContains : Option String) : RequestLogFilter :=
  { sampleFilter with pathContains := pathContains }

/-- Request-log search: whatever the logs, the other filters and the page, the search for a string
is exact exactly if the string has none of `%`, `_` and `\`. -/
theorem search_exact_iff (cases : CaseMapping) (lowerChar : Char → Char)
    (hcases : cases.Charwise lowerChar) (pathContains : Option String) :
    (∀ organizationId f db limit offset items, f.pathContains = pathContains →
      RequestLogRepository.Searches cases organizationId f limit offset db items →
        SearchExact cases organizationId f db limit offset items
          (RequestLogRepository.search cases organizationId f limit offset db).2) ↔
      ∀ s, pathContains = some s → ∀ c ∈ s.toList, isWildcard c = false := by
  constructor
  · intro hexact s hs
    by_contra hwild
    push Not at hwild
    obtain ⟨c, hc, hw⟩ := hwild
    rw [ne_eq, Bool.not_eq_false] at hw
    obtain ⟨path, hlike, hinfix⟩ := exists_matched hcases ⟨c, hc, hw⟩
    obtain ⟨out, hout⟩ := exists_ordered (fun r : RequestLog => r.createdAt)
      ((pathDb path).requestLogs.select ((pathFilter (some s)).conditions cases 5))
    obtain ⟨rows, -, hrows, htotal, -⟩ := hexact 5 (pathFilter (some s)) (pathDb path) 1 0 _ hs.symm
      ⟨out, hout, rfl⟩
    have hfound : (pathDb path).requestLogs.select ((pathFilter (some s)).conditions cases 5) =
        [pathLog path] := by
      have hall : (pathFilter (some s)).conditions cases 5 (pathLog path) = true := by
        unfold RequestLogFilter.conditions pathFilter pathLog
        simp [sampleFilter, sampleLog, hlike]
      show List.filter _ [pathLog path] = _
      rw [List.filter_cons_of_pos hall, List.filter_nil]
    have hlength : rows.length = 1 := by
      rw [← htotal]
      show List.length _ = 1
      rw [hfound]
      rfl
    obtain ⟨r, hr⟩ := List.length_eq_one_iff.1 hlength
    obtain ⟨hmem, hsatisfied⟩ := (hrows r).1 (hr ▸ List.mem_cons_self)
    obtain rfl : r = pathLog path := List.mem_singleton.1 hmem
    refine hinfix (hsatisfied.path s rfl ?_)
    rintro rfl
    exact absurd hc List.not_mem_nil
  · rintro hpath organizationId f db limit offset items rfl hitems
    exact searchExact_of_conditions (conditions_iff hcases hpath) hitems

/-- Case mappings that know the letters of ASCII. -/
def asciiCases : CaseMapping := ⟨fun s => s.map Char.toUpper, asciiLower⟩

theorem asciiCases_charwise : asciiCases.Charwise Char.toLower where
  lower := fun _ => rfl
  idempotent := toLower_toLower
  wildcard := by
    intro c hc
    unfold isWildcard at hc
    simp only [Bool.or_eq_true, beq_iff_eq] at hc
    rcases hc with (rfl | rfl) | rfl <;> rfl
  letter := by
    intro c hc
    by_contra hno
    have hsame : c.toLower ≠ c := fun he => hno (he ▸ hc)
    obtain ⟨hval, h₁, h₂⟩ : c.toLower.val = c.val + 32 ∧ (65 : UInt32) ≤ c.val ∧ c.val ≤ 90 := by
      unfold Char.toLower at hsame ⊢
      split
      · rename_i h
        exact ⟨rfl, h⟩
      · rename_i h
        rw [dif_neg h] at hsame
        exact absurd rfl hsame
    have hge : (97 : UInt32) ≤ c.toLower.val := by
      rw [hval]
      simp only [UInt32.le_iff_toNat_le, UInt32.toNat_add, UInt32.reduceToNat] at h₁ h₂ ⊢
      omega
    generalize c.toLower = d at hc hge
    unfold isWildcard at hc
    simp only [Bool.or_eq_true, beq_iff_eq] at hc
    rcases hc with (rfl | rfl) | rfl <;> exact absurd hge (by decide)
  a := rfl

theorem search_exact_iff_ok : (∀ c ∈ "Ok".toList, isWildcard c = false) ∧
    ∀ organizationId f db limit offset items, f.pathContains = some "Ok" →
      RequestLogRepository.Searches asciiCases organizationId f limit offset db items →
        SearchExact asciiCases organizationId f db limit offset items
          (RequestLogRepository.search asciiCases organizationId f limit offset db).2 := by
  have hplain : ∀ c ∈ "Ok".toList, isWildcard c = false := forall_mem_of_all (by decide +kernel)
  refine ⟨hplain, (search_exact_iff asciiCases Char.toLower asciiCases_charwise (some "Ok")).2 ?_⟩
  rintro s hs
  obtain rfl := Option.some.inj hs
  exact hplain

/-- The search for `_` finds the path `ok`. -/
theorem search_wildcard : ¬ ∀ cases lowerChar, CaseMapping.Charwise cases lowerChar →
    ∀ organizationId f limit offset db items,
    RequestLogRepository.Searches cases organizationId f limit offset db items →
      SearchExact cases organizationId f db limit offset items
        (RequestLogRepository.search cases organizationId f limit offset db).2 := by
  intro h
  obtain ⟨rows, -, hrows, htotal, -⟩ :=
    h asciiCases Char.toLower asciiCases_charwise 5 (pathFilter (some "_")) 1 0 (pathDb "ok")
    [pathLog "ok"] ⟨[pathLog "ok"], ⟨by decide +kernel, List.pairwise_singleton _ _⟩, rfl⟩
  have hlength : rows.length = 1 := by
    rw [← htotal]
    decide +kernel
  obtain ⟨r, hr⟩ := List.length_eq_one_iff.1 hlength
  obtain ⟨hmem, hsatisfied⟩ := (hrows r).1 (hr ▸ List.mem_cons_self)
  obtain rfl : r = pathLog "ok" := List.mem_singleton.1 hmem
  have hinfix := hsatisfied.path "_" rfl (by decide)
  revert hinfix
  decide +kernel

end TrafficPlatform
