import TrafficPlatform.Kit.FirstFree
import TrafficPlatform.Management.Catalog

/-!
# Slugs

`slugify` gives words of letters and digits with single dashes between them (`SlugPattern`), and
leaves such a slug as it is. The loop of `_unique_slug` is the search of `Kit.FirstFree` with the
candidates `base-2`, `base-3`, …
-/

namespace TrafficPlatform
open Kit

/-! ### The pattern -/

/-- `[a-z0-9]+`. -/
def IsSlugWord (cs : List Char) : Prop := cs ≠ [] ∧ ∀ c ∈ cs, isSlugChar c = true

/-- `^[a-z0-9]+(-[a-z0-9]+)*$`. -/
inductive SlugPattern : List Char → Prop
  | word {w : List Char} (h : IsSlugWord w) : SlugPattern w
  | dash {w cs : List Char} (h : IsSlugWord w) (rest : SlugPattern cs) : SlugPattern (w ++ '-' :: cs)

namespace SlugPattern

variable {c : Char} {cs w : List Char}

theorem single (h : isSlugChar c = true) : SlugPattern [c] := .word ⟨by simp, by simpa using h⟩

theorem cons (h : isSlugChar c = true) (hcs : SlugPattern cs) : SlugPattern (c :: cs) := by
  cases hcs with
  | word hw => exact .word ⟨by simp, List.forall_mem_cons.2 ⟨h, hw.2⟩⟩
  | dash hw rest => exact .dash (w := c :: _) ⟨by simp, List.forall_mem_cons.2 ⟨h, hw.2⟩⟩ rest

theorem consDash (h : isSlugChar c = true) (hcs : SlugPattern cs) : SlugPattern (c :: '-' :: cs) :=
  .dash (w := [c]) ⟨by simp, by simpa using h⟩ hcs

theorem append (h : SlugPattern cs) (hw : IsSlugWord w) : SlugPattern (cs ++ '-' :: w) := by
  induction h with
  | word hv => exact .dash hv (.word hw)
  | dash hv _ ih =>
    rw [List.append_assoc]
    exact .dash hv ih

/-- Induction from the right: a slug is one character, or a character, perhaps a dash, and a slug. -/
@[elab_as_elim]
theorem charInduction {P : List Char → Prop} (single : ∀ c, isSlugChar c = true → P [c])
    (cons : ∀ c cs, isSlugChar c = true → P cs → P (c :: cs))
    (dash : ∀ c cs, isSlugChar c = true → P cs → P (c :: '-' :: cs))
    (h : SlugPattern cs) : P cs := by
  -- the first word is taken apart character by character
  have first : ∀ {w : List Char}, IsSlugWord w → ∀ {cs}, (∀ c, isSlugChar c = true → P (c :: cs)) →
      P (w ++ cs) := by
    intro w hw
    induction w with
    | nil => exact absurd rfl hw.1
    | cons c w ih =>
      intro cs hlast
      obtain ⟨hc, hrest⟩ := List.forall_mem_cons.1 hw.2
      cases w with
      | nil => exact hlast c hc
      | cons d w => exact cons c _ hc (ih ⟨by simp, hrest⟩ hlast)
  induction h with
  | word hw => simpa using @first _ hw [] single
  | dash hw _ ih => exact first hw fun c hc => dash c _ hc ih

theorem head (h : SlugPattern cs) : ∃ c t, cs = c :: t ∧ isSlugChar c = true := by
  refine charInduction (fun c hc => ?_) (fun c cs hc _ => ?_) (fun c cs hc _ => ?_) h <;>
    exact ⟨c, _, rfl, hc⟩

theorem last (h : SlugPattern cs) : ∃ t c, cs = t ++ [c] ∧ isSlugChar c = true := by
  refine charInduction (fun c hc => ?_) (fun c cs _ ih => ?_) (fun c cs _ ih => ?_) h
  · exact ⟨[], c, rfl, hc⟩
  · obtain ⟨t, d, rfl, hd⟩ := ih
    exact ⟨c :: t, d, rfl, hd⟩
  · obtain ⟨t, d, rfl, hd⟩ := ih
    exact ⟨c :: '-' :: t, d, rfl, hd⟩

end SlugPattern

/-! ### slugify -/

theorem isSlugChar.not_dash {c : Char} (h : isSlugChar c = true) : (c == '-') = false := by
  refine beq_eq_false_iff_ne.2 fun he => ?_
  rw [he] at h
  exact absurd h (by decide)

theorem dashed_pattern {cs : List Char} (h : SlugPattern cs) : ∀ inRun, dashed inRun cs = cs := by
  refine SlugPattern.charInduction (fun c hc inRun => ?_) (fun c cs hc ih inRun => ?_)
    (fun c cs hc ih inRun => ?_) h
  · simp [dashed, hc]
  · simp [dashed, hc, ih]
  · have hdash : isSlugChar '-' = false := by decide
    simp [dashed, hc, hdash, ih]

theorem stripDashes_around {cs before after : List Char} (h : SlugPattern cs)
    (hbefore : ∀ c ∈ before, (c == '-') = true)
    (hafter : ∀ c ∈ after, (c == '-') = true) : stripDashes (before ++ cs ++ after) = cs := by
  obtain ⟨c, t, hhead, hc⟩ := h.head
  obtain ⟨u, d, hlast, hd⟩ := h.last
  have hleft : (before ++ cs ++ after).dropWhile (fun c => c == '-') = cs ++ after := by
    rw [List.append_assoc, List.dropWhile_append_of_pos hbefore, hhead]
    simp [isSlugChar.not_dash hc]
  have hright : (cs ++ after).reverse.dropWhile (fun c => c == '-') = cs.reverse := by
    have hall : ∀ c ∈ after.reverse, (c == '-') = true := fun c hc => hafter c (List.mem_reverse.1 hc)
    rw [List.reverse_append, List.dropWhile_append_of_pos hall, hlast]
    simp [isSlugChar.not_dash hd]
  unfold stripDashes
  simp only [hleft, hright, List.reverse_reverse]

/-- Nothing, or a slug that a dash may follow. -/
inductive SlugAndDash : List Char → Prop
  | nil : SlugAndDash []
  | slug {cs : List Char} (h : SlugPattern cs) : SlugAndDash cs
  | dash {cs : List Char} (h : SlugPattern cs) : SlugAndDash (cs ++ ['-'])

/-- The dash of the first run comes first. -/
theorem dashed_shape (cs : List Char) : SlugAndDash (dashed true cs) ∧
    (SlugAndDash (dashed false cs) ∨ ∃ l, dashed false cs = '-' :: l ∧ SlugAndDash l) := by
  induction cs with
  | nil => exact ⟨.nil, .inl .nil⟩
  | cons c cs ih =>
    by_cases hc : isSlugChar c = true
    · have hword : SlugAndDash (c :: dashed false cs) := by
        rcases ih.2 with hl | ⟨l, heq, hl⟩
        · generalize dashed false cs = l at hl
          cases hl with
          | nil => exact .slug (.single hc)
          | slug h => exact .slug (.cons hc h)
          | dash h => exact .dash (.cons hc h)
        · rw [heq]
          cases hl with
          | nil => exact .dash (.single hc)
          | slug h => exact .slug (.consDash hc h)
          | dash h => exact .dash (.consDash hc h)
      simp only [dashed, if_pos hc]
      exact ⟨hword, .inl hword⟩
    · simp only [dashed, if_neg hc]
      exact ⟨ih.1, .inr ⟨_, rfl, ih.1⟩⟩

theorem stripDashes_dashed (cs : List Char) :
    stripDashes (dashed false cs) = [] ∨ SlugPattern (stripDashes (dashed false cs)) := by
  -- what is left of nothing or a slug between dashes
  have core : ∀ {before l : List Char}, (∀ c ∈ before, (c == '-') = true) → SlugAndDash l →
      stripDashes (before ++ l) = [] ∨ SlugPattern (stripDashes (before ++ l)) := by
    intro before l hbefore hl
    cases hl with
    | nil =>
      refine .inl ?_
      unfold stripDashes
      simp only [List.dropWhile_append_of_pos hbefore, List.dropWhile_nil, List.reverse_nil]
    | slug h =>
      have hstrip := @stripDashes_around _ _ [] h hbefore (by simp)
      rw [List.append_nil] at hstrip
      exact .inr (hstrip.symm ▸ h)
    | dash h =>
      have hstrip := @stripDashes_around _ _ ['-'] h hbefore (by simp)
      rw [List.append_assoc] at hstrip
      exact .inr (hstrip.symm ▸ h)
  rcases (dashed_shape cs).2 with hl | ⟨l, heq, hl⟩
  · exact @core [] _ (by simp) hl
  · rw [heq]
    exact @core ['-'] _ (by simp) hl

/-- A slug of either kind of character. -/
def IsSlug (s : String) : Prop := SlugPattern s.toList

theorem slugify_isSlug (cfg : Config) (value : String) : IsSlug (slugify cfg value) := by
  unfold slugify
  dsimp only
  split
  · have hword : IsSlugWord "org".toList := ⟨by decide, forall_mem_of_all (by decide +kernel)⟩
    exact .word hword
  · rename_i hne
    unfold IsSlug
    rw [String.toList_ofList]
    refine (stripDashes_dashed _).resolve_left fun hnil => hne ?_
    rw [hnil]

/-- `str.lower` leaves letters that are lower case already, digits and dashes alone. -/
def Config.LowersSlugs (cfg : Config) : Prop :=
  ∀ s : String, (∀ c ∈ s.toList, isSlugChar c = true ∨ c = '-') → cfg.lower s = s

theorem SlugPattern.chars {cs : List Char} (h : SlugPattern cs) : ∀ c ∈ cs, isSlugChar c = true ∨
    c = '-' := by
  refine SlugPattern.charInduction (fun c hc => ?_) (fun c cs hc ih => ?_) (fun c cs hc ih => ?_) h
  · simp [hc]
  · exact List.forall_mem_cons.2 ⟨.inl hc, ih⟩
  · exact List.forall_mem_cons.2 ⟨.inl hc, List.forall_mem_cons.2 ⟨.inr rfl, ih⟩⟩

theorem slugify_of_isSlug {cfg : Config} (hlower : cfg.LowersSlugs) {slug : String}
    (h : IsSlug slug) : slugify cfg slug = slug := by
  have hstrip : stripDashes slug.toList = slug.toList := by
    simpa using @stripDashes_around _ [] [] h (by simp) (by simp)
  have hne : slug ≠ "" := by
    obtain ⟨c, t, heq, -⟩ := h.head
    rintro rfl
    cases heq
  unfold slugify
  rw [hlower slug h.chars, dashed_pattern h, hstrip, String.ofList_toList]
  simp [hne]


/-! ### The loop of _unique_slug -/

/-- `f"{base}-{suffix}"`. -/
def slugCandidate (base : String) (suffix : Nat) : String := base ++ "-" ++ toString suffix

theorem toList_slugCandidate (base : String) (n : Nat) : (slugCandidate base n).toList =
    base.toList ++ '-' :: Nat.toDigits 10 n := by
  simp [slugCandidate, Nat.toString_eq_repr]

theorem slugCandidate_injective (base : String) : Function.Injective (slugCandidate base) := by
  intro n m h
  have hlist := congrArg String.toList h
  rw [toList_slugCandidate, toList_slugCandidate, List.append_cancel_left_eq, List.cons_inj_right]
    at hlist
  rw [← Nat.ofDigitChars_ten_toDigits (n := n), hlist, Nat.ofDigitChars_ten_toDigits]

theorem isSlugChar_of_isDigit {c : Char} (h : c.isDigit = true) : isSlugChar c = true := by
  unfold Char.isDigit at h
  simp only [Bool.and_eq_true, decide_eq_true_eq] at h
  refine Bool.or_eq_true_iff.2 (.inr (decide_eq_true ?_))
  exact h

theorem isSlug_slugCandidate {base : String} (h : IsSlug base) (n : Nat) :
    IsSlug (slugCandidate base n) := by
  unfold IsSlug
  rw [toList_slugCandidate]
  refine SlugPattern.append h ⟨Nat.toDigits_ne_nil, fun c hc => ?_⟩
  exact isSlugChar_of_isDigit (Nat.isDigit_of_mem_toDigits (by decide) (by decide) hc)

section
variable {taken : String → Bool} {base slug : String} {rounds suffix m : Nat}

theorem uniqueSlugFrom_eq (h : LeastFree (fun s => taken s = true) (slugCandidate base) suffix m)
    (hm : m ≤ suffix + rounds) :
    uniqueSlugFrom taken base rounds suffix = slugCandidate base m := by
  induction rounds generalizing suffix with
  | zero =>
    obtain rfl : m = suffix := Nat.le_antisymm hm h.le
    rfl
  | succ rounds ih =>
    unfold uniqueSlugFrom
    dsimp only
    split
    · rename_i htaken
      have hne : suffix ≠ m := fun he => h.free (he ▸ htaken)
      have hlt := Nat.lt_of_le_of_ne h.le hne
      exact ih ⟨hlt, h.free, fun k hk hlt => h.before k (Nat.le_of_succ_le hk) hlt⟩ (by omega)
    · rename_i hfree
      rcases Nat.eq_or_lt_of_le h.le with rfl | hlt
      · rfl
      · exact absurd (h.before suffix (le_refl _) hlt) hfree

theorem uniqueSlug_firstFree (s : Finset String) (hs : ∀ a, taken a = true → a ∈ s)
    (h : s.card ≤ rounds) :
    FirstFree (fun s => taken s = true) (slugCandidate base) base 2 (uniqueSlug taken base rounds) := by
  unfold uniqueSlug
  split
  · rename_i hbase
    obtain ⟨m, hm, hleast⟩ := exists_leastFree s hs (slugCandidate_injective base) 2
    rw [uniqueSlugFrom_eq hleast (by omega)]
    exact hleast.firstFree hbase
  · rename_i hbase
    exact .free hbase

end

/-! ### The services -/

namespace PlatformDb

def organizationSlugs (db : PlatformDb) : Finset String :=
  (db.orgs.organizations.rows.map (·.slug)).toFinset

def apiSlugs (db : PlatformDb) (organizationId : Uuid) : Finset String :=
  ((db.apis.select fun a => a.organizationId == organizationId).map (·.slug)).toFinset

variable {db : PlatformDb} {organizationId : Uuid} {slug : String}

theorem mem_organizationSlugs : slug ∈ db.organizationSlugs ↔ ∃ o ∈ db.orgs.organizations.rows,
    o.slug = slug := by
  simp [organizationSlugs]

theorem mem_apiSlugs : slug ∈ db.apiSlugs organizationId ↔ ∃ a ∈ db.apis.rows,
    a.organizationId = organizationId ∧ a.slug = slug := by
  simp [apiSlugs, Table.mem_select, and_assoc]

theorem card_organizationSlugs (db : PlatformDb) :
    db.organizationSlugs.card ≤ db.orgs.organizations.rows.length :=
  (List.toFinset_card_le _).trans_eq (List.length_map _)

theorem card_apiSlugs (db : PlatformDb) (organizationId : Uuid) :
    (db.apiSlugs organizationId).card ≤ db.apis.rows.length := by
  refine (List.toFinset_card_le _).trans ?_
  rw [List.length_map]
  exact List.length_filter_le _ _

/-- The ids of the catalog were handed out. -/
structure CatalogBelow (db : PlatformDb) (supply : Uuid) : Prop where
  organizations : ∀ o ∈ db.orgs.organizations.rows, o.id < supply
  members : ∀ m ∈ db.orgs.members.rows, m.id < supply
  apis : ∀ a ∈ db.apis.rows, a.id < supply
  apiVersions : ∀ v ∈ db.apiVersions.rows, v.id < supply
  quotas : ∀ q ∈ db.quotas.rows, q.id < supply
  rateLimitRules : ∀ r ∈ db.rateLimitRules.rows, r.id < supply

end PlatformDb

/-- The loop of `_unique_slug` ends at `slug`, and only there: the base, or the base with the least
suffix that is free. -/
structure SlugAssigned (taken : Finset String) (base slug : String) : Prop where
  loop : FirstFree (fun s => s ∈ taken) (slugCandidate base) base 2 slug
  only : ∀ slug', FirstFree (fun s => s ∈ taken) (slugCandidate base) base 2 slug' → slug' = slug
  free : slug ∉ taken
  isSlug : IsSlug slug
  least : slug = base ∨ base ∈ taken ∧ ∃ n, 2 ≤ n ∧ slug = slugCandidate base n ∧ ∀ k, 2 ≤ k →
    k < n → slugCandidate base k ∈ taken

theorem uniqueSlug_assigned {slugs : Finset String} {taken : String → Bool} {base : String}
    {rounds : Nat} (hs : ∀ s, taken s = true ↔ s ∈ slugs) (h : slugs.card ≤ rounds)
    (hbase : IsSlug base) :
    SlugAssigned slugs base (uniqueSlug taken base rounds) := by
  have hloop := @uniqueSlug_firstFree _ base _ slugs (fun s => (hs s).1) h
  simp only [hs] at hloop
  refine ⟨hloop, fun slug' h' => hloop.unique h', hloop.not_taken, ?_, ?_⟩
  · rcases hloop.cases_least with ⟨heq, -⟩ | ⟨-, m, -, heq⟩
    · rwa [heq]
    · rw [heq]
      exact isSlug_slugCandidate hbase m
  · rcases hloop.cases_least with ⟨heq, -⟩ | ⟨htaken, m, hm, heq⟩
    · exact .inl heq
    · exact .inr ⟨htaken, m, hm.le, heq, hm.before⟩

namespace Management

theorem OrganizationService.slugOf_assigned (cfg : Config) (db : PlatformDb) (slug : Option String)
    (name : String) :
    SlugAssigned db.organizationSlugs (slugify cfg (slugOr slug name))
        (OrganizationService.slugOf cfg db slug name) :=
  uniqueSlug_assigned (fun s => by simp [PlatformDb.mem_organizationSlugs])
    (Nat.le_succ_of_le db.card_organizationSlugs)
    (slugify_isSlug cfg _)

theorem ApiCatalogService.slugOf_assigned (cfg : Config) (db : PlatformDb) (organizationId : Uuid)
    (slug : Option String)
    (name : String) : SlugAssigned (db.apiSlugs organizationId) (slugify cfg (slugOr slug name))
      (ApiCatalogService.slugOf cfg db organizationId slug name) :=
  uniqueSlug_assigned (fun s => by simp [PlatformDb.mem_apiSlugs, and_comm])
    (Nat.le_succ_of_le (db.card_apiSlugs organizationId))
    (slugify_isSlug cfg _)

end Management

theorem IsSlug.ne_empty {slug : String} (h : IsSlug slug) : slug ≠ "" := by
  obtain ⟨c, t, heq, -⟩ := SlugPattern.head h
  rintro rfl
  cases heq

theorem SlugAssigned.of_requested {cfg : Config} (hlower : cfg.LowersSlugs) {taken : Finset String}
    {slug name slug' : String} (hslug : IsSlug slug) (hfree : slug ∉ taken)
    (h : SlugAssigned taken (slugify cfg (slugOr (some slug) name)) slug') :
    slug' = slug := by
  have hor : slugOr (some slug) name = slug := by simp [slugOr, Option.filter, hslug.ne_empty]
  rw [hor, slugify_of_isSlug hlower hslug] at h
  rcases h.least with heq | ⟨htaken, -⟩
  · exact heq
  · exact absurd htaken hfree

theorem IsSlug.fits {slug : String} (h : IsSlug slug) {n : Nat} (hn : slug.length ≤ n) :
    keptVarchar n slug = true := by
  unfold keptVarchar hasNul
  rw [decide_eq_true hn, Bool.true_and, Bool.not_eq_true', ← Bool.not_eq_true, List.contains_iff_mem]
  intro hnul
  rcases SlugPattern.chars h _ hnul with hc | hc <;> exact absurd hc (by decide)

/-- A call that stores the requested slug as it is, or refuses it because it is taken; otherwise
something else of the call is refused. -/
inductive SlugAnswer {α : Type} (taken allowed : Prop) (stored : α → PlatformDb → Prop)
    (conflict : Failure) (db : PlatformDb) :
    Except Failure α × State managementTables.backend → Prop
  | stored {a : α} {s' : State managementTables.backend} (h : ¬ taken) (hs : stored a s'.db) :
    SlugAnswer taken allowed stored conflict db (.ok a, s')
  | conflict {w : World PlatformOutside} (h : taken) : SlugAnswer taken allowed stored conflict db
    (.error conflict, ⟨db, w⟩)
  | other {e : Failure} {w : World PlatformOutside} (h : ¬ taken) (hother : ¬ allowed) :
    SlugAnswer taken allowed stored conflict db (.error e, ⟨db, w⟩)

namespace Management

variable {cfg : Config} {slug name : String} {s : State managementTables.backend}

/-- Besides its slug, the columns and foreign keys of the organization and of its owner's membership
are in order. -/
structure OrganizationService.Allowed (db : PlatformDb) (owner : User) (name slug : String) : Prop where
  name : keptVarchar 200 name = true
  slug : slug.length ≤ 120
  owner : owner ∈ db.orgs.users.rows
  role : ∃ r ∈ db.orgs.roles.rows, r.name = RoleName.owner.name

/-- What is refused of a creation is not the free slug. -/
theorem OrganizationService.Refused.not_allowed {s : Session managementTables.backend}
    {owner : User} {id : Uuid} {e : Failure}
    (h : OrganizationService.Refused s owner ⟨id, name, slug⟩ e) (hslug : IsSlug slug)
    (hfree : slug ∉ s.db.organizationSlugs) (hid : s.world.supply ≤ id)
    (hbelow : s.db.CatalogBelow s.world.supply) :
        ¬ OrganizationService.Allowed s.db owner name slug := by
  intro hallowed
  have hadmits : s.db.orgs.organizations.admits ⟨id, name, slug⟩ = true := by
    refine Table.admits_iff.2 fun o ho hclash => ?_
    rcases Bool.or_eq_true_iff.1 hclash with hsame | hsame
    · exact absurd (beq_iff_eq.1 hsame) ((hbelow.organizations o ho).trans_le hid).ne
    · exact hfree (PlatformDb.mem_organizationSlugs.2 ⟨o, ho, beq_iff_eq.1 hsame⟩)
  have hcheck : (ManagementOp.addOrganization ⟨id, name, slug⟩).check s.db = .ok () :=
    insertCheck_eq_ok.2 ⟨Bool.and_eq_true_iff.2 ⟨hallowed.name, hslug.fits hallowed.slug⟩, hadmits⟩
  cases h with
  | row h =>
    rw [hcheck] at h
    cases h
  | role _ _ hrole =>
    obtain ⟨r, hr, hname⟩ := hallowed.role
    exact hrole r hr hname
  | member _ m hmid horg huser hrole h =>
    have hrefers : m.Refers s.db.orgs.users (s.db.orgs.organizations.insert ⟨id, name, slug⟩)
        s.db.orgs.roles :=
      ⟨⟨_, (Table.mem_insert hadmits).2 (.inr rfl), horg.symm⟩,
        ⟨owner, hallowed.owner, huser.symm⟩, hrole⟩
    have hmember : s.db.orgs.members.admits m = true := by
      refine Table.admits_iff.2 fun m' hm' hclash => ?_
      rcases OrganizationMember.clash_iff.1 hclash with hsame | ⟨hsame, -⟩
      · exact absurd hsame ((hbelow.members m' hm').trans_le hmid).ne
      -- no membership is older than its organization
      · obtain ⟨⟨o, ho, hoid⟩, -⟩ := s.db.orgs.refers m' hm'
        exact absurd (hoid.trans (hsame.trans horg)) ((hbelow.organizations o ho).trans_le hid).ne
    have hok : (OrgOp.addMember m).check (s.db.addOrganization ⟨id, name, slug⟩).orgs = .ok () :=
      if_pos ⟨hrefers, hmember⟩
    rw [hok] at h
    cases h

theorem OrganizationService.createOrganization_answer (hlower : cfg.LowersSlugs)
    (hslug : IsSlug slug) (owner : User) (envs : Nat → Env PlatformInput)
    (hbelow : s.db.CatalogBelow s.world.supply) :
    SlugAnswer (slug ∈ s.db.organizationSlugs) (OrganizationService.Allowed s.db owner name slug)
      (fun org db => org.slug = slug ∧ org ∈ db.orgs.organizations.rows)
      (ErrorClass.conflictError.error "An organization with this slug already exists.") s.db
      (scope (OrganizationService.createOrganization cfg owner name (some slug)) envs s) := by
  by_cases htaken : slug ∈ s.db.organizationSlugs
  · obtain ⟨o, ho, hoslug⟩ := PlatformDb.mem_organizationSlugs.1 htaken
    rcases (createOrganization_taken cfg owner (s := ⟨s.db, [], s.world, envs⟩) ho hoslug).scope_flushed
      (fun _ _ => False.elim) with ⟨_, _, h, -⟩ | ⟨e, s', ⟨rfl, -⟩, hs⟩
    · exact h.elim
    · rw [hs]
      exact .conflict htaken
  · have hfree : ∀ slug', some slug = some slug' → ∀ o ∈ s.db.orgs.organizations.rows,
        o.slug ≠ slug' := by
      intro slug' heq o ho hoslug
      cases heq
      exact htaken (PlatformDb.mem_organizationSlugs.2 ⟨o, ho, hoslug⟩)
    have hsame :=
      (OrganizationService.slugOf_assigned cfg s.db (some slug) name).of_requested hlower
        hslug htaken
    rcases (createOrganization_free cfg owner name (some slug) (s := ⟨s.db, [], s.world, envs⟩)
      hfree rfl).scope_flushed
      (fun _ _ h => h.2.choose_spec.2.dirty) with ⟨org, s', ⟨horg, m, hcreates, hreach⟩, hs⟩
        | ⟨e, s', ⟨id, hid, hrefused⟩, hs⟩
    · rw [hs]
      have hrow := (insertCheck_eq_ok.1 hcreates.admitted).2
      have hmem : org ∈ (s.db.orgs.organizations.insert org).rows :=
        (Table.mem_insert hrow).2 (.inr rfl)
      refine .stored htaken ⟨by rw [horg]; exact hsame, ?_⟩
      rw [hreach.db]
      show org ∈ ((s.db.orgs.addOrganization org).addMember m).organizations.rows
      unfold OrgDb.addMember
      split <;> exact hmem
    · rw [hs]
      dsimp only at hrefused
      rw [hsame] at hrefused
      exact .other htaken (hrefused.not_allowed hslug htaken hid hbelow)

theorem OrganizationService.createOrganization_assigned {owner : User} {slug : Option String}
    {envs : Nat → Env PlatformInput} {org : Organization} {s' : State managementTables.backend}
    (h : scope (OrganizationService.createOrganization cfg owner name slug) envs s = (.ok org, s')) :
    SlugAssigned s.db.organizationSlugs (slugify cfg (slugOr slug name)) org.slug := by
  by_cases hfree : ∀ slug', slug = some slug' → ∀ o ∈ s.db.orgs.organizations.rows, o.slug ≠ slug'
  · rcases (createOrganization_free cfg owner name slug (s := ⟨s.db, [], s.world, envs⟩) hfree
      rfl).scope_flushed
      (fun _ _ h => h.2.choose_spec.2.dirty) with ⟨org', s', ⟨horg, -⟩, hs⟩ | ⟨e, s', -, hs⟩
    · rw [hs] at h
      cases h
      rw [horg]
      exact OrganizationService.slugOf_assigned cfg s.db slug name
    · rw [hs] at h
      cases h
  · push Not at hfree
    obtain ⟨slug', rfl, o, ho, hslug⟩ := hfree
    rcases (createOrganization_taken cfg owner (s := ⟨s.db, [], s.world, envs⟩) ho hslug).scope_flushed
      (fun _ _ => False.elim) with ⟨_, _, h', -⟩ | ⟨e, s', -, hs⟩
    · exact h'.elim
    · rw [hs] at h
      cases h

/-- Besides its slug, the columns and the foreign key of the API are in order. -/
structure ApiCatalogService.Allowed (db : PlatformDb) (organizationId : Uuid)
    (name slug description : String) : Prop where
  name : keptVarchar 200 name = true
  slug : slug.length ≤ 120
  description : keptVarchar 1000 description = true
  organization : db.orgs.hasOrganization organizationId = true

theorem ApiCatalogService.createApi_answer (hlower : cfg.LowersSlugs) (hslug : IsSlug slug)
    (organizationId : Uuid) (description : String) (envs : Nat → Env PlatformInput)
    (hbelow : s.db.CatalogBelow s.world.supply) :
    SlugAnswer (slug ∈ s.db.apiSlugs organizationId)
      (ApiCatalogService.Allowed s.db organizationId name slug description)
      (fun api db => api.slug = slug ∧ api ∈ db.apis.rows)
      (ErrorClass.conflictError.error "An API with this slug already exists in the organization.") s.db
      (scope (ApiCatalogService.createApi cfg organizationId name (some slug) description) envs s) := by
  by_cases htaken : slug ∈ s.db.apiSlugs organizationId
  · obtain ⟨a, ha, horg, haslug⟩ := PlatformDb.mem_apiSlugs.1 htaken
    rcases (createApi_taken cfg (s := ⟨s.db, [], s.world, envs⟩) ha horg haslug).scope_flushed
      (fun _ _ => False.elim) with ⟨_, _, h, -⟩ | ⟨e, s', ⟨rfl, -⟩, hs⟩
    · exact h.elim
    · rw [hs]
      exact .conflict htaken
  · have hfree : ∀ slug', some slug = some slug' → ∀ a ∈ s.db.apis.rows,
        a.organizationId = organizationId → a.slug ≠ slug' := by
      intro slug' heq a ha horg haslug
      cases heq
      exact htaken (PlatformDb.mem_apiSlugs.2 ⟨a, ha, horg, haslug⟩)
    have hsame :=
      (ApiCatalogService.slugOf_assigned cfg s.db organizationId (some slug) name).of_requested
        hlower hslug htaken
    rcases (createApi_free cfg organizationId name (some slug) description
      (s := ⟨s.db, [], s.world, envs⟩) hfree rfl).scope_flushed
      (fun _ _ h => h.2.2.2.dirty) with ⟨api, s', ⟨-, hapi, hcheck, hreach⟩, hs⟩
        | ⟨e, s', ⟨id, hid, hcheck⟩, hs⟩
    · rw [hs]
      have hrow := (Bool.and_eq_true_iff.1 (insertCheck_eq_ok.1 hcheck).2).2
      refine .stored htaken ⟨by rw [hapi]; exact hsame, ?_⟩
      rw [hreach.db]
      exact (Table.mem_insert hrow).2 (.inr rfl)
    · rw [hs]
      refine .other htaken fun hallowed => ?_
      dsimp only at hcheck
      rw [hsame] at hcheck
      have hadmits : s.db.apis.admits ⟨id, organizationId, name, slug, description, true⟩ = true := by
        refine Table.admits_iff.2 fun a ha hclash => ?_
        rcases Api.clash_iff.1 hclash with hsame | ⟨horg, haslug⟩
        · exact absurd hsame ((hbelow.apis a ha).trans_le hid).ne
        · exact htaken (PlatformDb.mem_apiSlugs.2 ⟨a, ha, horg, haslug⟩)
      have hok : (ManagementOp.addApi ⟨id, organizationId, name, slug, description, true⟩).check
          s.db = .ok () := by
        refine insertCheck_eq_ok.2 ⟨?_, Bool.and_eq_true_iff.2 ⟨hallowed.organization, hadmits⟩⟩
        rw [hallowed.name, hslug.fits hallowed.slug, hallowed.description]
        rfl
      rw [hok] at hcheck
      cases hcheck

theorem ApiCatalogService.createApi_assigned {organizationId : Uuid} {slug : Option String}
    {description : String}
    {envs : Nat → Env PlatformInput} {api : Api} {s' : State managementTables.backend}
    (h : scope (ApiCatalogService.createApi cfg organizationId name slug description) envs s =
      (.ok api, s')) :
    SlugAssigned (s.db.apiSlugs organizationId) (slugify cfg (slugOr slug name)) api.slug := by
  by_cases hfree : ∀ slug', slug = some slug' → ∀ a ∈ s.db.apis.rows,
    a.organizationId = organizationId → a.slug ≠ slug'
  · rcases (createApi_free cfg organizationId name slug description (s := ⟨s.db, [], s.world, envs⟩)
      hfree rfl).scope_flushed
      (fun _ _ h => h.2.2.2.dirty) with ⟨api', s', ⟨_, hapi, _⟩, hs⟩ | ⟨e, s', -, hs⟩
    · rw [hs] at h
      cases h
      rw [hapi]
      exact ApiCatalogService.slugOf_assigned cfg s.db organizationId slug name
    · rw [hs] at h
      cases h
  · push Not at hfree
    obtain ⟨slug', rfl, a, ha, horg, hslug⟩ := hfree
    rcases (createApi_taken cfg (s := ⟨s.db, [], s.world, envs⟩) ha horg hslug).scope_flushed
      (fun _ _ => False.elim) with ⟨_, _, h', -⟩ | ⟨e, s', -, hs⟩
    · exact h'.elim
    · rw [hs] at h
      cases h

end Management

/-- `_unique_slug` ends with a free slug of the pattern, the least that it tries, in both services;
`slugify` leaves its own results alone; and a requested slug is stored as it is or refused because
it is taken. -/
theorem slug_assignment (cfg : Config) (hlower : cfg.LowersSlugs) :
    (∀ (taken : Finset String) (desired : String) (rounds : Nat), taken.card ≤ rounds →
      SlugAssigned taken (slugify cfg desired)
        (uniqueSlug (fun s => decide (s ∈ taken)) (slugify cfg desired) rounds)) ∧
    (∀ (s : State managementTables.backend) (envs : Nat → Env PlatformInput) (name : String)
      (slug : Option String),
      (∀ owner org s', scope (Management.OrganizationService.createOrganization cfg owner name slug)
        envs s = (.ok org, s') →
        SlugAssigned s.db.organizationSlugs (slugify cfg (slugOr slug name)) org.slug) ∧
      ∀ organizationId description api s',
        scope (Management.ApiCatalogService.createApi cfg organizationId name slug description) envs
          s = (.ok api, s') →
        SlugAssigned (s.db.apiSlugs organizationId) (slugify cfg (slugOr slug name)) api.slug) ∧
    (∀ value : String, slugify cfg (slugify cfg value) = slugify cfg value) ∧
    (∀ (slug : String), IsSlug slug → ∀ (s : State managementTables.backend),
      s.db.CatalogBelow s.world.supply →
      ∀ (envs : Nat → Env PlatformInput) (name : String),
      (∀ owner : User, SlugAnswer (slug ∈ s.db.organizationSlugs)
        (Management.OrganizationService.Allowed s.db owner name slug)
        (fun org db => org.slug = slug ∧ org ∈ db.orgs.organizations.rows)
        (ErrorClass.conflictError.error "An organization with this slug already exists.") s.db
        (scope (Management.OrganizationService.createOrganization cfg owner name (some slug)) envs s)) ∧
      (∀ (organizationId : Uuid) (description : String),
        SlugAnswer (slug ∈ s.db.apiSlugs organizationId)
        (Management.ApiCatalogService.Allowed s.db organizationId name slug description)
        (fun api db => api.slug = slug ∧ api ∈ db.apis.rows)
        (ErrorClass.conflictError.error "An API with this slug already exists in the organization.")
          s.db
        (scope (Management.ApiCatalogService.createApi cfg organizationId name
            (some slug) description) envs s))) := by
  refine ⟨fun taken desired rounds h => ?_,
    fun s envs name slug => ⟨?_, ?_⟩,
      fun value => ?_, fun slug hslug s hbelow envs name => ⟨?_, ?_⟩⟩
  · exact uniqueSlug_assigned (fun s => decide_eq_true_iff) h (slugify_isSlug cfg desired)
  · exact fun owner org s' h => Management.OrganizationService.createOrganization_assigned h
  · exact fun organizationId description api s' h => Management.ApiCatalogService.createApi_assigned h
  · exact slugify_of_isSlug hlower (slugify_isSlug cfg value)
  · exact fun owner => Management.OrganizationService.createOrganization_answer hlower hslug
      owner envs hbelow
  · exact fun organizationId description =>
      Management.ApiCatalogService.createApi_answer hlower hslug organizationId description envs hbelow

theorem slug_assignment_acme : SlugAssigned {"acme", "acme-2", "acme-4"} "acme" "acme-3" := by
  have hslug : slugify sampleConfig "acme!" = "acme" := by decide
  have hfound : uniqueSlug (fun s => decide (s ∈ ({"acme", "acme-2", "acme-4"} : Finset String)))
    "acme" 3 = "acme-3" := by decide
  have h := (slug_assignment sampleConfig fun _ _ => rfl).1 {"acme", "acme-2", "acme-4"} "acme!"
    3 (by decide)
  rwa [hslug, hfound] at h

end TrafficPlatform
