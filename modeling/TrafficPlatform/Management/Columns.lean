import TrafficPlatform.Management.Runs
import TrafficPlatform.Management.Slugs

/-!
# The values of an accepted payload and their columns

The schemas of the request bodies do not bound all that is stored: the slug of a name of 200
characters, the suffix of a slug, an upstream URL, the counts of a quota and of a rate limit, and a
NUL character in a text. Each call is a data error of the database exactly when such a value reaches
a row.
-/

namespace TrafficPlatform
open Kit Management

/-! ### The payloads -/

structure OrganizationCreate where
  name : String
  slug : Option String
  name_length : 1 ≤ name.length ∧ name.length ≤ 200
  slug_pattern : ∀ s, slug = some s → IsSlug s ∧ s.length ≤ 120

structure ApiCreate where
  name : String
  slug : Option String
  description : String
  name_length : 1 ≤ name.length ∧ name.length ≤ 200
  slug_pattern : ∀ s, slug = some s → IsSlug s ∧ s.length ≤ 120
  description_length : description.length ≤ 1000

/-- `[A-Za-z0-9._-]`. -/
def isVersionChar (c : Char) : Bool :=
  isSlugChar c || decide ('A' ≤ c ∧ c ≤ 'Z') || c == '.' || c == '_' || c == '-'

/-- The text of an `AnyHttpUrl` has no NUL. -/
structure ApiVersionCreate where
  version : String
  upstreamBaseUrl : String
  isActive : Bool
  version_length : 1 ≤ version.length ∧ version.length ≤ 40
  version_pattern : ∀ c ∈ version.toList, isVersionChar c = true
  url_text : hasNul upstreamBaseUrl = false

structure QuotaConfig where
  quotas : List (QuotaPeriod × Int)
  positive : ∀ q ∈ quotas, 0 < q.2
  uniquePeriods : (quotas.map (·.1)).Nodup

/-! ### Errors -/

theorem insertCheck_eq_error {fits admits : Bool} {e : Failure}
    (h : insertCheck fits admits = .error e) :
    (e = dataError ↔ fits = false) ∧ (fits = true → admits = false) := by
  unfold insertCheck at h
  cases fits <;> cases admits <;> cases h <;> simp [dataError]

theorem updateCheck_eq_error {fits there : Bool} {e : Failure}
    (h : ManagementOp.updateCheck fits there = .error e) :
    e = dataError ↔ fits = false := by
  unfold ManagementOp.updateCheck at h
  cases fits <;> cases there <;> cases h <;> simp [dataError]

theorem updateCheck_eq_ok {fits there : Bool} (h : ManagementOp.updateCheck fits there = .ok ()) :
    fits = true := by
  unfold ManagementOp.updateCheck at h
  cases fits with
  | true => rfl
  | false => simp at h

theorem Failure.IsApp.ne_dataError {e : Failure} (h : e.IsApp) : e ≠ dataError := by
  obtain ⟨a, rfl⟩ := h
  simp [dataError]

theorem keptVarchar_iff {n : Nat} {s : String} : keptVarchar n s = true ↔ s.length ≤ n ∧
    hasNul s = false := by
  simp [keptVarchar, hasNul]

/-- The call returns a row whose values fit, or raises something else than a data error. -/
def Stores {α : Type} (fits : α → Prop) : Except Failure α → Prop
  | .ok a => fits a
  | .error e => e ≠ dataError

/-! ### The length of a slug -/

/-- `base`, `base-2`, `base-3`, … -/
def IsSlugCandidate (base slug : String) : Prop := slug = base ∨ ∃ n, 2 ≤ n ∧
    slug = slugCandidate base n

theorem length_slugCandidate (base : String) (n : Nat) :
    (slugCandidate base n).length = base.length + 1 + (Nat.toDigits 10 n).length := by
  rw [← String.length_toList, toList_slugCandidate, List.length_append, List.length_cons,
    String.length_toList]
  omega

theorem length_slugCandidate_le (base : String) {n m : Nat} (h : n ≤ m) :
    (slugCandidate base n).length ≤ (slugCandidate base m).length := by
  have hpos : 0 < (Nat.toDigits 10 m).length := Nat.length_toDigits_pos
  have hlt : m < 10 ^ (Nat.toDigits 10 m).length :=
    (Nat.length_toDigits_le_iff (by decide) hpos).1 (le_refl _)
  have hle := (Nat.length_toDigits_le_iff (b := 10) (by decide) hpos).2 (h.trans_lt hlt)
  rw [length_slugCandidate, length_slugCandidate]
  omega

/-- The assigned slug is short if a free candidate is. -/
theorem SlugAssigned.length_le_iff {taken : Finset String} {base slug : String}
    (h : SlugAssigned taken base slug) {n : Nat} :
    slug.length ≤ n ↔ ∃ s, IsSlugCandidate base s ∧ s ∉ taken ∧ s.length ≤ n := by
  constructor
  · intro hlen
    refine ⟨slug, ?_, h.free, hlen⟩
    rcases h.least with heq | ⟨-, m, hm, heq, -⟩
    · exact .inl heq
    · exact .inr ⟨m, hm, heq⟩
  · rintro ⟨s, hs, hfree, hlen⟩
    rcases h.least with rfl | ⟨htaken, m, -, rfl, hbefore⟩
    · rcases hs with rfl | ⟨k, -, rfl⟩
      · exact hlen
      · rw [length_slugCandidate] at hlen
        omega
    · rcases hs with rfl | ⟨k, hk, rfl⟩
      · exact absurd htaken hfree
      · have hle : m ≤ k := Nat.le_of_not_lt fun hlt => hfree (hbefore k hk hlt)
        exact (length_slugCandidate_le base hle).trans hlen

theorem IsSlug.hasNul {slug : String} (h : IsSlug slug) : hasNul slug = false :=
  (keptVarchar_iff.1 (h.fits (le_refl _))).2

/-! ### The calls -/

variable {cfg : Config} {s : State managementTables.backend} {envs : Nat → Env PlatformInput}

/-- The requested slug is taken. -/
def SlugConflict (slug : Option String) (taken : Finset String) : Prop :=
  ∃ slug', slug = some slug' ∧ slug' ∈ taken

/-- Some candidate for the slug is free and fits. -/
def ShortSlug (base : String) (taken : Finset String) : Prop := ∃ slug, IsSlugCandidate base slug ∧
    slug ∉ taken ∧ slug.length ≤ 120

theorem SlugAssigned.fits_iff {taken : Finset String} {base slug : String}
    (h : SlugAssigned taken base slug) :
    keptVarchar 120 slug = true ↔ ShortSlug base taken := by
  rw [keptVarchar_iff, and_iff_left h.isSlug.hasNul]
  exact h.length_le_iff

theorem addMember_ne_dataError {m : OrganizationMember} {db : OrgDb} {e : Failure}
    (h : (OrgOp.addMember m).check db = .error e) :
    e ≠ dataError := by
  unfold OrgOp.check at h
  dsimp only at h
  split at h <;> cases h
  simp [dataError]

theorem stores_organization (p : OrganizationCreate) (owner : User) :
    Stores (fun org => keptVarchar 200 org.name = true ∧ keptVarchar 120 org.slug = true)
      (scope (OrganizationService.createOrganization cfg owner p.name p.slug) envs s).1 ↔
    SlugConflict p.slug s.db.organizationSlugs ∨
      hasNul p.name = false ∧
          ShortSlug (slugify cfg (slugOr p.slug p.name)) s.db.organizationSlugs := by
  by_cases hfree : ∀ slug', p.slug = some slug' → ∀ o ∈ s.db.orgs.organizations.rows, o.slug ≠ slug'
  · have hno : ¬ SlugConflict p.slug s.db.organizationSlugs := by
      rintro ⟨slug', heq, hmem⟩
      obtain ⟨o, ho, hslug⟩ := PlatformDb.mem_organizationSlugs.1 hmem
      exact hfree slug' heq o ho hslug
    have hfits : (hasNul p.name = false ∧
        ShortSlug (slugify cfg (slugOr p.slug p.name)) s.db.organizationSlugs) ↔
        (keptVarchar 200 p.name && keptVarchar 120
            (OrganizationService.slugOf cfg s.db p.slug p.name)) = true := by
      rw [Bool.and_eq_true, (OrganizationService.slugOf_assigned cfg s.db p.slug p.name).fits_iff,
        keptVarchar_iff,
        and_iff_right p.name_length.2]
    rw [or_iff_right hno, hfits]
    rcases (OrganizationService.createOrganization_free cfg owner p.name p.slug
      (s := ⟨s.db, [], s.world, envs⟩) hfree rfl).scope_flushed
      (fun _ _ h => h.2.choose_spec.2.dirty) with ⟨org, s', ⟨horg, m, hcreates, -⟩, hs⟩
        | ⟨e, s', ⟨id, -, hrefused⟩, hs⟩
    · have hcheck := (insertCheck_eq_ok.1 hcreates.admitted).1
      rw [hs]
      refine iff_of_true (Bool.and_eq_true_iff.1 hcheck) ?_
      rw [horg] at hcheck
      exact hcheck
    · rw [hs]
      cases hrefused with
      | row h =>
        show e ≠ dataError ↔ _
        rw [ne_eq, (insertCheck_eq_error h).1, Bool.not_eq_false]
      | role h happ _ => exact iff_of_true happ.ne_dataError (insertCheck_eq_ok.1 h).1
      | member h m _ _ _ _ hm => exact iff_of_true (addMember_ne_dataError hm) (insertCheck_eq_ok.1 h).1
  · push Not at hfree
    obtain ⟨slug', heq, o, ho, hslug⟩ := hfree
    have hconflict : SlugConflict p.slug s.db.organizationSlugs :=
      ⟨slug', heq, PlatformDb.mem_organizationSlugs.2 ⟨o, ho, hslug⟩⟩
    rw [heq]
    rcases (OrganizationService.createOrganization_taken cfg owner (s := ⟨s.db, [], s.world, envs⟩)
      ho hslug).scope_flushed
      (fun _ _ => False.elim) with ⟨_, _, h, -⟩ | ⟨e, s', ⟨rfl, -⟩, hs⟩
    · exact h.elim
    · rw [hs]
      exact iff_of_true (Failure.IsApp.ne_dataError ⟨_, rfl⟩) (.inl (heq ▸ hconflict))

theorem stores_api (p : ApiCreate) (organizationId : Uuid) :
    Stores (fun api => keptVarchar 200 api.name = true ∧ keptVarchar 120 api.slug = true ∧
      keptVarchar 1000 api.description = true)
      (scope (ApiCatalogService.createApi cfg organizationId p.name p.slug p.description) envs s).1 ↔
    SlugConflict p.slug (s.db.apiSlugs organizationId) ∨ hasNul p.name = false ∧
      hasNul p.description = false ∧
      ShortSlug (slugify cfg (slugOr p.slug p.name)) (s.db.apiSlugs organizationId) := by
  by_cases hfree : ∀ slug', p.slug = some slug' → ∀ a ∈ s.db.apis.rows,
    a.organizationId = organizationId → a.slug ≠ slug'
  · have hno : ¬ SlugConflict p.slug (s.db.apiSlugs organizationId) := by
      rintro ⟨slug', heq, hmem⟩
      obtain ⟨a, ha, horg, hslug⟩ := PlatformDb.mem_apiSlugs.1 hmem
      exact hfree slug' heq a ha horg hslug
    have hfits : (hasNul p.name = false ∧ hasNul p.description = false ∧
        ShortSlug (slugify cfg (slugOr p.slug p.name)) (s.db.apiSlugs organizationId)) ↔
        (keptVarchar 200 p.name && keptVarchar 120
          (ApiCatalogService.slugOf cfg s.db organizationId p.slug p.name) &&
          keptVarchar 1000 p.description) = true := by
      rw [Bool.and_eq_true, Bool.and_eq_true,
        (ApiCatalogService.slugOf_assigned cfg s.db organizationId p.slug p.name).fits_iff,
        keptVarchar_iff, keptVarchar_iff, and_iff_right p.name_length.2,
        and_iff_right p.description_length, and_assoc]
      exact and_congr_right fun _ => and_comm
    rw [or_iff_right hno, hfits]
    rcases (ApiCatalogService.createApi_free cfg organizationId p.name p.slug p.description
      (s := ⟨s.db, [], s.world, envs⟩)
      hfree rfl).scope_flushed (fun _ _ h => h.2.2.2.dirty) with ⟨api, s', ⟨-, hapi, hcheck, -⟩,
        hs⟩ | ⟨e, s', ⟨id, -, hcheck⟩, hs⟩
    · have hrow := (insertCheck_eq_ok.1 hcheck).1
      rw [hs]
      refine iff_of_true ?_ ?_
      · rwa [Bool.and_eq_true, Bool.and_eq_true, and_assoc] at hrow
      · rw [hapi] at hrow
        exact hrow
    · rw [hs]
      show e ≠ dataError ↔ _
      rw [ne_eq, (insertCheck_eq_error hcheck).1, Bool.not_eq_false]
  · push Not at hfree
    obtain ⟨slug', heq, a, ha, horg, hslug⟩ := hfree
    have hconflict : SlugConflict p.slug (s.db.apiSlugs organizationId) :=
      ⟨slug', heq, PlatformDb.mem_apiSlugs.2 ⟨a, ha, horg, hslug⟩⟩
    rw [heq]
    rcases (ApiCatalogService.createApi_taken cfg (s := ⟨s.db, [], s.world, envs⟩) ha horg
      hslug).scope_flushed
      (fun _ _ => False.elim) with ⟨_, _, h, -⟩ | ⟨e, s', ⟨rfl, -⟩, hs⟩
    · exact h.elim
    · rw [hs]
      exact iff_of_true (Failure.IsApp.ne_dataError ⟨_, rfl⟩) (.inl (heq ▸ hconflict))

/-- No API of the id in the organization: the call is refused. -/
def NoApi (db : PlatformDb) (organizationId apiId : Uuid) : Prop :=
  ∀ api, ¬ db.ApiOf organizationId apiId api

namespace Management.ApiCatalogService

variable {s : Session managementTables.backend} {organizationId apiId : Uuid}

/-- How a call ends whose values fit their columns if `fits`, unless it is refused for `refusal`. -/
def Columns {α : Type} (s : Session managementTables.backend) (organizationId apiId : Uuid)
    (refusal : Prop) (fits : Bool) (stored : α → Prop) (p : Management α) : Prop :=
  p.Ends (fun a s' => s'.dirty = [] ∧ fits = true ∧ stored a)
    (fun e _ => e.IsApp ∧ (NoApi s.db organizationId apiId ∨ refusal) ∨
      ¬ NoApi s.db organizationId apiId ∧ ¬ refusal ∧ (e = dataError ↔ fits = false)) s

theorem Columns.stores {α : Type} {refusal : Prop} {fits : Bool} {stored : α → Prop}
    {p : Management α} {s : State managementTables.backend} {envs : Nat → Env PlatformInput}
    (h : Columns ⟨s.db, [], s.world, envs⟩ organizationId apiId refusal fits stored p) :
    Stores stored (scope p envs s).1 ↔ NoApi s.db organizationId apiId ∨ refusal ∨ fits = true := by
  rcases h.scope_flushed (fun _ _ h => h.1) with ⟨a, s', ⟨-, hfits, ha⟩, hs⟩ | ⟨e, s', he, hs⟩
  · rw [hs]
    exact iff_of_true ha (.inr (.inr hfits))
  · rw [hs]
    rcases he with ⟨happ, hrefused⟩ | ⟨hapi, hrefusal, he⟩
    · exact iff_of_true happ.ne_dataError (or_assoc.1 (.inl hrefused))
    · show e ≠ dataError ↔ _
      rw [or_iff_right hapi, or_iff_right hrefusal, ne_eq, he, Bool.not_eq_false]

theorem addVersion_columns (p : ApiVersionCreate) (hd : s.dirty = []) :
    Columns s organizationId apiId
      (∃ v ∈ s.db.apiVersions.rows, v.apiId = apiId ∧ v.version = p.version)
      (keptVarchar 40 p.version && keptVarchar 2048 p.upstreamBaseUrl)
      (fun v => keptVarchar 40 v.version = true ∧ keptVarchar 2048 v.upstreamBaseUrl = true)
      (addVersion organizationId apiId p.version p.upstreamBaseUrl p.isActive) := by
  refine ((getApi_ends organizationId apiId s).mono (fun _ _ h => h)
    fun e _ h => .inl ⟨h.2.1, .inl h.2.2⟩).bind ?_
  rintro api s' ⟨hs, hapi⟩
  rw [hs]
  have hno : ¬ NoApi s.db organizationId apiId := fun h => h api hapi
  refine Platform.query_bind ?_
  cases hone : s.db.apiVersions.one fun v => v.apiId == apiId && v.version == p.version with
  | some v =>
    have hv := Table.pred_of_one hone
    rw [Bool.and_eq_true, beq_iff_eq, beq_iff_eq] at hv
    exact .inl ⟨⟨_, rfl⟩, .inr ⟨v, Table.mem_of_one hone, hv⟩⟩
  | none =>
    have hnone : ¬ ∃ v ∈ s.db.apiVersions.rows, v.apiId = apiId ∧ v.version = p.version := by
      rintro ⟨v, hv, hid, hversion⟩
      exact Table.one_eq_none.1 hone v hv (by simp [hid, hversion])
    refine (uuid_ends s).bind fun id s₁ ⟨_, _, h₁⟩ => ?_
    refine Prog.Ends.bind
      ((write_one_ends (by rw [h₁.dirty, hd])).mono (fun _ _ h => h) fun e _ he => ?_)
        fun _ s₂ ⟨hcheck, h₂⟩ => ?_
    · exact .inr ⟨hno, hnone, (insertCheck_eq_error he).1⟩
    · have hfits := (insertCheck_eq_ok.1 hcheck).1
      exact ⟨h₂.dirty, hfits, Bool.and_eq_true_iff.1 hfits⟩

theorem setRateLimit_columns (algorithm : RateLimitAlgorithm) (spec : RateLimitSpec) (hd : s.dirty = [])
    (hstored : ∀ r ∈ s.db.rateLimitRules.rows, r.spec.fits = true) :
    Columns s organizationId apiId False spec.fits (fun rule => rule.spec.fits = true)
        (setRateLimit organizationId apiId algorithm spec) := by
  refine ((getApi_ends organizationId apiId s).mono (fun _ _ h => h)
    fun e _ h => .inl ⟨h.2.1, .inl h.2.2⟩).bind ?_
  rintro api s' ⟨hs, hapi⟩
  rw [hs]
  have hno : ¬ NoApi s.db organizationId apiId := fun h => h api hapi
  refine Platform.query_bind ?_
  cases hone : s.db.rateLimitRules.one fun r => r.apiId == apiId with
  | none =>
    refine (uuid_ends s).bind fun id s₁ ⟨_, _, h₁⟩ => ?_
    refine Prog.Ends.bind
      ((write_one_ends (by rw [h₁.dirty, hd])).mono (fun _ _ h => h) fun e _ he => ?_)
        fun _ s₂ ⟨hcheck, h₂⟩ => ?_
    · exact .inr ⟨hno, not_false, (insertCheck_eq_error he).1⟩
    · have hfits := (insertCheck_eq_ok.1 hcheck).1
      exact ⟨h₂.dirty, hfits, hfits⟩
  | some rule =>
    dsimp only
    split
    · refine (set_ends _ s).bind fun _ s₁ h₁ => ?_
      rw [hd] at h₁
      refine Prog.Ends.bind
        ((flush_one_ends (T := managementTables) h₁.dirty).mono (fun _ _ h => h) fun e _ he => ?_)
        fun _ s₂ ⟨hcheck, h₂⟩ => ?_
      · exact .inr ⟨hno, not_false, updateCheck_eq_error he⟩
      · have hfits := updateCheck_eq_ok hcheck
        exact ⟨h₂.dirty, hfits, hfits⟩
    · rename_i hsame
      have hfits : spec.fits = true := by
        have hrule := hstored rule (Table.mem_of_one hone)
        rw [← not_not.1 hsame] at hrule
        exact hrule
      exact (flush_ends_nil hd).bind fun _ s₁ h₁ => ⟨h₁.dirty, hfits, hfits⟩

/-! ### The quotas -/

theorem mem_quotas_deleteQuotas {q : Quota} {db : PlatformDb} (removed : List Quota) :
    q ∈ (removed.foldl (fun db r => db.deleteQuota r.id) db).quotas.rows ↔ q ∈ db.quotas.rows ∧
        ∀ r ∈ removed, q.id ≠ r.id := by
  induction removed generalizing db with
  | nil => simp
  | cons r removed ih =>
    rw [List.foldl_cons, ih, List.forall_mem_cons, ← and_assoc]
    refine and_congr_left fun _ => ?_
    show q ∈ (db.quotas.delete fun q => q.id == r.id).rows ↔ _
    rw [Table.mem_delete]
    simp

theorem hasApi_deleteQuotas (db : PlatformDb) (id : Uuid) (removed : List Quota) :
    (removed.foldl (fun db r => db.deleteQuota r.id) db).hasApi id = db.hasApi id := by
  induction removed generalizing db with
  | nil => rfl
  | cons r removed ih => exact ih (db.deleteQuota r.id)

/-- There is room for quotas of the API with these periods. -/
structure Room (s : Session managementTables.backend) (apiId : Uuid)
    (periods : List QuotaPeriod) : Prop where
  api : s.db.hasApi apiId = true
  below : ∀ q ∈ s.db.quotas.rows, q.id < s.world.supply
  free : ∀ q ∈ s.db.quotas.rows, q.apiId = apiId → q.period ∉ periods

theorem Room.admits {periods : List QuotaPeriod} (h : Room s apiId periods) {id : Uuid}
    (hid : s.world.supply ≤ id) {period : QuotaPeriod} (hperiod : period ∈ periods) (n : Int) :
        s.db.quotas.admits ⟨id, apiId, period, n⟩ = true := by
  refine Table.admits_iff.2 fun q hq hclash => ?_
  rcases Quota.clash_iff.1 hclash with hsame | ⟨hapi, hsame⟩
  · exact absurd hsame ((h.below q hq).trans_le hid).ne
  · have hperiod' : q.period = period := hsame
    exact h.free q hq hapi (hperiod' ▸ hperiod)

/-- With room for all of them, the quotas are refused only by the column of their count. -/
theorem addQuotas_columns (quotas : List (QuotaPeriod × Int)) (hd : s.dirty = [])
    (hnodup : (quotas.map (·.1)).Nodup)
    (hroom : Room s apiId (quotas.map (·.1))) : (addQuotas apiId quotas).Ends
      (fun created s' => s'.dirty = [] ∧ (∀ q ∈ quotas, fitsSigned q.2 = true) ∧ ∀ q ∈ created,
        fitsSigned q.maxRequests = true)
      (fun e _ => e = dataError ∧ ¬ ∀ q ∈ quotas, fitsSigned q.2 = true) s := by
  induction quotas generalizing s with
  | nil => exact ⟨hd, by simp, by simp⟩
  | cons item quotas ih =>
    obtain ⟨period, n⟩ := item
    obtain ⟨hnew, hnodup⟩ := List.nodup_cons.1 hnodup
    refine (uuid_ends s).bind fun id s₁ ⟨hid, hissued, h₁⟩ => ?_
    have hadmits : s₁.db.quotas.admits ⟨id, apiId, period, n⟩ = true := by
      rw [h₁.db]
      exact hroom.admits hid List.mem_cons_self n
    have hapi : s₁.db.hasApi apiId = true := by
      rw [h₁.db]
      exact hroom.api
    refine Prog.Ends.bind
      ((write_one_ends (by rw [h₁.dirty, hd])).mono (fun _ _ h => h) fun e _ he => ?_)
        fun _ s₂ ⟨hcheck, h₂⟩ => ?_
    · have hadmitted : (s₁.db.hasApi apiId && s₁.db.quotas.admits ⟨id, apiId, period, n⟩) = true := by
        rw [hapi, hadmits]; rfl
      obtain ⟨hdata, hfits⟩ := insertCheck_eq_error he
      have hno : fitsSigned n = false := by
        by_contra hyes
        exact absurd (hfits (Bool.not_eq_false _ ▸ hyes)) (by rw [hadmitted]; decide)
      exact ⟨hdata.2 hno, fun hall => absurd (hall _ List.mem_cons_self) (by rw [hno]; decide)⟩
    have hfits : fitsSigned n = true := (insertCheck_eq_ok.1 hcheck).1
    have hroom' : Room s₂ apiId (quotas.map (·.1)) := by
      have hrows : s₂.db.quotas.rows = s.db.quotas.rows ++ [⟨id, apiId, period, n⟩] := by
        rw [h₂.db]
        refine (Table.rows_insert hadmits).trans ?_
        rw [h₁.db]
      refine ⟨by rw [h₂.db]; exact hapi, fun q hq => ?_, fun q hq => ?_⟩
      · rw [hrows] at hq
        rcases List.mem_append.1 hq with hq | hq
        · exact (hroom.below q hq).trans_le (h₁.trans h₂).world.supply
        · rw [List.mem_singleton.1 hq]
          exact hissued.trans_le h₂.world.supply
      · rw [hrows] at hq
        rcases List.mem_append.1 hq with hq | hq
        · exact fun hapi hmem => hroom.free q hq hapi (List.mem_cons_of_mem _ hmem)
        · rw [List.mem_singleton.1 hq]
          exact fun _ => hnew
    refine ((ih h₂.dirty hnodup hroom').mono (fun _ _ h => h) fun e _ ⟨he, hno⟩ =>
      ⟨he, fun hall => hno fun q hq => hall q (List.mem_cons_of_mem _ hq)⟩).bind
        fun created s₃ ⟨hd₃, hall, hcreated⟩ => ?_
    exact ⟨hd₃, List.forall_mem_cons.2 ⟨hfits, hall⟩, List.forall_mem_cons.2 ⟨hfits, hcreated⟩⟩

theorem setQuotas_columns (p : QuotaConfig) (hd : s.dirty = [])
    (hbelow : s.db.CatalogBelow s.world.supply) :
    Columns s organizationId apiId False (p.quotas.all fun q => fitsSigned q.2)
      (fun created => ∀ q ∈ created, fitsSigned q.maxRequests = true)
          (setQuotas organizationId apiId p.quotas) := by
  refine ((getApi_ends organizationId apiId s).mono (fun _ _ h => h)
    fun e _ h => .inl ⟨h.2.1, .inl h.2.2⟩).bind ?_
  rintro api s' ⟨hs, hapi⟩
  rw [hs]
  have hno : ¬ NoApi s.db organizationId apiId := fun h => h api hapi
  refine (listForApi_ends apiId hd).bind
    fun existing s₁ ⟨hexisting, h₁⟩ => (deleteQuotas_ends existing h₁.dirty).bind fun _ s₂ h₂ => ?_
  rw [h₁.db] at h₂
  -- the quotas of the API are gone
  have hroom : Room s₂ apiId (p.quotas.map (·.1)) := by
    have hrows : ∀ q ∈ s₂.db.quotas.rows, q ∈ s.db.quotas.rows ∧ ∀ r ∈ existing, q.id ≠ r.id :=
        fun q hq => by
      rw [h₂.db] at hq
      exact (mem_quotas_deleteQuotas existing).1 hq
    refine ⟨?_, fun q hq => ?_, fun q hq hq' => ?_⟩
    · rw [h₂.db, hasApi_deleteQuotas]
      exact List.any_eq_true.2 ⟨api, hapi.1, beq_iff_eq.2 hapi.2.1⟩
    · exact (hbelow.quotas q (hrows q hq).1).trans_le (h₁.trans h₂).world.supply
    · exact absurd rfl ((hrows q hq).2 q ((hexisting q).2 ⟨(hrows q hq).1, hq'⟩))
  refine (addQuotas_columns p.quotas h₂.dirty p.uniquePeriods hroom).mono
    (fun created s₃ ⟨hd₃, hall, hcreated⟩ => ?_)
    fun e _ ⟨he, hall⟩ => .inr ⟨hno, not_false, ?_⟩
  · exact ⟨hd₃, List.all_eq_true.2 hall, hcreated⟩
  · refine iff_of_true he ?_
    rw [← Bool.not_eq_true, List.all_eq_true]
    exact hall

end Management.ApiCatalogService

theorem fitsSigned_of_pos {n : Int} (h : 0 < n) : fitsSigned n = true ↔ n < 2 ^ 31 := by
  unfold fitsSigned
  rw [decide_eq_true_iff]
  omega

theorem ApiVersionCreate.fits_iff (p : ApiVersionCreate) :
    (keptVarchar 40 p.version && keptVarchar 2048 p.upstreamBaseUrl) = true ↔
        p.upstreamBaseUrl.length ≤ 2048 := by
  have hnul : hasNul p.version = false := by
    unfold hasNul
    rw [← Bool.not_eq_true, List.contains_iff_mem]
    exact fun hmem => absurd (p.version_pattern _ hmem) (by decide)
  rw [Bool.and_eq_true, keptVarchar_iff, keptVarchar_iff]
  simp only [hnul, p.version_length.2, p.url_text, and_true, true_and]

theorem RateLimitConfig.fits_iff (p : RateLimitConfig) :
    p.spec.fits = true ↔ p.spec.requests < 2 ^ 31 ∧ ∀ b, p.spec.burst = some b → b < 2 ^ 31 := by
  have hwindow : fitsSigned p.spec.windowSeconds = true :=
    (fitsSigned_of_pos p.valid.window_pos).2 (lt_of_le_of_lt p.window_le (by decide))
  unfold RateLimitSpec.fits
  rw [hwindow, Bool.and_true, Bool.and_eq_true, fitsSigned_of_pos p.valid.requests_pos]
  refine and_congr_right fun _ => ?_
  cases hburst : p.spec.burst with
  | none => simp
  | some b => simpa using fitsSigned_of_pos (p.valid.burst_pos b hburst)

/-- When an accepted payload is stored, or refused with another error than a data error. -/
theorem payloads_stored_iff (cfg : Config) (s : State managementTables.backend)
    (envs : Nat → Env PlatformInput) (hbelow : s.db.CatalogBelow s.world.supply)
    (hstored : ∀ r ∈ s.db.rateLimitRules.rows, r.spec.fits = true) :
    (∀ (p : OrganizationCreate) (owner : User),
      Stores (fun org => keptVarchar 200 org.name = true ∧ keptVarchar 120 org.slug = true)
        (scope (OrganizationService.createOrganization cfg owner p.name p.slug) envs s).1 ↔
      SlugConflict p.slug s.db.organizationSlugs ∨
        hasNul p.name = false ∧ ShortSlug (slugify cfg (slugOr p.slug p.name)) s.db.organizationSlugs) ∧
    (∀ (p : ApiCreate) (organizationId : Uuid),
      Stores (fun api => keptVarchar 200 api.name = true ∧ keptVarchar 120 api.slug = true ∧
        keptVarchar 1000 api.description = true)
        (scope (ApiCatalogService.createApi cfg organizationId p.name p.slug p.description) envs s).1 ↔
      SlugConflict p.slug (s.db.apiSlugs organizationId) ∨
        hasNul p.name = false ∧ hasNul p.description = false ∧
          ShortSlug (slugify cfg (slugOr p.slug p.name)) (s.db.apiSlugs organizationId)) ∧
    (∀ (p : ApiVersionCreate) (organizationId apiId : Uuid),
      Stores (fun v => keptVarchar 40 v.version = true ∧ keptVarchar 2048 v.upstreamBaseUrl = true)
        (scope (ApiCatalogService.addVersion organizationId apiId p.version p.upstreamBaseUrl
          p.isActive) envs s).1 ↔
      NoApi s.db organizationId apiId ∨
        (∃ v ∈ s.db.apiVersions.rows, v.apiId = apiId ∧ v.version = p.version) ∨
        p.upstreamBaseUrl.length ≤ 2048) ∧
    (∀ (p : QuotaConfig) (organizationId apiId : Uuid),
      Stores (fun created => ∀ q ∈ created, fitsSigned q.maxRequests = true)
        (scope (ApiCatalogService.setQuotas organizationId apiId p.quotas) envs s).1 ↔
      NoApi s.db organizationId apiId ∨ ∀ q ∈ p.quotas, q.2 < 2 ^ 31) ∧
    ∀ (p : RateLimitConfig) (organizationId apiId : Uuid),
      Stores (fun rule => rule.spec.fits = true)
        (scope (ApiCatalogService.setRateLimit organizationId apiId p.algorithm p.spec) envs s).1 ↔
      NoApi s.db organizationId apiId ∨
        p.spec.requests < 2 ^ 31 ∧ ∀ b, p.spec.burst = some b → b < 2 ^ 31 := by
  refine ⟨fun p owner => ?_,
    fun p organizationId => ?_, fun p organizationId apiId => ?_, fun p organizationId apiId => ?_,
    fun p organizationId apiId => ?_⟩
  · exact stores_organization p owner
  · exact stores_api p organizationId
  · rw [(ApiCatalogService.addVersion_columns p rfl).stores, p.fits_iff]
  · rw [(ApiCatalogService.setQuotas_columns p rfl hbelow).stores, false_or, List.all_eq_true]
    refine or_congr_right (forall₂_congr fun q hq => ?_)
    exact fitsSigned_of_pos (p.positive q hq)
  · rw [(ApiCatalogService.setRateLimit_columns p.algorithm p.spec rfl hstored).stores,
      false_or, p.fits_iff]

/-- The API `41` of organization `5`, with its daily quota. -/
def sampleCatalog : State managementTables.backend := ⟨sampleDailyDb, sampleGatewayWorld⟩

theorem sampleCatalog_below : sampleCatalog.db.CatalogBelow sampleCatalog.world.supply :=
  ⟨by decide, by decide, by decide, by decide, by decide, by decide⟩

theorem payloads_stored_iff_quota :
    Stores (fun created => ∀ q ∈ created, fitsSigned q.maxRequests = true)
    (scope (ApiCatalogService.setQuotas 5 41 [(.daily, 1000), (.monthly, 2 ^ 31 - 1)])
        (fun _ => sampleGatewayEnv 1) sampleCatalog).1 :=
  ((payloads_stored_iff sampleConfig sampleCatalog (fun _ => sampleGatewayEnv 1) sampleCatalog_below
    (by decide)).2.2.2.1
    ⟨[(.daily, 1000), (.monthly, 2 ^ 31 - 1)], by decide, by decide⟩ 5 41).2 (.inr (by decide))

def sampleQuotaConfig : QuotaConfig := ⟨[(.daily, 2 ^ 31)], by decide, by decide⟩

/-- A count of `2 ^ 31` is accepted by the schema and refused by the column. -/
theorem quota_count_refused :
    ¬ ∀ (s : State managementTables.backend) (envs : Nat → Env PlatformInput) (p : QuotaConfig)
    (organizationId apiId : Uuid), s.db.CatalogBelow s.world.supply →
      Stores (fun created => ∀ q ∈ created, fitsSigned q.maxRequests = true)
        (scope (ApiCatalogService.setQuotas organizationId apiId p.quotas) envs s).1 := by
  intro hall
  have hstores :=
    hall sampleCatalog (fun _ => sampleGatewayEnv 1) sampleQuotaConfig 5 41 sampleCatalog_below
  have hresult :
      (scope (ApiCatalogService.setQuotas 5 41 sampleQuotaConfig.quotas)
        (fun _ => sampleGatewayEnv 1) sampleCatalog).1 =
      .error dataError := by decide +kernel
  rw [hresult] at hstores
  exact hstores rfl

end TrafficPlatform
