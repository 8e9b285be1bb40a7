import Mathlib.Data.List.Rotate
import TrafficPlatform.Management.Keys

/-!
# What the catalog does

The services of the API catalog and the creation of an organization, run alone.
-/

namespace TrafficPlatform
open Kit

/-! ### The parts in the whole -/

section
variable {s s' : Session managementTables.backend} {α : Type}

theorem Reaches.of_platform {db : PlatformDb} {d d' : List PlatformOp}
    (h : Reaches (platformPart.session s []) db d (platformPart.session s' d'))
    (hd : s'.dirty = d'.map .platform) :
    Reaches s db (d.map .platform) s' := by
  have hdirty : d' = d := h.dirty
  exact ⟨h.db, hdirty ▸ hd, h.world, h.envs⟩

theorem Platform.embed_ends {p : Platform α} {Q : α → Session platformTables.backend → Prop}
    (hd : s.dirty = []) (h : p.Ends Q (fun _ _ => True) (platformPart.session s [])) : p.embed.Ends
      (fun a s' => ∃ d, s'.dirty = d.map ManagementOp.platform ∧ Q a (platformPart.session s' d))
          (fun _ _ => True) s :=
  any_error (Prog.Ends.embed (C := managementTables.backend) platformPart (d := []) hd h)

theorem Platform.embed_returns {p : Platform α} {Q : α → Session platformTables.backend → Prop}
    {E : Failure → Session managementTables.backend → Prop} (hd : s.dirty = [])
    (h : p.Ends Q (fun _ _ => False) (platformPart.session s [])) : p.embed.Ends
      (fun a s' => ∃ d, s'.dirty = d.map ManagementOp.platform ∧ Q a (platformPart.session s' d)) E
          s := by
  refine (Prog.Ends.embed (C := managementTables.backend) platformPart (d := []) hd h).mono
    (fun _ _ h => h) ?_
  rintro _ _ ⟨_, _, _, _, h⟩
  exact h.elim

theorem Platform.query_bind {β : Type} {q : PlatformDb → β} {k : β → Management α}
    {Q : α → Session managementTables.backend → Prop}
    {E : Failure → Session managementTables.backend → Prop} (h : (k (q s.db)).Ends Q E s) :
    (Platform.embed (.query q) >>= k).Ends Q E s := h

theorem Platform.queries_ends {p : Platform α} (hq : p.Queries) {P : α → Prop} {F : Failure → Prop}
    (h : p.Ends (fun a _ => P a) (fun e _ => F e) (platformPart.session s [])) :
    p.embed.Ends (fun a s' => s' = s ∧ P a) (fun e s' => s' = s ∧ F e) s :=
  (Prog.Queries.embed_ends (C := managementTables.backend) platformPart hq h).mono (fun _ _ => id)
    fun _ _ ⟨hs, _, he, h⟩ => ⟨hs, he ▸ h⟩

theorem Org.queries_ends {p : Org α} (hq : p.Queries) {P : α → Prop} {F : Failure → Prop}
    (h : p.Ends (fun a _ => P a) (fun e _ => F e) (orgPart.session s [])) :
    p.embed.Ends (fun a s' => s' = s ∧ P a) (fun e s' => s' = s ∧ F e) s :=
  (Prog.Queries.embed_ends (C := managementTables.backend) orgPart hq h).mono (fun _ _ => id)
    fun _ _ ⟨hs, _, he, h⟩ => ⟨hs, he ▸ h⟩

end

/-- The organization is new and fits in, with the membership of its owner. -/
structure Transition.Creates (t : Transition) (owner : Uuid) (org : Organization)
    (m : OrganizationMember) : Prop where
  id : t.world.Issues t.world' org.id
  organizationId : m.organizationId = org.id
  userId : m.userId = owner
  role : t.db.orgs.MemberHasRole m RoleName.owner.name
  admitted : (ManagementOp.addOrganization org).check t.db = .ok ()
  memberAdmitted : (OrgOp.addMember m).check (t.db.addOrganization org).orgs = .ok ()

/-- The version is there, and the API's. -/
def PlatformDb.HasVersion (db : PlatformDb) (apiId versionId : Uuid) : Prop :=
  ∃ v ∈ db.apiVersions.rows, v.id = versionId ∧ v.apiId = apiId

/-- What happened between the two sessions. -/
abbrev between (s s' : Session managementTables.backend) : Transition :=
  ⟨s.db, s.world, s.envs, s'.db, s'.world⟩

namespace Management

variable {s : Session managementTables.backend}

theorem authorize_ends (permission : Permission) (caller orgId : Uuid)
    (s : Session managementTables.backend) :
    (ManagementRequest.authorize permission caller orgId).Ends
      (fun m s' => s' = s ∧ s.db.orgs.Permits orgId caller permission ∧ m ∈ s.db.orgs.members.rows)
      (fun e s' => s' = s ∧ (s.db.orgs.BuiltIn → e.IsApp)) s :=
  Org.queries_ends (queries_authorize permission caller orgId)
    ((Organizations.authorize_ends permission caller orgId _).mono (fun _ _ h => h.2) fun _ _ h => h.2)

theorem write_one_ends {o : ManagementOp} (h : s.dirty = []) : (BaseRepository.write o).Ends
    (fun _ s' => o.check s.db = .ok () ∧ Reaches s (o.apply s.db) [] s')
        (fun e _ => o.check s.db = .error e) s := by
  refine (set_ends o s).bind fun _ s₁ h₁ => ?_
  rw [h] at h₁
  refine (flush_one_ends h₁.dirty).mono (fun _ s₂ h₂ => ?_) fun e _ he => ?_
  · rw [h₁.db] at h₂
    exact ⟨h₂.1, h₁.trans h₂.2⟩
  · rwa [h₁.db] at he

theorem write_ends {o : ManagementOp} (h : s.dirty = []) : (BaseRepository.write o).Ends
    (fun _ s' => o.check s.db = .ok () ∧ Reaches s (o.apply s.db) [] s') (fun _ _ => True) s :=
      any_error (write_one_ends h)

theorem add_ends {α : Type} {o : Uuid → ManagementOp} {a : Uuid → α} (h : s.dirty = []) : Prog.Ends (do
      let id ← uuid4
      BaseRepository.write (o id)
      return a id)
    (fun x s' => ∃ id, x = a id ∧ s.world.Issues s'.world id ∧ (o id).check s.db = .ok () ∧
      Reaches s ((o id).apply s.db) [] s')
    (fun _ _ => True) s := by
  refine (uuid_ends s).bind
    fun id s₁ ⟨hsupply, hissued, h₁⟩ => (write_ends (by rw [h₁.dirty, h])).bind
      fun _ s₂ ⟨hcheck, h₂⟩ => ?_
  rw [h₁.db] at hcheck h₂
  exact ⟨id, rfl, ⟨hsupply, hissued.trans_le h₂.world.supply⟩, hcheck, h₁.trans h₂⟩

namespace ApiCatalogService

theorem getApi_ends (organizationId apiId : Uuid) (s : Session managementTables.backend) :
    (getApi organizationId apiId).Ends (fun api s' => s' = s ∧ s.db.ApiOf organizationId apiId api)
      (fun e s' => s' = s ∧ e.IsApp ∧ ∀ api, ¬ s.db.ApiOf organizationId apiId api) s :=
  Platform.queries_ends (ApiKeys.queries_getApi organizationId apiId)
    ((ApiKeys.getApi_ends organizationId apiId _).mono (fun _ _ h => h.2) fun _ _ h => h.2)

/-- The slug that `_unique_slug` gives a new API. -/
def slugOf (cfg : Config) (db : PlatformDb) (organizationId : Uuid) (slug : Option String)
    (name : String) : String :=
  uniqueSlug (fun s => db.apis.rows.any fun a => a.slug == s && a.organizationId == organizationId)
    (slugify cfg (slugOr slug name)) (db.apis.rows.length + 1)

theorem createApi_taken (cfg : Config) {organizationId : Uuid} {name slug description : String}
    {a : Api} (ha : a ∈ s.db.apis.rows) (horg : a.organizationId = organizationId)
    (hslug : a.slug = slug) :
    (createApi cfg organizationId name (some slug) description).Ends (fun _ _ => False)
      (fun e s' => e =
          ErrorClass.conflictError.error "An API with this slug already exists in the organization."
              ∧ s' = s) s := by
  refine Prog.ends_query_bind ?_
  have hsome : (s.db.apis.one fun a => a.slug == slug && a.organizationId == organizationId).isSome
      = true :=
    List.find?_isSome.2 ⟨a, ha, by simp [horg, hslug]⟩
  dsimp only
  rw [if_pos hsome]
  exact ⟨rfl, rfl⟩

/-- With a free slug, or none: the API is created, or its row is refused. -/
theorem createApi_free (cfg : Config) (organizationId : Uuid) (name : String) (slug : Option String)
    (description : String)
    (hfree : ∀ slug', slug = some slug' → ∀ a ∈ s.db.apis.rows, a.organizationId = organizationId →
      a.slug ≠ slug')
    (hd : s.dirty = []) : (createApi cfg organizationId name slug description).Ends
      (fun api s' => s.world.Issues s'.world api.id ∧
        api = ⟨api.id, organizationId, name, slugOf cfg s.db organizationId slug name,
          description, true⟩ ∧
        (ManagementOp.addApi api).check s.db = .ok () ∧ Reaches s (s.db.addApi api) [] s')
      (fun e _ => ∃ id, s.world.supply ≤ id ∧
        (ManagementOp.addApi
          ⟨id, organizationId, name, slugOf cfg s.db organizationId slug name, description,
            true⟩).check s.db = .error e)
      s := by
  have finish : Prog.Ends (do
        let slug ← .query fun db : PlatformDb => slugOf cfg db organizationId slug name
        let id ← uuid4
        BaseRepository.write (.addApi { id, organizationId, name, slug, description, isActive := true })
        getApi organizationId id : Management Api)
      (fun api s' => s.world.Issues s'.world api.id ∧
        api = ⟨api.id, organizationId, name, slugOf cfg s.db organizationId slug name,
          description, true⟩ ∧
        (ManagementOp.addApi api).check s.db = .ok () ∧ Reaches s (s.db.addApi api) [] s')
      (fun e _ => ∃ id, s.world.supply ≤ id ∧
        (ManagementOp.addApi
          ⟨id, organizationId, name, slugOf cfg s.db organizationId slug name, description,
            true⟩).check s.db = .error e)
      s := by
    refine Prog.ends_query_bind ((uuid_ends s).bind fun id s₁ ⟨hsupply, hissued, h₁⟩ => ?_)
    have hwrite :=
      write_one_ends (s := s₁)
        (o := .addApi
          ⟨id, organizationId, name, slugOf cfg s.db organizationId slug name, description, true⟩)
      (by rw [h₁.dirty, hd])
    rw [h₁.db] at hwrite
    refine (hwrite.mono (fun _ _ h => h) fun e _ he => ⟨id, hsupply, he⟩).bind
      fun _ s₂ ⟨hcheck, h₂⟩ => ?_
    -- the new row is the one that is read back
    have hrow : s₂.db.ApiOf organizationId id
        ⟨id, organizationId, name, slugOf cfg s.db organizationId slug name, description, true⟩ :=
            by
      rw [h₂.db]
      exact ⟨(Table.mem_insert (Bool.and_eq_true_iff.1 (insertCheck_eq_ok.1 hcheck).2).2).2
        (.inr rfl), rfl, rfl⟩
    refine (getApi_ends organizationId id s₂).mono (fun api s' ⟨hs, hapi⟩ => ?_)
      fun e s' ⟨_, _, hnone⟩ => absurd hrow (hnone _)
    rw [hs]
    rw [Table.eq_of_clash hapi.1 hrow.1 (Api.clash_iff.2 (.inl (hapi.2.1.trans hrow.2.1.symm)))]
    exact ⟨⟨hsupply, hissued.trans_le h₂.world.supply⟩, rfl, hcheck, h₁.trans h₂⟩
  cases slug with
  | none => exact finish
  | some slug =>
    refine Prog.ends_query_bind ?_
    have hnone : ¬ (s.db.apis.one
        fun a => a.slug == slug && a.organizationId == organizationId).isSome = true := by
      intro hsome
      obtain ⟨a, ha, hp⟩ := List.find?_isSome.1 hsome
      rw [Bool.and_eq_true, beq_iff_eq, beq_iff_eq] at hp
      exact hfree slug rfl a ha hp.2 hp.1
    dsimp only
    rw [if_neg hnone]
    exact finish

theorem createApi_ends (cfg : Config) (organizationId : Uuid) (name : String) (slug : Option String)
    (description : String)
    (hd : s.dirty = []) : (createApi cfg organizationId name slug description).Ends
      (fun _ s' => ∃ api : Api, api.organizationId = organizationId ∧ s.world.Issues s'.world api.id ∧
        (ManagementOp.addApi api).check s.db = .ok () ∧ Reaches s (s.db.addApi api) [] s')
      (fun _ _ => True) s := by
  by_cases hfree : ∀ slug', slug = some slug' → ∀ a ∈ s.db.apis.rows,
    a.organizationId = organizationId → a.slug ≠ slug'
  · refine (any_error (createApi_free cfg organizationId name slug description hfree hd)).mono
      (fun api s' ⟨hid, heq, h⟩ => ?_) fun _ _ => id
    exact ⟨api, by rw [heq], hid, h⟩
  · push Not at hfree
    obtain ⟨slug', rfl, a, ha, horg, hslug⟩ := hfree
    exact (createApi_taken cfg ha horg hslug).mono (fun _ _ => False.elim) fun _ _ _ => trivial

theorem updateApi_ends (organizationId apiId : Uuid) (change : ApiChange) (hd : s.dirty = []) :
    (updateApi organizationId apiId change).Ends
      (fun _ s' => (∃ api, s.db.ApiOf organizationId apiId api) ∧
        (Reaches s s.db [] s' ∨ Reaches s s.db [.changeApi apiId change] s')) (fun _ _ => True) s := by
  refine (any_error (getApi_ends organizationId apiId s)).bind ?_
  rintro api s' ⟨hs, hapi⟩
  rw [hs]
  split
  · refine (set_ends _ s).bind fun _ s₁ h₁ => ⟨⟨api, hapi⟩, .inr ?_⟩
    rw [hd, hapi.2.1] at h₁
    exact h₁
  · exact ⟨⟨api, hapi⟩, .inl (hd ▸ Reaches.refl s)⟩

theorem deleteApi_ends (organizationId apiId : Uuid) (hd : s.dirty = []) :
    (deleteApi organizationId apiId).Ends
    (fun _ s' => (∃ api, s.db.ApiOf organizationId apiId api) ∧
        Reaches s (s.db.deleteApi apiId) [] s') (fun _ _ => True) s := by
  refine (any_error (getApi_ends organizationId apiId s)).bind ?_
  rintro api s' ⟨hs, hapi⟩
  rw [hs]
  refine (write_ends hd).mono (fun _ s₁ h₁ => ⟨⟨api, hapi⟩, ?_⟩) fun _ _ h => h
  rw [hapi.2.1] at h₁
  exact h₁.2

theorem addVersion_ends (organizationId apiId : Uuid) (version upstreamBaseUrl : String)
    (isActive : Bool) (hd : s.dirty = []) :
    (addVersion organizationId apiId version upstreamBaseUrl isActive).Ends
      (fun v s' => (∃ api, s.db.ApiOf organizationId apiId api) ∧ v.apiId = apiId ∧
        s.world.Issues s'.world v.id ∧
        (ManagementOp.addApiVersion v).check s.db = .ok () ∧ Reaches s (s.db.addApiVersion v) [] s')
      (fun _ _ => True) s := by
  refine (any_error (getApi_ends organizationId apiId s)).bind ?_
  rintro api s' ⟨hs, hapi⟩
  rw [hs]
  refine (any_error (Platform.queries_ends (Prog.queries_query _) (Prog.ends_true _ _))).bind ?_
  rintro existing s' ⟨hs, -⟩
  rw [hs]
  split
  · trivial
  · refine (add_ends hd).mono ?_ fun _ _ h => h
    rintro _ s₁ ⟨id, rfl, hid, hcheck, h₁⟩
    exact ⟨⟨api, hapi⟩, rfl, hid, hcheck, h₁⟩

theorem deleteVersion_ends (organizationId apiId versionId : Uuid) (hd : s.dirty = []) :
    (deleteVersion organizationId apiId versionId).Ends
      (fun _ s' => (∃ api, s.db.ApiOf organizationId apiId api) ∧ s.db.HasVersion apiId versionId ∧
        Reaches s (s.db.deleteApiVersion versionId) [] s')
      (fun _ _ => True) s := by
  refine (any_error (getApi_ends organizationId apiId s)).bind ?_
  rintro api s' ⟨hs, hapi⟩
  rw [hs]
  refine Prog.ends_query_bind ?_
  cases hone : s.db.apiVersions.one fun v => v.id == versionId with
  | none => trivial
  | some v =>
    have hid : v.id = versionId := by simpa using Table.pred_of_one hone
    dsimp only
    split
    · trivial
    · rename_i hv
      refine (write_ends hd).mono (fun _ s₁ h₁ => ?_) fun _ _ h => h
      rw [hid] at h₁
      exact ⟨⟨api, hapi⟩, ⟨v, Table.mem_of_one hone, hid, not_not.1 hv⟩, h₁.2⟩

theorem deleteQuotas_ends {E : Failure → Session managementTables.backend → Prop}
    (quotas : List Quota) (hd : s.dirty = []) :
    (deleteQuotas quotas).Ends
        (fun _ s' => Reaches s (quotas.foldl (fun db q => db.deleteQuota q.id) s.db) [] s') E s :=
            by
  induction quotas generalizing s with
  | nil => exact hd ▸ Reaches.refl s
  | cons q quotas ih =>
    have hwrite : (BaseRepository.write (.deleteQuota q.id)).Ends
        (fun _ s' => (ManagementOp.deleteQuota q.id).check s.db = .ok () ∧
            Reaches s (s.db.deleteQuota q.id) [] s') E s :=
      (write_one_ends hd).mono (fun _ _ h => h) fun e _ he => by cases he
    refine hwrite.bind fun _ s₁ ⟨_, h₁⟩ => (ih h₁.dirty).mono (fun _ s₂ h₂ => ?_) fun _ _ h => h
    rw [h₁.db] at h₂
    exact h₁.trans h₂

theorem addQuotas_ends (apiId : Uuid) (quotas : List (QuotaPeriod × Int)) (hd : s.dirty = []) :
    (addQuotas apiId quotas).Ends
    (fun created s' => (∀ q ∈ created, q.apiId = apiId) ∧
      Reaches s (created.foldl PlatformDb.addQuota s.db) [] s')
    (fun _ _ => True) s := by
  induction quotas generalizing s with
  | nil => exact ⟨fun _ h => (List.not_mem_nil h).elim, hd ▸ Reaches.refl s⟩
  | cons item quotas ih =>
    refine (uuid_ends s).bind
      fun id s₁ ⟨_, _, h₁⟩ => (write_ends (by rw [h₁.dirty, hd])).bind fun _ s₂ ⟨_, h₂⟩ => ?_
    rw [h₁.db] at h₂
    refine (ih h₂.dirty).bind fun created s₃ ⟨hcreated, h₃⟩ => ?_
    rw [h₂.db] at h₃
    refine ⟨fun q hq => ?_, (h₁.trans h₂).trans h₃⟩
    rcases List.mem_cons.1 hq with rfl | hq
    · rfl
    · exact hcreated q hq

theorem listForApi_ends {E : Failure → Session managementTables.backend → Prop} (apiId : Uuid)
    (hd : s.dirty = []) :
    (Gateway.QuotaRepository.listForApi apiId).embed.Ends
      (fun quotas s' => (∀ q, q ∈ quotas ↔ q ∈ s.db.quotas.rows ∧ q.apiId = apiId) ∧
          Reaches s s.db [] s') E s := by
  refine (Platform.embed_returns
    (Q := fun quotas s' => (∀ q, q ∈ quotas ↔ q ∈ s.db.quotas.rows ∧ q.apiId = apiId) ∧
    Reaches (platformPart.session s []) s.db [] s') hd ?_).mono ?_ fun _ _ h => h
  · refine Prog.ends_bind_ok rfl (Prog.ends_ask ⟨fun q => ?_, rfl, rfl, .refl _, 1, fun _ => rfl⟩)
    dsimp only
    rw [List.mem_rotate, Table.mem_select, beq_iff_eq]
    rfl
  · rintro quotas s' ⟨d, hd', hquotas, hreach⟩
    exact ⟨hquotas, hreach.of_platform hd'⟩

theorem setQuotas_ends (organizationId apiId : Uuid) (quotas : List (QuotaPeriod × Int))
    (hd : s.dirty = []) :
    (setQuotas organizationId apiId quotas).Ends
      (fun _ s' => (∃ api, s.db.ApiOf organizationId apiId api) ∧ ∃ removed added : List Quota,
        (∀ q ∈ removed, q ∈ s.db.quotas.rows ∧ q.apiId = apiId) ∧ (∀ q ∈ added, q.apiId = apiId) ∧
          Reaches s (added.foldl PlatformDb.addQuota
            (removed.foldl (fun db q => db.deleteQuota q.id) s.db)) [] s')
      (fun _ _ => True) s := by
  refine (any_error (getApi_ends organizationId apiId s)).bind ?_
  rintro api s' ⟨hs, hapi⟩
  rw [hs]
  refine (listForApi_ends apiId hd).bind fun existing s₁ ⟨hexisting, h₁⟩ => ?_
  refine (deleteQuotas_ends existing h₁.dirty).bind
    fun _ s₂ h₂ => (addQuotas_ends apiId quotas h₂.dirty).mono ?_ fun _ _ h => h
  rintro created s₃ ⟨hcreated, h₃⟩
  rw [h₂.db, h₁.db] at h₃
  exact ⟨⟨api, hapi⟩, existing, created,
    fun q hq => (hexisting q).1 hq, hcreated, (h₁.trans h₂).trans h₃⟩

theorem setRateLimit_ends (organizationId apiId : Uuid) (algorithm : RateLimitAlgorithm)
    (spec : RateLimitSpec)
    (hd : s.dirty = []) : (setRateLimit organizationId apiId algorithm spec).Ends
      (fun _ s' => (∃ api, s.db.ApiOf organizationId apiId api) ∧
        ((∃ id, Reaches s
          (s.db.addRateLimitRule
            ⟨id, apiId, algorithm, spec.requests, spec.windowSeconds, spec.burst⟩) [] s') ∨
          (∃ rule ∈ s.db.rateLimitRules.rows, rule.apiId = apiId ∧
            Reaches s (s.db.setRateLimitRule rule.id algorithm spec) [] s') ∨
          Reaches s s.db [] s'))
      (fun _ _ => True) s := by
  refine (any_error (getApi_ends organizationId apiId s)).bind ?_
  rintro api s' ⟨hs, hapi⟩
  rw [hs]
  refine Platform.query_bind ?_
  cases hone : s.db.rateLimitRules.one fun r => r.apiId == apiId with
  | none =>
    dsimp only
    refine Prog.Ends.mono (add_ends (a := fun id =>
      (⟨id, apiId, algorithm, spec.requests, spec.windowSeconds, spec.burst⟩ : RateLimitRule)) hd)
        ?_ fun _ _ h => h
    rintro _ s₁ ⟨id, -, -, -, h₁⟩
    exact ⟨⟨api, hapi⟩, .inl ⟨id, h₁⟩⟩
  | some rule =>
    have hrule : rule.apiId = apiId := by simpa using Table.pred_of_one hone
    dsimp only
    split
    · refine (set_ends _ s).bind fun _ s₁ h₁ => ?_
      rw [hd] at h₁
      refine (flush_ends (T := managementTables) h₁.dirty).bind fun _ s₂ h₂ => ?_
      rw [h₁.db] at h₂
      exact ⟨⟨api, hapi⟩, .inr (.inl ⟨rule, Table.mem_of_one hone, hrule, h₁.trans h₂.2⟩)⟩
    · refine (flush_ends_nil hd).bind fun _ s₁ h₁ => ?_
      exact ⟨⟨api, hapi⟩, .inr (.inr h₁)⟩

end ApiCatalogService

theorem queries_roleId (role : RoleName) : (Organizations.OrganizationService.roleId role).Queries := by
  refine (Prog.queries_query _).bind fun row => ?_
  cases row <;> trivial

theorem roleId_ends (role : RoleName) (s : Session orgTables.backend) :
    (Organizations.OrganizationService.roleId role).Ends
    (fun id s' => s' = s ∧ ∃ r ∈ s.db.roles.rows, r.name = role.name ∧ r.id = id)
    (fun e s' => s' = s ∧ e.IsApp ∧ ∀ r ∈ s.db.roles.rows, r.name ≠ role.name) s := by
  refine (queries_roleId role).ends (Prog.ends_query_bind ?_)
  cases hone : s.db.roles.one fun r => r.name == role.name with
  | none => exact ⟨⟨_, rfl⟩, fun r hr hname => Table.one_eq_none.1 hone r hr (by simpa using hname)⟩
  | some r => exact ⟨r, Table.mem_of_one hone, by simpa using Table.pred_of_one hone, rfl⟩

namespace OrganizationService

/-- The slug that `_unique_slug` gives a new organization. -/
def slugOf (cfg : Config) (db : PlatformDb) (slug : Option String) (name : String) : String :=
  uniqueSlug (fun s => db.orgs.organizations.rows.any fun o => o.slug == s)
    (slugify cfg (slugOr slug name))
    (db.orgs.organizations.rows.length + 1)

theorem createOrganization_taken (cfg : Config) (owner : User) {name slug : String} {o : Organization}
    (ho : o ∈ s.db.orgs.organizations.rows) (hslug : o.slug = slug) :
    (createOrganization cfg owner name (some slug)).Ends (fun _ _ => False)
      (fun e s' => e =
          ErrorClass.conflictError.error "An organization with this slug already exists." ∧
              s' = s) s := by
  refine Prog.ends_query_bind ?_
  have hsome : (s.db.orgs.organizations.one fun o => o.slug == slug).isSome = true :=
    List.find?_isSome.2 ⟨o, ho, by simp [hslug]⟩
  dsimp only
  rw [if_pos hsome]
  exact ⟨rfl, rfl⟩

/-- The organization is refused, or the role of its owner is missing, or the membership is refused. -/
inductive Refused (s : Session managementTables.backend) (owner : User) (org : Organization) :
    Failure → Prop
  | row {e : Failure} (h : (ManagementOp.addOrganization org).check s.db = .error e) :
    Refused s owner org e
  | role {e : Failure} (h : (ManagementOp.addOrganization org).check s.db = .ok ()) (happ : e.IsApp)
    (hrole : ∀ r ∈ s.db.orgs.roles.rows, r.name ≠ RoleName.owner.name) : Refused s owner org e
  | member {e : Failure} (h : (ManagementOp.addOrganization org).check s.db = .ok ())
    (m : OrganizationMember)
    (hid : s.world.supply ≤ m.id) (horg : m.organizationId = org.id) (huser : m.userId = owner.id)
    (hrole : ∃ r ∈ s.db.orgs.roles.rows, r.id = m.roleId)
    (hcheck : (OrgOp.addMember m).check (s.db.addOrganization org).orgs = .error e) :
      Refused s owner org e

/-- With a free slug, or none. -/
theorem createOrganization_free (cfg : Config) (owner : User) (name : String) (slug : Option String)
    (hfree : ∀ slug', slug = some slug' → ∀ o ∈ s.db.orgs.organizations.rows, o.slug ≠ slug')
    (hd : s.dirty = []) :
    (createOrganization cfg owner name slug).Ends
      (fun org s' => org = ⟨org.id, name, slugOf cfg s.db slug name⟩ ∧ ∃ m,
        (between s s').Creates owner.id org m ∧
        Reaches s ((ManagementOp.org (.addMember m)).apply (s.db.addOrganization org)) [] s')
      (fun e _ => ∃ id, s.world.supply ≤ id ∧
          Refused s owner ⟨id, name, slugOf cfg s.db slug name⟩ e) s := by
  have finish : Prog.Ends (do
        let slug ← .query fun db : PlatformDb => slugOf cfg db slug name
        let id ← uuid4
        let org : Organization := { id, name, slug }
        BaseRepository.write (.addOrganization org)
        let roleId ← (Organizations.OrganizationService.roleId .owner).embed
        let memberId ← uuid4
        BaseRepository.write
          (.org (.addMember
            { id := memberId, organizationId := org.id, userId := owner.id, roleId }))
        return org : Management Organization)
      (fun org s' => org = ⟨org.id, name, slugOf cfg s.db slug name⟩ ∧ ∃ m,
        (between s s').Creates owner.id org m ∧
        Reaches s ((ManagementOp.org (.addMember m)).apply (s.db.addOrganization org)) [] s')
      (fun e _ => ∃ id, s.world.supply ≤ id ∧
          Refused s owner ⟨id, name, slugOf cfg s.db slug name⟩ e) s := by
    refine Prog.ends_query_bind ((uuid_ends s).bind fun id s₁ ⟨hsupply, hissued, h₁⟩ => ?_)
    have hwrite :=
      write_one_ends (s := s₁) (o := .addOrganization ⟨id, name, slugOf cfg s.db slug name⟩)
        (by rw [h₁.dirty, hd])
    rw [h₁.db] at hwrite
    refine (hwrite.mono (fun _ _ h => h) fun e _ he => ⟨id, hsupply, .row he⟩).bind
      fun _ s₂ ⟨hcheck, h₂⟩ => ?_
    have hroles : s₂.db.orgs.roles = s.db.orgs.roles := by
      rw [h₂.db]
      rfl
    refine Prog.Ends.bind ((Org.queries_ends (queries_roleId .owner)
      ((roleId_ends .owner (orgPart.session s₂ [])).mono (fun _ _ h => h.2) fun _ _ h => h.2)).mono
        (fun _ _ h => h) ?_) ?_
    · rintro e s' ⟨-, happ, hnone⟩
      refine ⟨id, hsupply, .role hcheck happ ?_⟩
      rw [← hroles]
      exact hnone
    rintro roleId s' ⟨hs, r, hr, hname, hrid⟩
    rw [hs]
    replace hr : r ∈ s.db.orgs.roles.rows := hroles ▸ hr
    refine (uuid_ends s₂).bind fun memberId s₃ ⟨hnew, _, h₃⟩ => ?_
    have hwrite' :=
      write_one_ends (s := s₃) (o := .org (.addMember ⟨memberId, id, owner.id, roleId⟩))
        (by rw [h₃.dirty, h₂.dirty])
    rw [h₃.db, h₂.db] at hwrite'
    have hold : s.world.supply ≤ memberId := (h₁.world.trans _ _ _ h₂.world).supply.trans hnew
    refine Prog.Ends.bind (hwrite'.mono (fun _ _ h => h) fun e _ he =>
      ⟨id, hsupply, .member hcheck ⟨memberId, id, owner.id, roleId⟩ hold rfl rfl ⟨r, hr, hrid⟩ he⟩)
        fun _ s₄ ⟨hcheck', h₄⟩ => ?_
    refine ⟨rfl, _, ⟨⟨hsupply, ?_⟩, rfl, rfl, ⟨r, hr, hrid, hname⟩, hcheck, hcheck'⟩,
      ((h₁.trans h₂).trans h₃).trans h₄⟩
    exact hissued.trans_le (h₂.world.trans _ _ _ (h₃.world.trans _ _ _ h₄.world)).supply
  cases slug with
  | none => exact finish
  | some slug =>
    refine Prog.ends_query_bind ?_
    have hnone : ¬ (s.db.orgs.organizations.one fun o => o.slug == slug).isSome = true := by
      intro hsome
      obtain ⟨o, ho, hp⟩ := List.find?_isSome.1 hsome
      exact hfree slug rfl o ho (beq_iff_eq.1 hp)
    dsimp only
    rw [if_neg hnone]
    exact finish

theorem createOrganization_ends (cfg : Config) (owner : User) (name : String) (slug : Option String)
    (hd : s.dirty = []) : (createOrganization cfg owner name slug).Ends
      (fun org s' => ∃ m, (between s s').Creates owner.id org m ∧
        Reaches s ((ManagementOp.org (.addMember m)).apply (s.db.addOrganization org)) [] s')
      (fun _ _ => True) s := by
  by_cases hfree : ∀ slug', slug = some slug' → ∀ o ∈ s.db.orgs.organizations.rows, o.slug ≠ slug'
  · exact (any_error (createOrganization_free cfg owner name slug hfree hd)).mono (fun _ _ h => h.2)
      fun _ _ => id
  · push Not at hfree
    obtain ⟨slug', rfl, o, ho, hslug⟩ := hfree
    exact (createOrganization_taken cfg owner ho hslug).mono (fun _ _ => False.elim)
      fun _ _ _ => trivial

end OrganizationService

end Management

end TrafficPlatform
