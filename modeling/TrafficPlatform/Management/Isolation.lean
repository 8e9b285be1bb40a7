import TrafficPlatform.Management.Runs
import TrafficPlatform.Organizations.LastOwner

/-!
# Tenants are isolated in the management

Ownership is checked in several places: by the membership that authorizes the caller, by the
organization of an API, by the API of a version or a key, and by the organization of a membership. A
request that returns has passed its checks, so that its writes are to rows of the organization named
in its path (`rowsOf_effect`); the foreign keys cascade only to rows of it because the organization
of a key is the one of its API (`KeysOwned`).
-/

namespace TrafficPlatform
open Kit

/-! ### The rows of an organization -/

/-- The rows that belong to an organization. -/
structure TenantRows where
  organizations : List Organization
  members : List OrganizationMember
  apis : List Api
  apiVersions : List ApiVersion
  quotas : List Quota
  rateLimitRules : List RateLimitRule
  apiKeys : List ApiKey

namespace PlatformDb

/-- The API belongs to the organization. -/
def ownsApi (db : PlatformDb) (orgId apiId : Uuid) : Bool :=
  (db.apis.select fun a => a.organizationId == orgId).any fun a => a.id == apiId

def rowsOf (db : PlatformDb) (orgId : Uuid) : TenantRows where
  organizations := db.orgs.organizations.select fun o => o.id == orgId
  members := db.orgs.members.select fun m => m.organizationId == orgId
  apis := db.apis.select fun a => a.organizationId == orgId
  apiVersions := db.apiVersions.select fun v => db.ownsApi orgId v.apiId
  quotas := db.quotas.select fun q => db.ownsApi orgId q.apiId
  rateLimitRules := db.rateLimitRules.select fun r => db.ownsApi orgId r.apiId
  apiKeys := db.apiKeys.select fun k => k.organizationId == orgId

/-- A key has the organization of its API. -/
def KeysOwned (db : PlatformDb) : Prop :=
  ∀ k ∈ db.apiKeys.rows, ∀ a ∈ db.apis.rows, a.id = k.apiId → a.organizationId = k.organizationId

variable {db db' : PlatformDb} {orgId other apiId : Uuid} {api : Api}

theorem ownsApi_iff : db.ownsApi orgId apiId = true ↔ ∃ a, db.ApiOf orgId apiId a := by
  simp only [ownsApi, List.any_eq_true, Table.mem_select, beq_iff_eq, ApiOf]
  constructor
  · rintro ⟨a, ⟨ha, horg⟩, hid⟩
    exact ⟨a, ha, hid, horg⟩
  · rintro ⟨a, ha, hid, horg⟩
    exact ⟨a, ⟨ha, horg⟩, hid⟩

theorem ApiOf.organization_eq {api' : Api} (h : db.ApiOf orgId apiId api)
    (h' : db.ApiOf other apiId api') : orgId = other := by
  have := Table.eq_of_clash h.1 h'.1 (Api.clash_iff.2 (.inl (h.2.1.trans h'.2.1.symm)))
  rw [← h.2.2, this, h'.2.2]

theorem ApiOf.not_ownsApi (h : db.ApiOf other apiId api) (hne : other ≠ orgId) :
    ¬ db.ownsApi orgId apiId = true := by
  intro ho
  obtain ⟨a, ha⟩ := ownsApi_iff.1 ho
  exact hne (h.organization_eq ha)

theorem ownsApi_congr
    (h : db'.apis.select (fun a => a.organizationId == orgId) = db.apis.select
      fun a => a.organizationId == orgId) :
    db'.ownsApi orgId = db.ownsApi orgId := by
  unfold ownsApi
  rw [h]

theorem rowsOf_congr
    (hapis : db'.apis.select (fun a => a.organizationId == orgId) = db.apis.select
      fun a => a.organizationId == orgId)
    (horgs : db'.orgs.organizations.select (fun o => o.id == orgId) = db.orgs.organizations.select
      fun o => o.id == orgId)
    (hmembers : db'.orgs.members.select (fun m => m.organizationId == orgId) =
      db.orgs.members.select fun m => m.organizationId == orgId)
    (hversions : db'.apiVersions.select (fun v => db.ownsApi orgId v.apiId) = db.apiVersions.select
      fun v => db.ownsApi orgId v.apiId)
    (hquotas : db'.quotas.select (fun q => db.ownsApi orgId q.apiId) = db.quotas.select
      fun q => db.ownsApi orgId q.apiId)
    (hrules : db'.rateLimitRules.select (fun r => db.ownsApi orgId r.apiId) =
      db.rateLimitRules.select fun r => db.ownsApi orgId r.apiId)
    (hkeys : db'.apiKeys.select (fun k => k.organizationId == orgId) = db.apiKeys.select
      fun k => k.organizationId == orgId) :
    db'.rowsOf orgId = db.rowsOf orgId := by
  unfold rowsOf
  rw [ownsApi_congr hapis, hapis, horgs, hmembers, hversions, hquotas, hrules, hkeys]

/-! ### Writes to the rows of another organization -/

/-- The foreign keys delete no row of the organization with APIs and keys of others. -/
theorem rowsOf_cascade {gone : Api → Bool} {lost : ApiKey → Bool} (hk : db.KeysOwned)
    (hgone : ∀ a ∈ db.apis.rows, a.organizationId = orgId → ¬ gone a = true)
    (hlost : ∀ k ∈ db.apiKeys.rows, k.organizationId = orgId → ¬ lost k = true) :
    (db.cascade gone lost).rowsOf orgId = db.rowsOf orgId := by
  have hof : ∀ id, db.ownsApi orgId id = true →
      ¬ (db.apis.rows.any fun a => gone a && a.id == id) = true := by
    intro id ho hany
    obtain ⟨a, ha, hid, horg⟩ := ownsApi_iff.1 ho
    obtain ⟨a', ha', hp⟩ := List.any_eq_true.1 hany
    simp only [Bool.and_eq_true, beq_iff_eq] at hp
    have hsame := Table.eq_of_clash ha ha' (Api.clash_iff.2 (.inl (hid.trans hp.2.symm)))
    exact hgone a ha horg (hsame ▸ hp.1)
  refine rowsOf_congr (Table.select_delete fun a ha h => hgone a ha (beq_iff_eq.1 h)) rfl rfl
    (Table.select_delete fun v _ => hof v.apiId) (Table.select_delete fun q _ => hof q.apiId)
    (Table.select_delete fun r _ => hof r.apiId) (Table.select_delete fun k hkey h hgoes => ?_)
  have horg := beq_iff_eq.1 h
  rcases Bool.or_eq_true_iff.1 hgoes with hl | hg
  · exact hlost k hkey horg hl
  · obtain ⟨a, ha, hp⟩ := List.any_eq_true.1 hg
    simp only [Bool.and_eq_true, beq_iff_eq] at hp
    exact hgone a ha ((hk k hkey a ha hp.2).trans horg) hp.1

theorem rowsOf_deleteApi (hk : db.KeysOwned) (h : db.ApiOf other apiId api) (hne : other ≠ orgId) :
    (db.deleteApi apiId).rowsOf orgId = db.rowsOf orgId := by
  refine rowsOf_cascade hk (fun a ha horg hid => ?_) fun _ _ _ => by simp
  exact hne (h.organization_eq ⟨ha, beq_iff_eq.1 hid, horg⟩)

theorem rowsOf_deleteOrganization (hk : db.KeysOwned) (hne : other ≠ orgId) :
    (db.deleteOrganization other).rowsOf orgId = db.rowsOf orgId := by
  refine (@rowsOf_cascade { db with orgs := db.orgs.deleteOrganization other } _ _ _ hk
    (fun a _ horg hid => ?_) fun k _ horg hid => ?_).trans ?_
  · exact hne ((beq_iff_eq.1 hid).symm.trans horg)
  · exact hne ((beq_iff_eq.1 hid).symm.trans horg)
  · refine rowsOf_congr rfl (Table.select_delete fun o _ h hid => ?_)
      (Table.select_delete fun m _ h hid => ?_) rfl rfl rfl rfl
    · exact hne ((beq_iff_eq.1 hid).symm.trans (beq_iff_eq.1 h))
    · exact hne ((beq_iff_eq.1 hid).symm.trans (beq_iff_eq.1 h))

theorem rowsOf_addOrganization {org : Organization} (hne : org.id ≠ orgId) :
    (db.addOrganization org).rowsOf orgId = db.rowsOf orgId :=
  rowsOf_congr rfl (Table.select_insert (by simpa using hne)) rfl rfl rfl rfl rfl

theorem rowsOf_org {o : OrgOp} (hk : db.KeysOwned) (h : o.Lawful other db.orgs) (hne : other ≠ orgId) :
    ((ManagementOp.org o).apply db).rowsOf orgId = db.rowsOf orgId := by
  -- a membership of the other organization is none of this one
  have hmember : ∀ {id : Uuid}, (∀ m ∈ db.orgs.members.rows, m.id = id → m.organizationId = other) →
      ∀ m ∈ db.orgs.members.rows,
      (m.id == id) = true → ¬ (m.organizationId == orgId) = true :=
    fun h m hm hid ho => hne ((h m hm (beq_iff_eq.1 hid)).symm.trans (beq_iff_eq.1 ho))
  cases o with
  | setOrganizationName id name =>
    refine rowsOf_congr rfl (Table.select_update fun o _ hid => ?_) rfl rfl rfl rfl rfl
    have hne : ¬ (o.id == orgId) = true :=
      fun he => hne (h.symm.trans ((beq_iff_eq.1 hid).symm.trans (beq_iff_eq.1 he)))
    exact ⟨hne, hne⟩
  | deleteOrganization id => exact rowsOf_deleteOrganization hk fun he => hne (h.symm.trans he)
  | addMember m =>
    show PlatformDb.rowsOf { db with orgs := db.orgs.addMember m } orgId = _
    unfold OrgDb.addMember
    split
    · exact rowsOf_congr rfl rfl
        (Table.select_insert fun he => hne (h.1.symm.trans (beq_iff_eq.1 he))) rfl rfl rfl rfl
    · rfl
  | setMemberRole id roleId =>
    show PlatformDb.rowsOf { db with orgs := db.orgs.setMemberRole id roleId } orgId = _
    unfold OrgDb.setMemberRole
    split
    · exact rowsOf_congr rfl rfl
        (Table.select_update fun m hm hid => ⟨hmember h.1 m hm hid, hmember h.1 m hm hid⟩)
          rfl rfl rfl rfl
    · rfl
  | deleteMember id =>
    exact rowsOf_congr rfl rfl (Table.select_delete fun m hm ho hid => hmember h m hm hid ho)
      rfl rfl rfl rfl
  | addNotification n => rfl

theorem rowsOf_addApi (hne : api.organizationId ≠ orgId) : (db.addApi api).rowsOf orgId =
    db.rowsOf orgId :=
  rowsOf_congr (Table.select_insert (by simpa using hne)) rfl rfl rfl rfl rfl rfl

theorem rowsOf_changeApi {c : ApiChange} (h : db.ApiOf other apiId api) (hne : other ≠ orgId) :
    (db.changeApi apiId c).rowsOf orgId = db.rowsOf orgId := by
  refine rowsOf_congr (Table.select_update fun a ha hid => ?_) rfl rfl rfl rfl rfl rfl
  have ho : ¬ (a.organizationId == orgId) = true := fun horg =>
    hne (h.organization_eq ⟨ha, beq_iff_eq.1 hid, beq_iff_eq.1 horg⟩)
  exact ⟨ho, ho⟩

theorem HasApiOf.not_ownsApi (h : db.HasApiOf other apiId) (hne : other ≠ orgId) :
    ¬ db.ownsApi orgId apiId = true :=
  h.elim fun _ h => h.not_ownsApi hne

theorem rowsOf_addApiKey {k : ApiKey} (h : k.organizationId ≠ orgId) :
    (db.addApiKey k).rowsOf orgId = db.rowsOf orgId := by
  unfold PlatformDb.addApiKey
  split
  · exact rowsOf_congr rfl rfl rfl rfl rfl rfl (Table.select_insert (by simpa using h))
  · rfl

theorem rowsOf_changeApiKey {k : ApiKey} {c : ApiKeyChange} (hk : k ∈ db.apiKeys.rows)
    (h : k.organizationId ≠ orgId) :
    (db.changeApiKey k.id c).rowsOf orgId = db.rowsOf orgId := by
  refine rowsOf_congr rfl rfl rfl rfl rfl rfl (Table.select_update fun k' hk' hid => ?_)
  rw [Table.eq_of_clash hk' hk (ApiKey.clash_iff.2 (.inl (beq_iff_eq.1 hid)))]
  exact ⟨fun ho => h (beq_iff_eq.1 ho), fun ho => h (beq_iff_eq.1 ho)⟩

/-- A write to rows of one organization leaves the rows of the others. -/
theorem rowsOf_write {cfg : Config} {t : Transition} {o : ManagementOp} (hk : db.KeysOwned)
    (h : o.Lawful cfg t other db)
    (hne : other ≠ orgId) : (o.apply db).rowsOf orgId = db.rowsOf orgId := by
  cases o with
  | org o => exact rowsOf_org hk h hne
  | platform o =>
    cases o with
    | addApiKey k => exact rowsOf_addApiKey (h.2.1 ▸ hne)
    | changeApiKey id c =>
      obtain ⟨k, hmem, rfl, ⟨api, hapi⟩, -⟩ := h
      refine rowsOf_changeApiKey hmem fun ho => hne ?_
      rw [← hapi.2.2, hk k hmem api hapi.1 hapi.2.1, ho]
    | addAuditLog r => rfl
    | addOutbox r => rfl
    | addRequestLog r => exact h.elim
    | incrementUsage i => exact h.elim
    | setOutbox id publishedAt attempts => exact h.elim
    | deleteDailyUsage id => exact h.elim
    | addDailyUsage r => exact h.elim
  | addOrganization org => exact rowsOf_addOrganization (h.symm ▸ hne)
  | addApi a => exact rowsOf_addApi (h.1.symm ▸ hne)
  | changeApi id c => exact h.elim fun _ hapi => rowsOf_changeApi hapi hne
  | deleteApi id => exact h.elim fun _ hapi => rowsOf_deleteApi hk hapi hne
  | addApiVersion v =>
    exact rowsOf_congr rfl rfl rfl (Table.select_insert (HasApiOf.not_ownsApi h hne)) rfl rfl rfl
  | deleteApiVersion id =>
    exact rowsOf_congr rfl rfl rfl
      (Table.select_delete fun v hv ho hid => (h v hv (beq_iff_eq.1 hid)).not_ownsApi hne ho) rfl
        rfl rfl
  | addQuota q =>
    exact rowsOf_congr rfl rfl rfl rfl (Table.select_insert (HasApiOf.not_ownsApi h hne)) rfl rfl
  | deleteQuota id =>
    exact rowsOf_congr rfl rfl rfl rfl
      (Table.select_delete fun q hq ho hid => (h q hq (beq_iff_eq.1 hid)).not_ownsApi hne ho) rfl
        rfl
  | addRateLimitRule r =>
    exact rowsOf_congr rfl rfl rfl rfl rfl (Table.select_insert (HasApiOf.not_ownsApi h hne)) rfl
  | setRateLimitRule id algorithm spec =>
    refine rowsOf_congr rfl rfl rfl rfl rfl (Table.select_update fun r hr hid => ?_) rfl
    have hnot := (h r hr (beq_iff_eq.1 hid)).not_ownsApi hne
    exact ⟨hnot, hnot⟩

end PlatformDb

/-! ### What every request keeps -/

namespace PlatformDb

variable {db db' : PlatformDb} {orgId apiId : Uuid}

theorem KeysOwned.of_le (h : db.KeysOwned)
    (hkeys : ∀ k ∈ db'.apiKeys.rows, ∃ k₀ ∈ db.apiKeys.rows, k₀.apiId = k.apiId ∧
      k₀.organizationId = k.organizationId)
    (hapis : ∀ a ∈ db'.apis.rows, ∃ a₀ ∈ db.apis.rows, a₀.id = a.id ∧
        a₀.organizationId = a.organizationId) : db'.KeysOwned := by
  intro k hk a ha hid
  obtain ⟨k₀, hk₀, hapi, horg⟩ := hkeys k hk
  obtain ⟨a₀, ha₀, hid₀, horg₀⟩ := hapis a ha
  rw [← horg, ← horg₀]
  exact h k₀ hk₀ a₀ ha₀ (by rw [hid₀, hid, hapi])

theorem KeysOwned.cascade (h : db.KeysOwned) (gone : Api → Bool) (lost : ApiKey → Bool) :
    (db.cascade gone lost).KeysOwned :=
  h.of_le (fun k hk => ⟨k, (Table.mem_delete.1 hk).1, rfl, rfl⟩)
    fun a ha => ⟨a, (Table.mem_delete.1 ha).1, rfl, rfl⟩

theorem KeysOwned.org (h : db.KeysOwned) (o : OrgOp) : ((ManagementOp.org o).apply db).KeysOwned := by
  cases o with
  | deleteOrganization id =>
    exact @KeysOwned.cascade { db with orgs := db.orgs.deleteOrganization id } h _ _
  | setOrganizationName id name => exact h
  | addMember m => exact h
  | setMemberRole id roleId => exact h
  | deleteMember id => exact h
  | addNotification n => exact h

theorem KeysOwned.addApi {a : Api} (h : db.KeysOwned)
    (hcheck : (ManagementOp.addApi a).check db = .ok ()) :
    (db.addApi a).KeysOwned := by
  have hadmits := (insertCheck_eq_ok.1 hcheck).2
  rw [Bool.and_eq_true, Table.admits_iff] at hadmits
  intro k hk a' ha' hid
  rcases Table.mem_or_eq_of_mem_insert ha' with ha' | rfl
  · exact h k hk a' ha' hid
  · obtain ⟨a₀, ha₀, hid₀⟩ := db.keyRefers k hk
    exact absurd (Api.clash_iff.2 (.inl (hid₀.trans hid.symm))) (hadmits.2 a₀ ha₀)

theorem KeysOwned.changeApi (h : db.KeysOwned) (id : Uuid) (c : ApiChange) :
    (db.changeApi id c).KeysOwned := by
  refine h.of_le (fun k hk => ⟨k, hk, rfl, rfl⟩) fun a ha => ?_
  obtain ⟨a₀, ha₀, rfl⟩ := List.mem_map.1 ha
  exact ⟨a₀, ha₀, by split <;> rfl, by split <;> rfl⟩

theorem KeysOwned.addApiKey {k : ApiKey} {api : Api} (h : db.KeysOwned)
    (hapi : db.ApiOf orgId apiId api) (hid : k.apiId = apiId)
    (horg : k.organizationId = orgId) : (db.addApiKey k).KeysOwned := by
  unfold PlatformDb.addApiKey
  split
  · intro k' hk' a ha hida
    rcases Table.mem_or_eq_of_mem_insert hk' with hk' | rfl
    · exact h k' hk' a ha hida
    · rw [horg, ← hapi.2.2,
        Table.eq_of_clash ha hapi.1 (Api.clash_iff.2 (.inl (hida.trans (hid.trans hapi.2.1.symm))))]
  · exact h

theorem KeysOwned.changeApiKey (h : db.KeysOwned) (id : Uuid) (c : ApiKeyChange) :
    (db.changeApiKey id c).KeysOwned := by
  refine h.of_le (fun k hk => ?_) fun a ha => ⟨a, ha, rfl, rfl⟩
  obtain ⟨k₀, hk₀, rfl⟩ := List.mem_map.1 hk
  exact ⟨k₀, hk₀, by split <;> rfl, by split <;> rfl⟩

end PlatformDb

namespace OrgDb

variable {db db' : OrgDb}

theorem BuiltIn.of_le (h : db.BuiltIn) (hroles : db'.roles = db.roles)
    (hm : ∀ m ∈ db'.members.rows, ∃ m₀ ∈ db.members.rows, m₀.roleId = m.roleId) :
    db'.BuiltIn := by
  intro m hmem
  obtain ⟨m₀, hm₀, hrole⟩ := hm m hmem
  obtain ⟨role, hhas⟩ := h m₀ hm₀
  exact ⟨role, (memberHasRole_congr hroles hrole.symm).2 hhas⟩

theorem BuiltIn.apply {o : OrgOp} {orgId : Uuid} (h : db.BuiltIn) (ho : o.Lawful orgId db) :
    (o.apply db).BuiltIn := by
  have hroles := o.apply_roles db
  cases o with
  | setOrganizationName id name => exact h.of_le hroles fun m hm => ⟨m, hm, rfl⟩
  | deleteOrganization id => exact h.of_le hroles fun m hm => ⟨m, (Table.mem_delete.1 hm).1, rfl⟩
  | addMember m =>
    simp only [OrgOp.apply, OrgDb.addMember]
    split
    · intro m' hm'
      rcases Table.mem_or_eq_of_mem_insert hm' with hm' | rfl
      · exact h m' hm'
      · exact ho.2
    · exact h
  | setMemberRole id roleId =>
    intro m' hm'
    simp only [OrgDb.MemberHasRole, hroles]
    simp only [OrgOp.apply, OrgDb.setMemberRole] at hm'
    split at hm'
    · obtain ⟨m, hm, rfl⟩ := List.mem_map.1 hm'
      split
      · exact ho.2
      · exact h m hm
    · exact h m' hm'
  | deleteMember id => exact h.of_le hroles fun m hm => ⟨m, (Table.mem_delete.1 hm).1, rfl⟩
  | addNotification n => exact h

end OrgDb

section
variable {cfg : Config} {t : Transition} {orgId : Uuid} {db : PlatformDb}

theorem PlatformDb.KeysOwned.write {o : ManagementOp} (h : o.Lawful cfg t orgId db)
    (hk : db.KeysOwned) : (o.apply db).KeysOwned := by
  cases o with
  | org o => exact hk.org o
  | platform o =>
    cases o with
    | addApiKey k => exact h.1.elim fun _ hapi => hk.addApiKey hapi rfl h.2.1
    | changeApiKey id c => exact hk.changeApiKey id c
    | addAuditLog r => exact hk
    | addOutbox r => exact hk
    | addRequestLog r => exact h.elim
    | incrementUsage i => exact h.elim
    | setOutbox id publishedAt attempts => exact h.elim
    | deleteDailyUsage id => exact h.elim
    | addDailyUsage r => exact h.elim
  | addApi a => exact hk.addApi h.2.2
  | changeApi id c => exact hk.changeApi id c
  | deleteApi id => exact hk.cascade _ _
  | addOrganization o => exact hk
  | addApiVersion v => exact hk
  | deleteApiVersion id => exact hk
  | addQuota q => exact hk
  | deleteQuota id => exact hk
  | addRateLimitRule r => exact hk
  | setRateLimitRule id algorithm spec => exact hk

theorem OrgDb.BuiltIn.write {o : ManagementOp} (h : o.Lawful cfg t orgId db)
    (hb : db.orgs.BuiltIn) : (o.apply db).orgs.BuiltIn := by
  cases o with
  | org o =>
    have horgs : ((ManagementOp.org o).apply db).orgs = o.apply db.orgs := orgPart.db_apply o db
    rw [horgs]
    exact hb.apply h
  | platform o =>
    cases o with
    | addApiKey k =>
      have horgs : (db.addApiKey k).orgs = db.orgs := by
        unfold PlatformDb.addApiKey
        split <;> rfl
      exact horgs.symm ▸ hb
    | changeApiKey id c => exact hb
    | addAuditLog r => exact hb
    | addOutbox r => exact hb
    | addRequestLog r => exact h.elim
    | incrementUsage i => exact h.elim
    | setOutbox id publishedAt attempts => exact h.elim
    | deleteDailyUsage id => exact h.elim
    | addDailyUsage r => exact h.elim
  | _ => exact hb

end

/-! ### Every run -/

variable {cfg : Config} {s : ManagementState}

theorem ManagementReachable.keysOwned (h : ManagementReachable cfg s) : s.db.KeysOwned := by
  refine h.keeps (P := PlatformDb.KeysOwned) (fun _ _ k hk => (List.not_mem_nil hk).elim)
    (fun db db' hsame hk => ?_) fun t orgId o db ho hk => hk.write ho
  unfold PlatformDb.KeysOwned
  rw [hsame.apiKeys, hsame.apis]
  exact hk

theorem ManagementReachable.builtIn (h : ManagementReachable cfg s) : s.db.orgs.BuiltIn := by
  refine h.keeps (P := fun db => db.orgs.BuiltIn) (fun _ _ m hm => (List.not_mem_nil hm).elim)
    (fun db db' hsame hb => ?_)
    fun t orgId o db ho hb => hb.write ho
  exact hb.of_le hsame.roles fun m hm => ⟨m, hsame.members ▸ hm, rfl⟩

theorem ManagementState.call_rowsOf {c : ManagementCall} {orgId : Uuid} (hs : ManagementReachable cfg s)
    (ho : s.db.orgs.hasOrganization orgId = true) (hc : ¬ s.db.orgs.IsMember orgId c.req.caller) :
    (s.call cfg c).db.rowsOf orgId = s.db.rowsOf orgId := by
  rcases s.call_writes cfg c with h | ⟨other, hother, h⟩
  · rw [h]
  have hne : other ≠ orgId := by
    rintro rfl
    exact hother.elim hc fun hnot => hnot ho
  exact (h.keeps (P := fun db => db.KeysOwned ∧ db.rowsOf orgId = s.db.rowsOf orgId)
    (fun o db hop hdb => ⟨hdb.1.write hop, (PlatformDb.rowsOf_write hdb.1 hop hne).trans hdb.2⟩)
      ⟨hs.keysOwned, rfl⟩).2

theorem isMember_rowsOf {db db' : PlatformDb} {orgId u : Uuid}
    (h : db'.rowsOf orgId = db.rowsOf orgId) :
    db'.orgs.IsMember orgId u ↔ db.orgs.IsMember orgId u := by
  have hmembers := congrArg TenantRows.members h
  have hiff : ∀ db : PlatformDb, db.orgs.IsMember orgId u ↔ ∃ m ∈ (db.rowsOf orgId).members,
      m.userId = u := by
    intro db
    simp only [OrgDb.IsMember, PlatformDb.rowsOf, Table.mem_select, beq_iff_eq, and_assoc]
  rw [hiff, hiff, hmembers]

theorem hasOrganization_rowsOf {db db' : PlatformDb} {orgId : Uuid}
    (h : db'.rowsOf orgId = db.rowsOf orgId)
    (ho : db.orgs.hasOrganization orgId = true) : db'.orgs.hasOrganization orgId = true := by
  obtain ⟨o, hmem, hid⟩ := OrgDb.hasOrganization_iff.1 ho
  have hrow : o ∈ (db'.rowsOf orgId).organizations := h ▸ Table.mem_select.2 ⟨hmem, by simpa using hid⟩
  exact OrgDb.hasOrganization_iff.2 ⟨o, (Table.mem_select.1 hrow).1, hid⟩

theorem ManagementState.calls_rowsOf {orgId : Uuid} (calls : List ManagementCall)
    (hs : ManagementReachable cfg s) (ho : s.db.orgs.hasOrganization orgId = true)
    (hc : ∀ c ∈ calls, ¬ s.db.orgs.IsMember orgId c.req.caller) :
    (calls.foldl (ManagementState.call cfg) s).db.rowsOf orgId = s.db.rowsOf orgId := by
  induction calls generalizing s with
  | nil => rfl
  | cons c calls ih =>
    have hrows := ManagementState.call_rowsOf hs ho (hc c List.mem_cons_self)
    refine (ih (.call c hs) (hasOrganization_rowsOf hrows ho) fun c' hc' => ?_).trans hrows
    rw [isMember_rowsOf hrows]
    exact hc c' (List.mem_cons_of_mem _ hc')

/-! ### Ids of other organizations -/

/-- An id in the path does not belong to the organization, or to the API, named in it. -/
def ManagementRequest.Misplaced (db : PlatformDb) : ManagementRequest → Prop
  | .createOrganization _ _ _ => False
  | .organization (.updateMemberRole _ orgId memberId _) =>
    ∀ m ∈ db.orgs.members.rows, m.id = memberId → m.organizationId ≠ orgId
  | .organization (.removeMember _ orgId memberId) =>
    ∀ m ∈ db.orgs.members.rows, m.id = memberId → m.organizationId ≠ orgId
  | .organization _ => False
  | .createApi _ _ _ _ _ => False
  | .getApi _ orgId apiId => ¬ db.HasApiOf orgId apiId
  | .updateApi _ orgId apiId _ => ¬ db.HasApiOf orgId apiId
  | .deleteApi _ orgId apiId => ¬ db.HasApiOf orgId apiId
  | .addVersion _ orgId apiId _ _ _ => ¬ db.HasApiOf orgId apiId
  | .deleteVersion _ orgId apiId versionId =>
    ¬ (db.HasApiOf orgId apiId ∧ db.HasVersion apiId versionId)
  | .setQuota _ orgId apiId _ => ¬ db.HasApiOf orgId apiId
  | .getQuota _ orgId apiId => ¬ db.HasApiOf orgId apiId
  | .setRateLimit _ orgId apiId _ _ => ¬ db.HasApiOf orgId apiId
  | .getRateLimit _ orgId apiId => ¬ db.HasApiOf orgId apiId
  | .listKeys _ orgId apiId => ¬ db.HasApiOf orgId apiId
  | .key (.createKey _ orgId apiId _ _ _) => ¬ db.HasApiOf orgId apiId
  | .key (.rotateKey _ orgId apiId keyId _ _) =>
    ¬ (db.HasApiOf orgId apiId ∧ ∃ k, db.KeyOf apiId keyId k)
  | .key (.revokeKey _ orgId apiId keyId _) => ¬ (db.HasApiOf orgId apiId ∧ ∃ k, db.KeyOf apiId keyId k)

/-- The program is refused with an `AppError`. -/
abbrev Refused {T : Tables} {α : Type} (p : Prog T.backend α) (s : Session T.backend) : Prop :=
  p.Ends (fun _ _ => False) (fun e _ => e.IsApp) s

theorem Refused.bind {T : Tables} {α β : Type} {p : Prog T.backend α} {k : α → Prog T.backend β}
    {s : Session T.backend}
    (h : Refused p s) : Refused (p >>= k) s := Prog.Ends.bind h fun _ _ h => h.elim

namespace Management

variable {s : Session managementTables.backend}

theorem getApi_refused {orgId apiId : Uuid} (h : ¬ s.db.HasApiOf orgId apiId) :
    Refused (ApiCatalogService.getApi orgId apiId) s :=
  (ApiCatalogService.getApi_ends orgId apiId s).mono (fun api _ hapi => h ⟨api, hapi.2⟩)
    fun _ _ he => he.2.1

theorem deleteVersion_refused {orgId apiId versionId : Uuid}
    (h : ¬ (s.db.HasApiOf orgId apiId ∧ s.db.HasVersion apiId versionId)) :
    Refused (ApiCatalogService.deleteVersion orgId apiId versionId) s := by
  refine Prog.Ends.bind
    ((ApiCatalogService.getApi_ends orgId apiId s).mono (fun _ _ => id) fun _ _ he => he.2.1) ?_
  rintro api s' ⟨hs, hapi⟩
  rw [hs]
  refine Prog.ends_query_bind ?_
  cases hone : s.db.apiVersions.one fun v => v.id == versionId with
  | none => exact ⟨_, rfl⟩
  | some v =>
    dsimp only
    split
    · exact ⟨_, rfl⟩
    · rename_i hv
      exact (h ⟨⟨api, hapi⟩, v, Table.mem_of_one hone,
        by simpa using Table.pred_of_one hone, not_not.1 hv⟩).elim

theorem route_refused {α : Type} {permission : Permission} {caller orgId : Uuid} {k : Management α}
    (hb : s.db.orgs.BuiltIn) (h : Refused k s) : Refused (do
      let _ ← ManagementRequest.authorize permission caller orgId
      k) s := by
  refine Prog.Ends.bind
    ((authorize_ends permission caller orgId s).mono (fun _ _ => id) fun _ _ he => he.2 hb) ?_
  rintro m s' ⟨hs, -⟩
  rw [hs]
  exact h

end Management

namespace Organizations

variable {s : Session orgTables.backend} {orgId memberId : Uuid}

theorem getMember_refused {loaded : OrganizationMember} (hl : loaded ∈ s.db.members.rows)
    (h : ∀ m ∈ s.db.members.rows, m.id = memberId → m.organizationId ≠ orgId) :
    Refused (OrganizationService.getMember loaded orgId memberId) s := by
  unfold OrganizationService.getMember MembershipRepository.get
  split
  · rename_i hid
    refine Prog.ends_bind_ok rfl ?_
    dsimp only
    rw [if_pos (h loaded hl hid)]
    exact ⟨_, rfl⟩
  · refine Prog.ends_query_bind ?_
    cases hone : s.db.members.one fun m => m.id == memberId with
    | none => exact ⟨_, rfl⟩
    | some m =>
      dsimp only
      rw [if_pos (h m (Table.mem_of_one hone) (by simpa using Table.pred_of_one hone))]
      exact ⟨_, rfl⟩

theorem membership_refused {α : Type} {permission : Permission} {caller : Uuid}
    {k : OrganizationMember → Org α} (hb : s.db.BuiltIn)
    (h : ∀ m ∈ s.db.members.rows, Refused (k m) s) :
        Refused (OrgRequest.authorize permission caller orgId >>= k) s := by
  refine Prog.Ends.bind
    ((authorize_ends permission caller orgId s).mono (fun _ _ => id) fun _ _ he => he.2 hb) ?_
  rintro m s' ⟨hs, -, hm⟩
  rw [hs]
  exact h m hm

end Organizations

namespace ApiKeys

variable {s : Session platformTables.backend} {orgId apiId keyId : Uuid}

theorem route_refused {α : Type} {permission : Permission} {caller : Uuid} {k : Time → Platform α}
    (hb : s.db.orgs.BuiltIn)
    (h : ∀ time s', Reaches s s.db s.dirty s' → Refused (k time) s') : Refused (do
      let time ← now
      let _ ← ofOrg (OrgRequest.authorize permission caller orgId)
      k time) s := by
  refine (clock_ends s).bind fun time s₁ ⟨_, _, h₁⟩ => ?_
  refine Prog.Ends.bind ((ofOrg_ends (queries_authorize permission caller orgId)
    ((Organizations.authorize_ends permission caller orgId _).mono (fun _ _ h => h.2)
      fun _ _ h => h.2)).mono (fun _ _ => id)
      fun _ _ he => he.2 (h₁.db.symm ▸ hb)) ?_
  rintro m s' ⟨hs, -⟩
  rw [hs]
  exact h time s₁ h₁

theorem getApi_refused (h : ¬ s.db.HasApiOf orgId apiId) :
    Refused (ApiCatalogService.getApi orgId apiId) s :=
  (getApi_ends orgId apiId s).mono (fun api _ hapi => h ⟨api, hapi.2⟩) fun _ _ he => he.2.1

theorem getKey_refused (h : ¬ (s.db.HasApiOf orgId apiId ∧ ∃ k, s.db.KeyOf apiId keyId k)) :
    Refused (ApiKeyService.getKey orgId apiId keyId) s :=
  (getKey_ends orgId apiId keyId s).mono (fun k _ hk => h ⟨hk.2.1, k, hk.2.2⟩) fun _ _ he => he.2

end ApiKeys

open Management in
theorem ManagementRequest.Misplaced.refused {cfg : Config} {r : ManagementRequest}
    {s : Session managementTables.backend} (h : r.Misplaced s.db) (hb : s.db.orgs.BuiltIn)
    (hd : s.dirty = []) : Refused (r.prog cfg) s := by
  cases r with
  | createOrganization caller name slug => exact h.elim
  | organization r =>
    refine Refused.bind ?_
    cases r with
    | updateOrganization caller orgId name => exact h.elim
    | deleteOrganization caller orgId => exact h.elim
    | addMember caller orgId email role => exact h.elim
    | updateMemberRole caller orgId memberId role =>
      have hpart : Refused (OrgRequest.prog cfg (.updateMemberRole caller orgId memberId role))
          (orgPart.session s []) :=
        Organizations.membership_refused hb
          fun m hm => Refused.bind (Refused.bind (Organizations.getMember_refused hm h))
      exact (Prog.Ends.embed (C := managementTables.backend) orgPart (d := []) hd hpart).mono
        (fun _ _ ⟨_, _, h⟩ => h) fun _ _ ⟨_, _, he, _, h⟩ => he ▸ h
    | removeMember caller orgId memberId =>
      have hpart : Refused (OrgRequest.prog cfg (.removeMember caller orgId memberId))
          (orgPart.session s []) :=
        Organizations.membership_refused hb
          fun m hm => Refused.bind (Refused.bind (Organizations.getMember_refused hm h))
      exact (Prog.Ends.embed (C := managementTables.backend) orgPart (d := []) hd hpart).mono
        (fun _ _ ⟨_, _, h⟩ => h) fun _ _ ⟨_, _, he, _, h⟩ => he ▸ h
  | createApi caller orgId name slug description => exact h.elim
  | getApi caller orgId apiId => exact route_refused hb (Refused.bind (getApi_refused h))
  | updateApi caller orgId apiId change =>
    exact route_refused hb (Refused.bind (Refused.bind (getApi_refused h)))
  | deleteApi caller orgId apiId =>
    exact route_refused hb (Refused.bind (Refused.bind (getApi_refused h)))
  | addVersion caller orgId apiId version upstreamBaseUrl isActive =>
    exact route_refused hb (Refused.bind (Refused.bind (getApi_refused h)))
  | deleteVersion caller orgId apiId versionId =>
    exact route_refused hb (Refused.bind (deleteVersion_refused h))
  | setQuota caller orgId apiId quotas =>
    exact route_refused hb (Refused.bind (Refused.bind (getApi_refused h)))
  | getQuota caller orgId apiId =>
    exact route_refused hb (Refused.bind (Refused.bind (getApi_refused h)))
  | setRateLimit caller orgId apiId algorithm spec =>
    exact route_refused hb (Refused.bind (Refused.bind (getApi_refused h)))
  | getRateLimit caller orgId apiId =>
    exact route_refused hb (Refused.bind (Refused.bind (getApi_refused h)))
  | listKeys caller orgId apiId =>
    exact route_refused hb (Refused.bind (Refused.bind (getApi_refused h)))
  | key r =>
    refine Refused.bind ?_
    have hpart : Refused (r.prog cfg) (platformPart.session s []) := by
      cases r with
      | createKey caller orgId apiId ip name expiresInDays =>
        exact ApiKeys.route_refused hb
          fun time s' hs => Refused.bind (Refused.bind (ApiKeys.getApi_refused (hs.db.symm ▸ h)))
      | rotateKey caller orgId apiId keyId ip gracePeriodHours =>
        exact ApiKeys.route_refused hb
          fun time s' hs => Refused.bind (Refused.bind (ApiKeys.getKey_refused (hs.db.symm ▸ h)))
      | revokeKey caller orgId apiId keyId ip =>
        exact ApiKeys.route_refused hb
          fun time s' hs => Refused.bind (Refused.bind (ApiKeys.getKey_refused (hs.db.symm ▸ h)))
    exact (Prog.Ends.embed (C := managementTables.backend) platformPart (d := []) hd hpart).mono
      (fun _ _ ⟨_, _, h⟩ => h) fun _ _ ⟨_, _, he, _, h⟩ => he ▸ h

/-- Management isolation: people who are not members of an organization change none of its rows,
whatever ids they use, and a request with an id that does not belong where its path says is refused
with an `AppError` and changes nothing. -/
theorem management_isolation (cfg : Config) {s : ManagementState} (h : ManagementReachable cfg s) :
    (∀ org ∈ s.db.orgs.organizations.rows, ∀ calls : List ManagementCall,
      (∀ c ∈ calls, ¬ s.db.orgs.IsMember org.id c.req.caller) →
        (calls.foldl (ManagementState.call cfg) s).db.rowsOf org.id = s.db.rowsOf org.id) ∧
      ∀ c : ManagementCall, c.req.Misplaced s.db →
        (∃ e, (scope (c.req.prog cfg) c.envs s).1 = .error (.app e)) ∧
        (s.call cfg c).db = s.db ∧ (s.call cfg c).world.redis = s.world.redis ∧
          (s.call cfg c).world.outside = s.world.outside := by
  refine ⟨fun org horg calls hcalls => ?_, fun c hc => ?_⟩
  · exact ManagementState.calls_rowsOf calls h (OrgDb.hasOrganization_iff.2 ⟨org, horg, rfl⟩) hcalls
  · have hgrown := s.call_grown cfg c
    have hends :=
      @ManagementRequest.Misplaced.refused cfg _ ⟨s.db, [], s.world, c.envs⟩ hc h.builtIn rfl
    rcases hends.scope with ⟨_, _, _, h, -⟩ | ⟨e, s', he | ⟨_, h, -⟩, hout⟩
    · exact h.elim
    · obtain ⟨e, rfl⟩ := he
      exact ⟨⟨e, by rw [hout]⟩, by rw [ManagementState.call, hout], hgrown.redis, hgrown.outside⟩
    · exact h.elim

/-- The second user tries to delete the organization and to add an API to it. -/
theorem management_isolation_acme :
    ((sampleManagement.call sampleConfig
      (sampleCall (.organization (.deleteOrganization 2 100)))).call sampleConfig
      (sampleCall (.createApi 2 100 "own" none ""))).db.rowsOf 100 =
          sampleManagement.db.rowsOf 100 := by
  have hno : ¬ sampleManagement.db.orgs.IsMember 100 2 := by
    unfold OrgDb.IsMember
    decide +kernel
  exact (management_isolation sampleConfig (.call _ (.initial _ _ _))).1 ⟨100, "acme", "acme"⟩
    (by decide +kernel)
    [sampleCall (.organization (.deleteOrganization 2 100)),
        sampleCall (.createApi 2 100 "own" none "")] fun c hc => by
      rcases List.mem_pair.1 hc with rfl | rfl <;> exact hno

end TrafficPlatform
