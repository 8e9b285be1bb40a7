import Mathlib.Logic.Relation
import TrafficPlatform.Management.Routes

/-!
# The row writes of the management

A request that returns has made row writes to one organization: the one named in its path, of which
the caller is a member, or the one that it creates. What the requests keep is proved of one such
write (`ManagementOp.Lawful`).
-/

namespace TrafficPlatform
open Kit

/-- A write to rows of the organization. -/
def OrgOp.Lawful (orgId : Uuid) (db : OrgDb) : OrgOp → Prop
  | .setOrganizationName id _ => id = orgId
  | .deleteOrganization id => id = orgId
  | .addMember m => m.organizationId = orgId ∧ ∃ role : RoleName, db.MemberHasRole m role.name
  | .setMemberRole id roleId => (∀ m ∈ db.members.rows, m.id = id → m.organizationId = orgId) ∧
    ∃ role : RoleName, ∃ r ∈ db.roles.rows, r.id = roleId ∧ r.name = role.name
  | .deleteMember id => ∀ m ∈ db.members.rows, m.id = id → m.organizationId = orgId
  | .addNotification _ => True

/-- A change of a key that makes it valid at no other time. -/
def ApiKeyChange.Tightens (k : ApiKey) (c : ApiKeyChange) : Prop :=
  ∀ time, (k.changed c).isValidAt time = true → k.isValidAt time = true

/-- The organization has the API. -/
def PlatformDb.HasApiOf (db : PlatformDb) (orgId apiId : Uuid) : Prop := ∃ api, db.ApiOf orgId apiId api

/-- A write of the transition to rows of the organization. -/
def ManagementOp.Lawful (cfg : Config) (t : Transition) (orgId : Uuid) (db : PlatformDb) :
    ManagementOp → Prop
  | .org o => o.Lawful orgId db.orgs
  | .platform (.addApiKey k) =>
    db.HasApiOf orgId k.apiId ∧ k.organizationId = orgId ∧ t.world.Issues t.world' k.id ∧
    ∃ n m, k.keyHash = cfg.hashToken (apiKeyPrefix ++ "_" ++ (t.envs n).text ++ "_" ++ (t.envs m).text)
  | .platform (.changeApiKey id c) =>
    ∃ k ∈ db.apiKeys.rows, k.id = id ∧ db.HasApiOf orgId k.apiId ∧ c.Tightens k
  | .platform (.addAuditLog _) => True
  | .platform (.addOutbox _) => True
  | .platform _ => False
  | .addOrganization o => o.id = orgId
  | .addApi a =>
    a.organizationId = orgId ∧ t.world.Issues t.world' a.id ∧
      (ManagementOp.addApi a).check db = .ok ()
  | .changeApi id _ => db.HasApiOf orgId id
  | .deleteApi id => db.HasApiOf orgId id
  | .addApiVersion v => db.HasApiOf orgId v.apiId
  | .deleteApiVersion id => ∀ v ∈ db.apiVersions.rows, v.id = id → db.HasApiOf orgId v.apiId
  | .addQuota q => db.HasApiOf orgId q.apiId
  | .deleteQuota id => ∀ q ∈ db.quotas.rows, q.id = id → db.HasApiOf orgId q.apiId
  | .addRateLimitRule r => db.HasApiOf orgId r.apiId
  | .setRateLimitRule id _ _ => ∀ r ∈ db.rateLimitRules.rows, r.id = id → db.HasApiOf orgId r.apiId

/-- The database after some writes to rows of the organization. -/
def Transition.Writes (cfg : Config) (t : Transition) (orgId : Uuid) : PlatformDb → PlatformDb → Prop :=
  Relation.ReflTransGen fun db db' => ∃ o : ManagementOp, o.Lawful cfg t orgId db ∧ db' = o.apply db

namespace Transition.Writes

variable {cfg : Config} {t : Transition} {orgId : Uuid} {db db' : PlatformDb}

theorem one (o : ManagementOp) (h : o.Lawful cfg t orgId db) : t.Writes cfg orgId db (o.apply db) :=
  .single ⟨o, h, rfl⟩

theorem trans {db'' : PlatformDb} (h : t.Writes cfg orgId db db')
    (h' : t.Writes cfg orgId db' db'') : t.Writes cfg orgId db db'' :=
  Relation.ReflTransGen.trans h h'

theorem keeps {P : PlatformDb → Prop} (h : t.Writes cfg orgId db db')
    (hop : ∀ o db, ManagementOp.Lawful cfg t orgId db o → P db → P (o.apply db))
    (hp : P db) : P db' := by
  induction h with
  | refl => exact hp
  | tail _ hstep ih =>
    obtain ⟨o, ho, rfl⟩ := hstep
    exact hop o _ ho ih

theorem audited (h : db.Audited db') : t.Writes cfg orgId db db' := by
  obtain ⟨r, o, rfl⟩ := h
  exact (one (.platform (.addAuditLog r)) trivial).trans (one (.platform (.addOutbox o)) trivial)

end Transition.Writes

/-! ### Who makes the call -/

def ApiKeyRequest.caller : ApiKeyRequest → Uuid
  | createKey caller _ _ _ _ _ => caller
  | rotateKey caller _ _ _ _ _ => caller
  | revokeKey caller _ _ _ _ => caller

def ManagementRequest.caller : ManagementRequest → Uuid
  | createOrganization caller _ _ => caller
  | organization r => r.caller
  | createApi caller _ _ _ _ => caller
  | getApi caller _ _ => caller
  | updateApi caller _ _ _ => caller
  | deleteApi caller _ _ => caller
  | addVersion caller _ _ _ _ _ => caller
  | deleteVersion caller _ _ _ => caller
  | setQuota caller _ _ _ => caller
  | getQuota caller _ _ => caller
  | setRateLimit caller _ _ _ _ => caller
  | getRateLimit caller _ _ => caller
  | listKeys caller _ _ => caller
  | key r => r.caller

theorem OrgDb.Permits.isMember {db : OrgDb} {orgId caller : Uuid} {permission : Permission}
    (h : db.Permits orgId caller permission) :
    db.IsMember orgId caller := by
  obtain ⟨-, m, hm, ho, hu, -⟩ := h
  exact ⟨m, hm, ho, hu⟩

/-! ### The keys -/

section
variable {cfg : Config} {t : Transition} {orgId apiId keyId : Uuid} {db : PlatformDb} {old : ApiKey}

theorem ApiKeyChange.tightens_revoke (time : Time) :
    ApiKeyChange.Tightens old { revokedAt := some time } := by
  intro t h
  rw [ApiKey.isValidAt_iff] at h
  cases h.1

theorem ApiKeyChange.tightens_grace (gracePeriodHours : Nat) (newId : Uuid) (time : Time) :
    (ApiKeys.ApiKeyService.grace old gracePeriodHours newId time).Tightens old := by
  intro t h
  rw [ApiKey.isValidAt_iff] at h ⊢
  unfold ApiKeys.ApiKeyService.grace at h
  dsimp only at h
  split at h
  · cases h.1
  split at h
  · rename_i hlater
    refine ⟨h.1, fun e he => ?_⟩
    have hgrace : t < time + gracePeriodHours * 3600 * second := h.2 _ rfl
    rw [he, Option.all_some, decide_eq_true_eq] at hlater
    exact lt_trans hgrace hlater
  · exact h

theorem Transition.Issues.lawful {k : ApiKey} (h : t.Issues cfg orgId apiId k) :
    (ManagementOp.platform (.addApiKey k)).Lawful cfg t orgId t.db :=
  ⟨h.api ▸ h.exists_api, h.organization, h.id, h.keyHash⟩

theorem addApiKey_apis {k : ApiKey} : (db.addApiKey k).apis = db.apis := by
  unfold PlatformDb.addApiKey
  split <;> rfl

theorem mem_addApiKey {k : ApiKey} (h : old ∈ db.apiKeys.rows) :
    old ∈ (db.addApiKey k).apiKeys.rows := by
  unfold PlatformDb.addApiKey
  split
  · exact Table.mem_insert_of_mem h
  · exact h

theorem ApiKeyRequest.Effect.writes {r : ApiKeyRequest} (h : r.Effect cfg t) :
    ∃ orgId, t.db.orgs.IsMember orgId r.caller ∧ t.Writes cfg orgId t.db t.db' := by
  cases r with
  | createKey caller orgId apiId ip name expiresInDays =>
    obtain ⟨hp, k, hissues, hdb⟩ := h
    exact ⟨orgId, hp.isMember,
      (Transition.Writes.one (.platform (.addApiKey k)) hissues.lawful).trans
        (Transition.Writes.audited hdb)⟩
  | rotateKey caller orgId apiId keyId ip gracePeriodHours =>
    obtain ⟨hp, old, new, time, hissues, -, hold, -, -, -, hdb⟩ := h
    refine ⟨orgId, hp.isMember,
      ((Transition.Writes.one (.platform (.addApiKey new)) hissues.lawful).trans
      (Transition.Writes.one
        (.platform (.changeApiKey keyId
          (ApiKeys.ApiKeyService.grace old gracePeriodHours new.id time))) ?_)).trans
      (Transition.Writes.audited hdb)⟩
    obtain ⟨api, hapi⟩ := hissues.exists_api
    refine ⟨old, mem_addApiKey hold.1, hold.2.1, ⟨api, ?_, hold.2.2 ▸ hapi.2⟩,
      ApiKeyChange.tightens_grace _ _ _⟩
    exact (addApiKey_apis (k := new)).symm ▸ hapi.1
  | revokeKey caller orgId apiId keyId ip =>
    obtain ⟨hp, hapi, key, hkey, ⟨-, hdb⟩ | ⟨-, time, hdb⟩⟩ := h
    · exact ⟨orgId, hp.isMember, Transition.Writes.audited hdb⟩
    · refine ⟨orgId, hp.isMember,
        (Transition.Writes.one (.platform (.changeApiKey keyId _)) ?_).trans
          (Transition.Writes.audited hdb)⟩
      exact ⟨key, hkey.1, hkey.2.1, hkey.2.2 ▸ hapi, ApiKeyChange.tightens_revoke time⟩

/-! ### The organizations -/

theorem Transition.Writes.deleteMembers {ms : List OrganizationMember}
    (h : ∀ m ∈ ms, ∀ m' ∈ db.orgs.members.rows, m'.id = m.id → m'.organizationId = orgId) :
    t.Writes cfg orgId db
        (applyAll managementTables.backend (ms.map fun m => .org (.deleteMember m.id)) db) := by
  induction ms generalizing db with
  | nil => exact .refl
  | cons m ms ih =>
    refine (Transition.Writes.one (.org (.deleteMember m.id)) (h m List.mem_cons_self)).trans
      (ih fun m₁ h₁ m' hm' => ?_)
    exact h m₁ (List.mem_cons_of_mem _ h₁) m' (Table.mem_delete.1 hm').1

theorem OrgRequest.Effect.writes {r : OrgRequest} {w : List OrgOp} (h : r.Effect cfg t.db.orgs w)
    (hdb : t.db' = applyAll managementTables.backend (w.map .org) t.db) :
    ∃ orgId, t.db.orgs.IsMember orgId r.caller ∧ t.Writes cfg orgId t.db t.db' := by
  rw [hdb]
  -- a membership that was seen is the one with its id
  have hof : ∀ {orgId : Uuid} {m : OrganizationMember}, m ∈ t.db.orgs.members.rows →
      m.organizationId = orgId →
      ∀ m' ∈ t.db.orgs.members.rows, m'.id = m.id → m'.organizationId = orgId := by
    intro orgId m hm ho m' hm' hid
    rw [OrgDb.member_eq hm' hm hid, ho]
  cases r with
  | updateOrganization caller orgId name =>
    obtain ⟨hp, rfl | rfl⟩ := h
    · exact ⟨orgId, hp.isMember, .refl⟩
    · exact ⟨orgId, hp.isMember, .one (.org (.setOrganizationName orgId name)) rfl⟩
  | deleteOrganization caller orgId =>
    obtain ⟨hp, ms, hms, rfl⟩ := h
    refine ⟨orgId, hp.permits.isMember, ?_⟩
    rw [List.map_append, List.map_map, applyAll_append]
    refine (Transition.Writes.deleteMembers fun m hm => ?_).trans
      (Transition.Writes.one (.org (.deleteOrganization orgId)) rfl)
    exact hof (OrgDb.seen_eq.1 hms m hm).1 (OrgDb.seen_eq.1 hms m hm).2
  | addMember caller orgId email role =>
    obtain ⟨hp, u, r, id, n, -, -, hr, hname, rfl⟩ := h
    refine ⟨orgId, hp.permits.isMember, (Transition.Writes.one (.org (.addMember _)) ?_).trans
      (Transition.Writes.one (.org (.addNotification n)) trivial)⟩
    exact ⟨rfl, role, r, hr, rfl, hname⟩
  | updateMemberRole caller orgId memberId role =>
    obtain ⟨hp, m, r, hm, hr, hname, -, ⟨rfl, -⟩ | rfl⟩ := h
    · exact ⟨orgId, hp.permits.isMember, .refl⟩
    · obtain ⟨hm, hid, ho⟩ := OrgDb.seen_eq.1 hm
      exact ⟨orgId, hp.permits.isMember, .one (.org (.setMemberRole memberId r.id))
        ⟨hid ▸ hof hm ho, role, r, hr, rfl, hname⟩⟩
  | removeMember caller orgId memberId =>
    obtain ⟨hp, m, hm, -, rfl⟩ := h
    obtain ⟨hm, hid, ho⟩ := OrgDb.seen_eq.1 hm
    exact ⟨orgId, hp.permits.isMember, .one (.org (.deleteMember memberId)) (hid ▸ hof hm ho)⟩

/-! ### Every request -/

theorem Transition.Writes.deleteQuotas {quotas : List Quota}
    (h : ∀ q ∈ quotas, ∀ q' ∈ db.quotas.rows, q'.id = q.id → db.HasApiOf orgId q'.apiId) :
    t.Writes cfg orgId db (quotas.foldl (fun db q => db.deleteQuota q.id) db) := by
  induction quotas generalizing db with
  | nil => exact .refl
  | cons q quotas ih =>
    refine (Transition.Writes.one (.deleteQuota q.id) (h q List.mem_cons_self)).trans
      (ih fun q₁ h₁ q' hq' => ?_)
    exact h q₁ (List.mem_cons_of_mem _ h₁) q' (Table.mem_delete.1 hq').1

theorem Transition.Writes.addQuotas {quotas : List Quota}
    (h : ∀ q ∈ quotas, db.HasApiOf orgId q.apiId) :
    t.Writes cfg orgId db (quotas.foldl PlatformDb.addQuota db) := by
  induction quotas generalizing db with
  | nil => exact .refl
  | cons q quotas ih =>
    exact (Transition.Writes.one (.addQuota q) (h q List.mem_cons_self)).trans
      (ih fun q₁ h₁ => h q₁ (List.mem_cons_of_mem _ h₁))

theorem deleteQuotas_apis (quotas : List Quota) (db : PlatformDb) :
    (quotas.foldl (fun db q => db.deleteQuota q.id) db).apis = db.apis := by
  induction quotas generalizing db with
  | nil => rfl
  | cons q quotas ih => exact ih _

theorem Transition.Creates.fresh {owner : Uuid} {org : Organization} {m : OrganizationMember}
    (h : t.Creates owner org m) :
    ¬ t.db.orgs.hasOrganization org.id = true := by
  intro hhas
  obtain ⟨o, ho, hid⟩ := OrgDb.hasOrganization_iff.1 hhas
  exact Table.admits_iff.1 (insertCheck_eq_ok.1 h.admitted).2 o ho (Organization.clash_iff.2 (.inl hid))

/-- What a request writes: nothing, rows of an organization that the caller is a member of, or a new
organization. -/
theorem ManagementRequest.Effect.writes {r : ManagementRequest} (h : r.Effect cfg t) : t.db' = t.db ∨
    ∃ orgId, (t.db.orgs.IsMember orgId r.caller ∨ ¬ t.db.orgs.hasOrganization orgId = true) ∧
        t.Writes cfg orgId t.db t.db' := by
  have member : ∀ orgId, t.db.orgs.IsMember orgId r.caller → t.Writes cfg orgId t.db t.db' →
      t.db' = t.db ∨
      ∃ orgId, (t.db.orgs.IsMember orgId r.caller ∨ ¬ t.db.orgs.hasOrganization orgId = true) ∧
          t.Writes cfg orgId t.db t.db' :=
    fun orgId hm hw => .inr ⟨orgId, .inl hm, hw⟩
  cases r with
  | createOrganization caller name slug =>
    obtain ⟨-, org, m, hcreates, hdb⟩ := h
    refine .inr ⟨org.id, .inr hcreates.fresh, ?_⟩
    rw [hdb]
    exact (Transition.Writes.one (.addOrganization org) rfl).trans
      (Transition.Writes.one (.org (.addMember m)) ⟨hcreates.organizationId, .owner, hcreates.role⟩)
  | organization r =>
    obtain ⟨w, hw, hdb⟩ := h
    obtain ⟨orgId, hm, hwrites⟩ := hw.writes hdb
    exact member orgId hm hwrites
  | createApi caller orgId name slug description =>
    obtain ⟨hp, api, horg, hissued, hcheck, hdb⟩ := h
    exact member orgId hp.isMember (hdb ▸ .one (.addApi api) ⟨horg, hissued, hcheck⟩)
  | updateApi caller orgId apiId change =>
    obtain ⟨hp, hapi, hdb | hdb⟩ := h
    · exact .inl hdb
    · exact member orgId hp.isMember (hdb ▸ .one (.changeApi apiId change) hapi)
  | deleteApi caller orgId apiId =>
    obtain ⟨hp, hapi, hdb⟩ := h
    exact member orgId hp.isMember (hdb ▸ .one (.deleteApi apiId) hapi)
  | addVersion caller orgId apiId version upstreamBaseUrl isActive =>
    obtain ⟨hp, hapi, v, hv, -, hdb⟩ := h
    exact member orgId hp.isMember
      (hdb ▸ .one (.addApiVersion v) (show t.db.HasApiOf orgId v.apiId from hv.symm ▸ hapi))
  | deleteVersion caller orgId apiId versionId =>
    obtain ⟨hp, hapi, ⟨v, hv, hid, hof⟩, hdb⟩ := h
    refine member orgId hp.isMember (hdb ▸ .one (.deleteApiVersion versionId) fun v' hv' hid' => ?_)
    rw [Table.eq_of_clash hv' hv (ApiVersion.clash_iff.2 (.inl (hid'.trans hid.symm))), hof]
    exact hapi
  | setQuota caller orgId apiId quotas =>
    obtain ⟨hp, hapi, removed, added, hremoved, hadded, hdb⟩ := h
    refine member orgId hp.isMember
      (hdb ▸ (Transition.Writes.deleteQuotas fun q hq q' hq' hid => ?_).trans
      (Transition.Writes.addQuotas fun q hq => ?_))
    · rw [Table.eq_of_clash hq' (hremoved q hq).1 (Quota.clash_iff.2 (.inl hid)), (hremoved q hq).2]
      exact hapi
    · simp only [PlatformDb.HasApiOf, PlatformDb.ApiOf, deleteQuotas_apis, hadded q hq]
      exact hapi
  | setRateLimit caller orgId apiId algorithm spec =>
    obtain ⟨hp, hapi, ⟨id, hdb⟩ | ⟨rule, hr, hrule, hdb⟩ | hdb⟩ := h
    · exact member orgId hp.isMember (hdb ▸ .one (.addRateLimitRule _) hapi)
    · refine member orgId hp.isMember
        (hdb ▸ .one (.setRateLimitRule rule.id algorithm spec) fun r' hr' hid => ?_)
      rw [Table.eq_of_clash hr' hr (RateLimitRule.clash_iff.2 (.inl hid)), hrule]
      exact hapi
    · exact .inl hdb
  | getApi caller orgId apiId => exact .inl h
  | getQuota caller orgId apiId => exact .inl h
  | getRateLimit caller orgId apiId => exact .inl h
  | listKeys caller orgId apiId => exact .inl h
  | key r =>
    obtain ⟨orgId, hm, hwrites⟩ := ApiKeyRequest.Effect.writes h
    exact member orgId hm hwrites

end

end TrafficPlatform
