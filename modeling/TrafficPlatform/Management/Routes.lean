import TrafficPlatform.Management.Catalog

/-!
# What the management routes do

`ManagementRequest.Effect` says what a request that returns has seen and written; a request that
raises leaves the database as it was. The claims about runs of management requests are read off the
effects.
-/

namespace TrafficPlatform
open Kit

/-! ### The effects -/

/-- What an organization request that runs alone has seen and written when it returns. -/
def OrgRequest.Effect (cfg : Config) (db : OrgDb) (w : List OrgOp) : OrgRequest → Prop
  | .updateOrganization caller orgId name =>
    db.Permits orgId caller .orgUpdate ∧ (w = [] ∨ w = [.setOrganizationName orgId name])
  | r => r.Writes cfg (· = ·) w db

/-- The database after the audit log got a row and the outbox its event. -/
def PlatformDb.Audited (db db' : PlatformDb) : Prop := ∃ r o, db' = (db.addAuditLog r).addOutbox o

def ApiKeyRequest.Effect (cfg : Config) (t : Transition) : ApiKeyRequest → Prop
  | .createKey caller orgId apiId _ _ _ => t.db.orgs.Permits orgId caller .keyCreate ∧ ∃ k,
    t.Issues cfg orgId apiId k ∧ (t.db.addApiKey k).Audited t.db'
  | .rotateKey caller orgId apiId keyId _ gracePeriodHours =>
    t.db.orgs.Permits orgId caller .keyRotate ∧ ∃ old new time,
    t.Issues cfg orgId apiId new ∧ new.expiresAt = none ∧ t.db.KeyOf apiId keyId old ∧
      old.revokedAt = none ∧
      t.world.clock ≤ time ∧ time ≤ t.world'.clock ∧
        ((t.db.addApiKey new).changeApiKey keyId
          (ApiKeys.ApiKeyService.grace old gracePeriodHours new.id time)).Audited t.db'
  | .revokeKey caller orgId apiId keyId _ => t.db.orgs.Permits orgId caller .keyRevoke ∧
    (∃ api, t.db.ApiOf orgId apiId api) ∧ ∃ key, t.db.KeyOf apiId keyId key ∧
      ((key.revokedAt.isSome = true ∧ t.db.Audited t.db') ∨
        (key.revokedAt = none ∧ ∃ time,
          (t.db.changeApiKey keyId { revokedAt := some time }).Audited t.db'))

def ManagementRequest.Effect (cfg : Config) (t : Transition) : ManagementRequest → Prop
  | .createOrganization caller _ _ => t.db.orgs.IsActive caller ∧ ∃ org m, t.Creates caller org m ∧
    t.db' = (ManagementOp.org (.addMember m)).apply (t.db.addOrganization org)
  | .organization r =>
    ∃ w, r.Effect cfg t.db.orgs w ∧ t.db' = applyAll managementTables.backend (w.map .org) t.db
  | .createApi caller orgId _ _ _ =>
    t.db.orgs.Permits orgId caller .apiCreate ∧ ∃ api : Api, api.organizationId = orgId ∧
    t.world.Issues t.world' api.id ∧ (ManagementOp.addApi api).check t.db = .ok () ∧
      t.db' = t.db.addApi api
  | .updateApi caller orgId apiId change =>
    t.db.orgs.Permits orgId caller .apiUpdate ∧ (∃ api, t.db.ApiOf orgId apiId api) ∧
    (t.db' = t.db ∨ t.db' = t.db.changeApi apiId change)
  | .deleteApi caller orgId apiId =>
    t.db.orgs.Permits orgId caller .apiDelete ∧ (∃ api, t.db.ApiOf orgId apiId api) ∧
    t.db' = t.db.deleteApi apiId
  | .addVersion caller orgId apiId _ _ _ =>
    t.db.orgs.Permits orgId caller .apiUpdate ∧ (∃ api, t.db.ApiOf orgId apiId api) ∧
    ∃ v : ApiVersion, v.apiId = apiId ∧ (ManagementOp.addApiVersion v).check t.db = .ok () ∧
      t.db' = t.db.addApiVersion v
  | .deleteVersion caller orgId apiId versionId => t.db.orgs.Permits orgId caller .apiUpdate ∧
    (∃ api, t.db.ApiOf orgId apiId api) ∧ t.db.HasVersion apiId versionId ∧
      t.db' = t.db.deleteApiVersion versionId
  | .setQuota caller orgId apiId _ =>
    t.db.orgs.Permits orgId caller .apiUpdate ∧ (∃ api, t.db.ApiOf orgId apiId api) ∧
    ∃ removed added : List Quota, (∀ q ∈ removed, q ∈ t.db.quotas.rows ∧ q.apiId = apiId) ∧
      (∀ q ∈ added, q.apiId = apiId) ∧
      t.db' = added.foldl PlatformDb.addQuota (removed.foldl (fun db q => db.deleteQuota q.id) t.db)
  | .setRateLimit caller orgId apiId algorithm spec => t.db.orgs.Permits orgId caller .apiUpdate ∧
    (∃ api, t.db.ApiOf orgId apiId api) ∧
      ((∃ id, t.db' = t.db.addRateLimitRule
        ⟨id, apiId, algorithm, spec.requests, spec.windowSeconds, spec.burst⟩) ∨
        (∃ rule ∈ t.db.rateLimitRules.rows, rule.apiId = apiId ∧
          t.db' = t.db.setRateLimitRule rule.id algorithm spec) ∨
        t.db' = t.db)
  | .key r => r.Effect cfg t
  | .getApi _ _ _ => t.db' = t.db
  | .getQuota _ _ _ => t.db' = t.db
  | .getRateLimit _ _ _ => t.db' = t.db
  | .listKeys _ _ _ => t.db' = t.db

/-! ### The organization requests -/

open Organizations in
theorem OrgRequest.prog_effect (cfg : Config) (r : OrgRequest) (db : OrgDb) :
    Org.Safe (· = ·) (r.prog cfg) (fun _ d w db' => r.Effect cfg db' (w ++ d)) [] [] db := by
  cases r with
  | updateOrganization caller orgId name =>
    refine authorize_safe .ofEq fun m db₁ _ _ hp => ?_
    simp only [OrganizationService.updateOrganization, OrganizationService.getOrganization,
      OrganizationRepository.get,
      Prog.bind_assoc']
    refine Prog.Safe.query_nil fun db₂ h₂ => ?_
    subst h₂
    split
    · trivial
    rename_i org horg
    have hid : org.id = orgId := by simpa using Table.pred_of_one horg
    simp only [Prog.pure_eq, Prog.ret_bind]
    split
    · rw [Prog.bind_assoc']
      refine Prog.Safe.set OrgRely.ofEq.trans ?_
      rintro _ rfl -
      exact ⟨hp.permits, .inr (by simp [hid])⟩
    · rintro _ rfl -
      exact ⟨hp.permits, .inl rfl⟩
  | deleteOrganization caller orgId => exact prog_safe .ofEq _ db
  | addMember caller orgId email role => exact prog_safe .ofEq _ db
  | updateMemberRole caller orgId memberId role => exact prog_safe .ofEq _ db
  | removeMember caller orgId memberId => exact prog_safe .ofEq _ db

/-! ### The handlers -/

namespace Management

variable {s : Session managementTables.backend}

theorem organization_ends (cfg : Config) (r : OrgRequest) (hd : s.dirty = []) : (r.prog cfg).embed.Ends
    (fun _ s' => ∃ w, r.Effect cfg s.db.orgs w ∧
      applyAll managementTables.backend s'.dirty s'.db = applyAll managementTables.backend
        (w.map .org) s.db)
    (fun _ _ => True) s := by
  obtain ⟨db, _, world, envs⟩ := s
  cases hd
  have hsafe := @Prog.Safe.embed _ managementTables.backend _ orgPart _ _ _ _ db
    (r.prog_effect cfg db.orgs)
  refine hsafe.ends.mono (fun a s' h => ?_) fun _ _ h => h
  obtain ⟨_, hdb, d, w, hd', rfl, heffect⟩ := h
  refine ⟨w ++ d, heffect, ?_⟩
  rw [hd', hdb, ← applyAll_append, ← List.map_append]
  rfl

theorem audited_ends {createdAt : Time} {action resourceType : String}
    {organizationId actorUserId resourceId : Option Uuid} {ip : Option String}
    {metadata : List (String × Uuid)} {s : Session platformTables.backend} (hd : s.dirty = []) :
    (ApiKeys.AuditLogService.record createdAt action resourceType organizationId actorUserId
      resourceId ip metadata).Ends
      (fun _ s' => s.db.Audited (applyAll platformTables.backend s'.dirty s'.db) ∧
          s.world.Grown s'.world) (fun _ _ => True) s :=
  (ApiKeys.auditRecord_ends createdAt action resourceType organizationId actorUserId resourceId ip
    metadata hd).mono
    (fun _ _ ⟨r, o, h⟩ => ⟨⟨r, o, h.committed⟩, h.world⟩) fun _ _ h => h

theorem authorized_ends {α : Type} {permission : Permission} {caller orgId : Uuid}
    {k : Time → Platform α}
    {Q : α → Session platformTables.backend → Prop} {s : Session platformTables.backend}
    (h : ∀ time s', Reaches s s.db s.dirty s' → s.db.orgs.Permits orgId caller permission →
      (k time).Ends Q (fun _ _ => True) s') :
    (do
      let time ← now
      let _ ← ofOrg (OrgRequest.authorize permission caller orgId)
      k time).Ends Q (fun _ _ => True) s := by
  refine (clock_ends s).bind fun time s₁ ⟨_, _, h₁⟩ => ?_
  refine Prog.Ends.bind (any_error (ofOrg_ends (queries_authorize permission caller orgId)
    ((Organizations.authorize_ends permission caller orgId _).mono (fun _ _ h => h.2)
      fun _ _ h => h.2))) ?_
  rintro m s' ⟨hs, hp, -⟩
  rw [hs]
  refine h time s₁ h₁ ?_
  rw [← h₁.db]
  exact hp

theorem key_ends (cfg : Config) (r : ApiKeyRequest) {s : Session platformTables.backend}
    (hd : s.dirty = []) : (r.prog cfg).Ends
    (fun _ s' => r.Effect cfg ⟨s.db, s.world, s.envs,
      applyAll platformTables.backend s'.dirty s'.db, s'.world⟩)
    (fun _ _ => True) s := by
  cases r with
  | createKey caller orgId apiId ip name expiresInDays =>
    refine authorized_ends fun createdAt s₁ h₁ hp => ?_
    refine (ApiKeys.createKey_ends orgId apiId name expiresInDays (some caller)
      (h₁.dirty.trans hd)).bind fun issued s₂ ⟨hissues, _, h₂⟩ => ?_
    refine (audited_ends h₂.dirty).bind
      fun _ s₃ ⟨h₃, hw⟩ => ⟨hp, issued.1, hissues.widen h₁.db h₁.world hw h₁.envs, ?_⟩
    rw [h₂.db, h₁.db] at h₃
    exact h₃
  | rotateKey caller orgId apiId keyId ip gracePeriodHours =>
    refine authorized_ends fun createdAt s₁ h₁ hp => ?_
    refine (ApiKeys.rotateKey_ends orgId apiId keyId gracePeriodHours (some caller)
      (h₁.dirty.trans hd)).bind ?_
    rintro issued s₂ ⟨hissues, hnever, old, time, hold, hrevoked, htime, htime', h₂⟩
    refine (audited_ends h₂.dirty).bind fun _ s₃ ⟨h₃, hw⟩ =>
      ⟨hp, old, issued.1, time, hissues.widen h₁.db h₁.world hw h₁.envs, hnever, h₁.db ▸ hold,
        hrevoked, ?_, ?_, ?_⟩
    · exact h₁.world.clock.trans htime
    · exact htime'.le.trans hw.clock
    · rw [h₂.db, h₁.db] at h₃
      exact h₃
  | revokeKey caller orgId apiId keyId ip =>
    refine authorized_ends fun createdAt s₁ h₁ hp => ?_
    refine (ApiKeys.revokeKey_ends orgId apiId keyId (h₁.dirty.trans hd)).bind ?_
    rintro _ s₂ ⟨hapi, key, hkey, hcase⟩
    rw [h₁.db] at hapi hkey hcase
    refine Prog.Ends.bind (audited_ends (hcase.elim (fun h => h.2.dirty) fun ⟨_, _, h⟩ => h.dirty))
      fun _ s₃ ⟨h₃, _⟩ => ⟨hp, hapi, key, hkey, ?_⟩
    rcases hcase with ⟨hrevoked, h₂⟩ | ⟨hrevoked, time, h₂⟩ <;> rw [h₂.db] at h₃
    · exact .inl ⟨hrevoked, h₃⟩
    · exact .inr ⟨hrevoked, time, h₃⟩

theorem route_ends {α : Type} {permission : Permission} {caller orgId : Uuid} {k : Management α}
    {Q : α → Session managementTables.backend → Prop}
    (h : s.db.orgs.Permits orgId caller permission → k.Ends Q (fun _ _ => True) s) :
    (do
      let _ ← ManagementRequest.authorize permission caller orgId
      k).Ends Q (fun _ _ => True) s := by
  refine (any_error (authorize_ends permission caller orgId s)).bind ?_
  rintro m s' ⟨hs, hp, -⟩
  rw [hs]
  exact h hp

end Management

open Management in
theorem ManagementRequest.prog_ends (cfg : Config) (r : ManagementRequest)
    {s : Session managementTables.backend} (hd : s.dirty = []) :
    (r.prog cfg).Ends
      (fun _ s' => r.Effect cfg ⟨s.db, s.world, s.envs,
        applyAll managementTables.backend s'.dirty s'.db, s'.world⟩)
      (fun _ _ => True) s := by
  cases r with
  | createOrganization caller name slug =>
    refine Prog.Ends.bind (any_error (Org.queries_ends (queries_getCurrentUser caller)
      ((Organizations.getCurrentUser_ends caller _).mono (fun _ _ h => h.2) fun _ _ h => h.2))) ?_
    rintro u s' ⟨hs, hid, hactive⟩
    rw [hs]
    refine (OrganizationService.createOrganization_ends cfg u name slug hd).bind ?_
    rintro org s₁ ⟨m, hcreates, h₁⟩
    rw [hid] at hcreates
    exact ⟨hactive, org, m,
      ⟨hcreates.id, hcreates.organizationId, hcreates.userId, hcreates.role, hcreates.admitted,
      hcreates.memberAdmitted⟩, h₁.committed⟩
  | organization r => exact (organization_ends cfg r hd).bind fun _ _ h => h
  | createApi caller orgId name slug description =>
    refine route_ends
      fun hp => (ApiCatalogService.createApi_ends cfg orgId name slug description hd).bind ?_
    rintro _ s₁ ⟨api, horg, hid, hcheck, h₁⟩
    exact ⟨hp, api, horg, hid, hcheck, h₁.committed⟩
  | getApi caller orgId apiId =>
    refine route_ends fun _ => (any_error (ApiCatalogService.getApi_ends orgId apiId s)).bind ?_
    rintro _ s' ⟨hs, -⟩
    rw [hs]
    exact (Reaches.refl s).committed.trans (by rw [hd]; rfl)
  | updateApi caller orgId apiId change =>
    refine route_ends fun hp => (ApiCatalogService.updateApi_ends orgId apiId change hd).bind ?_
    rintro _ s₁ ⟨hapi, hcase⟩
    exact ⟨hp, hapi, hcase.imp Reaches.committed Reaches.committed⟩
  | deleteApi caller orgId apiId =>
    refine route_ends fun hp => (ApiCatalogService.deleteApi_ends orgId apiId hd).bind ?_
    rintro _ s₁ ⟨hapi, h₁⟩
    exact ⟨hp, hapi, h₁.committed⟩
  | addVersion caller orgId apiId version upstreamBaseUrl isActive =>
    refine route_ends
      fun hp => (ApiCatalogService.addVersion_ends orgId apiId version upstreamBaseUrl
        isActive hd).bind ?_
    rintro v s₁ ⟨hapi, hv, -, hcheck, h₁⟩
    exact ⟨hp, hapi, v, hv, hcheck, h₁.committed⟩
  | deleteVersion caller orgId apiId versionId =>
    refine route_ends fun hp => (ApiCatalogService.deleteVersion_ends orgId apiId versionId hd).bind ?_
    rintro _ s₁ ⟨hapi, hv, h₁⟩
    exact ⟨hp, hapi, hv, h₁.committed⟩
  | setQuota caller orgId apiId quotas =>
    refine route_ends fun hp => (ApiCatalogService.setQuotas_ends orgId apiId quotas hd).bind ?_
    rintro _ s₁ ⟨hapi, removed, added, hremoved, hadded, h₁⟩
    exact ⟨hp, hapi, removed, added, hremoved, hadded, h₁.committed⟩
  | getQuota caller orgId apiId =>
    refine route_ends
      fun _ => Prog.Ends.bind (Q := fun _ s' => Reaches s s.db [] s') ?_ fun _ _ h => h.committed
    refine (any_error (ApiCatalogService.getApi_ends orgId apiId s)).bind ?_
    rintro _ s' ⟨hs, -⟩
    rw [hs]
    exact (ApiCatalogService.listForApi_ends apiId hd).mono (fun _ _ h => h.2) fun _ _ h => h
  | setRateLimit caller orgId apiId algorithm spec =>
    refine route_ends
      fun hp => (ApiCatalogService.setRateLimit_ends orgId apiId algorithm spec hd).bind ?_
    rintro _ s₁ ⟨hapi, hcase⟩
    refine ⟨hp, hapi, ?_⟩
    rcases hcase with ⟨id, h⟩ | ⟨rule, hmem, hrule, h⟩ | h
    · exact .inl ⟨id, h.committed⟩
    · exact .inr (.inl ⟨rule, hmem, hrule, h.committed⟩)
    · exact .inr (.inr h.committed)
  | getRateLimit caller orgId apiId =>
    refine route_ends
      fun _ => Prog.Ends.bind (Q := fun _ s' => Reaches s s.db [] s') ?_ fun _ _ h => h.committed
    refine (any_error (ApiCatalogService.getApi_ends orgId apiId s)).bind ?_
    rintro _ s' ⟨hs, -⟩
    rw [hs]
    refine (Platform.queries_ends (Prog.queries_query _) (Prog.ends_true _ _)).mono ?_
      fun _ _ _ => trivial
    rintro rule s' ⟨hs, -⟩
    rw [hs, ← hd]
    exact Reaches.refl s
  | listKeys caller orgId apiId =>
    refine route_ends
      fun _ => Prog.Ends.bind (Q := fun _ s' => Reaches s s.db [] s') ?_ fun _ _ h => h.committed
    refine (any_error (ApiCatalogService.getApi_ends orgId apiId s)).bind ?_
    rintro _ s' ⟨hs, -⟩
    rw [hs, ← hd]
    exact Prog.ends_query (Reaches.refl s)
  | key r =>
    refine (Platform.embed_ends hd (key_ends cfg r (s := platformPart.session s []) rfl)).bind ?_
    rintro _ s' ⟨d, hd', h⟩
    have hdb := platformPart.db_applyAll d s'.db
    rw [show d.map platformPart.op = s'.dirty from hd'.symm] at hdb
    show ManagementRequest.Effect cfg
      ⟨s.db, s.world, s.envs, platformPart.db (applyAll managementTables.backend s'.dirty s'.db),
        s'.world⟩ (.key r)
    rw [hdb]
    exact h

theorem ManagementRequest.effect (cfg : Config) (r : ManagementRequest)
    (envs : Nat → Env PlatformInput) (s : State managementTables.backend) :
    ((∃ a, (scope (r.prog cfg) envs s).1 = .ok a) ∧
        r.Effect cfg ⟨s.db, s.world, envs, (scope (r.prog cfg) envs s).2.db,
          (scope (r.prog cfg) envs s).2.world⟩) ∨
      (∃ e, (scope (r.prog cfg) envs s).1 = .error e) ∧ (scope (r.prog cfg) envs s).2.db = s.db := by
  rcases (r.prog_ends cfg (s := ⟨s.db, [], s.world, envs⟩) rfl).scope with
    ⟨a, s', db, h, hflush, hout⟩ | ⟨e, s', -, hout⟩ <;> rw [hout]
  · refine .inl ⟨⟨a, rfl⟩, ?_⟩
    rw [flushAll_eq hflush]
    exact h
  · exact .inr ⟨⟨e, rfl⟩, rfl⟩

end TrafficPlatform
