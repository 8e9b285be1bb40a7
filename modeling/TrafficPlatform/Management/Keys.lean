import TrafficPlatform.Management.Effects
import TrafficPlatform.Organizations.Escalation

/-!
# What the key management does

The services of the key routes, run alone: the authorization reads, a creation and a rotation issue
one key, and a rotation and a revocation change one key of the API.
-/

namespace TrafficPlatform
open Kit

/-- The request is refused with an `AppError`. -/
def Failure.IsApp (e : Failure) : Prop := ∃ a, e = .app a

/-- The id was handed out between the two worlds. -/
def World.Issues {X : Type} (w w' : World X) (id : Uuid) : Prop := w.supply ≤ id ∧ id < w'.supply

/-- The API is there, and the organization's. -/
def PlatformDb.ApiOf (db : PlatformDb) (organizationId apiId : Uuid) (api : Api) : Prop :=
  api ∈ db.apis.rows ∧ api.id = apiId ∧ api.organizationId = organizationId

/-- The key is there, and the API's. -/
def PlatformDb.KeyOf (db : PlatformDb) (apiId keyId : Uuid) (key : ApiKey) : Prop :=
  key ∈ db.apiKeys.rows ∧ key.id = keyId ∧ key.apiId = apiId

/-- Every membership has a built-in role. -/
def OrgDb.BuiltIn (db : OrgDb) : Prop := ∀ m ∈ db.members.rows, ∃ role : RoleName,
    db.MemberHasRole m role.name

/-- The database and the world before and after a request, and what its effects read from outside. -/
structure Transition where
  db : PlatformDb
  world : World PlatformOutside
  envs : Nat → Env PlatformInput
  db' : PlatformDb
  world' : World PlatformOutside

/-- The key was issued for the API and fits in: its id and its secret parts are new. -/
structure Transition.Issues (cfg : Config) (t : Transition) (organizationId apiId : Uuid)
    (k : ApiKey) : Prop where
  exists_api : ∃ api, t.db.ApiOf organizationId apiId api
  id : t.world.Issues t.world' k.id
  api : k.apiId = apiId
  organization : k.organizationId = organizationId
  revokedAt : k.revokedAt = none
  rotatedTo : k.rotatedTo = none
  keyHash : ∃ n m,
    k.keyHash = cfg.hashToken (apiKeyPrefix ++ "_" ++ (t.envs n).text ++ "_" ++ (t.envs m).text)
  admitted : (PlatformOp.addApiKey k).check t.db = .ok ()

theorem Transition.Issues.widen {cfg : Config} {t t₀ : Transition} {organizationId apiId : Uuid}
    {k : ApiKey} (h : t.Issues cfg organizationId apiId k) (hdb : t.db = t₀.db)
    (hw : t₀.world.Grown t.world) (hw' : t.world'.Grown t₀.world')
    (henvs : ∃ n, ∀ m, t.envs m = t₀.envs (m + n)) : t₀.Issues cfg organizationId apiId k := by
  obtain ⟨n, hn⟩ := henvs
  obtain ⟨x, y, hhash⟩ := h.keyHash
  have hid : t₀.world.Issues t₀.world' k.id := ⟨hw.supply.trans h.id.1, h.id.2.trans_le hw'.supply⟩
  exact ⟨hdb ▸ h.exists_api, hid, h.api, h.organization, h.revokedAt, h.rotatedTo,
    ⟨x + n, y + n, by rw [hhash, hn, hn]⟩,
    hdb ▸ h.admitted⟩

/-! ### Authorization -/

namespace Organizations

variable {s : Session orgTables.backend}

theorem getCurrentUser_ends (caller : Uuid) (s : Session orgTables.backend) :
    (getCurrentUser caller).Ends
    (fun u s' => s' = s ∧ u.id = caller ∧ s.db.IsActive caller) (fun e s' => s' = s ∧ e.IsApp) s := by
  refine (queries_getCurrentUser caller).ends (Prog.ends_bind_ok rfl ?_)
  dsimp only
  cases hone : s.db.users.one fun u => u.id == caller with
  | none => exact ⟨_, rfl⟩
  | some u =>
    have hid : u.id = caller := by simpa using Table.pred_of_one hone
    dsimp only
    split
    · exact ⟨_, rfl⟩
    · rename_i hactive
      exact ⟨hid, u, Table.mem_of_one hone, hid, by simpa using hactive⟩

/-- The caller is let in who is active and whose role grants the permission. -/
theorem authorize_ends (permission : Permission) (caller orgId : Uuid) (s : Session orgTables.backend) :
    (OrgRequest.authorize permission caller orgId).Ends
      (fun m s' => s' = s ∧ s.db.Permits orgId caller permission ∧ m ∈ s.db.members.rows)
      (fun e s' => s' = s ∧ (s.db.BuiltIn → e.IsApp)) s := by
  refine (queries_authorize permission caller orgId).ends ?_
  refine Prog.Ends.bind
    ((getCurrentUser_ends caller s).mono (fun _ _ => id) fun e s' h => fun _ => h.2) ?_
  rintro u s' ⟨rfl, hid, hactive⟩
  refine Prog.ends_bind_ok rfl ?_
  dsimp only
  cases hm : s'.db.members.one fun m => m.userId == u.id && m.organizationId == orgId with
  | none =>
    simp only [Option.bind_none]
    split <;> exact fun _ => ⟨_, rfl⟩
  | some m =>
    have hmem := Table.mem_of_one hm
    have hp := Table.pred_of_one hm
    simp only [Bool.and_eq_true, beq_iff_eq] at hp
    obtain ⟨r, hr, hrid⟩ := (s'.db.refers m hmem).2.2
    have hrole : s'.db.roles.one (fun r => r.id == m.roleId) = some r :=
      Table.one_eq_some hr (by simpa using hrid) fun b hb => Role.clash_iff.2 (.inl (by simp_all))
    simp only [Option.bind_some, hrole, Option.map_some]
    cases hname : RoleName.ofName r.name with
    | none =>
      refine fun hbuiltin => ?_
      obtain ⟨role, r', hr', hrid', hname'⟩ := hbuiltin m hmem
      rw [OrgDb.role_eq hr hr' (.inl (hrid.trans hrid'.symm)), hname', RoleName.ofName_name] at hname
      cases hname
    | some role =>
      dsimp only
      split
      · exact fun _ => ⟨_, rfl⟩
      · rename_i hgrants
        refine ⟨⟨hactive, m, hmem, hp.2, hp.1.trans hid, role, ?_, by simpa using hgrants⟩, hmem⟩
        exact ⟨r, hr, hrid, (RoleName.name_of_ofName hname).symm⟩

end Organizations

/-- A program of the organization service that only queries, in the platform. -/
theorem ofOrg_ends {α : Type} {p : Org α} (hq : p.Queries) {P : α → Prop} {F : Failure → Prop}
    {s : Session platformTables.backend}
    (h : p.Ends (fun a _ => P a) (fun e _ => F e)
      ⟨s.db.orgs, [], { s.world with outside := () },
        fun n => ⟨(s.envs n).time, (s.envs n).text, (s.envs n).number, ()⟩⟩) :
    (ofOrg p).Ends (fun a s' => s' = s ∧ P a) (fun e s' => s' = s ∧ F e) s := by
  induction p with
  | ret a => exact ⟨rfl, h⟩
  | raise e => exact ⟨rfl, h⟩
  | stmt f k ih =>
    unfold Prog.Ends at h ⊢
    rw [ofOrg]
    simp only [Prog.eval] at h ⊢
    cases hf : f (fun _ => false) s.db.orgs with
    | error e =>
      rw [hf] at h
      exact ⟨rfl, h⟩
    | ok r =>
      rw [hf] at h
      obtain ⟨hops, hk⟩ := hq _ _ _ _ hf
      dsimp only at h
      rw [hops] at h
      exact ih _ hk h
  | io f k ih => exact hq.elim
  | assign o p ih => exact hq.elim
  | flush p ih => exact hq.elim

/-! ### The keys -/

namespace ApiKeys

variable {cfg : Config} {s : Session platformTables.backend}

theorem queries_getApi (organizationId apiId : Uuid) :
    (ApiCatalogService.getApi organizationId apiId).Queries := by
  refine (Prog.queries_query _).bind fun api => ?_
  cases api <;> trivial

theorem queries_getKey (organizationId apiId keyId : Uuid) :
    (ApiKeyService.getKey organizationId apiId keyId).Queries := by
  refine (queries_getApi _ _).bind fun _ => (Prog.queries_query _).bind fun key => ?_
  cases key <;> trivial

theorem getApi_ends (organizationId apiId : Uuid) (s : Session platformTables.backend) :
    (ApiCatalogService.getApi organizationId apiId).Ends
      (fun api s' => s' = s ∧ s.db.ApiOf organizationId apiId api)
      (fun e s' => s' = s ∧ e.IsApp ∧ ∀ api, ¬ s.db.ApiOf organizationId apiId api) s := by
  refine (queries_getApi organizationId apiId).ends (Prog.ends_bind_ok rfl ?_)
  dsimp only
  cases hone : s.db.apis.one fun a => a.id == apiId && a.organizationId == organizationId with
  | none =>
    refine ⟨⟨_, rfl⟩, fun api ⟨hmem, hid, horg⟩ => ?_⟩
    exact Table.one_eq_none.1 hone api hmem (by simp [hid, horg])
  | some api =>
    have hp := Table.pred_of_one hone
    simp only [Bool.and_eq_true, beq_iff_eq] at hp
    exact ⟨Table.mem_of_one hone, hp.1, hp.2⟩

theorem getKey_ends (organizationId apiId keyId : Uuid) (s : Session platformTables.backend) :
    (ApiKeyService.getKey organizationId apiId keyId).Ends
      (fun key s' => s' = s ∧ (∃ api, s.db.ApiOf organizationId apiId api) ∧ s.db.KeyOf apiId keyId key)
      (fun e s' => s' = s ∧ e.IsApp) s := by
  refine (queries_getKey organizationId apiId keyId).ends ?_
  refine Prog.Ends.bind
    ((getApi_ends organizationId apiId s).mono (fun _ _ => id) fun e s' h => h.2.1) ?_
  rintro api s' ⟨rfl, hapi⟩
  refine Prog.ends_bind_ok rfl ?_
  dsimp only
  cases hone : s'.db.apiKeys.one fun k => k.id == keyId && k.apiId == apiId with
  | none => exact ⟨_, rfl⟩
  | some key =>
    have hp := Table.pred_of_one hone
    simp only [Bool.and_eq_true, beq_iff_eq] at hp
    exact ⟨⟨api, hapi⟩, Table.mem_of_one hone, hp.1, hp.2⟩

theorem generateApiKey_ends (cfg : Config) (s : Session platformTables.backend) :
    (generateApiKey cfg).Ends
    (fun g s' => Reaches s s.db s.dirty s' ∧
      ∃ n m, g.keyHash =
        cfg.hashToken (apiKeyPrefix ++ "_" ++ (s.envs n).text ++ "_" ++ (s.envs m).text))
    (fun _ _ => True) s := by
  refine (random_ends s).bind
    fun publicId s₁ ⟨⟨n, hpublic⟩, h₁⟩ => (random_ends s₁).bind
      fun secret s₂ ⟨⟨m, hsecret⟩, h₂⟩ => ?_
  obtain ⟨m', henvs⟩ := h₁.envs
  rw [h₁.db, h₁.dirty] at h₂
  exact ⟨h₁.trans h₂, n, m + m', by rw [hpublic, hsecret, henvs]⟩

theorem add_ends (k : ApiKey) (hd : s.dirty = []) : (ApiKeyRepository.add k).Ends
    (fun _ s' => (PlatformOp.addApiKey k).check s.db = .ok () ∧ Reaches s (s.db.addApiKey k) [] s')
        (fun _ _ => True) s := by
  refine (set_ends _ s).bind fun _ s₁ h₁ => ?_
  rw [hd] at h₁
  refine (flush_ends (T := platformTables) h₁.dirty).mono (fun _ s₂ h₂ => ?_) fun _ _ h => h
  rw [h₁.db] at h₂
  exact ⟨h₂.1, h₁.trans h₂.2⟩

abbrev between (s s' : Session platformTables.backend) : Transition :=
  ⟨s.db, s.world, s.envs, s'.db, s'.world⟩

/-- The new key expires only when it is asked to. -/
theorem createKey_ends (organizationId apiId : Uuid) (name : String) (expiresInDays : Option Nat)
    (createdByUserId : Option Uuid) (hd : s.dirty = []) :
    (ApiKeyService.createKey cfg organizationId apiId name expiresInDays createdByUserId).Ends
      (fun issued s' => (between s s').Issues cfg organizationId apiId issued.1 ∧
        (expiresInDays = none → issued.1.expiresAt = none) ∧
        Reaches s (s.db.addApiKey issued.1) [] s')
      (fun _ _ => True) s := by
  refine (any_error (getApi_ends organizationId apiId s)).bind ?_
  rintro api s' ⟨hs, hapi⟩
  rw [hs]
  refine (generateApiKey_ends cfg s).bind fun generated s₁ ⟨h₁, hhash⟩ => ?_
  have finish : ∀ expiresAt s₂, (expiresInDays = none → expiresAt = none) →
      Reaches s₁ s₁.db s₁.dirty s₂ →
      Prog.Ends (do
        let id ← uuid4
        let record : ApiKey := {
          id, apiId, organizationId, name, keyPrefix := generated.keyPrefix,
          lastFour := generated.lastFour, keyHash := generated.keyHash, createdByUserId, expiresAt,
          revokedAt := none, rotatedTo := none }
        ApiKeyRepository.add record
        pure (record, generated.fullKey))
          (fun issued s' => (between s s').Issues cfg organizationId apiId issued.1 ∧
          (expiresInDays = none → issued.1.expiresAt = none) ∧
            Reaches s (s.db.addApiKey issued.1) [] s')
        (fun _ _ => True) s₂ := by
    intro expiresAt s₂ hnever h₂
    refine (uuid_ends s₂).bind fun id s₃ ⟨hsupply, hissued, h₃⟩ => ?_
    have hreach := (h₁.trans h₂).trans h₃
    rw [h₂.db, h₁.db, h₂.dirty, h₁.dirty, hd] at hreach
    refine (add_ends _ hreach.dirty).bind fun _ s₄ h₄ => ?_
    rw [hreach.db] at h₄
    have hid := (h₁.world.trans _ _ _ h₂.world).supply.trans hsupply
    have hid' := lt_of_lt_of_le hissued h₄.2.world.supply
    exact ⟨⟨⟨api, hapi⟩, ⟨hid, hid'⟩, rfl, rfl, rfl, rfl, hhash, h₄.1⟩, hnever, hreach.trans h₄.2⟩
  cases expiresInDays with
  | none => exact finish none s₁ (fun _ => rfl) (.refl s₁)
  | some days => exact (clock_ends s₁).bind fun time s₂ h₂ => finish _ s₂ (fun h => by cases h) h₂.2.2

/-- The key is revoked when it was not revoked before. -/
theorem revokeKey_ends (organizationId apiId keyId : Uuid) (hd : s.dirty = []) :
    (ApiKeyService.revokeKey organizationId apiId keyId).Ends
      (fun _ s' => (∃ api, s.db.ApiOf organizationId apiId api) ∧ ∃ key, s.db.KeyOf apiId keyId key ∧
        ((key.revokedAt.isSome = true ∧ Reaches s s.db [] s') ∨
          (key.revokedAt = none ∧ ∃ time,
            Reaches s (s.db.changeApiKey keyId { revokedAt := some time }) [] s')))
      (fun _ _ => True) s := by
  refine (any_error (getKey_ends organizationId apiId keyId s)).bind ?_
  rintro key s' ⟨hs, hapi, hkey⟩
  rw [hs]
  cases hrevoked : key.revokedAt with
  | some time =>
    exact (flush_ends_nil hd).mono
      (fun _ s₁ h₁ => ⟨hapi, key, hkey, .inl ⟨by rw [hrevoked]; rfl, h₁⟩⟩) fun _ _ => id
  | none =>
    refine (clock_ends s).bind fun time s₁ ⟨_, _, h₁⟩ => (set_ends _ s₁).bind fun _ s₂ h₂ => ?_
    rw [h₁.db, h₁.dirty, hd] at h₂
    refine (flush_ends (T := platformTables) h₂.dirty).mono (fun _ s₃ h₃ => ?_) fun _ _ => id
    rw [h₂.db] at h₃
    exact ⟨hapi, key, hkey, .inr ⟨hrevoked, time, hkey.2.1 ▸ (h₁.trans h₂).trans h₃.2⟩⟩

/-- An assignment with the time of the clock, made at once. -/
theorem stamped_ends {α : Type} (o : Time → PlatformOp) (a : α) (hd : s.dirty = []) : Prog.Ends (do
      let time ← now
      .set (o time)
      .flushSession
      return a : Platform α)
    (fun x s' => x = a ∧ s.world.clock ≤ s'.world.clock ∧
        Reaches s ((o s'.world.clock).apply s.db) [] s') (fun _ _ => True) s := by
  have hnow : (now : Platform Time).Ends
      (fun time s₁ => s₁.world.clock = time ∧ s.world.clock ≤ time ∧ Reaches s s.db s.dirty s₁)
      (fun _ _ => True) s :=
    Prog.ends_ask
      ⟨rfl, Nat.le_max_left _ _, rfl, rfl, ⟨Nat.le_max_left _ _, le_refl _, rfl, rfl⟩, 1,
        fun _ => rfl⟩
  refine hnow.bind ?_
  rintro time s₁ ⟨rfl, hle, h₁⟩
  refine Prog.ends_set_bind (Prog.ends_flush_bind (fun db hflush => ?_) fun _ _ => trivial)
  have hdb := flushAll_eq hflush
  dsimp only at hdb
  rw [h₁.dirty, hd, h₁.db] at hdb
  exact ⟨rfl, hle, hdb, rfl, h₁.world, h₁.envs⟩

/-- One key is issued, and the old one, which is not revoked, points to it; the rotation ends at the
time of its grace. -/
theorem rotateKey_ends (organizationId apiId keyId : Uuid) (gracePeriodHours : Nat)
    (createdByUserId : Option Uuid) (hd : s.dirty = []) :
      (ApiKeyService.rotateKey cfg organizationId apiId keyId gracePeriodHours createdByUserId).Ends
      (fun issued s' => (between s s').Issues cfg organizationId apiId issued.1 ∧
        issued.1.expiresAt = none ∧
        ∃ old time, s.db.KeyOf apiId keyId old ∧ old.revokedAt = none ∧ s.world.clock ≤ time ∧
          time = s'.world.clock ∧
          Reaches s ((s.db.addApiKey issued.1).changeApiKey keyId
            (ApiKeyService.grace old gracePeriodHours issued.1.id time)) [] s')
      (fun _ _ => True) s := by
  refine (any_error (getKey_ends organizationId apiId keyId s)).bind ?_
  rintro old s' ⟨hs, hapi, hold⟩
  rw [hs]
  cases hrevoked : old.revokedAt with
  | some time => trivial
  | none =>
    refine (createKey_ends organizationId apiId old.name none createdByUserId hd).bind
      fun issued s₁ ⟨hissues, hnever, h₁⟩ => ?_
    refine (stamped_ends
      (fun time => .changeApiKey old.id (ApiKeyService.grace old gracePeriodHours issued.1.id time))
        issued
      h₁.dirty).mono ?_ fun _ _ h => h
    rintro _ s₂ ⟨rfl, htime, h₂⟩
    rw [h₁.db] at h₂
    refine ⟨hissues.widen rfl (.refl _) h₂.world ⟨0, fun _ => rfl⟩, hnever rfl, old, s₂.world.clock,
      hold, hrevoked, ?_, rfl, ?_⟩
    · exact h₁.world.clock.trans htime
    · exact hold.2.1 ▸ h₁.trans h₂

theorem auditRecord_ends (createdAt : Time) (action resourceType : String)
    (organizationId actorUserId resourceId : Option Uuid) (ip : Option String)
    (metadata : List (String × Uuid)) (hd : s.dirty = []) :
    (AuditLogService.record createdAt action resourceType organizationId actorUserId resourceId ip
      metadata).Ends
      (fun _ s' => ∃ r o, Reaches s s.db [.addAuditLog r, .addOutbox o] s') (fun _ _ => True) s := by
  refine (uuid_ends s).bind fun id s₁ h₁ => (set_ends _ s₁).bind fun _ s₂ h₂ => ?_
  refine (clock_ends s₂).bind fun time s₃ h₃ => (uuid_ends s₃).bind fun eventId s₄ h₄ => ?_
  refine (uuid_ends s₄).bind
    fun outboxId s₅ h₅ => (set_ends _ s₅).mono (fun _ s₆ h₆ => ?_) fun _ _ h => h
  rw [h₅.2.2.db, h₄.2.2.db, h₃.2.2.db, h₂.db, h₁.2.2.db, h₅.2.2.dirty, h₄.2.2.dirty,
    h₃.2.2.dirty, h₂.dirty,
    h₁.2.2.dirty, hd] at h₆
  exact ⟨_, _, ((((h₁.2.2.trans h₂).trans h₃.2.2).trans h₄.2.2).trans h₅.2.2).trans h₆⟩

end ApiKeys

end TrafficPlatform
