import TrafficPlatform.AuditTrail
import TrafficPlatform.Kit.Later

/-!
# Which keys are used

Whatever transactions run at the same time: every gateway request that commits presents a key that
was stored at first or that an earlier commit handed out to a caller with the permission
(`keys_handed_out`), and none that arrives after a revocation has committed commits with the key
that was revoked (`revocations_hold`).
-/

namespace TrafficPlatform
open Kit Gateway GatewayService ApiKeys

/-! ### Revoked keys -/

/-- A key stays, and it stays revoked. -/
def PlatformDb.KeepsRevoked (db db' : PlatformDb) : Prop :=
  ∀ k ∈ db.apiKeys.rows, ∃ k' ∈ db'.apiKeys.rows, k'.id = k.id ∧ k'.keyHash = k.keyHash ∧
    (k.revokedAt.isSome = true → k'.revokedAt.isSome = true)

/-- The key is stored and revoked. -/
def PlatformDb.Revoked (keyId : Uuid) (db : PlatformDb) : Prop :=
  ∃ k ∈ db.apiKeys.rows, k.id = keyId ∧ k.revokedAt.isSome = true

/-- After these writes the key is revoked. -/
def PlatformDb.Revokes (keyId : Uuid) (w : List PlatformOp) (db : PlatformDb) : Prop :=
  db.Revoked keyId ∨ (∃ k ∈ db.apiKeys.rows, k.id = keyId) ∧ ∃ c, c.revokedAt.isSome = true ∧
    .changeApiKey keyId c ∈ w

namespace PlatformDb.KeepsRevoked

variable {db db' db'' : PlatformDb} {keyId : Uuid} {w : List PlatformOp}

theorem refl (db : PlatformDb) : db.KeepsRevoked db := fun k hk => ⟨k, hk, rfl, rfl, id⟩

theorem trans (h : db.KeepsRevoked db') (h' : db'.KeepsRevoked db'') : db.KeepsRevoked db'' := by
  intro k hk
  obtain ⟨k', hk', hid, hhash, hrevoked⟩ := h k hk
  obtain ⟨k'', hk'', hid', hhash', hrevoked'⟩ := h' k' hk'
  exact ⟨k'', hk'', hid'.trans hid, hhash'.trans hhash, hrevoked' ∘ hrevoked⟩

theorem of_rows (h : db'.apiKeys = db.apiKeys) : db.KeepsRevoked db' :=
  fun k hk => ⟨k, h ▸ hk, rfl, rfl, id⟩

theorem apply (o : PlatformOp) (db : PlatformDb) : db.KeepsRevoked (o.apply db) := by
  cases o with
  | addApiKey k =>
    simp only [PlatformOp.apply, PlatformDb.addApiKey]
    split
    · exact fun k' hk' => ⟨k', Table.mem_insert_of_mem hk', rfl, rfl, id⟩
    · exact refl db
  | changeApiKey id c =>
    refine fun k hk => ⟨_, mem_changeApiKey hk, ?_⟩
    split
    · refine ⟨rfl, rfl, fun hrevoked => ?_⟩
      simp only [ApiKey.changed]
      cases c.revokedAt with
      | none => exact hrevoked
      | some time => rfl
    · exact ⟨rfl, rfl, fun hrevoked => hrevoked⟩
  | incrementUsage i => exact of_rows (PlatformDb.incrementUsage_apiKeys db i)
  | _ => exact of_rows rfl

theorem applyAll (w : List PlatformOp) (db : PlatformDb) :
    db.KeepsRevoked (applyAll platformTables.backend w db) :=
  applyAll_invariant (B := platformTables.backend) (P := db.KeepsRevoked)
    (fun o _ db' h => h.trans (apply o db')) (refl db)

end PlatformDb.KeepsRevoked

namespace PlatformDb

variable {db db' : PlatformDb} {keyId : Uuid} {w : List PlatformOp}

theorem Revoked.mono (h : db.Revoked keyId) (hdb : db.KeepsRevoked db') : db'.Revoked keyId := by
  obtain ⟨k, hk, hid, hrevoked⟩ := h
  obtain ⟨k', hk', hid', -, hrevoked'⟩ := hdb k hk
  exact ⟨k', hk', hid'.trans hid, hrevoked' hrevoked⟩

theorem Revokes.mono (h : db.Revokes keyId w) (hdb : db.KeepsRevoked db') : db'.Revokes keyId w := by
  rcases h with h | ⟨⟨k, hk, hid⟩, hw⟩
  · exact .inl (h.mono hdb)
  · obtain ⟨k', hk', hid', -⟩ := hdb k hk
    exact .inr ⟨⟨k', hk', hid'.trans hid⟩, hw⟩

theorem revoked_changeApiKey {c : ApiKeyChange} (hc : c.revokedAt.isSome = true)
    (hk : ∃ k ∈ db.apiKeys.rows, k.id = keyId) :
    (db.changeApiKey keyId c).Revoked keyId := by
  obtain ⟨k, hk, rfl⟩ := hk
  refine ⟨k.changed c, ?_, rfl, ?_⟩
  · have hmem : (if k.id == k.id then k.changed c else k) ∈ (db.changeApiKey k.id c).apiKeys.rows :=
      mem_changeApiKey hk
    simpa using hmem
  · simp only [ApiKey.changed]
    cases hrevoked : c.revokedAt with
    | none => simp [hrevoked] at hc
    | some time => rfl

theorem Revokes.applyAll (h : db.Revokes keyId w) :
    PlatformDb.Revoked keyId (applyAll platformTables.backend w db) := by
  rcases h with h | ⟨⟨k, hk, hid⟩, c, hc, hmem⟩
  · exact h.mono (.applyAll w db)
  · obtain ⟨before, after, rfl⟩ := List.append_of_mem hmem
    obtain ⟨k', hk', hid', -⟩ := KeepsRevoked.applyAll before db k hk
    rw [applyAll_append, applyAll_cons]
    exact (revoked_changeApiKey hc ⟨k', hk', hid'.trans hid⟩).mono (.applyAll after _)

end PlatformDb

/-! ### What the key management does to the keys -/

/-- The key that an answered request has revoked at once. -/
def ApiKeyRequest.revokes : ApiKeyRequest → Option Uuid
  | createKey _ _ _ _ _ _ => none
  | rotateKey _ _ _ keyId _ gracePeriodHours => if gracePeriodHours = 0 then some keyId else none
  | revokeKey _ _ _ keyId _ => some keyId

def ApiKeyRequest.apiId : ApiKeyRequest → Uuid
  | createKey _ _ apiId _ _ _ => apiId
  | rotateKey _ _ apiId _ _ _ => apiId
  | revokeKey _ _ apiId _ _ => apiId

/-- The key of a new key, its API and its organization. -/
structure IssuedFor (cfg : Config) (organizationId apiId : Uuid) (key : ApiKey)
    (fullKey : String) : Prop where
  keyHash : key.keyHash = cfg.hashToken fullKey
  apiId : key.apiId = apiId
  organizationId : key.organizationId = organizationId

/-- The writes of an answered request add the key of the answer alone, and revoke what they are to
revoke. -/
structure ApiKeyRequest.KeyEffect (cfg : Config) (request : ApiKeyRequest) (answer : ApiKeyAnswer)
    (w : List PlatformOp) (db : PlatformDb) : Prop where
  adds : ∀ key, .addApiKey key ∈ w → ∃ fullKey, answer = .created key fullKey ∧
    IssuedFor cfg request.orgId request.apiId key fullKey
  revokes : ∀ keyId, request.revokes = some keyId → db.Revokes keyId w

section
variable {cfg : Config} {db : PlatformDb} {β : Type}
    {Q : β → List PlatformOp → List PlatformOp → PlatformDb → Prop}

/-- Safe while keys stay and stay revoked. -/
abbrev KeysSafe (p : Platform β) (Q : β → List PlatformOp → List PlatformOp → PlatformDb → Prop)
    (d w : List PlatformOp)
    (db : PlatformDb) : Prop := p.Safe (fun _ => PlatformDb.KeepsRevoked) (fun _ _ => True) Q d w db

theorem keepsRevoked_trans (a b c : PlatformDb) (h : a.KeepsRevoked b) (h' : b.KeepsRevoked c) :
    a.KeepsRevoked c := h.trans h'

theorem getApi_safe {organizationId apiId : Uuid} {k : Api → Platform β}
    (h : ∀ api db', db.KeepsRevoked db' → KeysSafe (k api) Q [] [] db') :
    KeysSafe (ApiCatalogService.getApi organizationId apiId >>= k) Q [] [] db := by
  unfold ApiCatalogService.getApi ApiRepository.getInOrg
  simp only [Prog.bind_assoc']
  refine Prog.Safe.query_nil fun db' hdb => ?_
  cases db'.apis.one fun a => a.id == apiId && a.organizationId == organizationId with
  | none => trivial
  | some api => exact h api db' hdb

theorem getKey_safe {organizationId apiId keyId : Uuid} {k : ApiKey → Platform β}
    (h : ∀ key db', db.KeepsRevoked db' → key ∈ db'.apiKeys.rows → key.id = keyId →
      KeysSafe (k key) Q [] [] db') :
    KeysSafe (ApiKeyService.getKey organizationId apiId keyId >>= k) Q [] [] db := by
  unfold ApiKeyService.getKey ApiKeyRepository.getInApi
  simp only [Prog.bind_assoc']
  refine getApi_safe fun api db₁ h₁ => Prog.Safe.query_nil fun db₂ h₂ => ?_
  cases hkey : db₂.apiKeys.one fun k => k.id == keyId && k.apiId == apiId with
  | none => trivial
  | some key =>
    have hpred := Table.pred_of_one hkey
    simp only [Bool.and_eq_true, beq_iff_eq] at hpred
    exact h key db₂ (h₁.trans h₂) (Table.mem_of_one hkey) hpred.1

theorem createKey_safe {organizationId apiId : Uuid} {name : String} {expiresInDays : Option Nat}
    {createdByUserId : Option Uuid}
    {k : ApiKey × String → Platform β} (h : ∀ issued db', db.KeepsRevoked db' →
      IssuedFor cfg organizationId apiId issued.1 issued.2 →
        KeysSafe (k issued) Q [] [.addApiKey issued.1] db') :
    KeysSafe (ApiKeyService.createKey cfg organizationId apiId name expiresInDays createdByUserId
        >>= k) Q [] [] db := by
  unfold ApiKeyService.createKey generateApiKey
  simp only [Prog.bind_assoc']
  refine getApi_safe fun api db₁ h₁ => ?_
  refine Prog.Safe.ask keepsRevoked_trans
    fun publicId => Prog.Safe.ask keepsRevoked_trans fun secret => ?_
  have hadd : ∀ (expiresAt : Option Time) (keyPrefix lastFour fullKey : String),
      KeysSafe (uuid4 >>= fun id =>
      let record : ApiKey :=
        ⟨id, apiId, organizationId, name, keyPrefix, lastFour, cfg.hashToken fullKey,
        createdByUserId, expiresAt, none, none⟩
      ApiKeyRepository.add record >>= fun _ => k (record, fullKey)) Q [] [] db₁ := by
    intro expiresAt keyPrefix lastFour fullKey
    refine Prog.Safe.ask keepsRevoked_trans fun id => ?_
    unfold ApiKeyRepository.add
    simp only [Prog.bind_assoc']
    refine Prog.Safe.set keepsRevoked_trans (Prog.Safe.flushSession fun db₂ h₂ _ => ?_)
    exact h _ db₂ (h₁.trans h₂) ⟨rfl, rfl, rfl⟩
  cases expiresInDays with
  | none => exact hadd none _ _ _
  | some days =>
    simp only [Prog.pure_eq, Prog.ret_bind, Prog.bind_assoc']
    exact Prog.Safe.ask keepsRevoked_trans fun time => hadd (some (time + days * dayLength)) _ _ _

theorem revokeKey_safe {organizationId apiId keyId : Uuid} {k : Unit → Platform β}
    (h : ∀ w db', (∀ key, .addApiKey key ∉ w) → db'.Revokes keyId w → KeysSafe (k ()) Q [] w db') :
    KeysSafe (ApiKeyService.revokeKey organizationId apiId keyId >>= k) Q [] [] db := by
  unfold ApiKeyService.revokeKey
  simp only [Prog.bind_assoc']
  refine getKey_safe fun key db₁ h₁ hkey hid => ?_
  split
  · simp only [Prog.bind_assoc']
    refine Prog.Safe.ask keepsRevoked_trans
      fun time => Prog.Safe.set keepsRevoked_trans (Prog.Safe.flushSession fun db₂ h₂ _ => ?_)
    refine h _ db₂ (by simp) ?_
    obtain ⟨key', hkey', hid', -⟩ := h₂ key hkey
    exact .inr ⟨⟨key', hkey', hid'.trans hid⟩, { revokedAt := some time }, rfl, by simp [hid]⟩
  · rename_i hrevoked
    refine Prog.Safe.flushSession fun db₂ h₂ _ => h [] db₂ (by simp) (.inl ?_)
    have hsome : key.revokedAt.isSome = true :=
      Option.isSome_iff_ne_none.2 fun hnone => hrevoked (by rw [hnone]; rfl)
    exact PlatformDb.Revoked.mono ⟨key, hkey, hid, hsome⟩ h₂

theorem rotateKey_safe {organizationId apiId keyId : Uuid} {gracePeriodHours : Nat}
    {createdByUserId : Option Uuid}
    {k : ApiKey × String → Platform β}
    (h : ∀ issued w db', IssuedFor cfg organizationId apiId issued.1 issued.2 →
      (∀ key, .addApiKey key ∈ w → key = issued.1) → (gracePeriodHours = 0 → db'.Revokes keyId w) →
        KeysSafe (k issued) Q [] w db') :
    KeysSafe (ApiKeyService.rotateKey cfg organizationId apiId keyId gracePeriodHours
        createdByUserId >>= k) Q [] [] db := by
  unfold ApiKeyService.rotateKey
  simp only [Prog.bind_assoc']
  refine getKey_safe fun old db₁ h₁ hold hid => ?_
  split
  · trivial
  · simp only [Prog.bind_assoc']
    refine createKey_safe fun issued db₂ h₂ hissued => Prog.Safe.ask keepsRevoked_trans fun time => ?_
    refine Prog.Safe.set keepsRevoked_trans (Prog.Safe.flushSession fun db₃ h₃ _ => ?_)
    refine h issued _ db₃ hissued (by simp) fun hgrace => .inr ?_
    obtain ⟨old', hold', hid', -⟩ := h₂.trans h₃ old hold
    refine ⟨⟨old', hold', hid'.trans hid⟩,
      ApiKeyService.grace old gracePeriodHours issued.1.id time, ?_, by simp [hid]⟩
    unfold ApiKeyService.grace
    rw [if_pos hgrace]
    rfl

theorem auditRecord_safe {createdAt : Time} {action resourceType : String}
    {organizationId actorUserId resourceId : Option Uuid}
    {ip : Option String} {metadata : List (String × Uuid)} {k : Unit → Platform β} {w : List PlatformOp}
    (h : ∀ row event db', db.KeepsRevoked db' →
      KeysSafe (k ()) Q [.addAuditLog row, .addOutbox event] w db') :
    KeysSafe (AuditLogService.record createdAt action resourceType organizationId actorUserId
        resourceId ip metadata >>= k) Q [] w db := by
  unfold AuditLogService.record Gateway.OutboxEmitter.emit
  simp only [Prog.bind_assoc']
  refine Prog.Safe.ask keepsRevoked_trans fun id => Prog.Safe.set keepsRevoked_trans <|
    Prog.Safe.ask keepsRevoked_trans fun time => ?_
  refine Prog.Safe.ask keepsRevoked_trans
    fun eventId => Prog.Safe.ask keepsRevoked_trans fun outboxId => ?_
  exact Prog.Safe.set keepsRevoked_trans (h _ _ db (.refl db))

end

/-- What a key request that is answered does to the keys, whatever runs at the same time. -/
theorem apiKey_effect (cfg : Config) (request : ApiKeyRequest) (db : PlatformDb) :
    KeysSafe (request.prog cfg) (fun answer d w db => request.KeyEffect cfg answer (w ++ d) db)
        [] [] db := by
  have hauthorize :=
    fun permission caller orgId => reads_ofOrg (reads_authorize permission caller orgId)
  have hrefl := PlatformDb.KeepsRevoked.refl
  cases request with
  | createKey caller orgId apiId ip name expiresInDays =>
    refine Prog.Safe.ask keepsRevoked_trans fun createdAt => ?_
    refine Prog.Safe.reads hrefl keepsRevoked_trans (hauthorize _ _ _)
      fun _ db₁ h₁ => createKey_safe fun issued db₂ h₂ hissued => ?_
    refine auditRecord_safe
      fun row event db₃ h₃ db₄ h₄ _ => ⟨fun key hkey => ?_, fun keyId h => by cases h⟩
    have hkey' : key = issued.1 := by simpa using hkey
    exact ⟨issued.2, by rw [hkey'], hkey' ▸ hissued⟩
  | rotateKey caller orgId apiId keyId ip gracePeriodHours =>
    refine Prog.Safe.ask keepsRevoked_trans fun createdAt => ?_
    refine Prog.Safe.reads hrefl keepsRevoked_trans (hauthorize _ _ _) fun _ db₁ h₁ => ?_
    refine rotateKey_safe
      fun issued w db₂ hissued hadds hrevokes => auditRecord_safe
        fun row event db₃ h₃ db₄ h₄ _ => ?_
    refine ⟨fun key hkey => ?_, fun keyId' h => ?_⟩
    · have hkey' : key = issued.1 := hadds key (by simpa using hkey)
      exact ⟨issued.2, by rw [hkey'], hkey' ▸ hissued⟩
    · have h' : (if gracePeriodHours = 0 then some keyId else none) = some keyId' := h
      split at h'
      · cases h'
        rcases (hrevokes ‹_›).mono (h₃.trans h₄) with h | ⟨hstored, c, hc, hmem⟩
        · exact .inl h
        · exact .inr ⟨hstored, c, hc, List.mem_append_left _ hmem⟩
      · cases h'
  | revokeKey caller orgId apiId keyId ip =>
    refine Prog.Safe.ask keepsRevoked_trans fun createdAt => ?_
    refine Prog.Safe.reads hrefl keepsRevoked_trans (hauthorize _ _ _) fun _ db₁ h₁ => ?_
    refine revokeKey_safe
      fun w db₂ hadds hrevokes => auditRecord_safe fun row event db₃ h₃ db₄ h₄ _ => ?_
    refine ⟨fun key hkey => absurd (by simpa using hkey) (hadds key), fun keyId' h => ?_⟩
    cases h
    rcases hrevokes.mono (h₃.trans h₄) with h | ⟨hstored, c, hc, hmem⟩
    · exact .inl h
    · exact .inr ⟨hstored, c, hc, List.mem_append_left _ hmem⟩

/-! ### Whole runs -/

/-- What an answered request does to the keys. -/
def PlatformRequest.KeyEffect (cfg : GatewayConfig) : PlatformRequest → PlatformAnswer →
    List PlatformOp → PlatformDb → Prop
  | apiKey request, .apiKey answer, w, db => request.KeyEffect cfg.toConfig answer w db
  | apiKey _, .gateway _, _, _ => False
  | gateway _, _, _, _ => True

theorem platformKeys (cfg : GatewayConfig) :
    Bounded (PlatformRequest.prog cfg) (fun _ => True) PlatformDb.KeepsRevoked
    (fun _ _ => True) (PlatformRequest.KeyEffect cfg) where
  refl := PlatformDb.KeepsRevoked.refl
  trans := keepsRevoked_trans
  inv _ _ _ _ := trivial
  check _ _ _ _ _ := trivial
  stable _ _ _ _ _ := trivial
  safe r db _ := by
    cases r with
    | gateway request =>
      exact Prog.Safe.of_forall keepsRevoked_trans (fun _ _ => trivial) fun _ _ _ _ _ => trivial
    | apiKey request =>
      refine Prog.Safe.bind (fun _ => PlatformDb.KeepsRevoked.refl) (by simp) ?_
      refine (apiKey_effect cfg.toConfig request db).closure (fun _ => keepsRevoked_trans) ?_
      exact fun answer d w db' h db'' hdb _ => h db'' hdb fun _ _ => trivial
  commit _ _ w db _ _ := PlatformDb.KeepsRevoked.applyAll w db

/-- The keys that the answers in the history have revoked are revoked. -/
def RevocationsHold (s : PlatformSystem) : Prop :=
  ∀ request answer keyId, (.apiKey request, answer) ∈ s.history → request.revokes = some keyId →
    s.db.Revoked keyId

section
variable {cfg : GatewayConfig} {s : PlatformSystem} {e : PlatformEvent}

/-- The invariant of a run. -/
structure Revoking (cfg : GatewayConfig) (s : PlatformSystem) : Prop where
  guarded : s.Guarded (fun _ => True) (fun _ _ => PlatformDb.KeepsRevoked) (fun _ _ => True)
    (PlatformRequest.KeyEffect cfg)
  revoked : RevocationsHold s

theorem Revoking.init (cfg : GatewayConfig) (db : PlatformDb) (world : World PlatformOutside) :
    Revoking cfg (System.init db world) :=
  ⟨(System.init_quiet _ _).guarded trivial, fun _ _ _ h => absurd h List.not_mem_nil⟩

theorem Revoking.next (h : Revoking cfg s) : Revoking cfg (platformNext cfg s e) := by
  refine ⟨(platformKeys cfg).next_guarded h.guarded, fun request answer keyId hmem hrevokes => ?_⟩
  have hkeeps : s.db.KeepsRevoked (platformNext cfg s e).db := (platformKeys cfg).next_rel h.guarded
  have hmem' : (PlatformRequest.apiKey request, answer) ∈
    (System.next (PlatformRequest.prog cfg) s e).history := hmem
  rw [System.next_history (PlatformRequest.prog cfg) s e] at hmem'
  rcases hc : s.commits e with _ | ⟨r, a, w⟩
  · rw [hc, List.append_nil] at hmem'
    exact (h.revoked request answer keyId hmem' hrevokes).mono hkeeps
  · rw [hc] at hmem'
    rcases List.mem_append.1 hmem' with hmem' | hmem'
    · exact (h.revoked request answer keyId hmem' hrevokes).mono hkeeps
    · cases List.mem_singleton.1 hmem'
      have heffect : PlatformRequest.KeyEffect cfg (.apiKey request) answer w s.db :=
        (platformKeys cfg).relies.of_commits h.guarded hc
      have hdb : (platformNext cfg s e).db = applyAll platformTables.backend w s.db := by
        show (System.next (PlatformRequest.prog cfg) s e).db = _
        rw [System.next_db (PlatformRequest.prog cfg) s e, hc]
      cases answer with
      | gateway response => exact heffect.elim
      | apiKey answer =>
        rw [hdb]
        exact (heffect.revokes keyId hrevokes).applyAll

end

/-! ### What a revocation ends -/

/-- The key of this hash is stored and revoked. -/
def PlatformDb.RevokedHash (keyHash : String) (db : PlatformDb) : Prop :=
  ∃ k ∈ db.apiKeys.rows, k.keyHash = keyHash ∧ k.revokedAt.isSome = true

theorem PlatformDb.RevokedHash.mono {keyHash : String} {db db' : PlatformDb}
    (h : db.RevokedHash keyHash) (hdb : db.KeepsRevoked db') :
    db'.RevokedHash keyHash := by
  obtain ⟨k, hk, hhash, hrevoked⟩ := h
  obtain ⟨k', hk', -, hhash', hrevoked'⟩ := hdb k hk
  exact ⟨k', hk', hhash'.trans hhash, hrevoked' hrevoked⟩

section
variable {cfg : GatewayConfig} {db : PlatformDb} {β : Type}
    {Q : β → List PlatformOp → List PlatformOp → PlatformDb → Prop}

/-- A revoked key does not get past the authentication. -/
theorem authenticate_revoked {raw : String} (h : db.RevokedHash (cfg.hashToken raw))
    {k : ApiKey × Api → Platform β} :
    KeysSafe (GatewayService.authenticate cfg (some raw) >>= k) Q [] [] db := by
  unfold GatewayService.authenticate
  cases hfilter : (some raw).filter fun raw => raw != "" with
  | none => trivial
  | some raw' =>
    have hraw : raw = raw' := Option.some.inj (Option.filter_eq_some_iff.1 hfilter).1
    subst hraw
    simp only [Gateway.ApiKeyRepository.getByHash, Prog.bind_assoc']
    refine Prog.Safe.query_nil fun db₁ h₁ => ?_
    obtain ⟨revoked, hrevoked, hhash, hsome⟩ := h.mono h₁
    cases hkey : db₁.apiKeys.one fun k => k.keyHash == cfg.hashToken raw with
    | none => trivial
    | some key =>
      -- the hash belongs to one key
      have hclash : Schema.clash key revoked = true := by
        have hpred : key.keyHash = cfg.hashToken raw := by simpa using Table.pred_of_one hkey
        exact ApiKey.clash_iff.2 (.inr (hpred.trans hhash.symm))
      rw [Table.eq_of_clash (Table.mem_of_one hkey) hrevoked hclash]
      cases hapi : db₁.apis.one fun a => a.id == revoked.apiId with
      | none => simp only [Option.bind_some, hapi, Option.map_none]; trivial
      | some api =>
        simp only [Option.bind_some, hapi, Option.map_some, Prog.bind_assoc']
        refine Prog.Safe.ask keepsRevoked_trans fun time => ?_
        have hinvalid : revoked.isValidAt time = false := by
          unfold ApiKey.isValidAt
          cases hr : revoked.revokedAt with
          | none => simp [hr] at hsome
          | some t => rfl
        rw [hinvalid]
        trivial

/-- An answered gateway request presents another key. -/
def PlatformRequest.Avoids (cfg : GatewayConfig) (keyHash : String) : PlatformRequest → Prop
  | gateway request => ∀ raw, extractApiKey request = some raw → cfg.hashToken raw ≠ keyHash
  | apiKey _ => True

theorem prog_avoids {keyHash : String} (h : db.RevokedHash keyHash) (r : PlatformRequest) :
    KeysSafe (PlatformRequest.prog cfg r) (fun _ _ _ _ => r.Avoids cfg keyHash) [] [] db := by
  by_cases havoids : r.Avoids cfg keyHash
  · exact Prog.Safe.of_forall keepsRevoked_trans (fun _ _ => trivial) fun _ _ _ _ _ => havoids
  · cases r with
    | apiKey request => exact absurd trivial havoids
    | gateway request =>
      simp only [PlatformRequest.Avoids, ne_eq, not_forall, not_not] at havoids
      obtain ⟨raw, hraw, rfl⟩ := havoids
      simp only [PlatformRequest.prog, proxy, Prog.bind_assoc']
      refine Prog.Safe.ask keepsRevoked_trans fun createdAt => ?_
      unfold handle resolve
      simp only [Prog.bind_assoc', hraw]
      exact authenticate_revoked h

end

/-- The gateway requests that arrive after `s` and commit until `s'` present none of the keys whose
revocation committed before. -/
def RefusesRevoked (cfg : GatewayConfig) (s s' : PlatformSystem) : Prop :=
  ∀ request answer keyId, (.apiKey request, answer) ∈ s.history → request.revokes = some keyId →
    ∀ k ∈ s.db.apiKeys.rows, k.id = keyId → ∀ (i : Nat) incoming response, s.threads.length ≤ i →
      s'.threads[i]? = some ⟨.gateway incoming, .committed response⟩ →
        ∀ raw, extractApiKey incoming = some raw → cfg.hashToken raw ≠ k.keyHash

/-- Once a revocation, or a rotation without a grace period, has committed, no gateway request that
arrives later commits with the key, whatever other transactions were in flight and follow. -/
theorem revocations_hold (cfg : GatewayConfig) (db : PlatformDb) (world : World PlatformOutside)
    (before after : List PlatformEvent) :
    RefusesRevoked cfg (run (platformNext cfg) (System.init db world) before)
      (run (platformNext cfg) (System.init db world) (before ++ after)) := by
  rw [run_append]
  have hinv : Revoking cfg (run (platformNext cfg) (System.init db world) before) :=
    run_invariant (fun s e h => h.next) (.init cfg db world) before
  generalize run (platformNext cfg) (System.init db world) before = s at hinv
  intro request answer keyId hmem hrevokes k hk hid i incoming response hi hanswered
  have hhash : s.db.RevokedHash k.keyHash := by
    obtain ⟨k', hk', hid', hrevoked⟩ := hinv.revoked request answer keyId hmem hrevokes
    rw [Table.eq_of_clash hk hk' (ApiKey.clash_iff.2 (.inl (hid.trans hid'.symm)))]
    exact ⟨k', hk', rfl, hrevoked⟩
  have hanswering :
      (run (platformNext cfg) s after).Answering s.threads.length PlatformDb.KeepsRevoked
        (fun _ _ => True)
      (fun r _ _ _ => r.Avoids cfg k.keyHash) (fun r _ _ => r.Avoids cfg k.keyHash) :=
    (platformKeys cfg).answers_from (J := fun db : PlatformDb => db.RevokedHash k.keyHash) hinv.guarded
      (fun _ _ h hdb => h.mono hdb) (fun r db h => prog_avoids h r)
      (fun (r : PlatformRequest) _ _ _ (h : r.Avoids cfg k.keyHash) => h)
        (fun _ _ _ _ h _ => h) hhash after
  exact hanswering.answers i _ _ hi hanswered

/-! ### Where the keys come from -/

/-- What does not change of a key. -/
structure KeyIdentity where
  id : Uuid
  keyHash : String
  apiId : Uuid
  organizationId : Uuid
deriving DecidableEq, Repr

def ApiKey.identity (k : ApiKey) : KeyIdentity := ⟨k.id, k.keyHash, k.apiId, k.organizationId⟩

/-- The key was stored at first, or an answer of the history handed it out, to a caller who had the
permission. -/
inductive HandedOut (cfg : GatewayConfig) (db₀ : PlatformDb)
    (history : List (PlatformRequest × PlatformAnswer)) (k : KeyIdentity) : Prop
  | stored (key : ApiKey) (hkey : key ∈ db₀.apiKeys.rows) (hsame : key.identity = k)
  | issued (request : ApiKeyRequest) (key : ApiKey) (fullKey : String)
      (hanswer : (.apiKey request, .apiKey (.created key fullKey)) ∈ history) (hsame : key.identity = k)
      (hfor : IssuedFor cfg.toConfig request.orgId request.apiId key fullKey)
      (hpermits : db₀.orgs.Permits request.orgId request.caller request.permission)

/-- Every key that is stored was handed out, and every committed gateway request has an entry in the
log of a key that was handed out before. -/
structure KeysHandedOut (cfg : GatewayConfig) (db₀ : PlatformDb) (s : PlatformSystem) : Prop where
  keys : ∀ k ∈ s.db.apiKeys.rows, HandedOut cfg db₀ s.history k.identity
  requests : ∀ before request response after, s.history = before ++
    (.gateway request, .gateway response) :: after →
    ∃ raw k row, extractApiKey request = some raw ∧ k.keyHash = cfg.hashToken raw ∧
      HandedOut cfg db₀ before k ∧
      row ∈ s.db.requestLogs.rows ∧ LogEntry cfg s.db request response row ∧
      row.apiKeyId = some k.id ∧ row.apiId = k.apiId ∧ row.organizationId = k.organizationId

section
variable {cfg : GatewayConfig} {db₀ db : PlatformDb} {s : PlatformSystem} {e : PlatformEvent}

theorem HandedOut.mono {history after : List (PlatformRequest × PlatformAnswer)} {k : KeyIdentity}
    (h : HandedOut cfg db₀ history k) :
    HandedOut cfg db₀ (history ++ after) k := by
  cases h with
  | stored key hkey hsame => exact .stored key hkey hsame
  | issued request key fullKey hanswer hsame hfor hpermits =>
    exact .issued request key fullKey (List.mem_append_left _ hanswer) hsame hfor hpermits

/-- After some writes the keys are those of before and the added ones. -/
theorem identities_applyAll {w : List PlatformOp} {k : ApiKey}
    (hk : k ∈ (applyAll platformTables.backend w db : PlatformDb).apiKeys.rows) :
    (∃ k' ∈ db.apiKeys.rows, k'.identity = k.identity) ∨ ∃ k', .addApiKey k' ∈ w ∧
        k'.identity = k.identity := by
  refine applyAll_invariant (B := platformTables.backend)
    (P := fun db' : PlatformDb => ∀ k ∈ db'.apiKeys.rows,
    (∃ k' ∈ db.apiKeys.rows, k'.identity = k.identity) ∨ ∃ k', .addApiKey k' ∈ w ∧
      k'.identity = k.identity) ?_
    (fun k hk => .inl ⟨k, hk, rfl⟩) k hk
  intro o ho db' hdb' k hk
  cases o with
  | addApiKey k' =>
    simp only [PlatformOp.apply, PlatformDb.addApiKey] at hk
    split at hk
    · rcases Table.mem_or_eq_of_mem_insert hk with hk | rfl
      · exact hdb' k hk
      · exact .inr ⟨k, ho, rfl⟩
    · exact hdb' k hk
  | changeApiKey id c =>
    have hk' : k ∈ (db'.changeApiKey id c).apiKeys.rows := hk
    rw [PlatformDb.apiKeys_changeApiKey] at hk'
    obtain ⟨k', hmem, rfl⟩ := Table.mem_update.1 hk'
    have hsame : (if k'.id == id then k'.changed c else k').identity = k'.identity := by split <;> rfl
    rw [hsame]
    exact hdb' k' hmem
  | incrementUsage i =>
    have hk' : k ∈ (db'.incrementUsage i).apiKeys.rows := hk
    rw [PlatformDb.incrementUsage_apiKeys] at hk'
    exact hdb' k hk'
  | _ => exact hdb' k hk

/-- The invariant of a run. -/
structure HandingOut (cfg : GatewayConfig) (db₀ : PlatformDb) (s : PlatformSystem) : Prop where
  telling : Telling cfg db₀ s
  revoking : Revoking cfg s
  orgs : s.db.orgs = db₀.orgs
  handed : KeysHandedOut cfg db₀ s

theorem HandingOut.init (cfg : GatewayConfig) (db : PlatformDb) (world : World PlatformOutside) :
    HandingOut cfg db (System.init db world) where
  telling := .init cfg db world
  revoking := .init cfg db world
  orgs := rfl
  handed := ⟨fun k hk => .stored k hk rfl,
    fun before request response after h => by cases before <;> cases h⟩

/-- The logs of before are kept, and the entry of an answered gateway request is added. -/
theorem logs_commit {r : PlatformRequest} {a : PlatformAnswer} {w : List PlatformOp}
    (hw : r.Tells cfg a w db) (ha : Accepted platformTables.backend PlatformOp.OfRequest w db) :
    let db' : PlatformDb := applyAll platformTables.backend w db
    (∀ row ∈ db.requestLogs.rows, row ∈ db'.requestLogs.rows) ∧ ∀ request response,
      r = .gateway request → a = .gateway response →
      ∃ row ∈ db'.requestLogs.rows, LogEntry cfg db request response row := by
  cases r with
  | gateway request =>
    cases a with
    | apiKey answer => exact hw.elim
    | gateway response =>
      obtain ⟨i, row, event, rfl, hlogged⟩ := hw
      obtain ⟨-, hfits, -, hrows, -⟩ := tables_traces ha
      simp only [hrows]
      refine ⟨fun row' hrow' => List.mem_append_left _ hrow', ?_⟩
      rintro _ _ ⟨⟩ ⟨⟩
      exact ⟨row.stored, List.mem_append_right _ (List.mem_singleton.2 rfl), hlogged hfits⟩
  | apiKey request =>
    cases a with
    | gateway response => exact hw.elim
    | apiKey answer =>
      obtain ⟨keyOps, row, event, hof, rfl, -⟩ := hw
      obtain ⟨-, hlog, -⟩ := tables_audits hof ha
      simp only [hlog]
      refine ⟨fun row' hrow' => hrow', ?_⟩
      rintro _ _ ⟨⟩

/-- A key that a commit adds is handed out by its answer. -/
theorem HandingOut.added (h : HandingOut cfg db₀ s) {r : PlatformRequest} {a : PlatformAnswer}
    {w : List PlatformOp} (hc : s.commits e = some (r, a, w)) {key : ApiKey}
    (hkey : .addApiKey key ∈ w) :
    HandedOut cfg db₀ (s.history ++ [(r, a)]) key.identity := by
  have htells : r.Tells cfg a w s.db := (platformTells cfg).relies.of_commits h.telling.guarded hc
  have heffect : r.KeyEffect cfg a w s.db := (platformKeys cfg).relies.of_commits h.revoking.guarded hc
  cases r with
  | gateway request =>
    cases a with
    | apiKey answer => exact htells.elim
    | gateway response =>
      obtain ⟨i, row, event, rfl, -⟩ := htells
      simp at hkey
  | apiKey request =>
    cases a with
    | gateway response => exact htells.elim
    | apiKey answer =>
      obtain ⟨keyOps, row, event, -, -, -, hpermits⟩ := htells
      obtain ⟨fullKey, rfl, hissued⟩ := heffect.adds key hkey
      refine .issued request key fullKey (List.mem_append_right _ (List.mem_singleton.2 rfl))
        rfl hissued ?_
      rw [← h.orgs]
      exact hpermits

/-- A commit hands out what it adds, and a gateway request used what was handed out before. -/
theorem HandingOut.commits (h : HandingOut cfg db₀ s) {r : PlatformRequest} {a : PlatformAnswer}
    {w : List PlatformOp}
    (hc : s.commits e = some (r, a, w)) : KeysHandedOut cfg db₀ (platformNext cfg s e) := by
  have hdb : (platformNext cfg s e).db = applyAll platformTables.backend w s.db := by
    show (System.next (PlatformRequest.prog cfg) s e).db = _
    rw [System.next_db (PlatformRequest.prog cfg) s e, hc]
  have hhistory : (platformNext cfg s e).history = s.history ++ [(r, a)] := by
    show (System.next (PlatformRequest.prog cfg) s e).history = _
    rw [System.next_history (PlatformRequest.prog cfg) s e, hc]
  have htells : r.Tells cfg a w s.db := (platformTells cfg).relies.of_commits h.telling.guarded hc
  obtain ⟨hkept, hadded⟩ :=
    logs_commit htells ((platformReplay cfg).of_commits h.telling.replayable hc).2
  have hmono : s.db.KeepsKeys (applyAll platformTables.backend w s.db) := .applyAll w s.db
  refine ⟨fun k hk => ?_, fun before request response after hsplit => ?_⟩
  · rw [hdb] at hk
    rw [hhistory]
    rcases identities_applyAll hk with ⟨k', hk', hsame⟩ | ⟨k', hk', hsame⟩
    · exact hsame ▸ (h.handed.keys k' hk').mono
    · exact hsame ▸ h.added hc hk'
  · rw [hhistory] at hsplit
    rw [hdb]
    rcases List.eq_nil_or_concat after with rfl | ⟨after', last, rfl⟩
    · -- the request that commits presents a key that is stored
      obtain ⟨rfl, hlast⟩ := List.append_inj' hsplit rfl
      cases hlast
      obtain ⟨row, hrow, hentry⟩ := hadded request response rfl rfl
      obtain ⟨raw, hraw, k, hk, hhash, hid, hapi, horg⟩ := hentry.key
      exact ⟨raw, k.identity, row, hraw, hhash, h.handed.keys k hk, hrow, hentry.mono hmono,
        hid, hapi, horg⟩
    · rw [List.concat_eq_append, ← List.cons_append, ← List.append_assoc] at hsplit
      obtain ⟨hold, -⟩ := List.append_inj' hsplit rfl
      obtain ⟨raw, k, row, hraw, hhash, hout, hrow, hentry, hrest⟩ :=
        h.handed.requests before request response after' hold
      exact ⟨raw, k, row, hraw, hhash, hout, hkept row hrow, hentry.mono hmono, hrest⟩

theorem HandingOut.next (h : HandingOut cfg db₀ s) : HandingOut cfg db₀ (platformNext cfg s e) := by
  have hkeeps : s.db.KeepsKeys (platformNext cfg s e).db :=
    (platformTells cfg).next_rel h.telling.guarded
  refine ⟨h.telling.next, h.revoking.next, hkeeps.orgs.trans h.orgs, ?_⟩
  rcases hc : s.commits e with _ | ⟨r, a, w⟩
  · have hdb : (platformNext cfg s e).db = s.db := by
      show (System.next (PlatformRequest.prog cfg) s e).db = _
      rw [System.next_db (PlatformRequest.prog cfg) s e, hc]
    have hhistory : (platformNext cfg s e).history = s.history := by
      show (System.next (PlatformRequest.prog cfg) s e).history = _
      rw [System.next_history (PlatformRequest.prog cfg) s e, hc, List.append_nil]
    exact ⟨by rw [hdb, hhistory]; exact h.handed.keys, by rw [hdb, hhistory]; exact h.handed.requests⟩
  · exact h.commits hc

end

/-- In every interleaving of gateway and key management requests, every key was stored at first or
handed out by a committed request of a caller with the permission for the organization, and a
committed gateway request presents one that was handed out before: its log has the id, the API and
the organization of that key. -/
theorem keys_handed_out (cfg : GatewayConfig) (db : PlatformDb) (world : World PlatformOutside)
    (es : List PlatformEvent) :
    Always (platformNext cfg) (KeysHandedOut cfg db) (System.init db world) es := by
  refine Kit.always_iff.2 fun es₁ es₂ _ => ?_
  have hinv : HandingOut cfg db (run (platformNext cfg) (System.init db world) es₁) :=
    run_invariant (fun s e h => h.next) (.init cfg db world) es₁
  exact hinv.handed

end TrafficPlatform
