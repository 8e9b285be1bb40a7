import TrafficPlatform.Management.Runs

/-!
# The authority of an API key only shrinks

A rotation and a revocation bring the end of a key forward, a deletion ends it, and nothing else
writes to a key (`ApiKeyChange.Tightens`). A new key has an id that no key had before.
-/

namespace TrafficPlatform
open Kit

/-- The key is stored and valid at the time. -/
def PlatformDb.KeyValid (db : PlatformDb) (keyId : Uuid) (time : Time) : Prop :=
  ∃ k ∈ db.apiKeys.rows, k.id = keyId ∧ k.isValidAt time = true

theorem ApiKey.isValidAt_anti (k : ApiKey) {time time' : Time} (h : time ≤ time')
    (hv : k.isValidAt time' = true) :
    k.isValidAt time = true := by
  rw [ApiKey.isValidAt_iff] at hv ⊢
  exact ⟨hv.1, fun t ht => lt_of_le_of_lt h (hv.2 t ht)⟩

/-- The key `keyId` is the only one whose hash is `hash`. -/
def PlatformDb.OnlyHolder (db : PlatformDb) (keyId : Uuid) (hash : String) : Prop :=
  ∀ k ∈ db.apiKeys.rows, k.keyHash = hash ↔ k.id = keyId

/-- The secrets that the call draws make no key with that hash. -/
def ManagementCall.Fresh (cfg : Config) (hash : String) (c : ManagementCall) : Prop :=
  ∀ n m, cfg.hashToken (apiKeyPrefix ++ "_" ++ (c.envs n).text ++ "_" ++ (c.envs m).text) ≠ hash

section
variable {cfg : Config} {t : Transition} {orgId keyId : Uuid} {db : PlatformDb} {o : ManagementOp}

/-- Each key after a write was there before, and then its change tightens it, or it is new. -/
theorem mem_apiKeys_write {k : ApiKey} (h : o.Lawful cfg t orgId db)
    (hk : k ∈ (o.apply db).apiKeys.rows) :
    (∃ k₀ ∈ db.apiKeys.rows, k₀.id = k.id ∧ k₀.keyHash = k.keyHash ∧
        ∀ time, k.isValidAt time = true → k₀.isValidAt time = true) ∨
      (t.world.Issues t.world' k.id ∧
        ∃ n m, k.keyHash =
            cfg.hashToken (apiKeyPrefix ++ "_" ++ (t.envs n).text ++ "_" ++ (t.envs m).text)) := by
  have same : k ∈ db.apiKeys.rows → (∃ k₀ ∈ db.apiKeys.rows, k₀.id = k.id ∧ k₀.keyHash = k.keyHash ∧
      ∀ time, k.isValidAt time = true → k₀.isValidAt time = true) ∨ (t.world.Issues t.world' k.id ∧
        ∃ n m, k.keyHash =
            cfg.hashToken (apiKeyPrefix ++ "_" ++ (t.envs n).text ++ "_" ++ (t.envs m).text)) :=
    fun hmem => .inl ⟨k, hmem, rfl, rfl, fun _ h => h⟩
  cases o with
  | org o =>
    cases o with
    | deleteOrganization id => exact same (Table.mem_delete.1 hk).1
    | setOrganizationName id name => exact same hk
    | addMember m => exact same hk
    | setMemberRole id roleId => exact same hk
    | deleteMember id => exact same hk
    | addNotification n => exact same hk
  | platform o =>
    cases o with
    | addApiKey k' =>
      simp only [ManagementOp.apply, PlatformOp.apply, PlatformDb.addApiKey] at hk
      split at hk
      · rcases Table.mem_or_eq_of_mem_insert hk with hk | rfl
        · exact same hk
        · exact .inr h.2.2
      · exact same hk
    | changeApiKey id c =>
      obtain ⟨k₀, hk₀, hid, -, htightens⟩ := h
      obtain ⟨k₁, hk₁, rfl⟩ := List.mem_map.1 hk
      refine .inl ⟨k₁, hk₁, by split <;> rfl, by split <;> rfl, ?_⟩
      split
      · rename_i hid₁
        rw [Table.eq_of_clash hk₁ hk₀ (ApiKey.clash_iff.2 (.inl ((beq_iff_eq.1 hid₁).trans hid.symm)))]
        exact htightens
      · exact fun _ h => h
    | addAuditLog r => exact same hk
    | addOutbox r => exact same hk
    | addRequestLog r => exact h.elim
    | incrementUsage i => exact h.elim
    | setOutbox id publishedAt attempts => exact h.elim
    | deleteDailyUsage id => exact h.elim
    | addDailyUsage r => exact h.elim
  | deleteApi id => exact same (Table.mem_delete.1 hk).1
  | addOrganization o => exact same hk
  | addApi a => exact same hk
  | changeApi id c => exact same hk
  | addApiVersion v => exact same hk
  | deleteApiVersion id => exact same hk
  | addQuota q => exact same hk
  | deleteQuota id => exact same hk
  | addRateLimitRule r => exact same hk
  | setRateLimitRule id algorithm spec => exact same hk

end

/-! ### Every run -/

namespace ManagementState

variable {cfg : Config} {s s' : ManagementState} {P : ManagementCall → Prop} {keyId : Uuid}
    {time : Time} {hash : String}

/-- Ids of keys are handed out before. -/
def KeysIssued (s : ManagementState) : Prop := ∀ k ∈ s.db.apiKeys.rows, k.id < s.world.supply

theorem Step.world (h : s.Step cfg P s') : s.world.clock ≤ s'.world.clock ∧
    s.world.supply ≤ s'.world.supply := by
  cases h with
  | call c _ => exact ⟨(call_grown cfg s c).clock, (call_grown cfg s c).supply⟩
  | elsewhere _ hclock hsupply => exact ⟨hclock, hsupply⟩

theorem Step.keysIssued (h : s.Step cfg P s') (hk : s.KeysIssued) : s'.KeysIssued := by
  have hsupply := h.world.2
  cases h with
  | call c _ =>
    refine call_keeps (P := fun db => ∀ k ∈ db.apiKeys.rows, k.id < (s.call cfg c).world.supply)
      (fun k hmem => (hk k hmem).trans_le hsupply) fun orgId o db ho hdb k hmem => ?_
    rcases mem_apiKeys_write ho hmem with ⟨k₀, hk₀, hid, -⟩ | ⟨hissued, -⟩
    · exact hid ▸ hdb k₀ hk₀
    · exact hissued.2
  | elsewhere hsame _ _ => exact fun k hmem => (hk k (hsame.apiKeys ▸ hmem)).trans_le hsupply

theorem Step.keyValid (h : s.Step cfg P s') (hid : keyId < s.world.supply)
    (hv : s'.db.KeyValid keyId time) :
    s.db.KeyValid keyId time := by
  cases h with
  | call c _ =>
    refine call_keeps (P := fun db => db.KeyValid keyId time → s.db.KeyValid keyId time) id
      (fun orgId o db ho hdb hvalid => ?_) hv
    obtain ⟨k, hmem, hk, hkv⟩ := hvalid
    rcases mem_apiKeys_write ho hmem with ⟨k₀, hk₀, hid₀, -, htightens⟩ | ⟨hissued, -⟩
    · exact hdb ⟨k₀, hk₀, hid₀.trans hk, htightens time hkv⟩
    · exact absurd (hk ▸ hissued.1) (Nat.not_le.2 hid)
  | elsewhere hsame _ _ =>
    obtain ⟨k, hmem, hk, hkv⟩ := hv
    exact ⟨k, hsame.apiKeys ▸ hmem, hk, hkv⟩

theorem Step.onlyHolder (h : s.Step cfg (ManagementCall.Fresh cfg hash) s')
    (hid : keyId < s.world.supply)
    (ho : s.db.OnlyHolder keyId hash) : s'.db.OnlyHolder keyId hash := by
  cases h with
  | call c hfresh =>
    refine call_keeps (P := fun db => db.OnlyHolder keyId hash) ho fun orgId o db hop hdb k hmem => ?_
    rcases mem_apiKeys_write hop hmem with ⟨k₀, hk₀, hid₀, hhash, -⟩ | ⟨hissued, n, m, hhash⟩
    · rw [← hid₀, ← hhash]
      exact hdb k₀ hk₀
    · exact ⟨fun he => absurd (hhash.symm.trans he) (hfresh n m),
        fun he => absurd (he ▸ hissued.1) (Nat.not_le.2 hid)⟩
  | elsewhere hsame _ _ => exact fun k hmem => ho k (hsame.apiKeys ▸ hmem)

theorem Later.world (h : s.Later cfg P s') : s.world.clock ≤ s'.world.clock ∧
    s.world.supply ≤ s'.world.supply := by
  induction h with
  | refl => exact ⟨le_refl _, le_refl _⟩
  | tail _ hstep ih => exact ⟨ih.1.trans hstep.world.1, ih.2.trans hstep.world.2⟩

theorem Later.keyValid (h : s.Later cfg P s') (hid : keyId < s.world.supply)
    (hv : s'.db.KeyValid keyId time) :
    s.db.KeyValid keyId time := by
  induction h with
  | refl => exact hv
  | tail hlater hstep ih => exact ih (hstep.keyValid (hid.trans_le (Later.world hlater).2) hv)

theorem Later.onlyHolder (h : s.Later cfg (ManagementCall.Fresh cfg hash) s')
    (hid : keyId < s.world.supply)
    (ho : s.db.OnlyHolder keyId hash) : s'.db.OnlyHolder keyId hash := by
  induction h with
  | refl => exact ho
  | tail hlater hstep ih => exact hstep.onlyHolder (hid.trans_le (Later.world hlater).2) ih

end ManagementState

theorem ManagementReachable.keysIssued {cfg : Config} {s : ManagementState}
    (h : ManagementReachable cfg s) : s.KeysIssued := by
  induction h with
  | initial users roles w => exact fun k hk => (List.not_mem_nil hk).elim
  | step hstep _ ih => exact hstep.keysIssued ih

/-! ### Authentication -/

/-- `GatewayService.authenticate` refuses the key because its API is disabled. -/
def apiDisabled : Failure :=
  .app ⟨.authenticationError, "api_disabled", "The target API is disabled.", []⟩

/-- A key is accepted that is valid, and a stored key is refused when it is not valid or its API is
disabled. -/
theorem authenticate_refuses (cfg : GatewayConfig) (raw : String) (s : Session platformTables.backend) :
    (Gateway.GatewayService.authenticate cfg (some raw)).Ends
      (fun r s' => raw ≠ "" ∧ r.1 ∈ s.db.apiKeys.rows ∧ r.1.keyHash = cfg.hashToken raw ∧ ∃ time,
        s.world.clock ≤ time ∧
        r.1.isValidAt time = true ∧ s'.dirty = s.dirty)
      (fun e s' => s.world.Grown s'.world ∧ (raw = "" ∨ e = apiDisabled ∨
        ∀ k ∈ s.db.apiKeys.rows, k.keyHash = cfg.hashToken raw → ¬ k.isValidAt s'.world.clock =
            true)) s := by
  unfold Gateway.GatewayService.authenticate
  by_cases hraw : raw = ""
  · simp only [hraw, bne_self_eq_false, Option.filter_some, Bool.false_eq_true, if_false]
    exact ⟨.refl _, .inl trivial⟩
  simp only [bne_iff_ne, ne_eq, hraw, not_false_eq_true, Option.filter_some, if_true]
  refine Prog.ends_query_bind ?_
  cases hone : s.db.apiKeys.one fun k => k.keyHash == cfg.hashToken raw with
  | none =>
    exact ⟨.refl _,
      .inr (.inr fun k hk hhash => absurd (by simpa using hhash) (Table.one_eq_none.1 hone k hk))⟩
  | some key =>
    have hkey := Table.mem_of_one hone
    have hhash : key.keyHash = cfg.hashToken raw := by simpa using Table.pred_of_one hone
    obtain ⟨api, hapi, hid⟩ := s.db.keyRefers key hkey
    have hfound : s.db.apis.one (fun a => a.id == key.apiId) = some api :=
      Table.one_eq_some hapi (by simpa using hid) fun b hb => Api.clash_iff.2 (.inl (by simp_all))
    simp only [Option.bind_some, hfound, Option.map_some]
    refine (clock_ends s).bind fun time s₁ ⟨htime, htime', h₁⟩ => ?_
    cases hvalid : key.isValidAt time with
    | false =>
      refine ⟨h₁.world, .inr (.inr fun k hk hh hk' => ?_)⟩
      rw [Table.eq_of_clash hk hkey (ApiKey.clash_iff.2 (.inr (hh.trans hhash.symm)))] at hk'
      rw [key.isValidAt_anti htime' hk'] at hvalid
      cases hvalid
    | true =>
      cases hactive : api.isActive with
      | false => exact ⟨h₁.world, .inr (.inl rfl)⟩
      | true => exact ⟨trivial, hkey, hhash, time, htime, hvalid, h₁.dirty⟩

/-- API-key authority only shrinks: a key that is not valid at a time is not valid at that time in
any later state, and a key that was refused, unless because its API was disabled, is never accepted
again, as long as no call draws a secret with its hash. -/
theorem key_authority_shrinks (cfg : GatewayConfig) {s : ManagementState}
    (h : ManagementReachable cfg.toConfig s) {k : ApiKey} (hk : k ∈ s.db.apiKeys.rows) :
    (∀ s₁ s₂ time, s.Later cfg.toConfig (fun _ => True) s₁ → ¬ s₁.db.KeyValid k.id time →
      s₁.Later cfg.toConfig (fun _ => True) s₂ → ¬ s₂.db.KeyValid k.id time) ∧
    ∀ raw s₁ s₂ envs₁ envs₂ e, cfg.hashToken raw = k.keyHash →
      s.Later cfg.toConfig (ManagementCall.Fresh cfg.toConfig k.keyHash) s₁ →
      (scope (Gateway.GatewayService.authenticate cfg (some raw)) envs₁ ⟨s₁.db, s₁.world⟩).1 =
        .error e → e ≠ apiDisabled →
      ManagementState.Later cfg.toConfig (ManagementCall.Fresh cfg.toConfig k.keyHash)
        ⟨s₁.db, (scope (Gateway.GatewayService.authenticate cfg (some raw)) envs₁
          ⟨s₁.db, s₁.world⟩).2.world⟩ s₂ →
      ∃ e', (scope (Gateway.GatewayService.authenticate cfg (some raw)) envs₂ ⟨s₂.db, s₂.world⟩).1 =
          .error e' := by
  have hid : k.id < s.world.supply := h.keysIssued k hk
  refine ⟨fun s₁ s₂ time h₁ hnot h₂ hv =>
    hnot (ManagementState.Later.keyValid h₂ (hid.trans_le (ManagementState.Later.world h₁).2) hv),
      ?_⟩
  intro raw s₁ s₂ envs₁ envs₂ e hhash h₁ hrefused hreason h₂
  have honly : s.db.OnlyHolder k.id k.keyHash := by
    intro k' hk'
    constructor
    · exact fun he => congrArg ApiKey.id (Table.eq_of_clash hk' hk (ApiKey.clash_iff.2 (.inr he)))
    · exact fun he => congrArg ApiKey.keyHash (Table.eq_of_clash hk' hk (ApiKey.clash_iff.2 (.inl he)))
  have honly₁ := ManagementState.Later.onlyHolder h₁ hid honly
  have hid₁ := hid.trans_le (ManagementState.Later.world h₁).2
  -- the first attempt: the key is not valid
  rcases Prog.Ends.scope (s := (⟨s₁.db, s₁.world⟩ : State platformTables.backend))
    (authenticate_refuses cfg raw ⟨s₁.db, [], s₁.world, envs₁⟩) with
      ⟨a, s', db, -, -, hout⟩ | ⟨e₁, s', hend, hout⟩
  · rw [hout] at hrefused
    cases hrefused
  rw [hout] at hrefused h₂
  cases hrefused
  rcases hend with ⟨hgrown, hend⟩ | ⟨a, ⟨-, -, -, -, -, -, hdirty⟩, hflush⟩
  · have hid' := hid₁.trans_le hgrown.supply
    have honly₂ := ManagementState.Later.onlyHolder h₂ hid' honly₁
    -- the second attempt
    rcases Prog.Ends.scope (s := (⟨s₂.db, s₂.world⟩ : State platformTables.backend))
        (authenticate_refuses cfg raw ⟨s₂.db, [], s₂.world, envs₂⟩) with
          ⟨r, s'', db, ⟨hraw, hr, hrhash, time, htime, hvalid, -⟩, -, -⟩ | ⟨e₂, s'', -, hout₂⟩
    · have hrid := (honly₂ r.1 hr).1 (hrhash.trans hhash)
      obtain ⟨k₁, hk₁, hk₁id, hk₁valid⟩ :=
        ManagementState.Later.keyValid h₂ hid' ⟨r.1, hr, hrid, hvalid⟩
      rcases hend with hempty | hdisabled | hinvalid
      · exact absurd hempty hraw
      · exact absurd hdisabled hreason
      · refine absurd (k₁.isValidAt_anti ?_ hk₁valid)
          (hinvalid k₁ hk₁ (((honly₁ k₁ hk₁).2 hk₁id).trans hhash.symm))
        exact (ManagementState.Later.world h₂).1.trans htime
    · exact ⟨e₂, by rw [hout₂]⟩
  · rw [hdirty] at hflush
    cases hflush

/-- The organization `100` with the API `102`, whose key `103` is revoked. -/
def sampleKeyed : ManagementState :=
  (sampleManagement.call sampleConfig (sampleCall (.createApi 1 100 "own" none ""))).call sampleConfig
    (sampleCall (.key (.createKey 1 100 102 "10.0.0.1" "key" none)))

def sampleRevocation : ManagementCall :=
  ⟨.key (.revokeKey 1 100 102 103 "10.0.0.1"), fun _ => { sampleGatewayEnv 2 with text := "x" }⟩

theorem key_authority_shrinks_revoked :
    ¬ (sampleKeyed.call sampleConfig sampleRevocation).db.KeyValid 103 epoch ∧
      ∃ e, (scope (Gateway.GatewayService.authenticate sampleGatewayConfig (some "atp__"))
        (fun _ => sampleGatewayEnv 4)
        ⟨(sampleKeyed.call sampleConfig sampleRevocation).db,
          (scope (Gateway.GatewayService.authenticate sampleGatewayConfig (some "atp__"))
          (fun _ => sampleGatewayEnv 3) ⟨(sampleKeyed.call sampleConfig sampleRevocation).db,
            (sampleKeyed.call sampleConfig sampleRevocation).world⟩).2.world⟩).1 = .error e := by
  have hkey : ⟨103, 102, 100, "key", "atp_", "", "#atp__", some 1, none, none, none⟩ ∈
    sampleKeyed.db.apiKeys.rows := by decide +kernel
  have hreach : ManagementReachable sampleGatewayConfig.toConfig sampleKeyed :=
    .call _ (.call _ (.call _ (.initial _ _ _)))
  have hstep : ∀ P : ManagementCall → Prop, P sampleRevocation →
      sampleKeyed.Later sampleGatewayConfig.toConfig P
          (sampleKeyed.call sampleConfig sampleRevocation) :=
    fun P hP => .single (.call sampleRevocation hP)
  have hnot : ¬ (sampleKeyed.call sampleConfig sampleRevocation).db.KeyValid 103 epoch := by
    unfold PlatformDb.KeyValid
    decide +kernel
  have hfresh : sampleGatewayConfig.hashToken (apiKeyPrefix ++ "_" ++ "x" ++ "_" ++ "x") ≠
    "#atp__" := by decide
  have h := key_authority_shrinks sampleGatewayConfig hreach hkey
  refine ⟨h.1 _ _ epoch (hstep _ trivial) hnot .refl, ?_⟩
  exact h.2 "atp__" _ _ (fun _ => sampleGatewayEnv 3) _
    (.app ⟨.authenticationError, "invalid_api_key", "Invalid or expired API key.", []⟩)
    (by decide) (hstep _ fun _ _ => hfresh) (by decide +kernel) (by decide) .refl

end TrafficPlatform
