import TrafficPlatform.Management.Isolation
import TrafficPlatform.Management.KeyAuthority

/-!
# The grace window of a rotation

After a rotation the old key is valid for the grace period, as far as it was valid before; its
successor is valid from then on.
-/

namespace TrafficPlatform
open Kit ApiKeys

/-- The end of a grace period that begins at the time. -/
def graceExpiry (time : Time) (gracePeriodHours : Nat) : Time := time + gracePeriodHours * 3600 * second

/-- What a rotation of `k` at the time does to the keys. -/
structure Rotated (db db' : PlatformDb) (k new : ApiKey) (gracePeriodHours : Nat)
    (time : Time) : Prop where
  old : ∀ t, time ≤ t →
    (db'.KeyValid k.id t ↔ db.KeyValid k.id t ∧ t < graceExpiry time gracePeriodHours)
  issued : new ∈ db'.apiKeys.rows
  fresh : ∀ k' ∈ db.apiKeys.rows, k'.id ≠ new.id
  api : new.apiId = k.apiId
  organization : new.organizationId = k.organizationId
  valid : ∀ t, time ≤ t → db'.KeyValid new.id t
  others : ∀ k', k'.id ≠ k.id → k'.id ≠ new.id → (k' ∈ db'.apiKeys.rows ↔ k' ∈ db.apiKeys.rows)

section
variable {k : ApiKey} {gracePeriodHours : Nat} {newId : Uuid} {time t : Time}

theorem grace_eq : ApiKeyService.grace k gracePeriodHours newId time =
    if gracePeriodHours = 0 then { revokedAt := some time, rotatedTo := some newId }
    else if k.expiresAt.all fun t => decide (t > graceExpiry time gracePeriodHours) then
      { expiresAt := some (graceExpiry time gracePeriodHours), rotatedTo := some newId }
    else { rotatedTo := some newId } := by
  unfold ApiKeyService.grace graceExpiry
  rfl

theorem expires_after_iff {expiry : Time} :
    (k.expiresAt.all fun t => decide (t > expiry)) = true ↔ ∀ e, k.expiresAt = some e → expiry < e := by
  simp only [Option.all_eq_true, decide_eq_true_iff]

theorem graceExpiry_zero : graceExpiry time 0 = time := by
  unfold graceExpiry
  rw [Nat.zero_mul]
  rfl

/-- The three branches on the grace period and the expiry come to one bound. -/
theorem isValidAt_grace (hrevoked : k.revokedAt = none) (ht : time ≤ t) :
    (k.changed (ApiKeyService.grace k gracePeriodHours newId time)).isValidAt t = true ↔
      k.isValidAt t = true ∧ t < graceExpiry time gracePeriodHours := by
  have hvalid : k.isValidAt t = true ↔ ∀ e, k.expiresAt = some e → t < e := by
    rw [ApiKey.isValidAt_iff, and_iff_right hrevoked]
  have hzero : gracePeriodHours = 0 → graceExpiry time gracePeriodHours = time :=
    fun h => h ▸ graceExpiry_zero
  rw [hvalid, ApiKey.isValidAt_iff, grace_eq]
  have hexpiry := @expires_after_iff k (graceExpiry time gracePeriodHours)
  generalize graceExpiry time gracePeriodHours = expiry at hzero hexpiry ⊢
  by_cases hperiod : gracePeriodHours = 0
  · -- the key is revoked, and no time is before the end of the grace period
    rw [hzero hperiod]
    simp only [ApiKey.changed, if_pos hperiod]
    exact iff_of_false (fun h => by cases h.1) fun h => absurd h.2 (Nat.not_lt.2 ht)
  · simp only [if_neg hperiod]
    split
    · -- the grace period ends first
      rename_i hlater
      have hall : ∀ e, k.expiresAt = some e → expiry < e := hexpiry.1 hlater
      simp only [ApiKey.changed, hrevoked]
      constructor
      · rintro ⟨-, h⟩
        have hlt : t < expiry := h _ rfl
        exact ⟨fun e he => hlt.trans (hall e he), hlt⟩
      · rintro ⟨-, hlt⟩
        refine ⟨rfl, fun e he => ?_⟩
        cases he
        exact hlt
    · -- the key expires before the grace period ends
      rename_i hearlier
      obtain ⟨e, he, hle⟩ : ∃ e, k.expiresAt = some e ∧ e ≤ expiry := by
        rw [hexpiry] at hearlier
        push Not at hearlier
        exact hearlier
      simp only [ApiKey.changed, hrevoked, he]
      constructor
      · rintro ⟨-, h⟩
        have hlt : t < e := h e rfl
        exact ⟨fun e' he' => by cases he'; exact hlt, lt_of_lt_of_le hlt hle⟩
      · rintro ⟨h, -⟩
        exact ⟨rfl, h⟩

end

theorem mem_apiKeys_add {db : PlatformDb} {new k' : ApiKey}
    (hnew : (PlatformOp.addApiKey new).check db = .ok ()) :
    k' ∈ (db.addApiKey new).apiKeys.rows ↔ k' ∈ db.apiKeys.rows ∨ k' = new := by
  obtain ⟨-, hadmits⟩ := insertCheck_eq_ok.1 hnew
  simp only [Bool.and_eq_true] at hadmits
  have hadd : (db.addApiKey new).apiKeys = db.apiKeys.insert new := by
    unfold PlatformDb.addApiKey
    rw [dif_pos hadmits.1.1.1]
  rw [hadd]
  exact Table.mem_insert hadmits.2

theorem mem_apiKeys_rotate {db : PlatformDb} {new k' : ApiKey} {keyId : Uuid} {c : ApiKeyChange}
    (hnew : (PlatformOp.addApiKey new).check db = .ok ()) :
      k' ∈ ((db.addApiKey new).changeApiKey keyId c).apiKeys.rows ↔
      ∃ k₀, (k₀ ∈ db.apiKeys.rows ∨ k₀ = new) ∧
        (if k₀.id == keyId then k₀.changed c else k₀) = k' := by
  rw [PlatformDb.changeApiKey, Table.mem_update]
  exact exists_congr fun k₀ => and_congr_left fun _ => mem_apiKeys_add hnew

theorem rotated_grace {cfg : Config} {t : Transition} {organizationId gracePeriodHours : Nat}
    {k new : ApiKey} {time : Time}
    {db' : PlatformDb} (hk : k ∈ t.db.apiKeys.rows) (hid : k.id < t.world.supply)
    (howned : t.db.KeysOwned)
    (hrevoked : k.revokedAt = none) (hissues : t.Issues cfg organizationId k.apiId new)
    (hnever : new.expiresAt = none)
    (hfresh : ∀ k' ∈ t.db.apiKeys.rows, k'.id < t.world.supply)
    (hdb : db' = (t.db.addApiKey new).changeApiKey k.id
      (ApiKeyService.grace k gracePeriodHours new.id time)) :
    Rotated t.db db' k new gracePeriodHours time := by
  have hne : new.id ≠ k.id := (hid.trans_le hissues.id.1).ne'
  have hmem : ∀ k', k' ∈ db'.apiKeys.rows ↔ ∃ k₀, (k₀ ∈ t.db.apiKeys.rows ∨ k₀ = new) ∧
      (if k₀.id == k.id then k₀.changed (ApiKeyService.grace k gracePeriodHours new.id time) else
          k₀) = k' := by
    rw [hdb]
    exact fun k' => mem_apiKeys_rotate hissues.admitted
  have hsame : ∀ k₀ ∈ t.db.apiKeys.rows, k₀.id = k.id → k₀ = k :=
    fun k₀ hk₀ h => Table.eq_of_clash hk₀ hk (ApiKey.clash_iff.2 (.inl h))
  have hnew : new ∈ db'.apiKeys.rows := (hmem new).2 ⟨new, .inr rfl, by simp [hne]⟩
  refine ⟨fun at' hat => ?_, hnew,
    fun k' hk' => ((hfresh k' hk').trans_le hissues.id.1).ne, hissues.api, ?_, fun at' _ => ?_, ?_⟩
  · rw [show t.db.KeyValid k.id at' ↔ k.isValidAt at' = true from
      ⟨fun ⟨k₀, hk₀, h, hv⟩ => hsame k₀ hk₀ h ▸ hv, fun hv => ⟨k, hk, rfl, hv⟩⟩,
        ← @isValidAt_grace _ _ new.id _ _ hrevoked hat]
    constructor
    · rintro ⟨k', hk', hid', hv⟩
      obtain ⟨k₀, hk₀, rfl⟩ := (hmem k').1 hk'
      split at hid' <;> rename_i heq <;> simp only [heq, if_true, if_false, Bool.false_eq_true] at hv
      · rcases hk₀ with hk₀ | rfl
        · rwa [hsame k₀ hk₀ (beq_iff_eq.1 heq)] at hv
        · exact absurd (beq_iff_eq.1 heq) hne
      · exact absurd (beq_iff_eq.2 hid') heq
    · intro hv
      exact ⟨k.changed _, (hmem _).2 ⟨k, .inl hk, by simp⟩, rfl, hv⟩
  · obtain ⟨api, hapi, hapid, horg⟩ := hissues.exists_api
    rw [hissues.organization, ← horg]
    exact howned k hk api hapi hapid
  · exact ⟨new, hnew, rfl,
      ApiKey.isValidAt_iff.2 ⟨hissues.revokedAt, fun e he => by rw [hnever] at he; cases he⟩⟩
  · intro k' hold hnot
    rw [hmem]
    constructor
    · rintro ⟨k₀, hk₀, rfl⟩
      split at hold <;> rename_i heq
      · exact absurd (beq_iff_eq.1 heq) hold
      · rw [if_neg heq] at hnot ⊢
        exact hk₀.resolve_right fun he => hnot (he ▸ rfl)
    · exact fun hk' => ⟨k', .inl hk', by simp [hold]⟩

/-- A rotation at the time at which it ends, of any unrevoked key: its grace window, its successor,
and no other change; a rotation that raises changes nothing. -/
theorem rotation_grace (cfg : Config) {s : ManagementState} (h : ManagementReachable cfg s)
    {k : ApiKey} (hk : k ∈ s.db.apiKeys.rows) (hrevoked : k.revokedAt = none)
    (organizationId : Uuid) (gracePeriodHours : Nat) (createdByUserId : Option Uuid)
    (envs : Nat → Env PlatformInput) :
    (∃ issued s', scope (ApiKeyService.rotateKey cfg organizationId k.apiId k.id gracePeriodHours
          createdByUserId) envs ⟨s.db, s.world⟩ = (.ok issued, s') ∧
        Rotated s.db s'.db k issued.1 gracePeriodHours s'.world.clock) ∨
      ∃ e s', scope (ApiKeyService.rotateKey cfg organizationId k.apiId k.id gracePeriodHours
          createdByUserId) envs ⟨s.db, s.world⟩ = (.error e, s') ∧
        s'.db.apiKeys = s.db.apiKeys := by
  have hends :=
    @rotateKey_ends cfg ⟨s.db, [], s.world, envs⟩ organizationId k.apiId k.id gracePeriodHours
    createdByUserId rfl
  rcases Prog.Ends.scope_flushed (s := (⟨s.db, s.world⟩ : State platformTables.backend)) hends
    (fun _ _ ⟨_, _, _, _, _, _, _, _, hreach⟩ => hreach.dirty) with
    ⟨issued, s', ⟨hissues, hnever, old, time, hold, -, -, htime, hreach⟩, hs⟩ | ⟨e, s', -, hs⟩
  · obtain rfl : old = k := Table.eq_of_clash hold.1 hk (ApiKey.clash_iff.2 (.inl hold.2.1))
    refine .inl ⟨issued, _, hs, ?_⟩
    subst htime
    exact rotated_grace (t := ApiKeys.between ⟨s.db, [], s.world, envs⟩ s') hk
      (h.keysIssued _ hk) h.keysOwned hrevoked hissues hnever
      h.keysIssued hreach.db
  · exact .inr ⟨e, _, hs, rfl⟩

/-- The key of the organization `100` is rotated with a grace period of a day. -/
theorem rotation_grace_day : ∃ issued s',
    scope (ApiKeyService.rotateKey sampleConfig 100 102 103 24 none)
      (fun _ => { sampleGatewayEnv 2 with text := "x" }) ⟨sampleKeyed.db, sampleKeyed.world⟩ =
        (.ok issued, s') ∧
    Rotated sampleKeyed.db s'.db
        ⟨103, 102, 100, "key", "atp_", "", "#atp__", some 1, none, none, none⟩ issued.1 24
            s'.world.clock := by
  have hkey : ⟨103, 102, 100, "key", "atp_", "", "#atp__", some 1, none, none, none⟩ ∈
    sampleKeyed.db.apiKeys.rows := by decide +kernel
  have hreach : ManagementReachable sampleConfig sampleKeyed :=
    .call _ (.call _ (.call _ (.initial _ _ _)))
  rcases rotation_grace sampleConfig hreach hkey rfl 100 24 none
    (fun _ => { sampleGatewayEnv 2 with text := "x" }) with h | ⟨e, s', hs, -⟩
  · exact h
  · have hok : (scope (ApiKeyService.rotateKey sampleConfig 100 102 103 24 none)
        (fun _ => { sampleGatewayEnv 2 with text := "x" })
          ⟨sampleKeyed.db, sampleKeyed.world⟩).1.isOk = true := by decide +kernel
    rw [hs] at hok
    cases hok

end TrafficPlatform
