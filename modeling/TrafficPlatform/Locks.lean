import TrafficPlatform.Kit.Replay
import TrafficPlatform.Platform

/-!
# What the row locks protect

Whether a write is accepted depends on the rows and the index entries that it locks, on the catalog,
which the requests of the platform do not change, and on the API keys, which they do not delete
(`platformRows`).
-/

namespace TrafficPlatform
open Kit

/-- A write of a request of the platform. -/
def PlatformOp.OfRequest : PlatformOp → Prop
  | addApiKey _ => True
  | changeApiKey _ _ => True
  | addRequestLog _ => True
  | incrementUsage _ => True
  | addAuditLog _ => True
  | addOutbox _ => True
  | setOutbox _ _ _ => False
  | deleteDailyUsage _ => False
  | addDailyUsage _ => False

/-- The databases agree on the rows and the index entries in `K`, and no API key of the first has
gone. -/
structure PlatformDb.Agree (K : PlatformKey → Prop) (a b : PlatformDb) : Prop where
  orgs : b.orgs = a.orgs
  apis : b.apis = a.apis
  hasApiKey : ∀ id, a.hasApiKey id = true → b.hasApiKey id = true
  apiKeys : Table.Agree (fun k => (k.id, k.keyHash))
    (fun x => K (.apiKeyRow x.1) ∨ K (.keyHash x.2)) a.apiKeys b.apiKeys
  requestLogs : Table.Agree (·.id) (fun id => K (.requestLogRow id)) a.requestLogs b.requestLogs
  usageRows : Table.Agree (·.id) (fun id => K (.usageRow id)) a.apiKeyUsage b.apiKeyUsage
  usagePairs : Table.Agree (fun u => u) (fun u => K (.usagePair u.apiKeyId u.usageDate))
    a.apiKeyUsage b.apiKeyUsage
  auditLogs : Table.Agree (·.id) (fun id => K (.auditLogRow id)) a.auditLogs b.auditLogs
  outbox : Table.Agree (·.id) (fun id => K (.outboxRow id)) a.outbox b.outbox

namespace PlatformDb

variable {K : PlatformKey → Prop} {a b db : PlatformDb}

/-! ### The API keys -/

theorem hasApi_congr {id : Uuid} (h : b.apis = a.apis) : b.hasApi id = a.hasApi id := by
  unfold hasApi
  rw [h]

theorem apiKeys_addApiKey {k : ApiKey} (h : db.hasApi k.apiId = true) :
    (db.addApiKey k).apiKeys = db.apiKeys.insert k := by
  unfold addApiKey
  rw [dif_pos h]

theorem clash_changed (c : ApiKeyChange) (k k' : ApiKey) : Schema.clash (k.changed c) k' =
    Schema.clash k k' := by
  simp [Schema.clash, ApiKey.changed]

theorem apiKeys_changeApiKey {id : Uuid} {c : ApiKeyChange} : (db.changeApiKey id c).apiKeys =
    db.apiKeys.update (fun k => k.id == id) (·.changed c) (clash_changed c) := rfl

theorem hasApiKey_addApiKey {k : ApiKey} {id : Uuid} (h : db.hasApiKey id = true) :
    (db.addApiKey k).hasApiKey id = true := by
  obtain ⟨k', hk', hid⟩ := hasApiKey_iff.1 h
  unfold addApiKey
  split
  · exact hasApiKey_iff.2 ⟨k', Table.mem_insert_of_mem hk', hid⟩
  · exact h

theorem hasApiKey_changeApiKey {id id' : Uuid} {c : ApiKeyChange} :
    (db.changeApiKey id c).hasApiKey id' = db.hasApiKey id' := by
  rw [Bool.eq_iff_iff, hasApiKey_iff, hasApiKey_iff, apiKeys_changeApiKey]
  constructor
  · rintro ⟨_, hk, hid⟩
    obtain ⟨k, hk', rfl⟩ := Table.mem_update.1 hk
    refine ⟨k, hk', ?_⟩
    split at hid <;> exact hid
  · rintro ⟨k, hk, hid⟩
    refine ⟨_, Table.mem_update_of_mem hk, ?_⟩
    split <;> exact hid

theorem hasApiKey_incrementUsage {i : UsageIncrement} {id : Uuid} :
    (db.incrementUsage i).hasApiKey id = db.hasApiKey id := by
  unfold hasApiKey
  rw [incrementUsage_apiKeys]

namespace Agree

theorem refl (K : PlatformKey → Prop) (db : PlatformDb) : Agree K db db :=
  ⟨rfl, rfl, fun _ => id, .refl _ _ _, .refl _ _ _, .refl _ _ _, .refl _ _ _, .refl _ _ _, .refl _ _ _⟩

theorem trans {c : PlatformDb} (h : Agree K a b) (h' : Agree K b c) : Agree K a c :=
  ⟨h'.orgs.trans h.orgs, h'.apis.trans h.apis,
    fun id hid => h'.hasApiKey id (h.hasApiKey id hid), h.apiKeys.trans h'.apiKeys,
    h.requestLogs.trans h'.requestLogs, h.usageRows.trans h'.usageRows,
      h.usagePairs.trans h'.usagePairs,
    h.auditLogs.trans h'.auditLogs, h.outbox.trans h'.outbox⟩

/-! ### Writes to other rows -/

theorem addApiKey_other {k : ApiKey} (h : ¬ (K (.apiKeyRow k.id) ∨ K (.keyHash k.keyHash))) :
    Agree K db (db.addApiKey k) := by
  have hkeys : ∀ id, db.hasApiKey id = true → (db.addApiKey k).hasApiKey id = true :=
    fun _ => hasApiKey_addApiKey
  unfold addApiKey at hkeys ⊢
  split
  · rename_i hapi
    rw [dif_pos hapi] at hkeys
    exact { refl K db with hasApiKey := hkeys, apiKeys := .insert_other h }
  · exact refl K db

theorem changeApiKey_other {id : Uuid} {c : ApiKeyChange} : Agree K db (db.changeApiKey id c) := by
  refine { refl K db with hasApiKey := fun _ h => hasApiKey_changeApiKey.trans h, apiKeys := ?_ }
  rw [apiKeys_changeApiKey]
  exact .update_keep fun _ => rfl

theorem incrementUsage_other {i : UsageIncrement} (hid : ¬ K (.usageRow i.id))
    (hpair : ¬ K (.usagePair i.apiKeyId i.usageDate)) :
    Agree K db (db.incrementUsage i) := by
  have hother : ∀ u, i.isFor u = true → ¬ K (.usagePair u.apiKeyId u.usageDate) := by
    intro u hu
    rw [UsageIncrement.isFor_iff] at hu
    rw [hu.1, hu.2]
    exact hpair
  by_cases hkey : db.hasApiKey i.apiKeyId = true
  · refine ⟨db.incrementUsage_orgs i, db.incrementUsage_apis i,
      fun _ h => hasApiKey_incrementUsage.trans h, ?_, ?_, ?_, ?_, ?_, ?_⟩
    · rw [incrementUsage_apiKeys]; exact .refl _ _ _
    · rw [incrementUsage_requestLogs]; exact .refl _ _ _
    · rw [incrementUsage_apiKeyUsage hkey]
      split
      · exact .update_keep fun _ => rfl
      · exact .insert_other hid
    · rw [incrementUsage_apiKeyUsage hkey]
      split
      · exact .update_other fun u hu => ⟨hother u hu, hother u hu⟩
      · exact .insert_other hpair
    · rw [incrementUsage_auditLogs]; exact .refl _ _ _
    · rw [incrementUsage_outbox]; exact .refl _ _ _
  · unfold incrementUsage
    rw [dif_neg hkey]
    exact refl K db

/-! ### Writes to these rows -/

theorem addApiKey_same {k : ApiKey} (h : Agree K a b) (hid : K (.apiKeyRow k.id))
    (hhash : K (.keyHash k.keyHash)) (hc : (PlatformOp.addApiKey k).check a = .ok ()) :
    (PlatformOp.addApiKey k).check b = .ok () ∧ Agree K (a.addApiKey k) (b.addApiKey k) := by
  have hadmits : a.apiKeys.admits k = b.apiKeys.admits k := by
    refine h.apiKeys.admits_eq (C := fun x => x.1 = k.id ∨ x.2 = k.keyHash)
      (fun a => ApiKey.clash_iff) ?_
    rintro x (hx | hx)
    · exact .inl (hx ▸ hid)
    · exact .inr (hx ▸ hhash)
  have hcheck : (PlatformOp.addApiKey k).check b = (PlatformOp.addApiKey k).check a := by
    unfold PlatformOp.check
    dsimp only
    rw [hasApi_congr h.apis, h.orgs, hadmits]
  refine ⟨hcheck.trans hc, ?_⟩
  have hapi : a.hasApi k.apiId = true := by
    by_contra hno
    unfold PlatformOp.check insertCheck at hc
    simp only [Bool.eq_false_of_not_eq_true hno, Bool.false_and] at hc
    split at hc <;> cases hc
  have hapi' : b.hasApi k.apiId = true := (hasApi_congr h.apis).trans hapi
  have hkeys : ∀ id, (a.addApiKey k).hasApiKey id = true → (b.addApiKey k).hasApiKey id = true := by
    intro id hid'
    obtain ⟨k', hk', rfl⟩ := hasApiKey_iff.1 hid'
    rw [apiKeys_addApiKey hapi, Table.mem_insert_iff] at hk'
    rcases hk' with hk' | ⟨rfl, hadm⟩
    · exact hasApiKey_addApiKey (h.hasApiKey _ (hasApiKey_iff.2 ⟨k', hk', rfl⟩))
    · refine hasApiKey_iff.2 ⟨k, ?_, rfl⟩
      rw [apiKeys_addApiKey hapi', Table.mem_insert_iff]
      exact .inr ⟨rfl, hadmits ▸ hadm⟩
  unfold addApiKey at hkeys ⊢
  rw [dif_pos hapi, dif_pos hapi'] at hkeys ⊢
  exact { h with hasApiKey := hkeys, apiKeys := h.apiKeys.insert_same hadmits }

theorem changeApiKey_same {id : Uuid} {c : ApiKeyChange} (h : Agree K a b)
    (hc : (PlatformOp.changeApiKey id c).check a = .ok ()) :
    (PlatformOp.changeApiKey id c).check b = .ok () ∧
        Agree K (a.changeApiKey id c) (b.changeApiKey id c) := by
  have hkey : a.hasApiKey id = true := by
    unfold PlatformOp.check at hc
    dsimp only at hc
    split at hc
    · assumption
    · cases hc
  refine ⟨?_, ?_⟩
  · unfold PlatformOp.check
    dsimp only
    rw [if_pos (h.hasApiKey id hkey)]
  · refine { h with hasApiKey := fun id' hid' => ?_, apiKeys := ?_ }
    · rw [hasApiKey_changeApiKey] at hid' ⊢
      exact h.hasApiKey id' hid'
    · rw [apiKeys_changeApiKey, apiKeys_changeApiKey]
      exact h.apiKeys.update_keep_same fun _ => rfl

theorem incrementUsage_same {i : UsageIncrement} (h : Agree K a b) (hid : K (.usageRow i.id))
    (hpair : K (.usagePair i.apiKeyId i.usageDate))
    (hc : (PlatformOp.incrementUsage i).check a = .ok ()) :
    (PlatformOp.incrementUsage i).check b = .ok () ∧
        Agree K (a.incrementUsage i) (b.incrementUsage i) := by
  have hkey : a.hasApiKey i.apiKeyId = true := by
    by_contra hno
    unfold PlatformOp.check at hc
    simp only [Bool.eq_false_of_not_eq_true hno, Bool.not_false, if_true] at hc
    cases hc
  have hkey' := h.hasApiKey _ hkey
  have hpairs : ∀ u, i.isFor u = true → K (.usagePair u.apiKeyId u.usageDate) := by
    intro u hu
    rw [UsageIncrement.isFor_iff] at hu
    rw [hu.1, hu.2]
    exact hpair
  have hone : a.apiKeyUsage.one i.isFor = b.apiKeyUsage.one i.isFor :=
    h.usagePairs.one_eq hpairs fun _ _ => UsageIncrement.isFor_unique
  have hany : a.apiKeyUsage.rows.any i.isFor = b.apiKeyUsage.rows.any i.isFor := by
    rw [Bool.eq_iff_iff, List.any_eq_true, List.any_eq_true]
    exact h.usagePairs.exists_iff (C := fun u => i.isFor u = true) hpairs
  have hadmits : a.apiKeyUsage.admits i.row = b.apiKeyUsage.admits i.row := by
    have hids := h.usageRows.exists_iff (C := fun id => id = i.id) fun _ he => he ▸ hid
    have hfor := h.usagePairs.exists_iff (C := fun u => i.isFor u = true) hpairs
    rw [Bool.eq_iff_iff, Table.admits_iff, Table.admits_iff]
    simp only [ApiKeyUsage.clash_iff, UsageIncrement.row, ← UsageIncrement.isFor_iff, not_or]
    constructor
    · intro hall u hu
      exact ⟨fun he => (hids.2 ⟨u, hu, he⟩).elim fun v hv => (hall v hv.1).1 hv.2,
        fun he => (hfor.2 ⟨u, hu, he⟩).elim fun v hv => (hall v hv.1).2 hv.2⟩
    · intro hall u hu
      exact ⟨fun he => (hids.1 ⟨u, hu, he⟩).elim fun v hv => (hall v hv.1).1 hv.2,
        fun he => (hfor.1 ⟨u, hu, he⟩).elim fun v hv => (hall v hv.1).2 hv.2⟩
  have hcheck : (PlatformOp.incrementUsage i).check b = (PlatformOp.incrementUsage i).check a := by
    unfold PlatformOp.check
    dsimp only
    rw [hkey, hkey', hone, hadmits]
  refine ⟨hcheck.trans hc, ?_, ?_, fun id hid' => ?_, ?_, ?_, ?_, ?_, ?_, ?_⟩
  · rw [incrementUsage_orgs, incrementUsage_orgs]; exact h.orgs
  · rw [incrementUsage_apis, incrementUsage_apis]; exact h.apis
  · rw [hasApiKey_incrementUsage] at hid' ⊢; exact h.hasApiKey id hid'
  · rw [incrementUsage_apiKeys, incrementUsage_apiKeys]; exact h.apiKeys
  · rw [incrementUsage_requestLogs, incrementUsage_requestLogs]; exact h.requestLogs
  · rw [incrementUsage_apiKeyUsage hkey, incrementUsage_apiKeyUsage hkey', hany]
    split
    · exact h.usageRows.update_keep_same fun _ => rfl
    · exact h.usageRows.insert_same hadmits
  · rw [incrementUsage_apiKeyUsage hkey, incrementUsage_apiKeyUsage hkey', hany]
    split
    · exact h.usagePairs.update_same hpairs
    · exact h.usagePairs.insert_same hadmits
  · rw [incrementUsage_auditLogs, incrementUsage_auditLogs]; exact h.auditLogs
  · rw [incrementUsage_outbox, incrementUsage_outbox]; exact h.outbox

end Agree

end PlatformDb

theorem insertCheck_same {fits admits admits' : Bool} (h : admits = admits') (hc : insertCheck fits admits = .ok ()) :
    insertCheck fits admits' = .ok () := h ▸ hc

open PlatformDb.Agree in
/-- The writes of the requests depend on what they lock. -/
theorem platformRows : platformTables.backend.Local PlatformOp.OfRequest PlatformDb.Agree where
  refl := refl
  trans _ _ _ _ := trans
  other K o db hP h := by
    cases o with
    | addApiKey k =>
      exact addApiKey_other fun hk =>
        hk.elim (h _ (by simp [PlatformOp.keys])) (h _ (by simp [PlatformOp.keys]))
    | changeApiKey id c => exact changeApiKey_other
    | addRequestLog r =>
      exact { refl K db with requestLogs := .insert_other (h _ (by simp [PlatformOp.keys])) }
    | incrementUsage i =>
      exact incrementUsage_other (h _ (by simp [PlatformOp.keys])) (h _ (by simp [PlatformOp.keys]))
    | addAuditLog r =>
      exact { refl K db with auditLogs := .insert_other (h _ (by simp [PlatformOp.keys])) }
    | addOutbox r => exact { refl K db with outbox := .insert_other (h _ (by simp [PlatformOp.keys])) }
    | setOutbox id publishedAt attempts => exact hP.elim
    | deleteDailyUsage id => exact hP.elim
    | addDailyUsage r => exact hP.elim
  same K o a b hP h hab hc := by
    have hclash : ∀ x id : Uuid, (x == id) = true ↔ x = id := fun _ _ => beq_iff_eq
    cases o with
    | addApiKey k =>
      exact addApiKey_same hab (h _ (by simp [PlatformOp.keys]))
        (h _ (by simp [PlatformOp.keys])) hc
    | changeApiKey id c => exact changeApiKey_same hab hc
    | addRequestLog r =>
      have hK : K (.requestLogRow r.id) := h _ (by simp [PlatformOp.keys])
      have hadmits : a.requestLogs.admits r = b.requestLogs.admits r :=
        hab.requestLogs.admits_eq (C := fun id => id = r.id) (fun x => hclash x.id r.id)
          fun _ he => he ▸ hK
      exact ⟨insertCheck_same hadmits hc,
        { hab with requestLogs := hab.requestLogs.insert_same hadmits }⟩
    | incrementUsage i =>
      exact incrementUsage_same hab (h _ (by simp [PlatformOp.keys]))
        (h _ (by simp [PlatformOp.keys])) hc
    | addAuditLog r =>
      have hK : K (.auditLogRow r.id) := h _ (by simp [PlatformOp.keys])
      have hadmits : a.auditLogs.admits r = b.auditLogs.admits r :=
        hab.auditLogs.admits_eq (C := fun id => id = r.id) (fun x => hclash x.id r.id)
          fun _ he => he ▸ hK
      exact ⟨insertCheck_same hadmits hc, { hab with auditLogs := hab.auditLogs.insert_same hadmits }⟩
    | addOutbox r =>
      have hK : K (.outboxRow r.id) := h _ (by simp [PlatformOp.keys])
      have hadmits : a.outbox.admits r = b.outbox.admits r :=
        hab.outbox.admits_eq (C := fun id => id = r.id) (fun x => hclash x.id r.id) fun _ he => he ▸ hK
      exact ⟨insertCheck_same hadmits hc, { hab with outbox := hab.outbox.insert_same hadmits }⟩
    | setOutbox id publishedAt attempts => exact hP.elim
    | deleteDailyUsage id => exact hP.elim
    | addDailyUsage r => exact hP.elim

end TrafficPlatform
