import TrafficPlatform.Quota
import TrafficPlatform.RateLimit

/-!
# The API catalog and its keys

The rows of `app/models/api.py` and `app/models/api_key.py` with their unique constraints.
-/

namespace TrafficPlatform
open Kit

structure Api where
  id : Uuid
  organizationId : Uuid
  name : String
  slug : String
  description : String
  isActive : Bool
deriving DecidableEq, Repr

structure ApiVersion where
  id : Uuid
  apiId : Uuid
  version : String
  upstreamBaseUrl : String
  isActive : Bool
deriving DecidableEq, Repr

structure Quota where
  id : Uuid
  apiId : Uuid
  period : QuotaPeriod
  maxRequests : Int
deriving DecidableEq, Repr

structure RateLimitRule where
  id : Uuid
  apiId : Uuid
  algorithm : RateLimitAlgorithm
  requests : Int
  windowSeconds : Int
  burst : Option Int
deriving DecidableEq, Repr

structure ApiKey where
  id : Uuid
  apiId : Uuid
  organizationId : Uuid
  name : String
  keyPrefix : String
  lastFour : String
  keyHash : String
  createdByUserId : Option Uuid
  expiresAt : Option Time
  revokedAt : Option Time
  rotatedTo : Option Uuid
deriving DecidableEq, Repr

/-- Neither revoked nor expired. -/
def ApiKey.isValidAt (k : ApiKey) (now : Time) : Bool :=
  if k.revokedAt.isSome then false
  else !(k.expiresAt.any fun t => decide (t ≤ now))

theorem ApiKey.isValidAt_iff {k : ApiKey} {now : Time} :
    k.isValidAt now = true ↔ k.revokedAt = none ∧ ∀ t, k.expiresAt = some t → now < t := by
  cases hr : k.revokedAt with
  | some t => simp [isValidAt, hr]
  | none => cases he : k.expiresAt <;> simp [isValidAt, hr, he]

/-! ### Constraints -/

/-- The primary key, and `uq_apis_org_slug`. -/
instance : Schema Api where
  clash a b := a.id == b.id || (a.organizationId == b.organizationId && a.slug == b.slug)
  symm a b h := by
    simp only [Bool.or_eq_true, Bool.and_eq_true, beq_iff_eq] at h ⊢
    exact h.imp Eq.symm fun h => ⟨h.1.symm, h.2.symm⟩

/-- The primary key, and `uq_api_versions_api_version`. -/
instance : Schema ApiVersion where
  clash a b := a.id == b.id || (a.apiId == b.apiId && a.version == b.version)
  symm a b h := by
    simp only [Bool.or_eq_true, Bool.and_eq_true, beq_iff_eq] at h ⊢
    exact h.imp Eq.symm fun h => ⟨h.1.symm, h.2.symm⟩

/-- The primary key, and `uq_quotas_api_period`. -/
instance : Schema Quota where
  clash a b := a.id == b.id || (a.apiId == b.apiId && a.period == b.period)
  symm a b h := by
    simp only [Bool.or_eq_true, Bool.and_eq_true, beq_iff_eq] at h ⊢
    exact h.imp Eq.symm fun h => ⟨h.1.symm, h.2.symm⟩

/-- The primary key, and `uq_rate_limit_rules_api`. -/
instance : Schema RateLimitRule where
  clash a b := a.id == b.id || a.apiId == b.apiId
  symm a b h := by
    simp only [Bool.or_eq_true, beq_iff_eq] at h ⊢
    exact h.imp Eq.symm Eq.symm

/-- The primary key, and the unique `key_hash`. -/
instance : Schema ApiKey where
  clash a b := a.id == b.id || a.keyHash == b.keyHash
  symm a b h := by
    simp only [Bool.or_eq_true, beq_iff_eq] at h ⊢
    exact h.imp Eq.symm Eq.symm

theorem Api.clash_iff {a b : Api} :
    Schema.clash a b = true ↔ a.id = b.id ∨
        (a.organizationId = b.organizationId ∧ a.slug = b.slug) := by
  simp [Schema.clash]

theorem ApiVersion.clash_iff {a b : ApiVersion} :
    Schema.clash a b = true ↔ a.id = b.id ∨ (a.apiId = b.apiId ∧ a.version = b.version) := by
  simp [Schema.clash]

theorem Quota.clash_iff {a b : Quota} :
    Schema.clash a b = true ↔ a.id = b.id ∨ (a.apiId = b.apiId ∧ a.period = b.period) := by
  simp [Schema.clash]

theorem RateLimitRule.clash_iff {a b : RateLimitRule} :
    Schema.clash a b = true ↔ a.id = b.id ∨ a.apiId = b.apiId := by
  simp [Schema.clash]

theorem ApiKey.clash_iff {a b : ApiKey} : Schema.clash a b = true ↔ a.id = b.id ∨
    a.keyHash = b.keyHash := by
  simp [Schema.clash]

end TrafficPlatform
