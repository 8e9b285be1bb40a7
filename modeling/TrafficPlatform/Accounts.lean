import TrafficPlatform.Basic
import TrafficPlatform.Kit.Table

/-!
# Accounts: users, refresh tokens, organizations, memberships and roles

The rows of `app/models/user.py` and `app/models/organization.py` with their unique constraints.
-/

namespace TrafficPlatform
open Kit

structure User where
  id : Uuid
  email : String
  fullName : Option String
  passwordHash : String
  isActive : Bool
  isEmailVerified : Bool
  isSuperuser : Bool
deriving DecidableEq, Repr

structure RefreshToken where
  id : Uuid
  userId : Uuid
  familyId : Uuid
  tokenHash : String
  expiresAt : Time
  revokedAt : Option Time
  rotatedTo : Option Uuid
deriving DecidableEq, Repr

structure Organization where
  id : Uuid
  name : String
  slug : String
deriving DecidableEq, Repr

structure Role where
  id : Uuid
  name : String
deriving DecidableEq, Repr

/-- A user's membership in an organization, with a single role. -/
structure OrganizationMember where
  id : Uuid
  organizationId : Uuid
  userId : Uuid
  roleId : Uuid
deriving DecidableEq, Repr

/-- The primary key, and `email` is unique. -/
instance : Schema User where
  clash a b := a.id == b.id || a.email == b.email
  symm a b h := by
    simp only [Bool.or_eq_true, beq_iff_eq] at h ⊢
    exact h.imp Eq.symm Eq.symm

/-- The primary key, and `uq_refresh_tokens_token_hash`. -/
instance : Schema RefreshToken where
  clash a b := a.id == b.id || a.tokenHash == b.tokenHash
  symm a b h := by
    simp only [Bool.or_eq_true, beq_iff_eq] at h ⊢
    exact h.imp Eq.symm Eq.symm

/-- The primary key, and `slug` is unique. -/
instance : Schema Organization where
  clash a b := a.id == b.id || a.slug == b.slug
  symm a b h := by
    simp only [Bool.or_eq_true, beq_iff_eq] at h ⊢
    exact h.imp Eq.symm Eq.symm

/-- The primary key, and `name` is unique. -/
instance : Schema Role where
  clash a b := a.id == b.id || a.name == b.name
  symm a b h := by
    simp only [Bool.or_eq_true, beq_iff_eq] at h ⊢
    exact h.imp Eq.symm Eq.symm

/-- The primary key, and `uq_member_org_user`. -/
instance : Schema OrganizationMember where
  clash a b := a.id == b.id || (a.organizationId == b.organizationId && a.userId == b.userId)
  symm a b h := by
    simp only [Bool.or_eq_true, Bool.and_eq_true, beq_iff_eq] at h ⊢
    exact h.imp Eq.symm (And.imp Eq.symm Eq.symm)

@[simp] theorem User.clash_iff {a b : User} : Schema.clash a b = true ↔ a.id = b.id ∨
    a.email = b.email := by
  simp [Schema.clash]

@[simp] theorem RefreshToken.clash_iff {a b : RefreshToken} :
    Schema.clash a b = true ↔ a.id = b.id ∨ a.tokenHash = b.tokenHash := by
  simp [Schema.clash]

@[simp] theorem Organization.clash_iff {a b : Organization} :
    Schema.clash a b = true ↔ a.id = b.id ∨ a.slug = b.slug := by
  simp [Schema.clash]

@[simp] theorem Role.clash_iff {a b : Role} : Schema.clash a b = true ↔ a.id = b.id ∨
    a.name = b.name := by
  simp [Schema.clash]

@[simp] theorem OrganizationMember.clash_iff {a b : OrganizationMember} : Schema.clash a b = true ↔
    a.id = b.id ∨ a.organizationId = b.organizationId ∧ a.userId = b.userId := by
  simp [Schema.clash]

/-- A user, on whom counterexamples are run. -/
def sampleUser : User where
  id := 1
  email := "ada@example.com"
  fullName := none
  passwordHash := "salt$pw"
  isActive := true
  isEmailVerified := true
  isSuperuser := false

end TrafficPlatform
