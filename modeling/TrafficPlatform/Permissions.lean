import Mathlib.Tactic.Basic

/-!
# Permissions and the built-in roles

The catalog of `app/core/permissions.py`. A `frozenset` is the list of its elements.
-/

namespace TrafficPlatform

inductive Permission
  | orgRead
  | orgUpdate
  | orgDelete
  | memberRead
  | memberInvite
  | memberUpdateRole
  | memberRemove
  | apiCreate
  | apiRead
  | apiUpdate
  | apiDelete
  | keyCreate
  | keyRead
  | keyRevoke
  | keyRotate
  | analyticsRead
  | auditRead
deriving DecidableEq, Repr

def Permission.code : Permission → String
  | orgRead => "org:read"
  | orgUpdate => "org:update"
  | orgDelete => "org:delete"
  | memberRead => "member:read"
  | memberInvite => "member:invite"
  | memberUpdateRole => "member:update_role"
  | memberRemove => "member:remove"
  | apiCreate => "api:create"
  | apiRead => "api:read"
  | apiUpdate => "api:update"
  | apiDelete => "api:delete"
  | keyCreate => "key:create"
  | keyRead => "key:read"
  | keyRevoke => "key:revoke"
  | keyRotate => "key:rotate"
  | analyticsRead => "analytics:read"
  | auditRead => "audit:read"

inductive RoleName
  | owner
  | admin
  | developer
  | viewer
deriving DecidableEq, Repr

namespace RoleName

/-- The value of the enumeration member. -/
def name : RoleName → String
  | owner => "owner"
  | admin => "admin"
  | developer => "developer"
  | viewer => "viewer"

/-- `RoleName(value)`, a `ValueError` for any other string. -/
def ofName (value : String) : Option RoleName :=
  [owner, admin, developer, viewer].find? fun r => r.name == value

theorem name_of_ofName {value : String} {r : RoleName} (h : ofName value = some r) :
    r.name = value := by
  simpa using List.find?_some h

theorem name_injective {r r' : RoleName} (h : r.name = r'.name) : r = r' := by
  cases r <;> cases r' <;> first | rfl | exact absurd h (by decide)

theorem ofName_name (r : RoleName) : ofName r.name = some r := by
  cases r <;> decide

end RoleName

def allPermissions : List Permission :=
  [.orgRead, .orgUpdate, .orgDelete, .memberRead, .memberInvite, .memberUpdateRole,
    .memberRemove, .apiCreate,
    .apiRead, .apiUpdate, .apiDelete, .keyCreate, .keyRead, .keyRevoke, .keyRotate,
      .analyticsRead, .auditRead]

def readOnly : List Permission :=
  [.orgRead, .memberRead, .apiRead, .keyRead, .analyticsRead, .auditRead]

def developer : List Permission :=
  readOnly ++ [.apiCreate, .apiUpdate, .apiDelete, .keyCreate, .keyRevoke, .keyRotate]

def rolePermissions : RoleName → List Permission
  | .owner => allPermissions
  | .admin => allPermissions.filter (· ≠ .orgDelete)
  | .developer => developer
  | .viewer => readOnly

def roleHasPermission (role : RoleName) (permission : Permission) : Bool :=
  permission ∈ rolePermissions role

theorem mem_allPermissions (p : Permission) : p ∈ allPermissions := by
  cases p <;> decide

theorem roleHasPermission_orgDelete {role : RoleName} :
    roleHasPermission role .orgDelete = true ↔ role = .owner := by
  cases role <;> decide

end TrafficPlatform
