import TrafficPlatform.Accounts
import TrafficPlatform.Permissions
import TrafficPlatform.Security
import TrafficPlatform.Site

/-!
# Organizations and their members

`app/services/organization.py` with its repositories, the authorization of `app/api/deps.py` and the
routes of `app/api/organizations.py` that change an organization or a membership. The caller of a
route is the user that a valid access token names.
-/

namespace TrafficPlatform
open Kit

/-- An in-app notification (`app/models/notification.py`). -/
structure Notification where
  id : Uuid
  userId : Uuid
  organizationId : Option Uuid
  type : String
  title : String
  body : String
deriving DecidableEq, Repr

instance : Schema Notification where
  clash a b := a.id == b.id
  symm a b h := by simpa using (beq_iff_eq.1 h).symm

/-! ### The database -/

/-- The rows that a membership refers to are there. -/
def OrganizationMember.Refers (users : Table User) (organizations : Table Organization)
    (roles : Table Role) (m : OrganizationMember) : Prop :=
  (∃ o ∈ organizations.rows, o.id = m.organizationId) ∧ (∃ u ∈ users.rows, u.id = m.userId) ∧
    ∃ r ∈ roles.rows, r.id = m.roleId

instance (users : Table User) (organizations : Table Organization) (roles : Table Role) :
    DecidablePred (OrganizationMember.Refers users organizations roles) := fun _ =>
  inferInstanceAs (Decidable (_ ∧ _ ∧ _))

/-- The tables behind the organization service, with the foreign keys of the memberships. -/
structure OrgDb where
  users : Table User
  roles : Table Role
  organizations : Table Organization
  members : Table OrganizationMember
  notifications : Table Notification
  refers : ∀ m ∈ members.rows, m.Refers users organizations roles

/-- A row write. -/
inductive OrgOp
  | setOrganizationName (id : Uuid) (name : String)
  | deleteOrganization (id : Uuid)
  | addMember (m : OrganizationMember)
  | setMemberRole (id roleId : Uuid)
  | deleteMember (id : Uuid)
  | addNotification (n : Notification)
deriving DecidableEq, Repr

/-- A row, or an entry of a unique index. -/
inductive OrgKey
  | organizationRow (id : Uuid)
  | memberRow (id : Uuid)
  | memberPair (organizationId userId : Uuid)
  | notificationRow (id : Uuid)
deriving DecidableEq, Repr

namespace OrgDb

def hasUser (db : OrgDb) (id : Uuid) : Bool := db.users.rows.any fun u => u.id == id

def hasRole (db : OrgDb) (id : Uuid) : Bool := db.roles.rows.any fun r => r.id == id

def hasOrganization (db : OrgDb) (id : Uuid) : Bool := db.organizations.rows.any fun o => o.id == id

def hasMember (db : OrgDb) (id : Uuid) : Bool := db.members.rows.any fun m => m.id == id

def setOrganizationName (db : OrgDb) (id : Uuid) (name : String) : OrgDb where
  __ := db
  organizations := db.organizations.update (fun o => o.id == id) (fun o => { o with name := name })
      fun a b => by
    simp [Schema.clash]
  refers m hm := by
    obtain ⟨⟨o, ho, hid⟩, h⟩ := db.refers m hm
    exact ⟨⟨_, Table.mem_update_of_mem ho, by split <;> simp [hid]⟩, h⟩

/-- `DELETE FROM organizations`, which cascades to the memberships. -/
def deleteOrganization (db : OrgDb) (id : Uuid) : OrgDb where
  __ := db
  organizations := db.organizations.delete fun o => o.id == id
  members := db.members.delete fun m => m.organizationId == id
  refers m hm := by
    obtain ⟨hm, hne⟩ := Table.mem_delete.1 hm
    obtain ⟨⟨o, ho, hid⟩, h⟩ := db.refers m hm
    exact ⟨⟨o, Table.mem_delete.2 ⟨ho, by rwa [hid]⟩, hid⟩, h⟩

def addMember (db : OrgDb) (m : OrganizationMember) : OrgDb :=
  if h : m.Refers db.users db.organizations db.roles then
    { db with
      members := db.members.insert m
      refers := fun m' hm' => by
        rcases Table.mem_or_eq_of_mem_insert hm' with hm' | rfl
        · exact db.refers m' hm'
        · exact h }
  else db

def setMemberRole (db : OrgDb) (id roleId : Uuid) : OrgDb :=
  if h : db.hasRole roleId = true then
    { db with
      members := db.members.update (fun m => m.id == id) (fun m => { m with roleId := roleId })
          fun a b => by
        simp [Schema.clash]
      refers := fun m' hm' => by
        obtain ⟨m, hm, rfl⟩ := Table.mem_update.1 hm'
        split
        · exact ⟨(db.refers m hm).1, (db.refers m hm).2.1, by simpa [hasRole] using h⟩
        · exact db.refers m hm }
  else db

def deleteMember (db : OrgDb) (id : Uuid) : OrgDb where
  __ := db
  members := db.members.delete fun m => m.id == id
  refers m hm := db.refers m (Table.mem_delete.1 hm).1

def addNotification (db : OrgDb) (n : Notification) : OrgDb :=
  { db with notifications := db.notifications.insert n }

end OrgDb

namespace OrgOp

def apply : OrgOp → OrgDb → OrgDb
  | setOrganizationName id name, db => db.setOrganizationName id name
  | deleteOrganization id, db => db.deleteOrganization id
  | addMember m, db => db.addMember m
  | setMemberRole id roleId, db => db.setMemberRole id roleId
  | deleteMember id, db => db.deleteMember id
  | addNotification n, db => db.addNotification n

/-- An `INSERT` or `UPDATE` fails on a violated constraint, an `UPDATE` of an entity also when its row
is gone. A `DELETE` that finds its row gone is no error. -/
def check : OrgOp → OrgDb → Except Failure Unit
  | setOrganizationName id _, db => if db.hasOrganization id then .ok () else .error .staleDataError
  | deleteOrganization _, _ => .ok ()
  | addMember m, db =>
    if m.Refers db.users db.organizations db.roles ∧ db.members.admits m = true then .ok ()
    else .error .integrityError
  | setMemberRole id roleId, db =>
    if !db.hasRole roleId then .error .integrityError
    else if db.hasMember id then .ok () else .error .staleDataError
  | deleteMember _, _ => .ok ()
  | addNotification n, db =>
    if db.hasUser n.userId && db.notifications.admits n then .ok () else .error .integrityError

/-- The rows that the write locks. The shared locks on the rows that a new foreign key names are left
out: they hold up nothing but the deletion of such a row. -/
def keys : OrgOp → List OrgKey
  | setOrganizationName id _ => [.organizationRow id]
  | deleteOrganization id => [.organizationRow id]
  | addMember m => [.memberRow m.id, .memberPair m.organizationId m.userId]
  | setMemberRole id _ => [.memberRow id]
  | deleteMember id => [.memberRow id]
  | addNotification n => [.notificationRow n.id]

end OrgOp

/-- The tables of the organization service; its handlers have nothing outside. -/
abbrev orgTables : Tables where
  Outside := Unit
  Input := Unit
  Db := OrgDb
  Op := OrgOp
  Key := OrgKey
  apply := OrgOp.apply
  check := OrgOp.check
  keys := OrgOp.keys

/-- A handler of the organization service. -/
abbrev Org (α : Type) : Type 1 := Prog orgTables.backend α

namespace Organizations

/-! ### Repositories (`app/repositories/organization.py`) -/

namespace UserRepository

def get (id : Uuid) : Org (Option User) := .query fun db => db.users.one fun u => u.id == id

def getByEmail (cfg : Config) (email : String) : Org (Option User) :=
  .query fun db => db.users.one fun u => u.email == cfg.lower email

end UserRepository

namespace RoleRepository

def getByName (name : String) : Org (Option Role) :=
  .query fun db => db.roles.one fun r => r.name == name

end RoleRepository

namespace OrganizationRepository

def get (id : Uuid) : Org (Option Organization) :=
  .query fun db => db.organizations.one fun o => o.id == id

/-- `session.delete` loads the memberships and deletes them with the organization. -/
def delete (o : Organization) : Org Unit := do
  let members ← .query fun db : OrgDb => db.members.select fun m => m.organizationId == o.id
  deleteEach members
  .set (.deleteOrganization o.id)
  .flushSession
where
  deleteEach : List OrganizationMember → Org Unit
    | [] => pure ()
    | m :: ms => do
      .set (.deleteMember m.id)
      deleteEach ms

end OrganizationRepository

namespace MembershipRepository

/-- `session.get`: a membership that the session has loaded is not read again. -/
def get (loaded : OrganizationMember) (id : Uuid) : Org (Option OrganizationMember) :=
  if loaded.id = id then pure (some loaded) else .query fun db => db.members.one fun m => m.id == id

/-- The membership with its role, which the foreign key makes sure is there. -/
def getForUserAndOrg (userId organizationId : Uuid) : Org (Option (OrganizationMember × Role)) :=
  .query fun db =>
    (db.members.one fun m => m.userId == userId && m.organizationId == organizationId).bind fun m =>
      (db.roles.one fun r => r.id == m.roleId).map fun r => (m, r)

def countWithRole (organizationId roleId : Uuid) : Org Nat :=
  .query fun db =>
    (db.members.select fun m => m.organizationId == organizationId && m.roleId == roleId).length

def add (m : OrganizationMember) : Org Unit := do
  .set (.addMember m)
  .flushSession

def delete (m : OrganizationMember) : Org Unit := do
  .set (.deleteMember m.id)
  .flushSession

end MembershipRepository

/-! ### The service -/

namespace OrganizationService

def roleId (roleName : RoleName) : Org Uuid := do
  let role ← RoleRepository.getByName roleName.name
  match role with
  | none => .raise (ErrorClass.notFoundError.error ("Role '" ++ roleName.name ++ "' is not configured."))
  | some role => return role.id

def getOrganization (orgId : Uuid) : Org Organization := do
  let org ← OrganizationRepository.get orgId
  match org with
  | none => .raise (ErrorClass.notFoundError.error "Organization not found.")
  | some org => return org

/-- The unit of work writes no column whose value is unchanged. -/
def updateOrganization (orgId : Uuid) (name : String) : Org Organization := do
  let org ← getOrganization orgId
  if org.name ≠ name then .set (.setOrganizationName org.id name)
  return { org with name }

def deleteOrganization (orgId : Uuid) : Org Unit := do
  let org ← getOrganization orgId
  OrganizationRepository.delete org

/-- Load the `user` and the `role` of a membership. -/
def hydrate (m : OrganizationMember) : Org (User × Role) := do
  let row ← .query fun db : OrgDb =>
    (db.members.one fun m' => m'.id == m.id).bind fun m =>
      (db.users.one fun u => u.id == m.userId).bind fun u =>
        (db.roles.one fun r => r.id == m.roleId).map fun r => (u, r)
  match row with
  | none => .raise (.other "InvalidRequestError")
  | some row => return row

def addMember (cfg : Config) (orgId : Uuid) (email : String) (role : RoleName) :
    Org (OrganizationMember × User × Role) := do
  let user ← UserRepository.getByEmail cfg (cfg.lower email)
  match user with
  | none => .raise (ErrorClass.notFoundError.error "No registered user with that email.")
  | some user =>
    let existing ← MembershipRepository.getForUserAndOrg user.id orgId
    if existing.isSome then
      .raise (ErrorClass.conflictError.error "User is already a member of this organization.")
    else
      let roleId ← roleId role
      let id ← uuid4
      let member : OrganizationMember := { id, organizationId := orgId, userId := user.id, roleId }
      MembershipRepository.add member
      let row ← hydrate member
      return (member, row)

def getMember (loaded : OrganizationMember) (orgId memberId : Uuid) : Org OrganizationMember := do
  let member ← MembershipRepository.get loaded memberId
  match member with
  | none => .raise (ErrorClass.notFoundError.error "Member not found in this organization.")
  | some member =>
    if member.organizationId ≠ orgId then
      .raise (ErrorClass.notFoundError.error "Member not found in this organization.")
    else return member

/-- Refuse to change the last owner. -/
def refuseLastOwner (orgId ownerRoleId : Uuid) (message : String) : Org Unit := do
  let owners ← MembershipRepository.countWithRole orgId ownerRoleId
  if owners ≤ 1 then .raise (ErrorClass.validationAppError.error message) else return ()

def updateMemberRole (loaded : OrganizationMember) (orgId memberId : Uuid) (role : RoleName) :
    Org (OrganizationMember × User × Role) := do
  let member ← getMember loaded orgId memberId
  let ownerRoleId ← roleId .owner
  if member.roleId = ownerRoleId ∧ role ≠ .owner then
    refuseLastOwner orgId ownerRoleId "Cannot demote the last owner of the organization."
  let newRoleId ← roleId role
  if member.roleId ≠ newRoleId then .set (.setMemberRole member.id newRoleId)
  .flushSession
  let row ← hydrate member
  return ({ member with roleId := newRoleId }, row)

def removeMember (loaded : OrganizationMember) (orgId memberId : Uuid) : Org Unit := do
  let member ← getMember loaded orgId memberId
  let ownerRoleId ← roleId .owner
  if member.roleId = ownerRoleId then
    refuseLastOwner orgId ownerRoleId "Cannot remove the last owner of the organization."
  MembershipRepository.delete member

end OrganizationService

namespace NotificationService

def create (userId : Uuid) (type title body : String) (organizationId : Option Uuid) : Org Unit := do
  let id ← uuid4
  .set (.addNotification { id, userId, organizationId, type, title, body })
  .flushSession

end NotificationService

/-! ### Authorization (`app/api/deps.py`) -/

def getCurrentUser (caller : Uuid) : Org User := do
  let user ← UserRepository.get caller
  match user with
  | none => .raise (ErrorClass.authenticationError.error "User not found or inactive.")
  | some user =>
    if !user.isActive then .raise (ErrorClass.authenticationError.error "User not found or inactive.")
    else return user

/-- Authorize the caller for `permission` in the organization and return the caller's membership. -/
def requirePermission (permission : Permission) (orgId : Uuid) (currentUser : User) :
    Org OrganizationMember := do
  let row ← MembershipRepository.getForUserAndOrg currentUser.id orgId
  match row with
  | none =>
    if currentUser.isSuperuser then
      .raise (ErrorClass.permissionDeniedError.error
        "Superuser access to organizations requires membership.")
    else .raise (ErrorClass.permissionDeniedError.error "You are not a member of this organization.")
  | some (member, role) =>
    match RoleName.ofName role.name with
    | none => .raise (.other "ValueError")
    | some name =>
      if !roleHasPermission name permission then
        .raise (ErrorClass.permissionDeniedError.error
          ("Your role '" ++ role.name ++ "' lacks the '" ++ permission.code ++ "' permission."))
      else return member

end Organizations

/-! ### The routes (`app/api/organizations.py`) -/

/-- A call of `/organizations/{org_id}…` by the user `caller`. -/
inductive OrgRequest
  | updateOrganization (caller orgId : Uuid) (name : String)
  | deleteOrganization (caller orgId : Uuid)
  | addMember (caller orgId : Uuid) (email : String) (role : RoleName)
  | updateMemberRole (caller orgId memberId : Uuid) (role : RoleName)
  | removeMember (caller orgId memberId : Uuid)
deriving DecidableEq, Repr

/-- The body of the response. -/
inductive OrgAnswer
  | organization (id : Uuid) (name slug : String)
  | member (id userId : Uuid) (email : String) (fullName : Option String) (role : String)
  | noContent
deriving DecidableEq, Repr

namespace OrgRequest
open Organizations

/-- The user who makes the call. -/
def caller : OrgRequest → Uuid
  | updateOrganization caller _ _ => caller
  | deleteOrganization caller _ => caller
  | addMember caller _ _ _ => caller
  | updateMemberRole caller _ _ _ => caller
  | removeMember caller _ _ => caller

def memberResponse (row : OrganizationMember × User × Role) : OrgAnswer :=
  .member row.1.id row.1.userId row.2.1.email row.2.1.fullName row.2.2.name

/-- The permission that the route requires, checked by a dependency of the handler. -/
def authorize (permission : Permission) (caller orgId : Uuid) : Org OrganizationMember := do
  let currentUser ← Organizations.getCurrentUser caller
  requirePermission permission orgId currentUser

/-- The handlers. -/
def prog (cfg : Config) : OrgRequest → Org OrgAnswer
  | updateOrganization caller orgId name => do
    let _ ← authorize .orgUpdate caller orgId
    let org ← OrganizationService.updateOrganization orgId name
    return .organization org.id org.name org.slug
  | deleteOrganization caller orgId => do
    let _ ← authorize .orgDelete caller orgId
    OrganizationService.deleteOrganization orgId
    return .noContent
  | addMember caller orgId email role => do
    let _ ← authorize .memberInvite caller orgId
    let row ← OrganizationService.addMember cfg orgId email role
    NotificationService.create row.1.userId "member.added" "You were added to an organization"
      ("You now have the '" ++ row.2.2.name ++ "' role.") (some orgId)
    return memberResponse row
  | updateMemberRole caller orgId memberId role => do
    let loaded ← authorize .memberUpdateRole caller orgId
    let row ← OrganizationService.updateMemberRole loaded orgId memberId role
    return memberResponse row
  | removeMember caller orgId memberId => do
    let loaded ← authorize .memberRemove caller orgId
    OrganizationService.removeMember loaded orgId memberId
    return .noContent

end OrgRequest

/-! ### A small instance -/

/-- One organization: `sampleUser` is an owner, and `secondRole` is the role of the user `2`. -/
def sampleOrgDb (secondRole : RoleName) : OrgDb where
  users := ⟨[sampleUser, { sampleUser with id := 2, email := "bob@example.com" }], by decide⟩
  roles := ⟨[⟨31, "owner"⟩, ⟨32, "admin"⟩, ⟨33, "developer"⟩, ⟨34, "viewer"⟩], by decide⟩
  organizations := ⟨[⟨5, "Acme", "acme"⟩], by decide⟩
  members := ⟨[⟨11, 5, 1, 31⟩, ⟨12, 5, 2, match secondRole with
    | .owner => 31
    | .admin => 32
    | .developer => 33
    | .viewer => 34⟩], by cases secondRole <;> decide⟩
  notifications := .empty
  refers := by cases secondRole <;> decide

def sampleOrgWorld : World Unit := ⟨epoch, 100, Store.empty, ()⟩

def sampleOrgEnv : Env Unit := ⟨epoch + second, "", 0, ()⟩

end TrafficPlatform
