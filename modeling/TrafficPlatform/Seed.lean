import TrafficPlatform.Accounts
import TrafficPlatform.Kit.Ends
import TrafficPlatform.Permissions
import TrafficPlatform.Site
import Mathlib.Data.List.Nodup

/-!
# Seeding the roles and permissions

`seed_rbac` of `app/db/seed.py` makes the tables of roles, permissions and grants agree with the
catalog. `seed_converges` says what it makes of any content of the tables.
-/

namespace TrafficPlatform
open Kit

/-- A row of `permissions`. -/
structure PermissionRow where
  id : Uuid
  code : String
  description : String
deriving DecidableEq, Repr

/-- A row of `roles` with all its columns. -/
structure RoleRow extends Role where
  description : String
  isSystem : Bool
deriving DecidableEq, Repr

/-- A row of `role_permissions`. -/
structure RolePermission where
  roleId : Uuid
  permissionId : Uuid
deriving DecidableEq, Repr

/-- The primary key, and `code` is unique. -/
instance : Schema PermissionRow where
  clash a b := a.id == b.id || a.code == b.code
  symm a b h := by
    simp only [Bool.or_eq_true, beq_iff_eq] at h ⊢
    exact h.imp Eq.symm Eq.symm

/-- The primary key, and `name` is unique. -/
instance : Schema RoleRow where
  clash a b := a.id == b.id || a.name == b.name
  symm a b h := by
    simp only [Bool.or_eq_true, beq_iff_eq] at h ⊢
    exact h.imp Eq.symm Eq.symm

instance : Schema RolePermission where
  clash a b := a == b
  symm a b h := by simpa using (beq_iff_eq.1 h).symm

@[simp] theorem PermissionRow.clash_iff {a b : PermissionRow} : Schema.clash a b = true ↔
    a.id = b.id ∨ a.code = b.code := by
  simp [Schema.clash]

@[simp] theorem RoleRow.clash_iff {a b : RoleRow} : Schema.clash a b = true ↔ a.id = b.id ∨
    a.name = b.name := by
  simp [Schema.clash]

@[simp] theorem RolePermission.clash_iff {a b : RolePermission} : Schema.clash a b = true ↔ a = b := by
  simp [Schema.clash]

/-- The rows that a grant refers to are there. -/
def RolePermission.Refers (permissions : Table PermissionRow) (roles : Table RoleRow)
    (g : RolePermission) : Prop :=
  (∃ r ∈ roles.rows, r.id = g.roleId) ∧ ∃ p ∈ permissions.rows, p.id = g.permissionId

instance (permissions : Table PermissionRow) (roles : Table RoleRow) :
    DecidablePred (RolePermission.Refers permissions roles) :=
  fun _ => inferInstanceAs (Decidable (_ ∧ _))

structure RbacDb where
  permissions : Table PermissionRow
  roles : Table RoleRow
  rolePermissions : Table RolePermission
  refers : ∀ g ∈ rolePermissions.rows, g.Refers permissions roles

/-- A row write. -/
inductive RbacOp
  | addPermission (p : PermissionRow)
  | addRole (r : RoleRow)
  | grant (g : RolePermission)
  | revoke (g : RolePermission)
deriving DecidableEq, Repr

/-- A row, or an entry of a unique index. -/
inductive RbacKey
  | permissionRow (id : Uuid)
  | permissionCode (code : String)
  | roleRow (id : Uuid)
  | roleName (name : String)
  | grantRow (g : RolePermission)
deriving DecidableEq, Repr

namespace RbacDb

def addPermission (db : RbacDb) (p : PermissionRow) : RbacDb where
  __ := db
  permissions := db.permissions.insert p
  refers g hg := by
    obtain ⟨hrole, p', hp', hid⟩ := db.refers g hg
    exact ⟨hrole, p', Table.mem_insert_of_mem hp', hid⟩

def addRole (db : RbacDb) (r : RoleRow) : RbacDb where
  __ := db
  roles := db.roles.insert r
  refers g hg := by
    obtain ⟨⟨r', hr', hid⟩, hperm⟩ := db.refers g hg
    exact ⟨⟨r', Table.mem_insert_of_mem hr', hid⟩, hperm⟩

def grant (db : RbacDb) (g : RolePermission) : RbacDb :=
  if h : g.Refers db.permissions db.roles then
    { db with
      rolePermissions := db.rolePermissions.insert g
      refers := fun g' hg' => by
        rcases Table.mem_or_eq_of_mem_insert hg' with hg' | rfl
        · exact db.refers g' hg'
        · exact h }
  else db

def revoke (db : RbacDb) (g : RolePermission) : RbacDb where
  __ := db
  rolePermissions := db.rolePermissions.delete fun g' => g' == g
  refers g' hg' := db.refers g' (Table.mem_delete.1 hg').1

@[simp] theorem grant_permissions (db : RbacDb) (g : RolePermission) :
    (db.grant g).permissions = db.permissions := by
  unfold grant
  split <;> rfl

@[simp] theorem grant_roles (db : RbacDb) (g : RolePermission) : (db.grant g).roles = db.roles := by
  unfold grant
  split <;> rfl

theorem mem_grant {db : RbacDb} {g g' : RolePermission} (hrefers : g.Refers db.permissions db.roles)
    (hadmits : db.rolePermissions.admits g = true) :
    g' ∈ (db.grant g).rolePermissions.rows ↔ g' ∈ db.rolePermissions.rows ∨ g' = g := by
  unfold grant
  rw [dif_pos hrefers]
  exact Table.mem_insert hadmits

theorem mem_revoke {db : RbacDb} {g g' : RolePermission} :
    g' ∈ (db.revoke g).rolePermissions.rows ↔ g' ∈ db.rolePermissions.rows ∧ g' ≠ g := by
  refine Table.mem_delete.trans (and_congr_right fun _ => ?_)
  rw [beq_iff_eq]

end RbacDb

namespace RbacOp

def apply : RbacOp → RbacDb → RbacDb
  | addPermission p, db => db.addPermission p
  | addRole r, db => db.addRole r
  | grant g, db => db.grant g
  | revoke g, db => db.revoke g

/-- An `INSERT` fails on a violated constraint; the `DELETE` of a grant fails if its row is gone. -/
def check : RbacOp → RbacDb → Except Failure Unit
  | addPermission p, db => if db.permissions.admits p then .ok () else .error .integrityError
  | addRole r, db => if db.roles.admits r then .ok () else .error .integrityError
  | grant g, db =>
    if g.Refers db.permissions db.roles ∧ db.rolePermissions.admits g =
      true then .ok () else .error .integrityError
  | revoke g, db => if g ∈ db.rolePermissions.rows then .ok () else .error .staleDataError

def keys : RbacOp → List RbacKey
  | addPermission p => [.permissionRow p.id, .permissionCode p.code]
  | addRole r => [.roleRow r.id, .roleName r.name]
  | grant g => [.grantRow g]
  | revoke g => [.grantRow g]

end RbacOp

abbrev rbacTables : Tables where
  Outside := Unit
  Input := Unit
  Db := RbacDb
  Op := RbacOp
  Key := RbacKey
  apply := RbacOp.apply
  check := RbacOp.check
  keys := RbacOp.keys

abbrev Rbac (α : Type) : Type 1 := Prog rbacTables.backend α

/-! ### `seed_rbac` -/

/-- `ROLE_DESCRIPTIONS`. -/
def roleDescriptions : RoleName → String
  | .owner => "Full control, including deleting the organization."
  | .admin => "Manage members, APIs, and keys; cannot delete the organization."
  | .developer => "Create and manage APIs and keys; read analytics."
  | .viewer => "Read-only access."

/-- `sorted(ALL_PERMISSIONS)`. -/
def sortedCodes : List String := (allPermissions.map (·.code)).mergeSort

/-- The permissions of a role, as the relationship loads them. -/
def permissionsOf (roleId : Uuid) (db : RbacDb) : List PermissionRow :=
  db.permissions.select
    fun p => db.rolePermissions.rows.any fun g => g.roleId == roleId && g.permissionId == p.id

/-- Adds the permissions that are missing. -/
def addPermissions : List String → List PermissionRow → Rbac (List PermissionRow)
  | [], existingPerms => pure existingPerms
  | code :: codes, existingPerms =>
    if existingPerms.any fun p => p.code == code then addPermissions codes existingPerms
    else do
      let id ← uuid4
      let perm : PermissionRow := ⟨id, code, code⟩
      .set (.addPermission perm)
      addPermissions codes (existingPerms ++ [perm])

/-- `[existing_perms[c] for c in desired]`. -/
def desiredPermissions (existingPerms : List PermissionRow) : List String → Rbac (List PermissionRow)
  | [] => pure []
  | c :: cs =>
    match existingPerms.find? fun p => p.code == c with
    | none => .raise (.other "KeyError")
    | some p => do
      let ps ← desiredPermissions existingPerms cs
      return p :: ps

def assignEach : List RbacOp → Rbac Unit
  | [] => pure ()
  | o :: ops => do
    .set o
    assignEach ops

/-- The assignment of a collection: the flush deletes the grants that are not in it any more and
adds the new ones. -/
def setPermissions (roleId : Uuid) (loaded permissions : List PermissionRow) : Rbac Unit :=
  assignEach
    (((loaded.filter fun p => !permissions.contains p).map fun p => .revoke ⟨roleId, p.id⟩) ++
      ((permissions.filter fun p => !loaded.contains p).map fun p => .grant ⟨roleId, p.id⟩))

/-- The role with its loaded permissions, made if there is none. -/
def ensureRole (roleName : RoleName) (existingRoles : List (RoleRow × List PermissionRow)) :
    Rbac (RoleRow × List PermissionRow) :=
  match existingRoles.find? fun r => r.1.name == roleName.name with
  | some role => pure role
  | none => do
    let id ← uuid4
    let role : RoleRow := ⟨⟨id, roleName.name⟩, roleDescriptions roleName, true⟩
    .set (.addRole role)
    .flushSession
    let loaded ← .query (permissionsOf id)
    return (role, loaded)

def seedRoles (existingPerms : List PermissionRow)
    (existingRoles : List (RoleRow × List PermissionRow)) :
    List RoleName → Rbac Unit
  | [] => pure ()
  | roleName :: roleNames => do
    let role ← ensureRole roleName existingRoles
    let desired ← desiredPermissions existingPerms ((rolePermissions roleName).map (·.code))
    setPermissions role.1.id role.2 desired
    seedRoles existingPerms existingRoles roleNames

def seedRbac : Rbac Unit := do
  let existingPerms ← .query fun db => db.permissions.rows
  let existingPerms ← addPermissions sortedCodes existingPerms
  .flushSession
  let existingRoles ← .query fun db => db.roles.rows.map fun r => (r, permissionsOf r.id db)
  seedRoles existingPerms existingRoles [.owner, .admin, .developer, .viewer]
  .flushSession

/-! ### What the tables should hold -/

namespace RbacDb

/-- The role exists and has the permissions of the catalog. -/
def Grants (db : RbacDb) (n : RoleName) : Prop :=
  ∃ r ∈ db.roles.rows, r.name = n.name ∧ ∀ p ∈ db.permissions.rows,
    (⟨r.id, p.id⟩ ∈ db.rolePermissions.rows ↔ p.code ∈ (TrafficPlatform.rolePermissions n).map (·.code))

/-- The tables agree with the catalog. -/
structure Seeded (db : RbacDb) : Prop where
  permissions : ∀ c : Permission, ∃! p, p ∈ db.permissions.rows ∧ p.code = c.code
  roles : ∀ n : RoleName, db.Grants n

structure IdsBelow (db : RbacDb) (supply : Uuid) : Prop where
  permissions : ∀ p ∈ db.permissions.rows, p.id < supply
  roles : ∀ r ∈ db.roles.rows, r.id < supply

/-- Permissions were added for those of the codes that had none. -/
structure AddsPermissions (codes : List String) (db db' : RbacDb) : Prop where
  roles : db'.roles = db.roles
  grants : db'.rolePermissions = db.rolePermissions
  kept : ∀ p ∈ db.permissions.rows, p ∈ db'.permissions.rows
  added : ∀ p ∈ db'.permissions.rows, p ∈ db.permissions.rows ∨
    (p.code ∈ codes ∧ ∀ q ∈ db.permissions.rows, q.code ≠ p.code)
  all : ∀ code ∈ codes, ∃ p ∈ db'.permissions.rows, p.code = code

/-- The roles of the names were made to agree with the catalog, and the others left alone. -/
structure SeedsRoles (names : List RoleName) (db db' : RbacDb) : Prop where
  permissions : db'.permissions = db.permissions
  kept : ∀ r ∈ db.roles.rows, r ∈ db'.roles.rows
  added : ∀ r ∈ db'.roles.rows, r ∈ db.roles.rows ∨
    ((∃ n ∈ names, r.name = n.name) ∧ ∀ r' ∈ db.roles.rows, r'.name ≠ r.name)
  grants : ∀ r ∈ db'.roles.rows, (∀ n ∈ names, r.name ≠ n.name) →
    ∀ p, ⟨r.id, p⟩ ∈ db'.rolePermissions.rows ↔ ⟨r.id, p⟩ ∈ db.rolePermissions.rows
  granted : ∀ n ∈ names, db'.Grants n

end RbacDb

/-! ### Permissions -/

section
variable {s : Session rbacTables.backend} {db db' d : RbacDb}

theorem addPermissions_ends (codes : List String) {existingPerms : List PermissionRow}
    (hs : s.Flushes db) (hrows : db.permissions.rows = existingPerms)
    (hids : db.IdsBelow s.world.supply) :
    (addPermissions codes existingPerms).Ends
      (fun perms s' => ∃ db' : RbacDb, s'.Flushes db' ∧ db'.permissions.rows = perms ∧
      db'.IdsBelow s'.world.supply ∧ db.AddsPermissions codes db') (fun _ _ => False) s := by
  induction codes generalizing s db existingPerms with
  | nil => exact ⟨db, hs, hrows, hids, rfl, rfl, fun _ h => h, fun _ h => .inl h, by simp⟩
  | cons code codes ih =>
    unfold addPermissions
    split
    · rename_i hfound
      obtain ⟨q, hq, hcode⟩ := List.any_eq_true.1 hfound
      rw [← hrows] at hq
      refine (ih hs hrows hids).mono ?_ fun _ _ h => h
      rintro perms s' ⟨db', hs', hrows', hids', hadds⟩
      refine ⟨db', hs', hrows', hids', hadds.roles, hadds.grants, hadds.kept,
        fun p hp => ?_, fun c hc => ?_⟩
      · exact (hadds.added p hp).imp_right fun h => ⟨List.mem_cons_of_mem _ h.1, h.2⟩
      · rcases List.mem_cons.1 hc with rfl | hc
        · exact ⟨q, hadds.kept q hq, beq_iff_eq.1 hcode⟩
        · exact hadds.all c hc
    · rename_i hmissing
      have hnone : ∀ q ∈ db.permissions.rows, q.code ≠ code := fun q hq hcode =>
        hmissing (List.any_eq_true.2 ⟨q, hrows ▸ hq, beq_iff_eq.2 hcode⟩)
      let perm : PermissionRow := ⟨max s.world.supply (s.envs 0).number, code, code⟩
      have hadmits : db.permissions.admits perm = true := by
        refine Table.admits_iff.2 fun q hq hclash => ?_
        rcases PermissionRow.clash_iff.1 hclash with hid | hcode
        · exact absurd (lt_of_lt_of_le (hids.permissions q hq) (Nat.le_max_left _ _))
            (by rw [hid]; exact lt_irrefl _)
        · exact hnone q hq hcode
      have hmem : ∀ q, q ∈ (db.addPermission perm).permissions.rows ↔ q ∈ db.permissions.rows ∨
          q = perm := fun q =>
        Table.mem_insert hadmits
      have hstep : Session.Flushes (B := rbacTables.backend)
          { s.step (World.uuid4 (s.envs 0) s.world).2 with
            dirty := s.dirty ++ [.addPermission perm] } (db.addPermission perm) :=
        Session.Flushes.set (s := s.step (World.uuid4 (s.envs 0) s.world).2) hs
          (by simp [RbacOp.check, hadmits])
      refine (@ih _ _ (existingPerms ++ [perm]) hstep ?_ ?_).mono ?_ fun _ _ h => h
      · rw [← hrows]
        exact Table.rows_insert hadmits
      · constructor
        · intro q hq
          rcases (hmem q).1 hq with hq | rfl
          · exact (hids.permissions q hq).trans_le (le_trans (Nat.le_max_left _ _) (Nat.le_succ _))
          · exact Nat.lt_succ_self _
        · exact fun r hr => (hids.roles r hr).trans_le (le_trans (Nat.le_max_left _ _) (Nat.le_succ _))
      · rintro perms s' ⟨db', hs', hrows', hids', hadds⟩
        refine ⟨db', hs', hrows', hids', hadds.roles, hadds.grants,
          fun p hp => hadds.kept p ((hmem p).2 (.inl hp)), fun p hp => ?_,
          fun c hc => ?_⟩
        · rcases hadds.added p hp with hp | ⟨hcode, hno⟩
          · rcases (hmem p).1 hp with hp | rfl
            · exact .inl hp
            · exact .inr ⟨List.mem_cons_self, hnone⟩
          · exact .inr ⟨List.mem_cons_of_mem _ hcode, fun q hq => hno q ((hmem q).2 (.inl hq))⟩
        · rcases List.mem_cons.1 hc with rfl | hc
          · exact ⟨perm, hadds.kept perm ((hmem perm).2 (.inr rfl)), rfl⟩
          · exact hadds.all c hc

/-- The permissions of the codes, in their order. -/
theorem desiredPermissions_eq {existingPerms : List PermissionRow} {codes : List String}
    (h : ∀ c ∈ codes, ∃ p ∈ existingPerms, p.code = c) :
    ∃ ps, desiredPermissions existingPerms codes = .ret ps ∧ ps.map (·.code) = codes ∧ ∀ p ∈ ps,
        p ∈ existingPerms := by
  induction codes with
  | nil => exact ⟨[], rfl, rfl, by simp⟩
  | cons c codes ih =>
    obtain ⟨ps, hps, hcodes, hmem⟩ := ih fun c hc => h c (List.mem_cons_of_mem _ hc)
    cases hfound : existingPerms.find? fun p => p.code == c with
    | none =>
      obtain ⟨p, hp, hcode⟩ := h c List.mem_cons_self
      exact absurd (beq_iff_eq.2 hcode) (List.find?_eq_none.1 hfound p hp)
    | some p =>
      have hcode : (p.code == c) = true :=
        List.find?_some (p := fun p : PermissionRow => p.code == c) hfound
      refine ⟨p :: ps, ?_, ?_, ?_⟩
      · unfold desiredPermissions
        simp only [hfound, hps]
        rfl
      · rw [List.map_cons, hcodes, beq_iff_eq.1 hcode]
      · exact List.forall_mem_cons.2 ⟨List.mem_of_find?_eq_some hfound, hmem⟩

/-! ### Grants -/

theorem flush_revokes {roleId : Uuid} {ps : List PermissionRow} (hnodup : (ps.map (·.id)).Nodup)
    (h : ∀ p ∈ ps, ⟨roleId, p.id⟩ ∈ d.rolePermissions.rows) : ∃ d' : RbacDb,
      flushAll rbacTables.backend (ps.map fun p => .revoke ⟨roleId, p.id⟩) d = .ok d' ∧
        d'.permissions = d.permissions ∧
      d'.roles = d.roles ∧ ∀ g, g ∈ d'.rolePermissions.rows ↔ g ∈ d.rolePermissions.rows ∧ ∀ p ∈ ps,
          g ≠ ⟨roleId, p.id⟩ := by
  induction ps generalizing d with
  | nil => exact ⟨d, rfl, rfl, rfl, by simp⟩
  | cons p ps ih =>
    rw [List.map_cons, List.nodup_cons] at hnodup
    obtain ⟨d', hflush, hperms, hroles, hgrants⟩ :=
        ih (d := d.revoke ⟨roleId, p.id⟩) hnodup.2 fun q hq => by
      refine RbacDb.mem_revoke.2 ⟨h q (List.mem_cons_of_mem _ hq), fun he => hnodup.1 ?_⟩
      rw [← (RolePermission.mk.inj he).2]
      exact List.mem_map_of_mem hq
    refine ⟨d', ?_, hperms, hroles, fun g => ?_⟩
    · rw [List.map_cons, flushAll_cons (by simp [RbacOp.check, h p List.mem_cons_self])]
      exact hflush
    · rw [hgrants, RbacDb.mem_revoke, and_assoc, List.forall_mem_cons]

theorem flush_grants {role : RoleRow} {ps : List PermissionRow} (hnodup : (ps.map (·.id)).Nodup)
    (hrole : role ∈ d.roles.rows) (hps : ∀ p ∈ ps, p ∈ d.permissions.rows)
    (h : ∀ p ∈ ps, ⟨role.id, p.id⟩ ∉ d.rolePermissions.rows) : ∃ d' : RbacDb,
      flushAll rbacTables.backend (ps.map fun p => .grant ⟨role.id, p.id⟩) d = .ok d' ∧
        d'.permissions = d.permissions ∧
      d'.roles = d.roles ∧ ∀ g, g ∈ d'.rolePermissions.rows ↔ g ∈ d.rolePermissions.rows ∨ ∃ p ∈ ps,
          g = ⟨role.id, p.id⟩ := by
  induction ps generalizing d with
  | nil => exact ⟨d, rfl, rfl, rfl, by simp⟩
  | cons p ps ih =>
    rw [List.map_cons, List.nodup_cons] at hnodup
    have hrefers : RolePermission.Refers d.permissions d.roles ⟨role.id, p.id⟩ :=
      ⟨⟨role, hrole, rfl⟩, p, hps p List.mem_cons_self, rfl⟩
    have hadmits : d.rolePermissions.admits ⟨role.id, p.id⟩ = true := by
      refine Table.admits_iff.2 fun g hg hclash => h p List.mem_cons_self ?_
      rwa [← RolePermission.clash_iff.1 hclash]
    have hmem : ∀ g, g ∈ (d.grant ⟨role.id, p.id⟩).rolePermissions.rows ↔
        g ∈ d.rolePermissions.rows ∨ g = ⟨role.id, p.id⟩ :=
      fun _ => RbacDb.mem_grant hrefers hadmits
    obtain ⟨d', hflush, hperms, hroles, hgrants⟩ :=
      ih (d := d.grant ⟨role.id, p.id⟩) hnodup.2 (by rwa [RbacDb.grant_roles])
      (fun q hq => by rw [RbacDb.grant_permissions]; exact hps q (List.mem_cons_of_mem _ hq))
          fun q hq hgrant => by
        rcases (hmem _).1 hgrant with hgrant | he
        · exact h q (List.mem_cons_of_mem _ hq) hgrant
        · rw [← (RolePermission.mk.inj he).2] at hnodup
          exact hnodup.1 (List.mem_map_of_mem hq)
    refine ⟨d', ?_, hperms.trans (RbacDb.grant_permissions _ _),
      hroles.trans (RbacDb.grant_roles _ _), fun g => ?_⟩
    · rw [List.map_cons, flushAll_cons (by simp [RbacOp.check, hrefers, hadmits])]
      exact hflush
    · rw [hgrants, hmem, or_assoc]
      simp

theorem assignEach_ends {ops : List RbacOp} {d d' : RbacDb} (hs : s.Flushes d)
    (h : flushAll rbacTables.backend ops d = .ok d') :
    (assignEach ops).Ends (fun _ s' => s'.Flushes d' ∧ s'.world = s.world) (fun _ _ => False) s := by
  induction ops generalizing s d with
  | nil =>
    cases h
    exact ⟨hs, rfl⟩
  | cons o ops ih =>
    have hcheck : RbacOp.check o d = .ok () := by
      simp only [flushAll] at h
      split at h
      · assumption
      · cases h
    exact ih (hs.set (o := o) hcheck) ((flushAll_cons hcheck).symm.trans h)

theorem any_grant {roleId permissionId : Uuid} {grants : List RolePermission} :
    (grants.any fun g => g.roleId == roleId && g.permissionId == permissionId) = true ↔
        ⟨roleId, permissionId⟩ ∈ grants := by
  rw [List.any_eq_true]
  constructor
  · rintro ⟨g, hg, hp⟩
    simp only [Bool.and_eq_true, beq_iff_eq] at hp
    rwa [← hp.1, ← hp.2]
  · exact fun hg => ⟨_, hg, by simp⟩

theorem mem_permissionsOf {roleId : Uuid} {p : PermissionRow} :
    p ∈ permissionsOf roleId d ↔ p ∈ d.permissions.rows ∧ ⟨roleId, p.id⟩ ∈ d.rolePermissions.rows :=
  Table.mem_select.trans (and_congr_right fun _ => any_grant)

theorem permissionsOf_congr {roleId : Uuid} (hperms : d.permissions = db.permissions)
    (h : ∀ p, ⟨roleId, p⟩ ∈ d.rolePermissions.rows ↔ ⟨roleId, p⟩ ∈ db.rolePermissions.rows) :
    permissionsOf roleId d = permissionsOf roleId db := by
  unfold permissionsOf
  rw [hperms]
  refine Table.select_congr fun p _ => ?_
  rw [Bool.eq_iff_iff, any_grant, any_grant]
  exact h p.id

theorem permission_eq_of_id {p q : PermissionRow} (hp : p ∈ d.permissions.rows)
    (hq : q ∈ d.permissions.rows) (h : p.id = q.id) :
    p = q := Table.eq_of_clash hp hq (PermissionRow.clash_iff.2 (.inl h))

theorem permission_eq_of_code {p q : PermissionRow} (hp : p ∈ d.permissions.rows)
    (hq : q ∈ d.permissions.rows)
    (h : p.code = q.code) : p = q := Table.eq_of_clash hp hq (PermissionRow.clash_iff.2 (.inr h))

theorem nodup_ids {ps : List PermissionRow} (hmem : ∀ p ∈ ps, p ∈ d.permissions.rows)
    (hnodup : ps.Nodup) : (ps.map (·.id)).Nodup :=
  (List.nodup_map_iff_inj_on hnodup).2
    fun p hp q hq he => permission_eq_of_id (hmem p hp) (hmem q hq) he

/-- The role has the permissions of the list afterwards, and the other roles have what they had. -/
theorem setPermissions_ends {role : RoleRow} {ps : List PermissionRow} (hs : s.Flushes d)
    (hrole : role ∈ d.roles.rows) (hps : ∀ p ∈ ps, p ∈ d.permissions.rows) (hnodup : ps.Nodup) :
    (setPermissions role.id (permissionsOf role.id d) ps).Ends
      (fun _ s' => ∃ d' : RbacDb, s'.Flushes d' ∧ s'.world = s.world ∧
      d'.permissions = d.permissions ∧ d'.roles = d.roles ∧
      (∀ g, g.roleId ≠ role.id → (g ∈ d'.rolePermissions.rows ↔ g ∈ d.rolePermissions.rows)) ∧
      ∀ p ∈ d.permissions.rows, ⟨role.id, p.id⟩ ∈ d'.rolePermissions.rows ↔
          p ∈ ps) (fun _ _ => False) s := by
  have hloaded : (permissionsOf role.id d).Nodup :=
    (d.permissions.distinct.filter _).imp
      fun {a b} hab he => hab (by rw [he]; exact PermissionRow.clash_iff.2 (.inl rfl))
  let removed := (permissionsOf role.id d).filter fun p => !ps.contains p
  let new := ps.filter fun p => !(permissionsOf role.id d).contains p
  have hremoved : ∀ p, p ∈ removed ↔ p ∈ permissionsOf role.id d ∧ p ∉ ps := fun p => by simp [removed]
  have hnew : ∀ p, p ∈ new ↔ p ∈ ps ∧ p ∉ permissionsOf role.id d := fun p => by simp [new]
  obtain ⟨d₁, hflush₁, hperms₁, hroles₁, hgrants₁⟩ := @flush_revokes d role.id removed
    (nodup_ids (d := d) (fun p hp => (mem_permissionsOf.1 ((hremoved p).1 hp).1).1) (hloaded.filter _))
    fun p hp => (mem_permissionsOf.1 ((hremoved p).1 hp).1).2
  obtain ⟨d₂, hflush₂, hperms₂, hroles₂, hgrants₂⟩ := @flush_grants d₁ role new
    (nodup_ids (d := d) (fun p hp => hps p ((hnew p).1 hp).1) (hnodup.filter _)) (by rwa [hroles₁])
    (fun p hp => by rw [hperms₁]; exact hps p ((hnew p).1 hp).1) fun p hp hg => by
      obtain ⟨hmem, hno⟩ := (hnew p).1 hp
      exact hno (mem_permissionsOf.2 ⟨hps p hmem, ((hgrants₁ _).1 hg).1⟩)
  refine (assignEach_ends hs ((flushAll_append hflush₁).trans hflush₂)).mono ?_ fun _ _ h => h
  rintro _ s' ⟨hs', hworld⟩
  refine ⟨d₂, hs', hworld, hperms₂.trans hperms₁, hroles₂.trans hroles₁, fun g hg => ?_, fun p hp => ?_⟩
  · rw [hgrants₂, hgrants₁]
    constructor
    · rintro (⟨hgrant, -⟩ | ⟨q, -, rfl⟩)
      · exact hgrant
      · exact absurd rfl hg
    · exact fun hgrant => .inl ⟨hgrant, fun q _ he => hg (he ▸ rfl)⟩
  · rw [hgrants₂, hgrants₁]
    constructor
    · rintro (⟨hgrant, hkeep⟩ | ⟨q, hq, he⟩)
      · by_contra hno
        exact hkeep p ((hremoved p).2 ⟨mem_permissionsOf.2 ⟨hp, hgrant⟩, hno⟩) rfl
      · obtain ⟨hq, -⟩ := (hnew q).1 hq
        rwa [permission_eq_of_id hp (hps q hq) (RolePermission.mk.inj he).2]
    · intro hmem
      by_cases hgrant : ⟨role.id, p.id⟩ ∈ d.rolePermissions.rows
      · refine .inl ⟨hgrant, fun q hq he => ((hremoved q).1 hq).2 ?_⟩
        have hqmem : q ∈ d.permissions.rows := (mem_permissionsOf.1 ((hremoved q).1 hq).1).1
        rwa [← permission_eq_of_id hp hqmem (RolePermission.mk.inj he).2]
      · exact .inr ⟨p, (hnew p).2 ⟨hmem, fun h => hgrant (mem_permissionsOf.1 h).2⟩, rfl⟩

/-! ### Roles -/

/-- The role is there, with its permissions. -/
theorem ensureRole_ends {n : RoleName} {done : List RoleName} (hs : s.Flushes d)
    (hids : d.IdsBelow s.world.supply) (hdone : db.SeedsRoles done d) (hn : n ∉ done) :
    (ensureRole n (db.roles.rows.map fun r => (r, permissionsOf r.id db))).Ends
      (fun role s' => ∃ d' : RbacDb, s'.Flushes d' ∧
      d'.IdsBelow s'.world.supply ∧ role.1 ∈ d'.roles.rows ∧ role.1.name = n.name ∧
        role.2 = permissionsOf role.1.id d' ∧
      d'.permissions = d.permissions ∧ d'.rolePermissions = d.rolePermissions ∧
        (∀ r ∈ d.roles.rows, r ∈ d'.roles.rows) ∧
      ∀ r ∈ d'.roles.rows, r ∈ d.roles.rows ∨
          (r.name = n.name ∧ ∀ r' ∈ d.roles.rows, r'.name ≠ n.name)) (fun _ _ => False) s := by
  have hother : ∀ m ∈ done, n.name ≠ m.name := fun m hm he => hn (RoleName.name_injective he ▸ hm)
  unfold ensureRole
  cases hfound : (db.roles.rows.map fun r => (r, permissionsOf r.id db)).find?
      fun r => r.1.name == n.name with
  | some role =>
    obtain ⟨r, hr, rfl⟩ := List.mem_map.1 (List.mem_of_find?_eq_some hfound)
    have hname : (r.name == n.name) = true :=
      List.find?_some (p := fun r : RoleRow × List PermissionRow => r.1.name == n.name) hfound
    rw [beq_iff_eq] at hname
    refine ⟨d, hs, hids, hdone.kept r hr, hname, ?_, rfl, rfl, fun _ h => h, fun _ h => .inl h⟩
    exact (permissionsOf_congr hdone.permissions
      (hdone.grants r (hdone.kept r hr) (by rwa [hname]))).symm
  | none =>
    have hnone : ∀ r ∈ d.roles.rows, r.name ≠ n.name := by
      intro r hr hname
      rcases hdone.added r hr with hr | ⟨⟨m, hm, hname'⟩, -⟩
      · exact List.find?_eq_none.1 hfound _ (List.mem_map_of_mem hr) (beq_iff_eq.2 hname)
      · exact hother m hm (hname.symm.trans hname')
    let role : RoleRow := ⟨⟨max s.world.supply (s.envs 0).number, n.name⟩, roleDescriptions n, true⟩
    have hadmits : d.roles.admits role = true := by
      refine Table.admits_iff.2 fun r hr hclash => ?_
      rcases RoleRow.clash_iff.1 hclash with hid | hname
      · exact absurd (lt_of_lt_of_le (hids.roles r hr) (Nat.le_max_left _ _))
          (by rw [hid]; exact lt_irrefl _)
      · exact hnone r hr hname
    have hmem : ∀ r, r ∈ (d.addRole role).roles.rows ↔ r ∈ d.roles.rows ∨ r = role :=
      fun r => Table.mem_insert hadmits
    have hstep : Session.Flushes (B := rbacTables.backend)
        { s.step (World.uuid4 (s.envs 0) s.world).2 with dirty := s.dirty ++ [.addRole role] }
            (d.addRole role) :=
      Session.Flushes.set (s := s.step (World.uuid4 (s.envs 0) s.world).2) hs
        (by simp [RbacOp.check, hadmits])
    refine Prog.ends_flushes hstep
      ⟨d.addRole role, rfl, ⟨?_, ?_⟩, (hmem role).2 (.inr rfl), rfl, rfl, rfl, rfl,
      fun r hr => (hmem r).2 (.inl hr), fun r hr => ?_⟩
    · exact fun p hp => (hids.permissions p hp).trans_le
        (le_trans (Nat.le_max_left _ _) (Nat.le_succ _))
    · intro r hr
      rcases (hmem r).1 hr with hr | rfl
      · exact (hids.roles r hr).trans_le (le_trans (Nat.le_max_left _ _) (Nat.le_succ _))
      · exact Nat.lt_succ_self _
    · rcases (hmem r).1 hr with hr | rfl
      · exact .inl hr
      · exact .inr ⟨rfl, hnone⟩

theorem seedRoles_ends (names : List RoleName) {done : List RoleName} (hs : s.Flushes d)
    (hids : d.IdsBelow s.world.supply) (hdone : db.SeedsRoles done d)
    (hnodup : (done ++ names).Nodup)
    (hall : ∀ c : Permission, ∃ p ∈ db.permissions.rows, p.code = c.code) :
    (seedRoles db.permissions.rows (db.roles.rows.map fun r => (r, permissionsOf r.id db)) names).Ends
      (fun _ s' => ∃ d' : RbacDb, s'.Flushes d' ∧ db.SeedsRoles (done ++ names) d')
          (fun _ _ => False) s := by
  induction names generalizing s d done with
  | nil =>
    rw [List.append_nil]
    exact ⟨d, hs, hdone⟩
  | cons n names ih =>
    have hn : n ∉ done := fun h => (List.nodup_append.1 hnodup).2.2 n h n List.mem_cons_self rfl
    refine (ensureRole_ends hs hids hdone hn).bind ?_
    rintro ⟨role, loaded⟩ s₁
      ⟨d₁, hs₁, hids₁, hrole, hname, hloaded, hperms₁, hgrants₁, hkept₁, hadded₁⟩
    dsimp only at hrole hname hloaded ⊢
    obtain ⟨ps, hdesired, hcodes, hps⟩ := @desiredPermissions_eq db.permissions.rows
      ((rolePermissions n).map (·.code)) fun c hc => by
        obtain ⟨p, -, rfl⟩ := List.mem_map.1 hc
        exact hall p
    rw [hdesired, hloaded, Prog.ret_bind]
    have hnodup_ps : ps.Nodup := by
      refine List.Nodup.of_map (·.code) ?_
      rw [hcodes]
      cases n <;> decide
    have hps₁ : ∀ p ∈ ps, p ∈ d₁.permissions.rows := fun p hp => by
      rw [hperms₁, hdone.permissions]
      exact hps p hp
    refine (setPermissions_ends hs₁ hrole hps₁ hnodup_ps).bind ?_
    rintro - s₂ ⟨d₂, hs₂, hworld, hperms₂, hroles₂, hothers, hrolePerms⟩
    have hunique : ∀ r ∈ d₂.roles.rows, r.name ≠ n.name → r.id ≠ role.id := by
      intro r hr hne he
      rw [hroles₂] at hr
      exact hne ((Table.eq_of_clash hr hrole (RoleRow.clash_iff.2 (.inl he))) ▸ hname)
    have hsame : ∀ r ∈ d₂.roles.rows, r.name ≠ n.name → ∀ p, ⟨r.id, p⟩ ∈ d₂.rolePermissions.rows ↔
        ⟨r.id, p⟩ ∈ d.rolePermissions.rows := by
      intro r hr hne p
      rw [hothers _ (hunique r hr hne), hgrants₁]
    have hdone₂ : db.SeedsRoles (done ++ [n]) d₂ := by
      refine ⟨hperms₂.trans (hperms₁.trans hdone.permissions),
        fun r hr => ?_, fun r hr => ?_, fun r hr hne p => ?_, fun m hm => ?_⟩
      · rw [hroles₂]
        exact hkept₁ r (hdone.kept r hr)
      · rw [hroles₂] at hr
        rcases hadded₁ r hr with hr | ⟨hr, hno⟩
        · refine (hdone.added r hr).imp_right fun h => ⟨?_, h.2⟩
          obtain ⟨m, hm, hname⟩ := h.1
          exact ⟨m, List.mem_append_left _ hm, hname⟩
        · exact .inr ⟨⟨n, by simp, hr⟩, fun r' hr' => hr ▸ hno r' (hdone.kept r' hr')⟩
      · have hnen : r.name ≠ n.name := hne n (by simp)
        have hrd : r ∈ d.roles.rows := by
          rw [hroles₂] at hr
          exact (hadded₁ r hr).resolve_right fun h => hnen h.1
        rw [hsame r hr hnen]
        exact hdone.grants r hrd (fun m hm => hne m (List.mem_append_left _ hm)) p
      · rcases List.mem_append.1 hm with hm | hm
        · obtain ⟨r, hr, hrname, hgrants⟩ := hdone.granted m hm
          have hr₂ : r ∈ d₂.roles.rows := by
            rw [hroles₂]
            exact hkept₁ r hr
          refine ⟨r, hr₂, hrname, fun p hp => ?_⟩
          rw [hsame r hr₂ (fun he => hn (RoleName.name_injective (he.symm.trans hrname) ▸ hm))]
          exact hgrants p (by rwa [hperms₂, hperms₁] at hp)
        · obtain rfl := List.mem_singleton.1 hm
          refine ⟨role, by rwa [hroles₂], hname, fun p hp => ?_⟩
          rw [hperms₂] at hp
          rw [hrolePerms p hp, ← hcodes]
          constructor
          · exact List.mem_map_of_mem
          · intro hcode
            obtain ⟨q, hq, he⟩ := List.mem_map.1 hcode
            rwa [permission_eq_of_code hp (hps₁ q hq) he.symm]
    have hids₂ : d₂.IdsBelow s₂.world.supply := by
      rw [hworld]
      exact ⟨hperms₂ ▸ hids₁.permissions, hroles₂ ▸ hids₁.roles⟩
    refine (ih hs₂ hids₂ hdone₂ (by rwa [List.append_assoc])).mono ?_ fun _ _ h => h
    rintro - s' ⟨d', hs', hd'⟩
    exact ⟨d', hs', by rwa [List.append_assoc] at hd'⟩

/-! ### A database that agrees -/

theorem addPermissions_eq {codes : List String} {perms : List PermissionRow}
    (h : ∀ c ∈ codes, ∃ p ∈ perms, p.code = c) :
    addPermissions codes perms = .ret perms := by
  induction codes with
  | nil => rfl
  | cons c codes ih =>
    obtain ⟨p, hp, hcode⟩ := h c List.mem_cons_self
    have hfound : (perms.any fun p => p.code == c) = true :=
      List.any_eq_true.2 ⟨p, hp, beq_iff_eq.2 hcode⟩
    unfold addPermissions
    rw [if_pos hfound]
    exact ih fun c hc => h c (List.mem_cons_of_mem _ hc)

theorem setPermissions_eq {roleId : Uuid} {loaded ps : List PermissionRow}
    (h : ∀ p, p ∈ loaded ↔ p ∈ ps) :
    setPermissions roleId loaded ps = .ret () := by
  have hremoved : (loaded.filter fun p => !ps.contains p) = [] :=
    List.filter_eq_nil_iff.2 fun p hp => by simp [(h p).1 hp]
  have hnew : (ps.filter fun p => !loaded.contains p) = [] :=
    List.filter_eq_nil_iff.2 fun p hp => by simp [(h p).2 hp]
  unfold setPermissions
  rw [hremoved, hnew]
  rfl

theorem ensureRole_eq {n : RoleName} {r : RoleRow} (hr : r ∈ db.roles.rows) (hname : r.name = n.name) :
    ensureRole n (db.roles.rows.map fun r => (r, permissionsOf r.id db)) =
        .ret (r, permissionsOf r.id db) := by
  unfold ensureRole
  cases hfound : (db.roles.rows.map fun r => (r, permissionsOf r.id db)).find?
      fun r => r.1.name == n.name with
  | none => exact absurd (beq_iff_eq.2 hname) (List.find?_eq_none.1 hfound _ (List.mem_map_of_mem hr))
  | some role =>
    obtain ⟨r', hr', rfl⟩ := List.mem_map.1 (List.mem_of_find?_eq_some hfound)
    have hname' : (r'.name == n.name) = true :=
      List.find?_some (p := fun r : RoleRow × List PermissionRow => r.1.name == n.name) hfound
    obtain rfl : r' = r :=
      Table.eq_of_clash hr' hr (RoleRow.clash_iff.2 (.inr ((beq_iff_eq.1 hname').trans hname.symm)))
    rfl

theorem seedRoles_eq (h : db.Seeded) (names : List RoleName) :
    seedRoles db.permissions.rows (db.roles.rows.map fun r => (r, permissionsOf r.id db)) names =
        .ret () := by
  induction names with
  | nil => rfl
  | cons n names ih =>
    obtain ⟨r, hr, hname, hgrants⟩ := h.roles n
    obtain ⟨ps, hdesired, hcodes, hps⟩ := @desiredPermissions_eq db.permissions.rows
      ((rolePermissions n).map (·.code)) fun c hc => by
        obtain ⟨p, -, rfl⟩ := List.mem_map.1 hc
        obtain ⟨row, hrow, -⟩ := h.permissions p
        exact ⟨row, hrow⟩
    have hsame : ∀ p, p ∈ permissionsOf r.id db ↔ p ∈ ps := by
      intro p
      rw [mem_permissionsOf]
      constructor
      · rintro ⟨hp, hgrant⟩
        rw [hgrants p hp, ← hcodes] at hgrant
        obtain ⟨q, hq, he⟩ := List.mem_map.1 hgrant
        rwa [permission_eq_of_code hp (hps q hq) he.symm]
      · intro hp
        refine ⟨hps p hp, (hgrants p (hps p hp)).2 ?_⟩
        rw [← hcodes]
        exact List.mem_map_of_mem hp
    unfold seedRoles
    rw [ensureRole_eq hr hname, Prog.ret_bind, hdesired, Prog.ret_bind, setPermissions_eq hsame,
      Prog.ret_bind]
    exact ih

theorem mem_sortedCodes {code : String} : code ∈ sortedCodes ↔ ∃ c : Permission, c.code = code := by
  unfold sortedCodes
  rw [List.mem_mergeSort, List.mem_map]
  exact exists_congr fun c => and_iff_right (mem_allPermissions c)

theorem seed_again (h : db.Seeded) (envs : Nat → Env Unit) (world : World Unit) :
    scope seedRbac envs (⟨db, world⟩ : State rbacTables.backend) = (.ok (), ⟨db, world⟩) := by
  have hperms : addPermissions sortedCodes db.permissions.rows = .ret db.permissions.rows := by
    refine addPermissions_eq fun c hc => ?_
    obtain ⟨p, rfl⟩ := mem_sortedCodes.1 hc
    obtain ⟨row, hrow, -⟩ := h.permissions p
    exact ⟨row, hrow⟩
  refine @scope_of_ok _ _ _ _ _ _ (⟨db, [], world, envs⟩ : Session rbacTables.backend) ?_
  unfold Prog.commit seedRbac
  simp only [Prog.bind_assoc', Prog.eval_query, hperms, Prog.ret_bind, Prog.eval_flushSession,
    flushAll, seedRoles_eq h]
  rfl

end

/-! ### Convergence -/

/-- What the seed leaves as it was: the rows that were there, and the grants of the other roles. -/
structure RbacDb.Preserved (db db' : RbacDb) : Prop where
  permissions : ∀ p ∈ db.permissions.rows, p ∈ db'.permissions.rows
  newPermissions : ∀ p ∈ db'.permissions.rows, p ∈ db.permissions.rows ∨
    ((∃ c : Permission, p.code = c.code) ∧ ∀ q ∈ db.permissions.rows, q.code ≠ p.code)
  roles : ∀ r ∈ db.roles.rows, r ∈ db'.roles.rows
  newRoles : ∀ r ∈ db'.roles.rows, r ∈ db.roles.rows ∨
    ((∃ n : RoleName, r.name = n.name) ∧ ∀ r' ∈ db.roles.rows, r'.name ≠ r.name)
  grants : ∀ r ∈ db.roles.rows, (∀ n : RoleName, r.name ≠ n.name) →
    ∀ p, ⟨r.id, p⟩ ∈ db'.rolePermissions.rows ↔ ⟨r.id, p⟩ ∈ db.rolePermissions.rows

theorem seedRbac_ends (envs : Nat → Env Unit) {db : RbacDb} {world : World Unit}
    (h : db.IdsBelow world.supply) :
    seedRbac.Ends (fun _ s' => s'.dirty = [] ∧ s'.db.Seeded ∧ db.Preserved s'.db) (fun _ _ => False)
      (⟨db, [], world, envs⟩ : Session rbacTables.backend) := by
  have hs : Session.Flushes (⟨db, [], world, envs⟩ : Session rbacTables.backend) db := rfl
  refine Prog.ends_query_bind ((addPermissions_ends sortedCodes hs rfl h).bind ?_)
  rintro perms s₁ ⟨d₁, hs₁, rfl, hids₁, hadds⟩
  have hall : ∀ c : Permission, ∃ p ∈ d₁.permissions.rows, p.code = c.code := fun c =>
    hadds.all c.code (mem_sortedCodes.2 ⟨c, rfl⟩)
  refine Prog.ends_flushes hs₁ (Prog.ends_query_bind ?_)
  have hstart : d₁.SeedsRoles [] d₁ :=
    ⟨rfl, fun _ h => h, fun _ h => .inl h, fun _ _ _ _ => Iff.rfl, by simp⟩
  have hs₁' : Session.Flushes (B := rbacTables.backend) { s₁ with db := d₁, dirty := [] } d₁ := rfl
  refine (seedRoles_ends [.owner, .admin, .developer, .viewer] hs₁' hids₁ hstart
    (by decide) hall).bind ?_
  rintro - s₂ ⟨d₂, hs₂, hseeds⟩
  refine Prog.ends_flush hs₂ ⟨rfl, ⟨fun c => ?_, fun n => hseeds.granted n (by cases n <;> decide)⟩, ?_⟩
  · obtain ⟨p, hp, hcode⟩ := hall c
    rw [← hseeds.permissions] at hp
    exact ⟨p, ⟨hp, hcode⟩, fun q hq => permission_eq_of_code hq.1 hp (hq.2.trans hcode.symm)⟩
  · have hroles : ∀ r, r ∈ db.roles.rows ↔ r ∈ d₁.roles.rows := fun r => by rw [hadds.roles]
    refine ⟨fun p hp => ?_, fun p hp => ?_, fun r hr => ?_, fun r hr => ?_, fun r hr hne p => ?_⟩
    · rw [hseeds.permissions]
      exact hadds.kept p hp
    · rw [hseeds.permissions] at hp
      refine (hadds.added p hp).imp_right fun h => ⟨?_, h.2⟩
      obtain ⟨c, hc⟩ := mem_sortedCodes.1 h.1
      exact ⟨c, hc.symm⟩
    · exact hseeds.kept r ((hroles r).1 hr)
    · refine (hseeds.added r hr).imp (hroles r).2
        fun h => ⟨?_, fun r' hr' => h.2 r' ((hroles r').1 hr')⟩
      obtain ⟨n, -, hn⟩ := h.1
      exact ⟨n, hn⟩
    · rw [hseeds.grants r (hseeds.kept r ((hroles r).1 hr)) (fun n _ => hne n), hadds.grants]

/-- Seeding converges: whatever the tables held, afterwards they agree with the catalog, the other
rows and grants are as they were, and the next seed changes nothing. -/
theorem seed_converges (envs : Nat → Env Unit) (db : RbacDb) (world : World Unit)
    (hids : db.IdsBelow world.supply) :
    let out := scope seedRbac envs (⟨db, world⟩ : State rbacTables.backend)
    out.1 = .ok () ∧ out.2.db.Seeded ∧ db.Preserved out.2.db ∧
      ∀ envs' world', scope seedRbac envs' (⟨out.2.db, world'⟩ : State rbacTables.backend) =
          (.ok (), ⟨out.2.db, world'⟩) := by
  have hends := seedRbac_ends envs hids
  rcases hends.scope_flushed (s := (⟨db, world⟩ : State rbacTables.backend)) (fun _ _ h => h.1) with
    ⟨_, s', ⟨-, hseeded, hpreserved⟩, he⟩ | ⟨_, _, hfalse, -⟩
  · rw [he]
    exact ⟨rfl, hseeded, hpreserved, fun envs' world' => seed_again hseeded envs' world'⟩
  · exact hfalse.elim

/-- A viewer with a permission that viewers do not have, and a role and a permission that the
catalog does not know. -/
def sampleRbac : RbacDb where
  permissions := ⟨[⟨1, "org:read", "Read"⟩, ⟨2, "billing:read", ""⟩], by decide⟩
  roles := ⟨[⟨⟨3, "viewer"⟩, "Read-only access.", true⟩, ⟨⟨4, "accountant"⟩, "", false⟩], by decide⟩
  rolePermissions := ⟨[⟨3, 2⟩, ⟨4, 2⟩], by decide⟩
  refers := by decide

theorem seed_converges_drifted :
    let out := scope seedRbac (fun _ => ⟨0, "", 0, ()⟩)
      (⟨sampleRbac, ⟨0, 10, Store.empty, ()⟩⟩ : State rbacTables.backend)
    out.2.db.Seeded ∧ sampleRbac.Preserved out.2.db :=
  have h := seed_converges (fun _ => ⟨0, "", 0, ()⟩) sampleRbac ⟨0, 10, Store.empty, ()⟩
    ⟨by decide, by decide⟩
  ⟨h.2.1, h.2.2.1⟩

end TrafficPlatform
