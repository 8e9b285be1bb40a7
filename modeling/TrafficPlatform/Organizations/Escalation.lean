import TrafficPlatform.Organizations.Writes

/-!
# Who can become an owner

Each route asks for a permission of its own, and `add_member`, `update_member_role` and `remove_member`
ask for no more when they hand out or take away the owner role. The owners change without an owner
acting exactly through such calls (`OrgRequest.Escalates`): where none is made, the owners stay, the
organization stays and nobody comes to hold `org:delete`.
-/

namespace TrafficPlatform
open Kit

/-- One call of the API: the request and what its effects read from outside. -/
structure OrgCall where
  req : OrgRequest
  envs : Nat → Env Unit

/-- The committed database and the world between two calls. -/
abbrev OrgState : Type := State orgTables.backend

/-- The state after a call: `get_session` commits when the handler returns and rolls back when it
raises. -/
def OrgState.call (cfg : Config) (s : OrgState) (c : OrgCall) : OrgState :=
  (scope (c.req.prog cfg) c.envs s).2

/-- The owners of the organization are the same, it is there if it was, and nobody has come to hold
`org:delete`. -/
structure OrgDb.Confined (orgId : Uuid) (db db' : OrgDb) : Prop where
  owners : ∀ u, db'.IsOwner orgId u ↔ db.IsOwner orgId u
  organization : db'.hasOrganization orgId = db.hasOrganization orgId
  orgDelete : ∀ u, db'.Holds orgId u .orgDelete → db.Holds orgId u .orgDelete

/-- The user is active and the user's role grants the permission. -/
def OrgDb.Permits (db : OrgDb) (orgId userId : Uuid) (permission : Permission) : Prop :=
  db.IsActive userId ∧ db.Holds orgId userId permission

/-- The call is permitted and changes who owns the organization: it adds a registered user as an owner,
makes a member an owner, or demotes or removes one of several owners. -/
def OrgRequest.Escalates (cfg : Config) (orgId : Uuid) (db : OrgDb) : OrgRequest → Prop
  | .addMember caller o email role => o = orgId ∧ role = .owner ∧ db.Permits o caller .memberInvite ∧
    ∃ u ∈ db.users.rows, u.email = cfg.lower (cfg.lower email) ∧ ¬ db.IsMember o u.id
  | .updateMemberRole caller o memberId role => o = orgId ∧ db.Permits o caller .memberUpdateRole ∧
    ∃ m ∈ db.members.rows, m.id = memberId ∧ m.organizationId = o ∧
      if db.MemberHasRole m RoleName.owner.name then role ≠ .owner ∧
        2 ≤ db.ownerCount o else role = .owner
  | .removeMember caller o memberId => o = orgId ∧ db.Permits o caller .memberRemove ∧
    ∃ m ∈ db.members.rows, m.id = memberId ∧ m.organizationId = o ∧
      db.MemberHasRole m RoleName.owner.name ∧
      2 ≤ db.ownerCount o
  | _ => False

namespace OrgDb

variable {orgId id : Uuid} {db db' db'' : OrgDb} {m : OrganizationMember} {r : Role}

theorem Confined.of_owners (h : ∀ u, db'.IsOwner orgId u ↔ db.IsOwner orgId u)
    (ho : db'.hasOrganization orgId = db.hasOrganization orgId) : Confined orgId db db' :=
  ⟨h, ho, fun u => by rw [holds_orgDelete, holds_orgDelete]; exact (h u).1⟩

theorem Confined.refl (db : OrgDb) : Confined orgId db db := ⟨fun _ => Iff.rfl, rfl, fun _ h => h⟩

theorem Confined.trans (h : Confined orgId db db') (h' : Confined orgId db' db'') :
    Confined orgId db db'' :=
  ⟨fun u => (h'.owners u).trans (h.owners u), h'.organization.trans h.organization,
    fun u hu => h.orgDelete u (h'.orgDelete u hu)⟩

theorem Confined.of_rows (h : ∀ m, db'.OwnerRow orgId m ↔ db.OwnerRow orgId m)
    (ho : db'.hasOrganization orgId = db.hasOrganization orgId) : Confined orgId db db' :=
  .of_owners (fun u => by simp only [IsOwner, h]) ho

theorem hasOrganization_iff : db.hasOrganization id = true ↔ ∃ o ∈ db.organizations.rows,
    o.id = id := by
  simp [hasOrganization]

/-! ### One write -/

theorem confined_setOrganizationName {name : String} :
    Confined orgId db (db.setOrganizationName id name) := by
  refine .of_rows (fun m => Iff.rfl) ?_
  have hmem : ∀ o', o' ∈ (db.setOrganizationName id name).organizations.rows ↔
      ∃ o ∈ db.organizations.rows, (if o.id == id then { o with name := name } else o) = o' := by
    simp [OrgDb.setOrganizationName, Table.mem_update]
  rw [Bool.eq_iff_iff, hasOrganization_iff, hasOrganization_iff]
  constructor
  · rintro ⟨o', ho', hid⟩
    obtain ⟨o, ho, rfl⟩ := (hmem o').1 ho'
    exact ⟨o, ho, by rw [← hid]; split <;> rfl⟩
  · rintro ⟨o, ho, hid⟩
    exact ⟨_, (hmem _).2 ⟨o, ho, rfl⟩, by split <;> exact hid⟩

theorem confined_addNotification {n : Notification} : Confined orgId db (db.addNotification n) :=
  .of_rows (fun _ => Iff.rfl) rfl

theorem confined_addMember (h : m.organizationId = orgId → ¬ db.MemberHasRole m RoleName.owner.name) :
    Confined orgId db (db.addMember m) := by
  unfold OrgDb.addMember
  split
  · refine .of_rows (fun m' => ⟨?_, ?_⟩) rfl
    · rintro ⟨hm', ho, hr⟩
      rcases Table.mem_or_eq_of_mem_insert hm' with hm' | rfl
      · exact ⟨hm', ho, hr⟩
      · exact absurd hr (h ho)
    · rintro ⟨hm', ho, hr⟩
      exact ⟨Table.mem_insert_of_mem hm', ho, hr⟩
  · exact .refl db

theorem confined_deleteMember (h : ∀ m, db.OwnerRow orgId m → m.id ≠ id) :
    Confined orgId db (db.deleteMember id) := by
  refine .of_rows (fun m => ⟨?_, ?_⟩) rfl
  · rintro ⟨hm, ho⟩
    exact ⟨(Table.mem_delete.1 hm).1, ho⟩
  · rintro ⟨hm, ho⟩
    exact ⟨Table.mem_delete.2 ⟨hm, by simpa using h m ⟨hm, ho⟩⟩, ho⟩

theorem confined_deleteOrganization (h : id ≠ orgId) :
    Confined orgId db (db.deleteOrganization id) := by
  refine .of_rows (fun m => ⟨?_, ?_⟩) ?_
  · rintro ⟨hm, ho⟩
    exact ⟨(Table.mem_delete.1 hm).1, ho⟩
  · rintro ⟨hm, rfl, hr⟩
    exact ⟨Table.mem_delete.2 ⟨hm, by simpa using Ne.symm h⟩, rfl, hr⟩
  · rw [Bool.eq_iff_iff, hasOrganization_iff, hasOrganization_iff]
    constructor
    · rintro ⟨o, ho, hid⟩
      exact ⟨o, (Table.mem_delete.1 ho).1, hid⟩
    · rintro ⟨o, ho, rfl⟩
      exact ⟨o, Table.mem_delete.2 ⟨ho, by simpa using Ne.symm h⟩, rfl⟩

/-- A role change of a member that stays an owner or stays none. -/
theorem confined_setMemberRole (hr : r ∈ db.roles.rows) (hm : m ∈ db.members.rows)
    (h : m.organizationId = orgId →
      (db.MemberHasRole m RoleName.owner.name ↔ r.name = RoleName.owner.name)) :
    Confined orgId db (db.setMemberRole m.id r.id) := by
  have hhas : db.hasRole r.id = true := List.any_eq_true.2 ⟨r, hr, beq_self_eq_true r.id⟩
  have hroles : (db.setMemberRole m.id r.id).roles = db.roles :=
    (OrgOp.setMemberRole m.id r.id).apply_roles db
  have hmem : ∀ m', m' ∈ (db.setMemberRole m.id r.id).members.rows ↔
      ∃ a ∈ db.members.rows, (if a.id == m.id then { a with roleId := r.id } else a) = m' := by
    simp [OrgDb.setMemberRole, hhas, Table.mem_update]
  have hnew : db.MemberHasRole { m with roleId := r.id } RoleName.owner.name ↔
      r.name = RoleName.owner.name := by
    constructor
    · rintro ⟨r', hr', hid, hn⟩
      rwa [← role_eq hr' hr (.inl hid)]
    · exact fun hn => ⟨r, hr, rfl, hn⟩
  refine .of_owners (fun u => ⟨?_, ?_⟩) ?_
  · rintro ⟨m', ⟨hm', ho, hown⟩, rfl⟩
    obtain ⟨a, ha, rfl⟩ := (hmem m').1 hm'
    simp only [OrgDb.MemberHasRole, hroles] at hown
    split at ho
    · rename_i hid
      rw [if_pos hid] at hown ⊢
      obtain rfl := member_eq ha hm (by simpa using hid)
      exact ⟨a, ⟨ha, ho, (h ho).2 (hnew.1 hown)⟩, rfl⟩
    · rename_i hid
      rw [if_neg hid] at hown ⊢
      exact ⟨a, ⟨ha, ho, hown⟩, rfl⟩
  · rintro ⟨a, ⟨ha, ho, hown⟩, rfl⟩
    refine ⟨_, ⟨(hmem _).2 ⟨a, ha, rfl⟩, ?_⟩, ?_⟩
    · simp only [OrgDb.MemberHasRole, hroles]
      split
      · rename_i hid
        obtain rfl := member_eq ha hm (by simpa using hid)
        exact ⟨ho, hnew.2 ((h ho).1 hown)⟩
      · exact ⟨ho, hown⟩
    · split <;> rfl
  · simp [OrgDb.hasOrganization, OrgDb.setMemberRole, hhas]

theorem confined_deleteEach (ms : List OrganizationMember)
    (h : ∀ m ∈ ms, ∀ m', db.OwnerRow orgId m' → m'.id ≠ m.id) :
    Confined orgId db (applyAll orgTables.backend (ms.map fun m => .deleteMember m.id) db) := by
  induction ms generalizing db with
  | nil => exact .refl db
  | cons m ms ih =>
    refine (confined_deleteMember (h m List.mem_cons_self)).trans (ih fun m' hm' m₀ ⟨h₀, ho⟩ => ?_)
    exact h m' (List.mem_cons_of_mem _ hm') m₀ ⟨(Table.mem_delete.1 h₀).1, ho⟩

end OrgDb

/-! ### One call -/

theorem orgSerial (cfg : Config) : Relies (OrgRequest.prog cfg) (fun _ => True) (fun _ _ => (· = ·))
    (fun _ _ => True) (fun r _ w db => r.Writes cfg (· = ·) w db) where
  refl _ _ _ := rfl
  trans _ _ _ _ _ := Eq.trans
  check _ _ _ _ _ := trivial
  stable _ _ _ _ _ := trivial
  safe r db _ := (r.prog_safe .ofEq db).commit (fun _ => rfl) fun _ _ _ => Eq.trans

theorem OrgDb.Authorized.permits {orgId caller : Uuid} {permission : Permission} {db : OrgDb}
    (h : db.Authorized (· = ·) orgId caller permission) : db.Permits orgId caller permission :=
  ⟨OrgDb.seen_eq.1 h.active, OrgDb.seen_eq.1 h.holds⟩

/-- What a call writes leaves the owners alone unless it escalates or an owner makes it. -/
theorem OrgRequest.Writes.confined {cfg : Config} {orgId : Uuid} {db : OrgDb} {q : OrgRequest}
    {w : List OrgOp} (hw : q.Writes cfg (· = ·) w db) (hno : ¬ db.IsOwner orgId q.caller)
    (hsafe : ¬ q.Escalates cfg orgId db) :
    OrgDb.Confined orgId db (applyAll orgTables.backend w db) := by
  cases q with
  | updateOrganization caller o name =>
    refine applyAll_invariant (B := orgTables.backend) (P := fun db' => OrgDb.Confined orgId db db')
      (fun op hop db' h => ?_) (.refl db)
    obtain ⟨id, name, rfl⟩ := hw op hop
    exact h.trans OrgDb.confined_setOrganizationName
  | deleteOrganization caller o =>
    obtain ⟨hauth, ms, hms, rfl⟩ := hw
    rw [OrgDb.seen_eq] at hms
    have hne : o ≠ orgId := by
      rintro rfl
      exact hno (OrgDb.holds_orgDelete.1 hauth.permits.2)
    rw [applyAll_append]
    refine (OrgDb.confined_deleteEach ms fun m hm m' hm' hid => hne ?_).trans
      (OrgDb.confined_deleteOrganization hne)
    rw [← (hms m hm).2, ← OrgDb.member_eq hm'.1 (hms m hm).1 hid, hm'.2.1]
  | addMember caller o email role =>
    obtain ⟨hauth, u, r, id, n, hu, hnot, hr, hn, rfl⟩ := hw
    rw [OrgDb.seen_eq] at hu hnot
    refine (OrgDb.confined_addMember fun ho hown => hsafe ?_).trans OrgDb.confined_addNotification
    obtain ⟨r', hr', hid, hn'⟩ := hown
    obtain rfl := OrgDb.role_eq hr' hr (.inl hid)
    exact ⟨ho, RoleName.name_injective (hn.symm.trans hn'), hauth.permits, u, hu.1, hu.2, hnot⟩
  | updateMemberRole caller o memberId role =>
    obtain ⟨hauth, m, r, hm, hr, hn, hcount, ⟨rfl, -⟩ | rfl⟩ := hw
    · exact .refl db
    simp only [OrgDb.seen_eq] at hm hcount
    obtain ⟨hm, rfl, ho⟩ := hm
    refine OrgDb.confined_setMemberRole hr hm fun ho' => ?_
    rw [hn]
    by_contra hne
    refine hsafe ⟨ho.symm.trans ho', hauth.permits, m, hm, rfl, ho, ?_⟩
    split
    · rename_i hown
      have hrole : role ≠ .owner := by
        rintro rfl
        exact hne ⟨fun _ => rfl, fun _ => hown⟩
      exact ⟨hrole, hcount hown hrole⟩
    · rename_i hown
      by_contra hrole
      exact hne ⟨fun h => absurd h hown, fun h => absurd (RoleName.name_injective h) hrole⟩
  | removeMember caller o memberId =>
    obtain ⟨hauth, m, hm, hcount, rfl⟩ := hw
    simp only [OrgDb.seen_eq] at hm hcount
    obtain ⟨hm, rfl, ho⟩ := hm
    refine OrgDb.confined_deleteMember fun m' hm' hid => hsafe ?_
    obtain rfl := OrgDb.member_eq hm'.1 hm hid
    exact ⟨ho.symm.trans hm'.2.1, hauth.permits, m', hm, rfl, ho, hm'.2.2, hcount hm'.2.2⟩

theorem OrgState.call_confined {cfg : Config} {orgId : Uuid} {s : OrgState} {c : OrgCall}
    (hno : ¬ s.db.IsOwner orgId c.req.caller) (hsafe : ¬ c.req.Escalates cfg orgId s.db) :
    OrgDb.Confined orgId s.db (s.call cfg c).db := by
  cases h : (scope (c.req.prog cfg) c.envs s).1 with
  | ok a =>
    obtain ⟨w, hw, hq⟩ := (orgSerial cfg).of_scope trivial h
    rw [OrgState.call, hw]
    exact hq.confined hno hsafe
  | error e =>
    rw [OrgState.call, scope_error h]
    exact .refl _

/-! ### Every run -/

/-- In every run of calls none of which an owner of the organization makes: if none of them escalates,
the owners and the organization stay, and nobody comes to hold `org:delete`. -/
theorem owners_confined (cfg : Config) (orgId : Uuid) (s : OrgState) (calls : List OrgCall)
    (hno : Meets (OrgState.call cfg) (fun s c => ¬ s.db.IsOwner orgId c.req.caller) s calls)
    (hsafe : Meets (OrgState.call cfg) (fun s c => ¬ c.req.Escalates cfg orgId s.db) s calls) :
    Always (OrgState.call cfg) (fun s' => OrgDb.Confined orgId s.db s'.db) s calls := by
  refine Always.of_meets
    (C := fun s c => ¬ s.db.IsOwner orgId c.req.caller ∧ ¬ c.req.Escalates cfg orgId s.db)
    (fun s' c h hc => h.trans (OrgState.call_confined hc.1 hc.2)) (.refl _) ?_
  exact meets_iff.2
    fun es₁ c es₂ hes => ⟨meets_iff.1 hno es₁ c es₂ hes, meets_iff.1 hsafe es₁ c es₂ hes⟩

theorem OrgDb.not_isOwner {db : OrgDb} {orgId u : Uuid}
    (h : ∀ m ∈ db.members.rows, m.organizationId = orgId →
    m.userId = u → ¬ db.MemberHasRole m RoleName.owner.name) : ¬ db.IsOwner orgId u :=
  fun ⟨m, ⟨hm, ho, hr⟩, hu⟩ => h m hm ho hu hr

/-- `sampleOrgDb` with an administrator. -/
def adminState : OrgState := ⟨sampleOrgDb .admin, sampleOrgWorld⟩

/-- An administrator renames the organization and then steps down. -/
def adminCalls : List OrgCall :=
  [⟨.updateOrganization 2 5 "Acme Inc", fun _ => sampleOrgEnv⟩,
    ⟨.updateMemberRole 2 5 12 .viewer, fun _ => sampleOrgEnv⟩]

/-- The administrator's calls meet the condition. -/
theorem owners_confined_admin :
    Always (OrgState.call sampleConfig) (fun s' => OrgDb.Confined 5 adminState.db s'.db) adminState
        adminCalls := by
  refine owners_confined sampleConfig 5 adminState adminCalls ⟨?_, ?_, trivial⟩
    ⟨fun h => h, ?_, trivial⟩
  · exact OrgDb.not_isOwner (by decide)
  · exact OrgDb.not_isOwner (by decide +kernel)
  · rintro ⟨-, -, m, hm, hid, -, hc⟩
    have hnot : ∀ m ∈ (adminState.call sampleConfig ⟨.updateOrganization 2 5 "Acme Inc",
        fun _ => sampleOrgEnv⟩).db.members.rows, m.id = 12 → ¬ (adminState.call sampleConfig
          ⟨.updateOrganization 2 5 "Acme Inc", fun _ => sampleOrgEnv⟩).db.MemberHasRole m
              RoleName.owner.name := by
      decide +kernel
    rw [if_neg (hnot m hm hid)] at hc
    cases hc

/-- An administrator makes herself an owner. -/
theorem admin_becomes_owner : ¬ ∀ (cfg : Config) (orgId : Uuid) (s : OrgState) (calls : List OrgCall),
    Meets (OrgState.call cfg) (fun s c => ¬ s.db.IsOwner orgId c.req.caller) s calls →
      Always (OrgState.call cfg) (fun s' => OrgDb.Confined orgId s.db s'.db) s calls := by
  intro h
  have hrun := (h sampleConfig 5 adminState [⟨.updateMemberRole 2 5 12 .owner, fun _ => sampleOrgEnv⟩]
    ⟨OrgDb.not_isOwner (by decide), trivial⟩).2
  have hrow : ∃ m ∈ (adminState.call sampleConfig ⟨.updateMemberRole 2 5 12 .owner,
      fun _ => sampleOrgEnv⟩).db.members.rows, m.organizationId = 5 ∧ (adminState.call sampleConfig
        ⟨.updateMemberRole 2 5 12 .owner, fun _ => sampleOrgEnv⟩).db.MemberHasRole m
          RoleName.owner.name ∧
          m.userId = 2 := by decide +kernel
  obtain ⟨m, hm, ho, hr, hu⟩ := hrow
  exact OrgDb.not_isOwner (by decide) ((hrun.owners 2).1 ⟨m, ⟨hm, ho, hr⟩, hu⟩)

end TrafficPlatform
