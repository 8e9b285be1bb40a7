import TrafficPlatform.Management.Writes

/-!
# Runs of management requests

One request after another, each in its own transaction. What happens on the platform besides
(sign-ups, gateway requests, background tasks) leaves the tables of the management alone.
-/

namespace TrafficPlatform
open Kit

/-- One call of a route: the request and what its effects read from outside. -/
structure ManagementCall where
  req : ManagementRequest
  envs : Nat → Env PlatformInput

/-- The committed database and the world between two calls. -/
abbrev ManagementState : Type := State managementTables.backend

/-- The state after a call. -/
def ManagementState.call (cfg : Config) (s : ManagementState) (c : ManagementCall) : ManagementState :=
  (scope (c.req.prog cfg) c.envs s).2

/-- The database before the first organization. -/
def PlatformDb.initial (users : Table User) (roles : Table Role) : PlatformDb where
  orgs := ⟨users, roles, .empty, .empty, .empty, by simp⟩
  apis := .empty
  apiVersions := .empty
  quotas := .empty
  rateLimitRules := .empty
  apiKeys := .empty
  requestLogs := .empty
  apiKeyUsage := .empty
  auditLogs := .empty
  outbox := .empty
  dailyUsage := .empty
  keyRefers := by simp
  usageRefers := by simp

/-- The tables of the management are the same. -/
structure PlatformDb.SameTenants (db db' : PlatformDb) : Prop where
  roles : db'.orgs.roles = db.orgs.roles
  organizations : db'.orgs.organizations = db.orgs.organizations
  members : db'.orgs.members = db.orgs.members
  apis : db'.apis = db.apis
  apiVersions : db'.apiVersions = db.apiVersions
  quotas : db'.quotas = db.quotas
  rateLimitRules : db'.rateLimitRules = db.rateLimitRules
  apiKeys : db'.apiKeys = db.apiKeys

/-- A step of the platform: a call that satisfies `P`, or something besides the management. -/
inductive ManagementState.Step (cfg : Config) (P : ManagementCall → Prop) : ManagementState →
    ManagementState → Prop
  | call {s : ManagementState} (c : ManagementCall) : P c → Step cfg P s (s.call cfg c)
  | elsewhere {s : ManagementState} {db : PlatformDb} {w : World PlatformOutside} :
    s.db.SameTenants db → s.world.clock ≤ w.clock → s.world.supply ≤ w.supply → Step cfg P s ⟨db, w⟩

/-- The states after some steps. -/
abbrev ManagementState.Later (cfg : Config) (P : ManagementCall → Prop) : ManagementState →
    ManagementState → Prop :=
  Relation.ReflTransGen (ManagementState.Step cfg P)

/-- The states that the platform comes to, from a database without organizations. -/
inductive ManagementReachable (cfg : Config) : ManagementState → Prop
  | initial (users : Table User) (roles : Table Role) (w : World PlatformOutside) :
    ManagementReachable cfg ⟨.initial users roles, w⟩
  | step {s s' : ManagementState} : s.Step cfg (fun _ => True) s' → ManagementReachable cfg s →
    ManagementReachable cfg s'

namespace ManagementState

variable {cfg : Config} {s : ManagementState} {c : ManagementCall}

/-- What happened in a call. -/
def transition (cfg : Config) (s : ManagementState) (c : ManagementCall) : Transition :=
  ⟨s.db, s.world, c.envs, (s.call cfg c).db, (s.call cfg c).world⟩

theorem call_grown (cfg : Config) (s : ManagementState) (c : ManagementCall) :
    s.world.Grown (s.call cfg c).world :=
  scope_world World.Grown.refl World.Grown.trans (grown_management cfg c.req) c.envs s

theorem call_writes (cfg : Config) (s : ManagementState) (c : ManagementCall) :
    (s.call cfg c).db = s.db ∨
    ∃ orgId, (s.db.orgs.IsMember orgId c.req.caller ∨ ¬ s.db.orgs.hasOrganization orgId = true) ∧
      (s.transition cfg c).Writes cfg orgId s.db (s.call cfg c).db := by
  rcases c.req.effect cfg c.envs s with ⟨-, h⟩ | ⟨-, h⟩
  · exact h.writes
  · exact .inl h

theorem call_keeps {P : PlatformDb → Prop} (hp : P s.db)
    (hop : ∀ orgId o db, ManagementOp.Lawful cfg (s.transition cfg c) orgId db o → P db →
        P (o.apply db)) : P (s.call cfg c).db := by
  rcases call_writes cfg s c with h | ⟨orgId, -, h⟩
  · exact h ▸ hp
  · exact h.keeps (fun o db => hop orgId o db) hp

end ManagementState

theorem ManagementReachable.call {cfg : Config} {s : ManagementState} (c : ManagementCall)
    (h : ManagementReachable cfg s) :
    ManagementReachable cfg (s.call cfg c) := .step (.call c trivial) h

theorem ManagementReachable.keeps {cfg : Config} {s : ManagementState} {P : PlatformDb → Prop}
    (h : ManagementReachable cfg s) (hinit : ∀ users roles, P (.initial users roles))
    (helse : ∀ db db', db.SameTenants db' → P db → P db')
    (hop : ∀ t orgId o db, ManagementOp.Lawful cfg t orgId db o → P db → P (o.apply db)) : P s.db := by
  induction h with
  | initial users roles w => exact hinit users roles
  | step hstep _ ih =>
    cases hstep with
    | call c _ => exact ManagementState.call_keeps ih fun orgId o db => hop _ orgId o db
    | elsewhere hsame _ _ => exact helse _ _ hsame ih

/-! ### A small instance -/

def sampleCall (r : ManagementRequest) : ManagementCall := ⟨r, fun _ => sampleGatewayEnv 1⟩

/-- Two users, and the organization `100` that the first of them has made. -/
def sampleManagement : ManagementState :=
  ManagementState.call sampleConfig
    ⟨.initial (sampleOrgDb .owner).users (sampleOrgDb .owner).roles, sampleGatewayWorld⟩
    (sampleCall (.createOrganization 1 "acme" none))

end TrafficPlatform
