import TrafficPlatform.Management
import TrafficPlatform.DualWrite

/-!
# What the management requests do

Each service run alone, from the session it finds to the one it leaves when it returns. A request
that raises is rolled back.
-/

namespace TrafficPlatform
open Kit

/-- The clock and the ids handed out do not go back; the rest of the world stays. -/
structure World.Grown {X : Type} (w w' : World X) : Prop where
  clock : w.clock ≤ w'.clock
  supply : w.supply ≤ w'.supply
  redis : w'.redis = w.redis
  outside : w'.outside = w.outside

theorem World.Grown.refl {X : Type} (w : World X) : w.Grown w := ⟨le_refl _, le_refl _, rfl, rfl⟩

theorem World.Grown.trans {X : Type} (a b c : World X) (h : a.Grown b) (h' : b.Grown c) : a.Grown c :=
  ⟨h.clock.trans h'.clock, h.supply.trans h'.supply, h'.redis.trans h.redis, h'.outside.trans h.outside⟩

/-- From the session `s`: the database and the pending assignments, in a world that has grown; what
the coming effects read is left over from `s`. -/
structure Reaches {T : Tables} (s : Session T.backend) (db : T.Db) (dirty : List T.Op)
    (s' : Session T.backend) : Prop where
  db : s'.db = db
  dirty : s'.dirty = dirty
  world : s.world.Grown s'.world
  envs : ∃ n, ∀ m, s'.envs m = s.envs (m + n)

section
variable {T : Tables} {α : Type} {s s' s'' : Session T.backend} {db db' : T.Db}
    {dirty dirty' : List T.Op}
  {E : Failure → Session T.backend → Prop}

theorem Reaches.refl (s : Session T.backend) : Reaches s s.db s.dirty s :=
  ⟨rfl, rfl, .refl _, 0, fun _ => rfl⟩

theorem Reaches.trans (h : Reaches s db dirty s') (h' : Reaches s' db' dirty' s'') :
    Reaches s db' dirty' s'' := by
  obtain ⟨n, hn⟩ := h.envs
  obtain ⟨n', hn'⟩ := h'.envs
  refine ⟨h'.db, h'.dirty, h.world.trans _ _ _ h'.world, n' + n, fun m => ?_⟩
  rw [hn', hn, Nat.add_assoc]

theorem Reaches.committed (h : Reaches s db dirty s') : applyAll T.backend s'.dirty s'.db =
    applyAll T.backend dirty db := by
  rw [h.db, h.dirty]

theorem uuid_ends (s : Session T.backend) : (uuid4 : Prog T.backend Uuid).Ends
    (fun id s' => s.world.supply ≤ id ∧ id < s'.world.supply ∧ Reaches s s.db s.dirty s') E s :=
  Prog.ends_ask ⟨Nat.le_max_left _ _, Nat.lt_succ_self _, rfl, rfl,
    ⟨le_refl _, Nat.le_succ_of_le (Nat.le_max_left _ _), rfl, rfl⟩, 1, fun _ => rfl⟩

theorem clock_ends (s : Session T.backend) : (now : Prog T.backend Time).Ends
    (fun time s' => s.world.clock ≤ time ∧ time ≤ s'.world.clock ∧ Reaches s s.db s.dirty s') E s :=
  Prog.ends_ask
    ⟨Nat.le_max_left _ _, le_refl _, rfl, rfl, ⟨Nat.le_max_left _ _, le_refl _, rfl, rfl⟩, 1,
      fun _ => rfl⟩

theorem random_ends (s : Session T.backend) : (random : Prog T.backend String).Ends
    (fun text s' => (∃ n, text = (s.envs n).text) ∧ Reaches s s.db s.dirty s') E s :=
  Prog.ends_ask ⟨⟨0, rfl⟩, rfl, rfl, .refl _, 1, fun _ => rfl⟩

theorem set_ends (o : T.Op) (s : Session T.backend) : (Prog.set o : Prog T.backend Unit).Ends
    (fun _ s' => Reaches s s.db (s.dirty ++ [o]) s') E s :=
  Prog.ends_set ⟨rfl, rfl, .refl _, 0, fun _ => rfl⟩

theorem flush_one_ends {o : T.Op} (h : s.dirty = [o]) : (Prog.flushSession : Prog T.backend Unit).Ends
    (fun _ s' => T.check o s.db = .ok () ∧ Reaches s (T.apply o s.db) [] s')
        (fun e _ => T.check o s.db = .error e) s := by
  unfold Prog.Ends Prog.flushSession
  simp only [Prog.eval, h, flushAll]
  cases T.check o s.db with
  | ok u => exact ⟨rfl, rfl, rfl, .refl _, 0, fun _ => rfl⟩
  | error e => rfl

theorem flush_ends_nil (h : s.dirty = []) : (Prog.flushSession : Prog T.backend Unit).Ends
    (fun _ s' => Reaches s s.db [] s') E s := by
  unfold Prog.Ends Prog.flushSession
  simp only [Prog.eval, h, flushAll]
  exact ⟨rfl, rfl, .refl _, 0, fun _ => rfl⟩

theorem any_error {p : Prog T.backend α} {Q : α → Session T.backend → Prop} (h : p.Ends Q E s) :
    p.Ends Q (fun _ _ => True) s := h.mono (fun _ _ => id) fun _ _ _ => trivial

theorem flush_ends {o : T.Op} (h : s.dirty = [o]) : (Prog.flushSession : Prog T.backend Unit).Ends
    (fun _ s' => T.check o s.db = .ok () ∧ Reaches s (T.apply o s.db) [] s') (fun _ _ => True) s :=
      any_error (flush_one_ends h)

end

/-! ### The world -/

section
variable {T : Tables}

theorem grown_now : (now : Prog T.backend Time).Within World.Grown :=
  Prog.within_ask fun _ _ => ⟨Nat.le_max_left _ _, le_refl _, rfl, rfl⟩

theorem grown_uuid4 : (uuid4 : Prog T.backend Uuid).Within World.Grown :=
  Prog.within_ask fun _ _ => ⟨le_refl _, Nat.le_succ_of_le (Nat.le_max_left _ _), rfl, rfl⟩

theorem grown_random : (random : Prog T.backend String).Within World.Grown :=
  Prog.within_ask fun _ _ => .refl _

end

theorem grown_inSomeOrder {α : Type} (rows : List α) : (inSomeOrder rows).Within World.Grown :=
  Prog.within_ask fun _ _ => .refl _

theorem grown_deleteEach (ms : List OrganizationMember) :
    (Organizations.OrganizationRepository.delete.deleteEach ms).Within World.Grown := by
  induction ms with
  | nil => trivial
  | cons m ms ih => exact Prog.Within.bind (by simp) fun _ => ih

theorem grown_authorize (permission : Permission) (caller orgId : Uuid) :
    (OrgRequest.authorize permission caller orgId).Within World.Grown := by
  simp only [OrgRequest.authorize, Organizations.getCurrentUser, Organizations.requirePermission,
    Organizations.UserRepository.get, Organizations.MembershipRepository.getForUserAndOrg]
  repeat' first
    | refine Prog.Within.bind ?_ fun _ => ?_
    | split
    | simp

theorem grown_getCurrentUser (caller : Uuid) :
    (Organizations.getCurrentUser caller).Within World.Grown := by
  refine Prog.Within.bind (by simp [Organizations.UserRepository.get]) fun user => ?_
  split
  · simp
  · split <;> simp

theorem grown_roleId (role : RoleName) :
    (Organizations.OrganizationService.roleId role).Within World.Grown := by
  refine Prog.Within.bind (by simp [Organizations.RoleRepository.getByName]) fun role => ?_
  split <;> simp

theorem grown_ofOrg {α : Type} {p : Org α} (h : p.Within World.Grown) :
    (ofOrg p).Within World.Grown := by
  induction p with
  | ret a => trivial
  | raise e => trivial
  | stmt f k ih => exact fun b => ih b (h b)
  | io f k ih =>
    refine ⟨fun env w => ?_, fun x => ih x (h.2 x)⟩
    have hw := h.1 ⟨env.time, env.text, env.number, ()⟩ { w with outside := () }
    exact ⟨hw.clock, hw.supply, hw.redis, rfl⟩
  | assign o p ih => exact ih h
  | flush p ih => exact ih h

theorem grown_embed {α : Type} {p : Org α} (h : p.Within World.Grown) : p.embed.Within World.Grown :=
  Prog.Within.embed orgPart (fun _ _ hw => ⟨hw.clock, hw.supply, hw.redis, rfl⟩) h

theorem grown_embed_platform {α : Type} {p : Platform α} (h : p.Within World.Grown) :
    p.embed.Within World.Grown :=
  Prog.Within.embed platformPart (fun _ _ hw => hw) h

theorem grown_org (cfg : Config) (r : OrgRequest) : (r.prog cfg).Within World.Grown := by
  cases r <;> simp only [OrgRequest.prog, Organizations.OrganizationService.updateOrganization,
    Organizations.OrganizationService.getOrganization,
    Organizations.OrganizationService.deleteOrganization,
    Organizations.OrganizationService.addMember, Organizations.OrganizationService.updateMemberRole,
    Organizations.OrganizationService.removeMember, Organizations.OrganizationService.getMember,
    Organizations.OrganizationService.roleId, Organizations.OrganizationService.refuseLastOwner,
    Organizations.OrganizationService.hydrate, Organizations.NotificationService.create,
    Organizations.UserRepository.getByEmail, Organizations.RoleRepository.getByName,
    Organizations.OrganizationRepository.get, Organizations.OrganizationRepository.delete,
    Organizations.MembershipRepository.get, Organizations.MembershipRepository.getForUserAndOrg,
    Organizations.MembershipRepository.countWithRole, Organizations.MembershipRepository.add,
    Organizations.MembershipRepository.delete]
  all_goals
    repeat' first
      | with_reducible exact grown_authorize _ _ _
      | with_reducible exact grown_deleteEach _
      | exact grown_uuid4
      | refine Prog.Within.bind ?_ fun _ => ?_
      | split
      | simp

theorem grown_key (cfg : Config) (r : ApiKeyRequest) : (r.prog cfg).Within World.Grown := by
  cases r <;> simp only [ApiKeyRequest.prog, ApiKeys.ApiKeyService.createKey,
    ApiKeys.ApiKeyService.getKey, ApiKeys.ApiKeyService.revokeKey, ApiKeys.ApiKeyService.rotateKey,
    ApiKeys.ApiCatalogService.getApi, ApiKeys.ApiRepository.getInOrg,
    ApiKeys.ApiKeyRepository.getInApi, ApiKeys.ApiKeyRepository.add, generateApiKey,
    ApiKeys.AuditLogService.record, Gateway.OutboxEmitter.emit]
  all_goals
    repeat' first
      | with_reducible exact grown_ofOrg (grown_authorize _ _ _)
      | exact grown_uuid4
      | exact grown_now
      | exact grown_random
      | refine Prog.Within.bind ?_ fun _ => ?_
      | split
      | simp

theorem grown_deleteQuotas (quotas : List Quota) :
    (Management.ApiCatalogService.deleteQuotas quotas).Within World.Grown := by
  induction quotas with
  | nil => trivial
  | cons q quotas ih =>
    exact Prog.Within.bind (by simp [Management.BaseRepository.write, Prog.Within.bind]) fun _ => ih

theorem grown_addQuotas (apiId : Uuid) (quotas : List (QuotaPeriod × Int)) :
    (Management.ApiCatalogService.addQuotas apiId quotas).Within World.Grown := by
  induction quotas with
  | nil => trivial
  | cons q quotas ih =>
    refine grown_uuid4.bind
      fun _ => Prog.Within.bind (Prog.Within.bind (by simp) fun _ => by simp) fun _ => ?_
    exact ih.bind fun _ => trivial

section
open Management Management.ApiCatalogService

theorem grown_getApi (organizationId apiId : Uuid) :
    (getApi organizationId apiId).Within World.Grown := by
  refine grown_embed_platform
    (Prog.Within.bind (by simp [ApiKeys.ApiRepository.getInOrg]) fun api => ?_)
  split <;> simp

theorem grown_setRateLimit (organizationId apiId : Uuid) (algorithm : RateLimitAlgorithm)
    (spec : RateLimitSpec) :
    (setRateLimit organizationId apiId algorithm spec).Within World.Grown := by
  simp only [setRateLimit, BaseRepository.write, Gateway.RateLimitRuleRepository.getForApi]
  repeat' first
    | with_reducible exact grown_getApi _ _
    | exact grown_uuid4
    | with_reducible exact grown_embed_platform (Prog.within_query _)
    | refine Prog.Within.bind ?_ fun _ => ?_
    | split
    | simp

/-- No management request turns the clock back, takes an id back or changes anything outside. -/
theorem grown_management (cfg : Config) (r : ManagementRequest) : (r.prog cfg).Within World.Grown := by
  cases r
  case organization r => exact (grown_embed (grown_org cfg r)).bind fun _ => trivial
  case key r => exact (grown_embed_platform (grown_key cfg r)).bind fun _ => trivial
  all_goals
    simp only [ManagementRequest.prog, ManagementRequest.authorize, ApiKeyService.listKeys,
      OrganizationService.createOrganization, OrganizationRepository.getBySlug,
      ApiRepository.getBySlugInOrg, ApiVersionRepository.get, BaseRepository.write, createApi,
      updateApi, deleteApi, addVersion, deleteVersion, setQuotas, getQuotas, getRateLimit,
      Gateway.ApiVersionRepository.getActive, Gateway.QuotaRepository.listForApi,
      Gateway.RateLimitRuleRepository.getForApi]
    repeat' first
      | with_reducible exact grown_getApi _ _
      | with_reducible exact grown_embed (grown_authorize _ _ _)
      | with_reducible exact grown_setRateLimit _ _ _ _
      | with_reducible exact grown_deleteQuotas _
      | with_reducible exact grown_addQuotas _ _
      | exact grown_uuid4
      | with_reducible exact grown_embed (grown_getCurrentUser _)
      | with_reducible exact grown_embed (grown_roleId _)
      | with_reducible exact
          grown_embed_platform (Prog.Within.bind (by simp) fun _ => grown_inSomeOrder _)
      | with_reducible exact grown_embed_platform (Prog.within_query _)
      | refine Prog.Within.bind ?_ fun _ => ?_
      | split
      | simp

end

end TrafficPlatform
