import TrafficPlatform.DualWrite
import TrafficPlatform.Kit.Progress

/-!
# No deadlocks

A gateway request takes the usage row of its key first and its log and its event later; a rotation
takes the new key, the old key, and then its audit log and the event. Nobody takes them the other
way round, so requests in flight never block each other for good (`requests_deadlock_free`). A
rotation takes two rows of one table; the row that is new to the table is one for which nobody can
wait.
-/

namespace TrafficPlatform
open Kit Gateway ApiKeys

/-- The order in which the requests take their rows. -/
def PlatformOp.rank : PlatformOp → Nat
  | addApiKey _ => 0
  | changeApiKey _ _ => 1
  | incrementUsage _ => 0
  | addRequestLog _ => 1
  | addAuditLog _ => 2
  | addOutbox _ => 3
  | setOutbox _ _ _ => 0
  | deleteDailyUsage _ => 0
  | addDailyUsage _ => 0

/-! ### The requests climb -/

section
variable {α β : Type} {d w : List PlatformOp}

theorem proxy_climbs {cfg : GatewayConfig} {request : HttpRequest} {k : HttpResponse → Platform β}
    (h : ∀ response i r o, (k response).Climbs PlatformOp.rank [.addRequestLog r, .addOutbox o]
      [.incrementUsage i]) :
    (proxy cfg request >>= k).Climbs PlatformOp.rank [] [] := by
  unfold proxy
  simp only [Prog.bind_assoc']
  refine Prog.Climbs.ask fun createdAt => Prog.Climbs.reads (reads_handle _ _ _) fun outcome => ?_
  rw [record_eq]
  simp only [Prog.bind_assoc']
  refine Prog.Climbs.ask
    fun id => Prog.Climbs.set <| Prog.Climbs.ask fun usageId => Prog.Climbs.execute (by simp) ?_
  refine Prog.Climbs.ask fun eventId => Prog.Climbs.ask fun outboxId => Prog.Climbs.set ?_
  cases response outcome with
  | some resp => exact h resp _ _ _
  | none => trivial

theorem getApi_climbs {organizationId apiId : Uuid} {k : Api → Platform β}
    (h : ∀ api, (k api).Climbs PlatformOp.rank d w) :
    (ApiCatalogService.getApi organizationId apiId >>= k).Climbs PlatformOp.rank d w := by
  unfold ApiCatalogService.getApi ApiRepository.getInOrg
  simp only [Prog.bind_assoc']
  refine Prog.Climbs.query fun api => ?_
  cases api with
  | none => trivial
  | some api => exact h api

theorem getKey_climbs {organizationId apiId keyId : Uuid} {k : ApiKey → Platform β}
    (h : ∀ key, (k key).Climbs PlatformOp.rank d w) :
        (ApiKeyService.getKey organizationId apiId keyId >>= k).Climbs PlatformOp.rank d w := by
  unfold ApiKeyService.getKey ApiKeyRepository.getInApi
  simp only [Prog.bind_assoc']
  refine getApi_climbs fun api => Prog.Climbs.query fun key => ?_
  cases key with
  | none => trivial
  | some key => exact h key

theorem createKey_climbs {cfg : Config} {organizationId apiId : Uuid} {name : String}
    {expiresInDays : Option Nat} {createdByUserId : Option Uuid} {k : ApiKey × String → Platform β}
    (h : ∀ issued, (k issued).Climbs PlatformOp.rank [] [.addApiKey issued.1]) :
    (ApiKeyService.createKey cfg organizationId apiId name expiresInDays createdByUserId >>=
        k).Climbs PlatformOp.rank [] [] := by
  have hadd : ∀ (expiresAt : Option Time) (generated : GeneratedApiKey), (uuid4 >>= fun id =>
      let record : ApiKey :=
        ⟨id, apiId, organizationId, name, generated.keyPrefix, generated.lastFour,
          generated.keyHash,
        createdByUserId, expiresAt, none, none⟩
      ApiKeyRepository.add record >>=
          fun _ => k (record, generated.fullKey)).Climbs PlatformOp.rank [] [] := by
    intro expiresAt generated
    refine Prog.Climbs.ask fun id => ?_
    unfold ApiKeyRepository.add
    simp only [Prog.bind_assoc']
    exact Prog.Climbs.set (Prog.Climbs.flushSession above_nil_left (by simp) (h _))
  unfold ApiKeyService.createKey generateApiKey
  simp only [Prog.bind_assoc']
  refine getApi_climbs fun api => Prog.Climbs.ask fun publicId => Prog.Climbs.ask fun secret => ?_
  cases expiresInDays with
  | none =>
    simp only [Prog.pure_eq, Prog.ret_bind, Prog.bind_assoc']
    exact hadd none ⟨_, _, _, _⟩
  | some days =>
    simp only [Prog.pure_eq, Prog.ret_bind, Prog.bind_assoc']
    exact Prog.Climbs.ask fun time => hadd (some (time + days * dayLength)) ⟨_, _, _, _⟩

theorem auditRecord_climbs {createdAt : Time} {action resourceType : String}
    {organizationId actorUserId resourceId : Option Uuid} {ip : Option String}
    {metadata : List (String × Uuid)} {answer : ApiKeyAnswer} {f : ApiKeyAnswer → PlatformAnswer}
    (hw : ∀ o ∈ w, o.rank < 2) :
    (AuditLogService.record createdAt action resourceType organizationId actorUserId resourceId ip
        metadata >>= fun _ =>
      (Prog.ret (f answer) : Platform PlatformAnswer) >>=
          fun a => Prog.flush (Prog.ret a)).Climbs PlatformOp.rank [] w := by
  unfold AuditLogService.record Gateway.OutboxEmitter.emit
  simp only [Prog.bind_assoc']
  refine Prog.Climbs.ask
    fun id => Prog.Climbs.set <| Prog.Climbs.ask fun time => Prog.Climbs.ask fun eventId => ?_
  refine Prog.Climbs.ask fun outboxId => Prog.Climbs.set ⟨?_, ?_, trivial⟩
  · refine above_cons.2 ⟨hw, above_cons.2 ⟨fun o ho => ?_, above_nil_right⟩⟩
    have := hw o ho
    show o.rank < 3
    omega
  · simp [PlatformOp.rank]

theorem apiKey_climbs (cfg : Config) (request : ApiKeyRequest) :
    (request.prog cfg >>=
      fun answer => (Prog.ret (PlatformAnswer.apiKey answer) : Platform PlatformAnswer) >>=
      fun a => Prog.flush (Prog.ret a)).Climbs PlatformOp.rank [] [] := by
  have hauthorize :=
    fun permission caller orgId => reads_ofOrg (reads_authorize permission caller orgId)
  cases request with
  | createKey caller orgId apiId ip name expiresInDays =>
    simp only [ApiKeyRequest.prog, Prog.bind_assoc']
    refine Prog.Climbs.ask
      fun createdAt => Prog.Climbs.reads (hauthorize _ _ _)
        fun _ => createKey_climbs fun issued => ?_
    exact auditRecord_climbs (by simp [PlatformOp.rank])
  | rotateKey caller orgId apiId keyId ip gracePeriodHours =>
    simp only [ApiKeyRequest.prog, ApiKeyService.rotateKey, Prog.bind_assoc']
    refine Prog.Climbs.ask
      fun createdAt => Prog.Climbs.reads (hauthorize _ _ _) fun _ => getKey_climbs fun old => ?_
    split
    · trivial
    · simp only [Prog.bind_assoc']
      refine createKey_climbs fun issued => Prog.Climbs.ask fun time => Prog.Climbs.set ?_
      refine Prog.Climbs.flushSession ?_ (by simp) ?_
      · simp [Above, PlatformOp.rank]
      · exact auditRecord_climbs (by simp [PlatformOp.rank])
  | revokeKey caller orgId apiId keyId ip =>
    simp only [ApiKeyRequest.prog, ApiKeyService.revokeKey, Prog.bind_assoc']
    refine Prog.Climbs.ask
      fun createdAt => Prog.Climbs.reads (hauthorize _ _ _) fun _ => getKey_climbs fun key => ?_
    split
    · simp only [Prog.bind_assoc']
      refine Prog.Climbs.ask
        fun time => Prog.Climbs.set (Prog.Climbs.flushSession above_nil_left (by simp) ?_)
      exact auditRecord_climbs (by simp [PlatformOp.rank])
    · exact Prog.Climbs.flushSession above_nil_left (by simp) (auditRecord_climbs (by simp))

end

/-! ### The keys that a request can wait for -/

section
variable {db : PlatformDb} {w : List PlatformOp} {id : Uuid}

theorem hasApiKey_apply {o : PlatformOp} (ho : o.OfRequest) (h : (o.apply db).hasApiKey id = true) :
    db.hasApiKey id = true ∨ ∃ k, o = .addApiKey k ∧ k.id = id := by
  cases o with
  | addApiKey k =>
    simp only [PlatformOp.apply, PlatformDb.addApiKey] at h
    split at h
    · obtain ⟨k', hk', hid⟩ := PlatformDb.hasApiKey_iff.1 h
      rcases Table.mem_or_eq_of_mem_insert hk' with hk' | rfl
      · exact .inl (PlatformDb.hasApiKey_iff.2 ⟨k', hk', hid⟩)
      · exact .inr ⟨_, rfl, hid⟩
    · exact .inl h
  | changeApiKey id' c => exact .inl (PlatformDb.hasApiKey_changeApiKey ▸ h)
  | incrementUsage i => exact .inl (PlatformDb.hasApiKey_incrementUsage ▸ h)
  | setOutbox _ _ _ => exact ho.elim
  | deleteDailyUsage _ => exact ho.elim
  | addDailyUsage _ => exact ho.elim
  | _ => exact .inl h

theorem hasApiKey_apply_of {o : PlatformOp} (ho : o.OfRequest) (h : db.hasApiKey id = true) :
    (o.apply db).hasApiKey id = true := by
  cases o with
  | addApiKey k => exact PlatformDb.hasApiKey_addApiKey h
  | changeApiKey id' c => exact PlatformDb.hasApiKey_changeApiKey.trans h
  | incrementUsage i => exact PlatformDb.hasApiKey_incrementUsage.trans h
  | setOutbox _ _ _ => exact ho.elim
  | deleteDailyUsage _ => exact ho.elim
  | addDailyUsage _ => exact ho.elim
  | _ => exact h

theorem hasApiKey_applyAll (hw : ∀ o ∈ w, o.OfRequest)
    (h : PlatformDb.hasApiKey (applyAll platformTables.backend w db) id = true) :
    db.hasApiKey id = true ∨ ∃ k, .addApiKey k ∈ w ∧ k.id = id := by
  induction w generalizing db with
  | nil => exact .inl h
  | cons o w ih =>
    obtain ⟨ho, hw⟩ := List.forall_mem_cons.1 hw
    rcases ih hw h with h | ⟨k, hk, hid⟩
    · rcases hasApiKey_apply ho h with h | ⟨k, rfl, hid⟩
      · exact .inl h
      · exact .inr ⟨k, List.mem_cons_self, hid⟩
    · exact .inr ⟨k, List.mem_cons_of_mem _ hk, hid⟩

theorem not_hasApiKey_of_accepted {k : ApiKey}
    (h : Accepted platformTables.backend PlatformOp.OfRequest w db) (hk : .addApiKey k ∈ w) :
    ¬ db.hasApiKey k.id = true := by
  induction w generalizing db with
  | nil => cases hk
  | cons o w ih =>
    obtain ⟨ho, hc, h⟩ := h
    intro hthere
    rcases List.mem_cons.1 hk with rfl | hk
    · obtain ⟨k', hk', hid⟩ := PlatformDb.hasApiKey_iff.1 hthere
      have hadmits := (insertCheck_eq_ok.1 hc).2
      simp only [Bool.and_eq_true] at hadmits
      exact Table.admits_iff.1 hadmits.2 k' hk' (ApiKey.clash_iff.2 (.inl hid))
    · exact ih h hk (hasApiKey_apply_of ho hthere)

end

theorem platformOrderly (cfg : GatewayConfig) :
    Orderly (PlatformRequest.prog cfg) PlatformOp.OfRequest PlatformOp.rank where
  climbs r := by
    cases r with
    | gateway request =>
      simp only [Prog.commit, PlatformRequest.prog, Prog.bind_assoc']
      refine proxy_climbs fun response i r o => ⟨?_, ?_, trivial⟩
      · simp [Above, PlatformOp.rank]
      · simp [PlatformOp.rank]
    | apiKey request =>
      simp only [Prog.commit, PlatformRequest.prog, Prog.bind_assoc']
      exact apiKey_climbs cfg.toConfig request
  meets w o w' db haccepted haccepted' hapart o' ho' key hkey hkey' := by
    obtain ⟨hw, hlast⟩ := accepted_append.1 haccepted
    obtain ⟨hP, hcheck⟩ := accepted_singleton.1 hlast
    have hP' := haccepted'.of_mem o' ho'
    cases o with
    | changeApiKey id c =>
      obtain rfl : key = .apiKeyRow id := List.mem_singleton.1 hkey
      cases o' with
      | addApiKey k =>
        -- the key would have to be there, and to be new
        exfalso
        obtain rfl : id = k.id := by simpa [PlatformOp.keys] using hkey'
        have hthere : PlatformDb.hasApiKey (applyAll platformTables.backend w db) k.id = true := by
          by_contra hno
          simp [PlatformOp.check, hno] at hcheck
        rcases hasApiKey_applyAll hw.of_mem hthere with hold | ⟨k', hk', hid⟩
        · exact not_hasApiKey_of_accepted haccepted' ho' hold
        · exact hapart _ hk' _ ho' (.apiKeyRow k.id) (by simp [PlatformOp.keys, hid]) hkey'
      | changeApiKey id' c' => exact le_refl _
      | _ => simp [PlatformOp.keys] at hkey'
    | addApiKey k => exact Nat.zero_le _
    | incrementUsage i => exact Nat.zero_le _
    | addRequestLog r =>
      obtain rfl : key = .requestLogRow r.id := List.mem_singleton.1 hkey
      cases o' with
      | addRequestLog r' => exact le_refl _
      | _ => simp [PlatformOp.keys] at hkey'
    | addAuditLog r =>
      obtain rfl : key = .auditLogRow r.id := List.mem_singleton.1 hkey
      cases o' with
      | addAuditLog r' => exact le_refl _
      | _ => simp [PlatformOp.keys] at hkey'
    | addOutbox r =>
      obtain rfl : key = .outboxRow r.id := List.mem_singleton.1 hkey
      cases o' with
      | addOutbox r' => exact le_refl _
      | setOutbox id publishedAt attempts => exact hP'.elim
      | _ => simp [PlatformOp.keys] at hkey'
    | setOutbox id publishedAt attempts => exact hP.elim
    | deleteDailyUsage id => exact hP.elim
    | addDailyUsage r => exact hP.elim

/-- In no state of any run of gateway and key management requests do transactions wait for each
other in a circle, and from every state all of them can be finished. -/
theorem requests_deadlock_free (cfg : GatewayConfig) (db : PlatformDb)
    (world : World PlatformOutside) (es : List PlatformEvent) :
    Always (platformNext cfg) (fun s => s.DeadlockFree (PlatformRequest.prog cfg))
        (System.init db world) es :=
  (platformReplay cfg).deadlockFree (platformOrderly cfg) (System.init_quiet db world) es

end TrafficPlatform
