import TrafficPlatform.Analytics
import TrafficPlatform.Gateway
import Mathlib.Algebra.BigOperators.Group.List.Basic
import Mathlib.Algebra.Order.BigOperators.Group.List
import Mathlib.Data.Fintype.EquivFin
import Mathlib.Data.Finset.Range

/-!
# What an organization can read about the others

The eight reads that are made for an organization, in two databases that agree on its rows. Every
query carries the organization's id into its filter except `top_keys`, which ranks the keys of all
organizations (`reads_isolated_iff`).
-/

namespace TrafficPlatform
open Kit

/-- A read that is made for an organization, with its arguments. -/
inductive TenantRead
  | summary (apiId : Option Uuid) (since : Time)
  | topEndpoints (apiId : Option Uuid) (since : Time) (limit : Nat)
  | statusBreakdown (apiId : Option Uuid) (since : Time)
  | activeKeys (apiId : Option Uuid) (since : Time)
  | dailySeries (apiId : Option Uuid) (sinceDate : Day)
  | topKeys (sinceDate : Day) (limit : Nat)
  | search (f : RequestLogFilter) (limit offset : Nat)
  | listForOrg (limit offset : Nat)
deriving DecidableEq, Repr

inductive TenantAnswer
  | summary (s : Summary)
  | topEndpoints (l : List EndpointStat)
  | statusBreakdown (l : List (String × Nat))
  | activeKeys (n : Nat)
  | dailySeries (l : List TimeseriesPoint)
  | topKeys (l : List KeyStat)
  | search (page : List RequestLog × Nat)
  | listForOrg (l : List AuditLog)
deriving DecidableEq

namespace TenantRead

def answer (cases : CaseMapping) (organizationId : Uuid) : TenantRead → PlatformDb → TenantAnswer
  | summary apiId since, db => .summary (AnalyticsRepository.summary organizationId apiId since db)
  | topEndpoints apiId since limit, db =>
    .topEndpoints (AnalyticsRepository.topEndpoints organizationId apiId since limit db)
  | statusBreakdown apiId since, db =>
    .statusBreakdown (AnalyticsRepository.statusBreakdown organizationId apiId since db)
  | activeKeys apiId since, db =>
    .activeKeys (AnalyticsRepository.activeKeys organizationId apiId since db)
  | dailySeries apiId sinceDate, db =>
    .dailySeries (AnalyticsRepository.dailySeries organizationId apiId sinceDate db)
  | topKeys sinceDate limit, db =>
    .topKeys (AnalyticsRepository.topKeys organizationId sinceDate limit db)
  | search f limit offset, db =>
    .search (RequestLogRepository.search cases organizationId f limit offset db)
  | listForOrg limit offset, db =>
    .listForOrg (AuditLogRepository.listForOrg organizationId limit offset db)

/-- Not a ranking of keys. -/
def Scoped : TenantRead → Prop
  | topKeys _ limit => limit = 0
  | _ => True

end TenantRead

namespace PlatformDb

/-- The databases agree on the rows of the organization: its APIs and keys, its logs and aggregates,
and the usage of its keys. -/
structure AgreeFor (organizationId : Uuid) (a b : PlatformDb) : Prop where
  apis : Table.Agree (fun x => x) (fun x => x.organizationId = organizationId) a.apis b.apis
  apiKeys : Table.Agree (fun k => k) (fun k => k.organizationId = organizationId) a.apiKeys b.apiKeys
  requestLogs : Table.Agree (fun r => r) (fun r => r.organizationId = organizationId) a.requestLogs
    b.requestLogs
  dailyUsage : Table.Agree (fun u => u) (fun u => u.organizationId = organizationId) a.dailyUsage
    b.dailyUsage
  auditLogs : Table.Agree (fun r => r) (fun r => r.organizationId = some organizationId)
    a.auditLogs b.auditLogs
  apiKeyUsage :
    Table.Agree (fun u => u)
      (fun u => ∃ k ∈ a.apiKeys.rows, k.organizationId = organizationId ∧ k.id = u.apiKeyId)
    a.apiKeyUsage b.apiKeyUsage

/-- The `INTEGER` columns of the usage hold its counts. -/
def Storable (db : PlatformDb) : Prop :=
  ∀ u ∈ db.apiKeyUsage.rows, fitsInteger u.requestCount = true ∧ fitsInteger u.errorCount = true

end PlatformDb

/-! ### Answers that do not depend on the order of the rows -/

theorem avg_perm {xs ys : List ℚ} (h : xs.Perm ys) : avg xs = avg ys := by
  unfold avg
  have hnil : xs = [] ↔ ys = [] := by
    rw [← List.length_eq_zero_iff, h.length_eq, List.length_eq_zero_iff]
  simp only [hnil, Double.sum_perm h, h.length_eq]

theorem percentileCont_perm {xs ys : List ℚ} (q : ℚ) (h : xs.Perm ys) :
    percentileCont q xs = percentileCont q ys := by
  unfold percentileCont
  rw [orderBy_perm ((orders_byAsc fun x : ℚ => x).mono fun _ _ _ he => he) h, h.length_eq]

section
variable {cases : CaseMapping} {organizationId : Uuid} {a b : PlatformDb}

theorem PlatformDb.AgreeFor.scope_perm (h : a.AgreeFor organizationId b) (apiId : Option Uuid)
    (since : Time) :
    (a.requestLogs.select (AnalyticsRepository.scope organizationId apiId since)).Perm
      (b.requestLogs.select (AnalyticsRepository.scope organizationId apiId since)) :=
  h.requestLogs.select_perm (fun r => beq_self_eq_true r.id) fun r hr => by
    simp only [AnalyticsRepository.scope, Bool.and_eq_true, beq_iff_eq] at hr
    exact hr.1.1

theorem eq_of_id {ρ : Type} [Schema ρ] {t : Table ρ} {id : ρ → Uuid} {q : ρ → Bool}
    (hid : ∀ a b, id a = id b → Schema.clash a b = true) {a b : ρ}
    (h : a ∈ t.select q ∧ b ∈ t.select q) (he : id a = id b) : a = b :=
  Table.eq_of_clash (Table.mem_select.1 h.1).1 (Table.mem_select.1 h.2).1 (hid a b he)

theorem summary_agree (h : a.AgreeFor organizationId b) (apiId : Option Uuid) (since : Time) :
    AnalyticsRepository.summary organizationId apiId since a =
        AnalyticsRepository.summary organizationId apiId since b := by
  have hperm := h.scope_perm apiId since
  unfold AnalyticsRepository.summary
  dsimp only
  rw [hperm.length_eq, hperm.countP_eq, avg_perm (hperm.map _), percentileCont_perm _ (hperm.map _)]

theorem topEndpoints_agree (h : a.AgreeFor organizationId b) (apiId : Option Uuid) (since : Time)
    (limit : Nat) :
    AnalyticsRepository.topEndpoints organizationId apiId since limit a =
      AnalyticsRepository.topEndpoints organizationId apiId since limit b := by
  unfold AnalyticsRepository.topEndpoints
  refine congrArg (List.take limit) ?_
  refine orderBy_groupBy_perm (fun _ => rfl) (orders_byDesc _ _) (h.scope_perm apiId since)
    fun path l l' hl => ?_
  rw [hl.length_eq, avg_perm (hl.map _)]

theorem statusBreakdown_agree (h : a.AgreeFor organizationId b) (apiId : Option Uuid) (since : Time) :
    AnalyticsRepository.statusBreakdown organizationId apiId since a =
      AnalyticsRepository.statusBreakdown organizationId apiId since b := by
  unfold AnalyticsRepository.statusBreakdown
  refine orderBy_groupBy_perm (fun _ => rfl) (orders_byAsc _) (h.scope_perm apiId since)
    fun klass l l' hl => ?_
  rw [hl.length_eq]

theorem activeKeys_agree (h : a.AgreeFor organizationId b) (apiId : Option Uuid) (since : Time) :
    AnalyticsRepository.activeKeys organizationId apiId since a =
        AnalyticsRepository.activeKeys organizationId apiId since b := by
  unfold AnalyticsRepository.activeKeys
  exact ((h.scope_perm apiId since).filterMap _).dedup.length_eq

theorem dailySeries_agree (h : a.AgreeFor organizationId b) (apiId : Option Uuid) (sinceDate : Day) :
    AnalyticsRepository.dailySeries organizationId apiId sinceDate a =
      AnalyticsRepository.dailySeries organizationId apiId sinceDate b := by
  have hperm :=
    h.dailyUsage.select_perm
      (q := fun u => u.organizationId == organizationId && decide (sinceDate ≤ u.usageDate) &&
    apiId.all (u.apiId == ·)) (fun u => DailyUsage.clash_iff.2 (.inl rfl)) fun u hu => by
      simp only [Bool.and_eq_true, beq_iff_eq] at hu
      exact hu.1.1
  unfold AnalyticsRepository.dailySeries
  refine orderBy_groupBy_perm (fun _ => rfl) (orders_byAsc _) hperm fun date l l' hl => ?_
  rw [(hl.map _).sum_eq, (hl.map _).sum_eq, Double.sum_perm (hl.map _)]

theorem search_agree (h : a.AgreeFor organizationId b) (f : RequestLogFilter) (limit offset : Nat) :
    RequestLogRepository.search cases organizationId f limit offset a =
      RequestLogRepository.search cases organizationId f limit offset b := by
  have hperm := h.requestLogs.select_perm (q := f.conditions cases organizationId)
      (fun r => beq_self_eq_true r.id) fun r hr => by
    simp only [RequestLogFilter.conditions, Bool.and_eq_true, beq_iff_eq] at hr
    exact hr.1.1.1.1.1.1.1
  have horders := (orders_byDesc (fun r : RequestLog => r.createdAt) fun r => r.id).mono fun _ _ =>
    eq_of_id (t := a.requestLogs) (q := f.conditions cases organizationId)
      fun r r' he => beq_iff_eq.2 he
  unfold RequestLogRepository.search
  dsimp only
  rw [orderBy_perm horders hperm, hperm.length_eq]

theorem listForOrg_agree (h : a.AgreeFor organizationId b) (limit offset : Nat) :
    AuditLogRepository.listForOrg organizationId limit offset a =
        AuditLogRepository.listForOrg organizationId limit offset b := by
  have hperm := h.auditLogs.select_perm (q := fun r => r.organizationId == some organizationId)
    (fun r => beq_self_eq_true r.id)
    fun r hr => beq_iff_eq.1 hr
  have horders := (orders_byDesc (fun r : AuditLog => r.createdAt) fun r => r.id).mono fun _ _ =>
    eq_of_id (t := a.auditLogs) (q := fun r => r.organizationId == some organizationId)
      fun r r' he => beq_iff_eq.2 he
  unfold AuditLogRepository.listForOrg
  dsimp only
  rw [orderBy_perm horders hperm]

end

/-! ### A busier organization -/

/-- The usage of a key on the `n`-th day, as large as the columns allow. -/
def rivalRow (id apiKeyId apiId : Uuid) (sinceDate : Day) (n : Nat) : ApiKeyUsage :=
  ⟨id + n, apiKeyId, apiId, sinceDate + n, 2 ^ 31 - 1, 0⟩

theorem exists_above (l : List Nat) : ∃ n, ∀ m ∈ l, m < n := by
  obtain ⟨n, hn⟩ := l.toFinset.exists_nat_subset_range
  exact ⟨n, fun m hm => Finset.mem_range.1 (hn (List.mem_toFinset.2 hm))⟩

/-- The database with another organization that has a key with `n` days of usage. -/
theorem exists_rival {a : PlatformDb} (ha : a.Storable) (organizationId : Uuid) (sinceDate : Day)
    (n : Nat) :
    ∃ (b : PlatformDb) (id apiKeyId apiId : Uuid), b.Storable ∧ a.AgreeFor organizationId b ∧
      (∀ u ∈ a.apiKeyUsage.rows, u.apiKeyId ≠ apiKeyId) ∧
      b.apiKeyUsage.rows = a.apiKeyUsage.rows ++
          (List.range n).map (rivalRow id apiKeyId apiId sinceDate) := by
  obtain ⟨org, horg⟩ := exists_above (organizationId :: a.apis.rows.map (·.organizationId))
  obtain ⟨apiId, hapi⟩ := exists_above (a.apis.rows.map (·.id))
  obtain ⟨keyId, hkey⟩ := exists_above (a.apiKeys.rows.map (·.id))
  obtain ⟨hash, hhash⟩ := Infinite.exists_notMem_finset (a.apiKeys.rows.map (·.keyHash)).toFinset
  obtain ⟨id, hid⟩ := exists_above (a.apiKeyUsage.rows.map (·.id))
  have horgs : ∀ x ∈ a.apis.rows, x.organizationId ≠ org := fun x hx =>
    Nat.ne_of_lt (horg _ (List.mem_cons_of_mem _ (List.mem_map_of_mem hx)))
  have hother : org ≠ organizationId :=
    fun he => Nat.lt_irrefl _ (he ▸ horg organizationId List.mem_cons_self)
  have hkeys : ∀ k ∈ a.apiKeys.rows, k.id ≠ keyId :=
    fun k hk => Nat.ne_of_lt (hkey _ (List.mem_map_of_mem hk))
  have husage : ∀ u ∈ a.apiKeyUsage.rows, u.apiKeyId ≠ keyId := fun u hu he => by
    obtain ⟨k, hk, hku⟩ := a.usageRefers u hu
    exact hkeys k hk (hku.trans he)
  let api : Api := ⟨apiId, org, "", "", "", true⟩
  let key : ApiKey := ⟨keyId, apiId, org, "", "", "", hash, none, none, none, none⟩
  let rows := (List.range n).map (rivalRow id keyId apiId sinceDate)
  have hapis : a.apis.admits api = true := Table.admits_iff.2 fun x hx hc => by
    rcases Api.clash_iff.1 hc with hc | hc
    · exact absurd hc (Nat.ne_of_lt (hapi _ (List.mem_map_of_mem hx)))
    · exact horgs x hx hc.1
  have happly : a.apiKeys.admits key = true := Table.admits_iff.2 fun k hk hc => by
    rcases ApiKey.clash_iff.1 hc with hc | hc
    · exact hkeys k hk hc
    · exact hhash (List.mem_toFinset.2 (List.mem_map.2 ⟨k, hk, hc⟩))
  have hdistinct : (a.apiKeyUsage.rows ++ rows).Pairwise fun u u' => ¬ Schema.clash u u' = true := by
    refine List.pairwise_append.2 ⟨a.apiKeyUsage.distinct, ?_, fun u hu u' hu' hc => ?_⟩
    · refine List.pairwise_map.2 (List.nodup_range.imp fun {i j} hne hc => hne ?_)
      rcases ApiKeyUsage.clash_iff.1 hc with hc | hc
      · exact Nat.add_left_cancel hc
      · exact Nat.add_left_cancel hc.2
    · obtain ⟨i, -, rfl⟩ := List.mem_map.1 hu'
      rcases ApiKeyUsage.clash_iff.1 hc with hc | hc
      · exact absurd hc
          (Nat.ne_of_lt ((hid _ (List.mem_map_of_mem hu)).trans_le (Nat.le_add_right id i)))
      · exact husage u hu hc.1
  let b : PlatformDb := { a with
    apis := a.apis.insert api
    apiKeys := a.apiKeys.insert key
    apiKeyUsage := ⟨a.apiKeyUsage.rows ++ rows, hdistinct⟩
    keyRefers := fun k hk => by
      rcases Table.mem_or_eq_of_mem_insert hk with hk | rfl
      · obtain ⟨x, hx, he⟩ := a.keyRefers k hk
        exact ⟨x, Table.mem_insert_of_mem hx, he⟩
      · exact ⟨api, (Table.mem_insert hapis).2 (.inr rfl), rfl⟩
    usageRefers := fun u hu => by
      rcases List.mem_append.1 hu with hu | hu
      · obtain ⟨k, hk, he⟩ := a.usageRefers u hu
        exact ⟨k, Table.mem_insert_of_mem hk, he⟩
      · obtain ⟨i, -, rfl⟩ := List.mem_map.1 hu
        exact ⟨key, (Table.mem_insert happly).2 (.inr rfl), rfl⟩ }
  refine ⟨b, id, keyId, apiId, fun u hu => ?_, ?_, husage, rfl⟩
  · rcases List.mem_append.1 hu with hu | hu
    · exact ha u hu
    · obtain ⟨i, -, rfl⟩ := List.mem_map.1 hu
      exact ⟨(by decide : fitsInteger (2 ^ 31 - 1) = true), (by decide : fitsInteger 0 = true)⟩
  · refine ⟨Table.Agree.insert_other hother, Table.Agree.insert_other hother, .refl _ _ _,
      .refl _ _ _, .refl _ _ _, ?_⟩
    rintro u ⟨k, hk, -, hku⟩
    refine exists_congr
      fun u' => and_congr_left fun he => ⟨fun hu => List.mem_append_left _ hu, fun hu => ?_⟩
    refine (List.mem_append.1 hu).resolve_right fun hu => ?_
    obtain ⟨i, -, rfl⟩ := List.mem_map.1 hu
    exact hkeys k hk (hku.trans (congrArg ApiKeyUsage.apiKeyId he).symm)

/-- The statistics that `top_keys` ranks. -/
def keyStats (sinceDate : Day) (db : PlatformDb) : List KeyStat :=
  (groupBy (·.apiKeyId) (db.apiKeyUsage.select fun u => decide (sinceDate ≤ u.usageDate))).map fun g =>
    ⟨g.1, (g.2.map (·.requestCount)).sum, (g.2.map (·.errorCount)).sum⟩

theorem topKeys_eq (organizationId : Uuid) (sinceDate : Day) (limit : Nat) (db : PlatformDb) :
    AnalyticsRepository.topKeys organizationId sinceDate limit db =
      (orderBy (byDesc (·.requestCount) (·.apiKeyId)) (keyStats sinceDate db)).take limit := rfl

theorem mem_keyStats {sinceDate : Day} {db : PlatformDb} {s : KeyStat} (h : s ∈ keyStats sinceDate db) :
    (∃ u ∈ db.apiKeyUsage.rows, u.apiKeyId = s.apiKeyId) ∧ s.requestCount =
      (((db.apiKeyUsage.rows.filter fun u => decide (sinceDate ≤ u.usageDate)).filter fun u =>
        decide (u.apiKeyId = s.apiKeyId)).map (·.requestCount)).sum := by
  obtain ⟨g, hg, rfl⟩ := List.mem_map.1 h
  obtain ⟨⟨u, hu, hk⟩, hrows⟩ := mem_groupBy.1 hg
  refine ⟨⟨u, (Table.mem_select.1 hu).1, hk⟩, ?_⟩
  dsimp only
  rw [hrows]
  rfl

theorem exists_keyStats {sinceDate : Day} {db : PlatformDb} {u : ApiKeyUsage}
    (hu : u ∈ db.apiKeyUsage.rows)
    (hdate : sinceDate ≤ u.usageDate) : ∃ s ∈ keyStats sinceDate db, s.apiKeyId = u.apiKeyId := by
  have hkey : u.apiKeyId ∈
      (groupBy (·.apiKeyId) (db.apiKeyUsage.select fun u => decide (sinceDate ≤ u.usageDate))).map
          (·.1) := by
    rw [keys_groupBy, List.mem_dedup]
    exact List.mem_map_of_mem (Table.mem_select.2 ⟨hu, decide_eq_true hdate⟩)
  obtain ⟨g, hg, he⟩ := List.mem_map.1 hkey
  exact ⟨_, List.mem_map_of_mem hg, he⟩

theorem keyStats_unique {sinceDate : Day} {db : PlatformDb} {s t : KeyStat}
    (hs : s ∈ keyStats sinceDate db) (ht : t ∈ keyStats sinceDate db)
    (he : s.apiKeyId = t.apiKeyId) : s = t := by
  obtain ⟨g, hg, rfl⟩ := List.mem_map.1 hs
  obtain ⟨g', hg', rfl⟩ := List.mem_map.1 ht
  rw [List.inj_on_of_nodup_map nodup_keys_groupBy hg hg' he]

section
variable {a b : PlatformDb} {id apiKeyId apiId : Uuid} {sinceDate : Day} {n : Nat}

/-- The usage of the rival. -/
theorem sum_rival (hnew : ∀ u ∈ a.apiKeyUsage.rows, u.apiKeyId ≠ apiKeyId)
    (hb : b.apiKeyUsage.rows = a.apiKeyUsage.rows ++
      (List.range n).map (rivalRow id apiKeyId apiId sinceDate)) :
    (((b.apiKeyUsage.rows.filter fun u => decide (sinceDate ≤ u.usageDate)).filter fun u =>
      decide (u.apiKeyId = apiKeyId)).map (·.requestCount)).sum = n * (2 ^ 31 - 1) := by
  have hfilter : ((b.apiKeyUsage.rows.filter fun u => decide (sinceDate ≤ u.usageDate)).filter fun u =>
      decide (u.apiKeyId = apiKeyId)) = (List.range n).map (rivalRow id apiKeyId apiId sinceDate) := by
    rw [List.filter_filter, hb, List.filter_append]
    have hnone : a.apiKeyUsage.rows.filter
        (fun u => decide (u.apiKeyId = apiKeyId) && decide (sinceDate ≤ u.usageDate)) = [] :=
      List.filter_eq_nil_iff.2
        fun u hu he => hnew u hu (of_decide_eq_true (Bool.and_eq_true_iff.1 he).1)
    rw [hnone, List.nil_append, List.filter_eq_self]
    intro u hu
    obtain ⟨i, -, rfl⟩ := List.mem_map.1 hu
    simp [rivalRow]
  rw [hfilter, List.map_map]
  show ((List.range n).map fun _ => 2 ^ 31 - 1).sum = _
  rw [List.map_const', List.length_range, List.sum_replicate]
  rfl

/-- The usage of any other key. -/
theorem sum_other (ha : a.Storable) {k : Uuid} (hk : k ≠ apiKeyId)
    (hb : b.apiKeyUsage.rows = a.apiKeyUsage.rows ++
      (List.range n).map (rivalRow id apiKeyId apiId sinceDate)) :
    (((b.apiKeyUsage.rows.filter fun u => decide (sinceDate ≤ u.usageDate)).filter fun u =>
      decide (u.apiKeyId = k)).map (·.requestCount)).sum ≤ a.apiKeyUsage.rows.length *
          (2 ^ 31 - 1) := by
  generalize hl :
    ((b.apiKeyUsage.rows.filter fun u => decide (sinceDate ≤ u.usageDate)).filter
      fun u => decide (u.apiKeyId = k)) = l
  have hsub : l.Sublist a.apiKeyUsage.rows := by
    rw [← hl, hb, List.filter_append, List.filter_append]
    have hnone : (((List.range n).map (rivalRow id apiKeyId apiId sinceDate)).filter fun u =>
        decide (sinceDate ≤ u.usageDate)).filter (fun u => decide (u.apiKeyId = k)) = [] := by
      refine List.filter_eq_nil_iff.2 fun u hu he => hk ?_
      obtain ⟨i, -, rfl⟩ := List.mem_map.1 (List.mem_filter.1 hu).1
      exact (of_decide_eq_true he).symm
    rw [hnone, List.append_nil]
    exact List.filter_sublist.trans List.filter_sublist
  have hbound : ∀ x ∈ l.map (·.requestCount), x ≤ 2 ^ 31 - 1 := by
    intro x hx
    obtain ⟨u, hu, rfl⟩ := List.mem_map.1 hx
    exact Nat.le_pred_of_lt (of_decide_eq_true (ha u (hsub.subset hu)).1)
  have hcard := List.sum_le_card_nsmul _ _ hbound
  rw [List.length_map] at hcard
  exact hcard.trans (Nat.mul_le_mul_right _ hsub.length_le)

/-- A key with more days of full usage than there are other usage rows leads the ranking. -/
theorem rival_leads {limit : Nat} (ha : a.Storable)
    (hnew : ∀ u ∈ a.apiKeyUsage.rows, u.apiKeyId ≠ apiKeyId)
    (hb : b.apiKeyUsage.rows = a.apiKeyUsage.rows ++
      (List.range (a.apiKeyUsage.rows.length + 1)).map (rivalRow id apiKeyId apiId sinceDate))
        (hlimit : 0 < limit) :
    ∃ s ∈ (orderBy (byDesc (·.requestCount) (·.apiKeyId)) (keyStats sinceDate b)).take limit,
        s.apiKeyId = apiKeyId := by
  have hrow : rivalRow id apiKeyId apiId sinceDate 0 ∈ b.apiKeyUsage.rows :=
    hb ▸ List.mem_append_right _ (List.mem_map_of_mem (List.mem_range.2 (Nat.succ_pos _)))
  obtain ⟨s, hs, hkey⟩ := exists_keyStats hrow (le_refl sinceDate)
  have hkey : s.apiKeyId = apiKeyId := hkey
  have hstat : s.requestCount = (a.apiKeyUsage.rows.length + 1) * (2 ^ 31 - 1) := by
    rw [(mem_keyStats hs).2, hkey, sum_rival hnew hb]
  refine ⟨s, mem_take_orderBy (orders_byDesc _ _) hs (fun t ht hne hle => ?_) hlimit, hkey⟩
  have hother : t.requestCount ≤ a.apiKeyUsage.rows.length * (2 ^ 31 - 1) := by
    rw [(mem_keyStats ht).2]
    exact sum_other ha (fun he => hne (keyStats_unique ht hs (he.trans hkey.symm))) hb
  rcases byDesc_iff.1 hle with hgt | ⟨heq, -⟩
  · omega
  · omega

end

/-- For every organization and database, a read gives the same answer in every database that agrees
on the rows of the organization exactly if it is no ranking of keys. -/
theorem reads_isolated_iff (cases : CaseMapping) (organizationId : Uuid) (call : TenantRead)
    (a : PlatformDb) (ha : a.Storable) :
    (∀ b : PlatformDb, b.Storable → a.AgreeFor organizationId b →
      call.answer cases organizationId a = call.answer cases organizationId b) ↔ call.Scoped := by
  cases call with
  | summary apiId since =>
    exact iff_of_true
      (fun b _ h => congrArg TenantAnswer.summary (summary_agree h apiId since)) trivial
  | topEndpoints apiId since limit =>
    exact iff_of_true
      (fun b _ h => congrArg TenantAnswer.topEndpoints (topEndpoints_agree h apiId since limit))
        trivial
  | statusBreakdown apiId since =>
    exact iff_of_true
      (fun b _ h => congrArg TenantAnswer.statusBreakdown (statusBreakdown_agree h apiId since))
        trivial
  | activeKeys apiId since =>
    exact iff_of_true
      (fun b _ h => congrArg TenantAnswer.activeKeys (activeKeys_agree h apiId since)) trivial
  | dailySeries apiId sinceDate =>
    exact iff_of_true
      (fun b _ h => congrArg TenantAnswer.dailySeries (dailySeries_agree h apiId sinceDate)) trivial
  | search f limit offset =>
    exact iff_of_true
      (fun b _ h => congrArg TenantAnswer.search (search_agree h f limit offset)) trivial
  | listForOrg limit offset =>
    exact iff_of_true
      (fun b _ h => congrArg TenantAnswer.listForOrg (listForOrg_agree h limit offset)) trivial
  | topKeys sinceDate limit =>
    constructor
    · intro h
      by_contra hlimit
      obtain ⟨b, id, apiKeyId, apiId, hb, hagree, hnew, hrows⟩ :=
        exists_rival ha organizationId sinceDate (a.apiKeyUsage.rows.length + 1)
      obtain ⟨s, hs, hkey⟩ := rival_leads ha hnew hrows (Nat.pos_of_ne_zero hlimit)
      have hsame := TenantAnswer.topKeys.inj (h b hb hagree)
      rw [topKeys_eq, topKeys_eq] at hsame
      rw [← hsame] at hs
      obtain ⟨u, hu, hk⟩ := (mem_keyStats (List.mem_mergeSort.1 (List.mem_of_mem_take hs))).1
      exact hnew u hu (hk.trans hkey)
    · rintro hlimit b - -
      have hlimit : limit = 0 := hlimit
      refine congrArg TenantAnswer.topKeys ?_
      rw [topKeys_eq, topKeys_eq, hlimit, List.take_zero, List.take_zero]

theorem sampleDailyDb_storable : sampleDailyDb.Storable := fun _ hu => absurd hu List.not_mem_nil

/-- Another organization has an API with a key that was used seven times. -/
def busierDb : PlatformDb where
  __ := sampleDailyDb
  orgs := { sampleDailyDb.orgs with
    organizations := sampleDailyDb.orgs.organizations.insert ⟨6, "Press", "press"⟩
    refers := by decide }
  apis := sampleDailyDb.apis.insert ⟨51, 6, "News", "news", "", true⟩
  apiKeys := sampleDailyDb.apiKeys.insert
    ⟨53, 51, 6, "key", "atp_11111111", "1111", "#other", none, none, none, none⟩
  apiKeyUsage := sampleDailyDb.apiKeyUsage.insert ⟨54, 53, 51, 739646, 7, 0⟩
  keyRefers := by decide
  usageRefers := by decide

theorem busierDb_storable : busierDb.Storable := by
  unfold PlatformDb.Storable
  decide

/-- Next to that key, the ranking of an organization depends on the others, and its summary does not. -/
theorem reads_isolated_iff_busier :
    (¬ ∀ b : PlatformDb, b.Storable → busierDb.AgreeFor 5 b →
      (TenantRead.topKeys 0 10).answer ⟨id, id⟩ 5 busierDb =
        (TenantRead.topKeys 0 10).answer ⟨id, id⟩ 5 b) ∧
    ∀ b : PlatformDb, b.Storable → busierDb.AgreeFor 5 b →
      (TenantRead.summary none 0).answer ⟨id, id⟩ 5 busierDb =
        (TenantRead.summary none 0).answer ⟨id, id⟩ 5 b :=
  ⟨fun h =>
      absurd ((reads_isolated_iff ⟨id, id⟩ 5 (.topKeys 0 10) busierDb busierDb_storable).1 h)
        (show ¬ (10 : Nat) = 0 by decide),
    (reads_isolated_iff ⟨id, id⟩ 5 (.summary none 0) busierDb busierDb_storable).2 trivial⟩

/-- The ranking for organization 5 shows the key of organization 6. -/
theorem topKeys_leaks : ¬ ∀ (cases : CaseMapping) (organizationId : Uuid) (call : TenantRead)
    (a b : PlatformDb),
    a.Storable → b.Storable → a.AgreeFor organizationId b →
      call.answer cases organizationId a = call.answer cases organizationId b := by
  intro h
  have hagree : sampleDailyDb.AgreeFor 5 busierDb :=
    ⟨Table.Agree.insert_other (by decide), Table.Agree.insert_other (by decide), .refl _ _ _,
      .refl _ _ _, .refl _ _ _,
      Table.Agree.insert_other (by decide)⟩
  have hsame :=
    h ⟨id, id⟩ 5 (.topKeys 0 10) sampleDailyDb busierDb sampleDailyDb_storable
      busierDb_storable hagree
  revert hsame
  decide +kernel

end TrafficPlatform
