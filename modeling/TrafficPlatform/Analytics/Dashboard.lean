import TrafficPlatform.Analytics.Rollup
import TrafficPlatform.Kit.Paging

/-!
# The views of the dashboard agree

The summary, the status breakdown, the active keys and the top endpoints aggregate the request logs
of one scope. The query of the top endpoints orders its groups by their count alone: its answers are
a relation.
-/

namespace TrafficPlatform
open Kit

namespace AnalyticsRepository

variable (organizationId : Uuid) (apiId : Option Uuid) (since : Time) (limit : Nat) (db : PlatformDb)

/-- The request logs that the views are about: those of the organization, of the API if one is
given, from the start time on. -/
def scopedLogs : List RequestLog :=
  db.requestLogs.rows.filter fun r => r.organizationId = organizationId ∧
    (apiId = none ∨ apiId = some r.apiId) ∧ since ≤ r.createdAt

/-- The groups of the query of the top endpoints. -/
def endpointStats : List EndpointStat :=
  (groupBy (·.path) (scopedLogs organizationId apiId since db)).map fun g =>
    ⟨g.1, g.2.length, pyRound2 (avg (g.2.map (·.latencyMs)))⟩

/-- An answer of the query, in some order of the groups of one count. -/
def TopEndpoints (endpoints : List EndpointStat) : Prop :=
  ∃ out, Ordered (·.requestCount) (endpointStats organizationId apiId since db) out ∧
    endpoints = out.take limit

/-- The number of requests for a path. -/
def requestsFor (path : String) : Nat :=
  (scopedLogs organizationId apiId since db).countP fun r => decide (r.path = path)

/-- The different paths. -/
def paths : List String := ((scopedLogs organizationId apiId since db).map (·.path)).dedup

variable {organizationId apiId since limit db} {e : EndpointStat} {endpoints : List EndpointStat}

theorem select_scope : db.requestLogs.select (scope organizationId apiId since) =
    scopedLogs organizationId apiId since db := by
  refine List.filter_congr fun r _ => ?_
  rw [Bool.eq_iff_iff, decide_eq_true_iff]
  cases apiId with
  | none => simp [scope]
  | some a =>
    simp only [scope, Option.all_some, Bool.and_eq_true, beq_iff_eq, decide_eq_true_iff,
      reduceCtorEq, Option.some.injEq, false_or]
    constructor
    · rintro ⟨⟨ho, ht⟩, ha⟩
      exact ⟨ho, ha.symm, ht⟩
    · rintro ⟨ho, ha, ht⟩
      exact ⟨⟨ho, ht⟩, ha.symm⟩

theorem requestCount_summary : (summary organizationId apiId since db).requestCount =
    (scopedLogs organizationId apiId since db).length :=
  congrArg List.length select_scope

/-! ### Status classes -/

theorem klass_eq_5xx {r : RequestLog} : r.klass = "5xx" ↔ r.isError = true := by
  unfold RequestLog.klass RequestLog.isError
  rw [decide_eq_true_eq]
  split
  · exact iff_of_false (by decide) (by omega)
  · split
    · exact iff_of_false (by decide) (by omega)
    · split
      · exact iff_of_false (by decide) (by omega)
      · split
        · exact iff_of_false (by decide) (by omega)
        · exact iff_of_true rfl (by omega)

theorem statusBreakdown_perm : (statusBreakdown organizationId apiId since db).Perm
    ((groupBy (·.klass) (scopedLogs organizationId apiId since db)).map
        fun g => (g.1, g.2.length)) := by
  rw [← select_scope]
  exact List.mergeSort_perm _ _

theorem sum_statusBreakdown : ((statusBreakdown organizationId apiId since db).map (·.2)).sum =
    (summary organizationId apiId since db).requestCount := by
  rw [(statusBreakdown_perm.map _).sum_eq, List.map_map, requestCount_summary]
  exact sum_length_groupBy

theorem mem_statusBreakdown {entry : String × Nat}
    (h : entry ∈ statusBreakdown organizationId apiId since db) :
    entry.2 = (scopedLogs organizationId apiId since db).countP
        fun r => decide (r.klass = entry.1) := by
  obtain ⟨g, hg, rfl⟩ := List.mem_map.1 (statusBreakdown_perm.mem_iff.1 h)
  exact length_of_mem_groupBy hg

theorem exists_entry {r : RequestLog} (h : r ∈ scopedLogs organizationId apiId since db) :
    ∃ entry ∈ statusBreakdown organizationId apiId since db, entry.1 = r.klass := by
  have hgroup :
      (r.klass, (scopedLogs organizationId apiId since db).filter
        fun r' => decide (r'.klass = r.klass)) ∈
      groupBy (·.klass) (scopedLogs organizationId apiId since db) := mem_groupBy.2 ⟨⟨r, h, rfl⟩, rfl⟩
  exact ⟨_, statusBreakdown_perm.mem_iff.2 (List.mem_map_of_mem hgroup), rfl⟩

theorem errors_statusBreakdown :
    ((statusBreakdown organizationId apiId since db).find? fun entry => entry.1 == "5xx").elim 0
      (·.2) =
    (summary organizationId apiId since db).errorCount := by
  have herrors : (summary organizationId apiId since db).errorCount =
      (scopedLogs organizationId apiId since db).countP fun r => decide (r.klass = "5xx") := by
    rw [← select_scope]
    exact List.countP_congr fun r _ => by rw [decide_eq_true_eq, klass_eq_5xx]
  rw [herrors]
  cases hfound : (statusBreakdown organizationId apiId since db).find?
      fun entry => entry.1 == "5xx" with
  | none =>
    refine (List.countP_eq_zero.2 fun r hr hklass => ?_).symm
    obtain ⟨entry, hentry, he⟩ := exists_entry hr
    have hno := List.find?_eq_none.1 hfound entry hentry
    rw [he, of_decide_eq_true hklass] at hno
    exact hno rfl
  | some entry =>
    have hsome : (entry.1 == "5xx") = true :=
      List.find?_some (p := fun entry : String × Nat => entry.1 == "5xx") hfound
    have hkey : entry.1 = "5xx" := beq_iff_eq.1 hsome
    rw [Option.elim_some, mem_statusBreakdown (List.mem_of_find?_eq_some hfound), hkey]

/-! ### Active keys -/

theorem activeKeys_le : activeKeys organizationId apiId since db ≤
    (summary organizationId apiId since db).requestCount :=
  ((List.dedup_sublist _).length_le.trans (List.length_filterMap_le _ _))

/-! ### Top endpoints -/

theorem path_endpointStats : (endpointStats organizationId apiId since db).map (·.path) =
    paths organizationId apiId since db := by
  unfold endpointStats
  rw [List.map_map]
  exact keys_groupBy

theorem count_endpointStats (h : e ∈ endpointStats organizationId apiId since db) :
    e.requestCount = requestsFor organizationId apiId since db e.path := by
  obtain ⟨g, hg, rfl⟩ := List.mem_map.1 h
  exact length_of_mem_groupBy hg

theorem sum_endpointStats : ((endpointStats organizationId apiId since db).map (·.requestCount)).sum =
    (summary organizationId apiId since db).requestCount := by
  unfold endpointStats
  rw [List.map_map, requestCount_summary]
  exact sum_length_groupBy

theorem topEndpoints_answer : TopEndpoints organizationId apiId since limit db
    (topEndpoints organizationId apiId since limit db) := by
  have hle := orders_byDesc (fun e : EndpointStat => e.requestCount) (·.path)
  unfold topEndpoints
  rw [select_scope]
  refine ⟨orderBy (byDesc (·.requestCount) (·.path)) (endpointStats organizationId apiId since db),
    ⟨List.mergeSort_perm _ _, (List.pairwise_mergeSort hle.trans hle.total _).imp
      fun {a b} hab => ?_⟩, rfl⟩
  rcases byDesc_iff.1 hab with hlt | ⟨heq, -⟩
  · exact hlt.le
  · exact heq.le

namespace TopEndpoints

variable (h : TopEndpoints organizationId apiId since limit db endpoints)
include h

theorem length_eq : endpoints.length = min limit (paths organizationId apiId since db).length := by
  obtain ⟨out, hout, rfl⟩ := h
  rw [List.length_take, hout.perm.length_eq, ← path_endpointStats, List.length_map]

theorem nodup : (endpoints.map (·.path)).Nodup := by
  obtain ⟨out, hout, rfl⟩ := h
  have hall : (out.map (·.path)).Nodup := by
    rw [(hout.perm.map _).nodup_iff, path_endpointStats]
    exact List.nodup_dedup _
  exact hall.sublist ((List.take_sublist _ _).map _)

theorem sorted : endpoints.Pairwise fun a b => b.requestCount ≤ a.requestCount := by
  obtain ⟨out, hout, rfl⟩ := h
  exact hout.sorted.sublist (List.take_sublist _ _)

theorem count_eq (he : e ∈ endpoints) :
    e.requestCount = requestsFor organizationId apiId since db e.path := by
  obtain ⟨out, hout, rfl⟩ := h
  exact count_endpointStats (hout.perm.mem_iff.1 (List.mem_of_mem_take he))

theorem path_mem (he : e ∈ endpoints) : e.path ∈ paths organizationId apiId since db := by
  obtain ⟨out, hout, rfl⟩ := h
  rw [← path_endpointStats]
  exact List.mem_map_of_mem (hout.perm.mem_iff.1 (List.mem_of_mem_take he))

theorem omitted_le {path : String} (hpath : path ∈ paths organizationId apiId since db)
    (hno : path ∉ endpoints.map (·.path))
    (he : e ∈ endpoints) : requestsFor organizationId apiId since db path ≤ e.requestCount := by
  obtain ⟨out, hout, rfl⟩ := h
  rw [← path_endpointStats] at hpath
  obtain ⟨e', he', rfl⟩ := List.mem_map.1 hpath
  have hmem : e' ∈ out.take limit ++ out.drop limit := by
    rw [List.take_append_drop]
    exact hout.perm.mem_iff.2 he'
  rw [← count_endpointStats he']
  rcases List.mem_append.1 hmem with htake | hdrop
  · exact absurd (List.mem_map_of_mem htake) hno
  · exact hout.take_drop he hdrop

theorem sum_eq (hlimit : (paths organizationId apiId since db).length ≤ limit) :
    (endpoints.map (·.requestCount)).sum = (summary organizationId apiId since db).requestCount := by
  obtain ⟨out, hout, rfl⟩ := h
  rw [← path_endpointStats, List.length_map, ← hout.perm.length_eq] at hlimit
  rw [List.take_of_length_le hlimit, (hout.perm.map _).sum_eq, sum_endpointStats]

end TopEndpoints

/-- The views of one scope agree: the status breakdown and the top endpoints split the requests of
the summary, the former has its errors, and there are no more keys than requests. -/
theorem dashboard_views_agree (organizationId : Uuid) (apiId : Option Uuid) (since : Time)
    (db : PlatformDb) :
    let s := summary organizationId apiId since db
    let breakdown := statusBreakdown organizationId apiId since db
    s.requestCount = (scopedLogs organizationId apiId since db).length ∧
    (breakdown.map (·.2)).sum = s.requestCount ∧
    (breakdown.find? fun entry => entry.1 == "5xx").elim 0 (·.2) = s.errorCount ∧
    activeKeys organizationId apiId since db ≤ s.requestCount ∧
    ∀ limit, TopEndpoints organizationId apiId since limit db
      (topEndpoints organizationId apiId since limit db) ∧
      ∀ endpoints, TopEndpoints organizationId apiId since limit db endpoints →
        endpoints.length = min limit (paths organizationId apiId since db).length ∧
        (endpoints.map (·.path)).Nodup ∧
        (endpoints.Pairwise fun a b => b.requestCount ≤ a.requestCount) ∧
        (∀ e ∈ endpoints, e.path ∈ paths organizationId apiId since db ∧
          e.requestCount = requestsFor organizationId apiId since db e.path ∧
          ∀ path ∈ paths organizationId apiId since db, path ∉ endpoints.map (·.path) →
            requestsFor organizationId apiId since db path ≤ e.requestCount) ∧
        ((paths organizationId apiId since db).length ≤ limit →
            (endpoints.map (·.requestCount)).sum = s.requestCount) := by
  refine ⟨requestCount_summary, sum_statusBreakdown, errors_statusBreakdown, activeKeys_le,
    fun limit => ⟨topEndpoints_answer, fun endpoints h => ?_⟩⟩
  refine ⟨h.length_eq, h.nodup, h.sorted,
    fun e he => ⟨h.path_mem he, h.count_eq he, fun path hpath hno => ?_⟩, h.sum_eq⟩
  exact h.omitted_le hpath hno he

end AnalyticsRepository

end TrafficPlatform
