import TrafficPlatform.Analytics.Rollup
import Mathlib.Algebra.BigOperators.Group.Multiset.Basic
import Mathlib.Data.List.Permutation

/-!
# The daily rollup against the request logs

A series of `daily_usage` is the series of the request logs, if every day was rolled up after its
last log (`rollup_path_eq_raw_path`). Counts and bytes are exact. The latencies are doubles:
PostgreSQL adds them first for every API and then over the APIs, in an order of its own, and the
series of the logs is the one with such a sum.
-/

namespace TrafficPlatform
open Kit
open AnalyticsRepository (dailySeries point rollupDaily)

/-- The request logs that a series is about. -/
def seriesLogs (organizationId : Uuid) (apiId : Option Uuid) (sinceDate : Day) (db : PlatformDb) :
    List RequestLog :=
  db.requestLogs.select fun r =>
    r.organizationId == organizationId && decide (sinceDate ≤ r.createdAt / dayLength) &&
      apiId.all (r.apiId == ·)

/-- Those of a day. -/
def seriesDay (organizationId : Uuid) (apiId : Option Uuid) (sinceDate : Day) (db : PlatformDb)
    (day : Day) :
    List RequestLog :=
  (seriesLogs organizationId apiId sinceDate db).filter fun r => decide (r.createdAt / dayLength = day)

/-- The series of the request logs, grouped by UTC day, with the given total of the latencies of
every day. -/
def rawSeries (latency : Day → ℚ) (organizationId : Uuid) (apiId : Option Uuid) (sinceDate : Day)
    (db : PlatformDb) :
    List TimeseriesPoint :=
  let groups :=
    groupBy (fun r : RequestLog => r.createdAt / dayLength)
      (seriesLogs organizationId apiId sinceDate db)
  orderBy (byAsc (·.date)) (groups.map fun g =>
    { date := g.1
      requestCount := g.2.length
      errorCount := g.2.countP fun r => decide (500 ≤ r.statusCode)
      avgLatencyMs := pyRound2 (Double.round (latency g.1 / g.2.length)) })

section
variable {ρ : Type} {org api : ρ → Uuid} {date : ρ → Day} {rows : List ρ}
  {db : PlatformDb} {day sinceDate : Day} {organizationId : Uuid} {apiId : Option Uuid}

theorem mem_seriesDay {r : ρ}
    (h : r ∈ (rows.filter fun r => org r == organizationId && decide (sinceDate ≤ date r) &&
    apiId.all (api r == ·)).filter fun r => decide (date r = day)) :
    org r = organizationId ∧ sinceDate ≤ day ∧ apiId.all (api r == ·) = true := by
  simp only [List.mem_filter, Bool.and_eq_true, decide_eq_true_iff, beq_iff_eq] at h
  exact ⟨h.1.2.1.1, h.2 ▸ h.1.2.1.2, h.1.2.2⟩

theorem filter_seriesDay {a : Uuid} (hsince : sinceDate ≤ day) (hall : apiId.all (a == ·) = true) :
    (((rows.filter
        fun r => org r == organizationId && decide (sinceDate ≤ date r) &&
          apiId.all (api r == ·)).filter
        fun r => decide (date r = day)).filter fun r => decide (api r = a)) =
      rows.filter fun r => date r == day && (org r == organizationId && api r == a) := by
  rw [List.filter_filter, List.filter_filter]
  refine List.filter_congr fun r _ => ?_
  rw [Bool.eq_iff_iff]
  simp only [Bool.and_eq_true, decide_eq_true_iff, beq_iff_eq]
  constructor
  · rintro ⟨⟨hapi, hdate⟩, ⟨horg, -⟩, -⟩
    exact ⟨hdate, horg, hapi⟩
  · rintro ⟨rfl, rfl, rfl⟩
    exact ⟨⟨rfl, rfl⟩, ⟨rfl, hsince⟩, hall⟩

theorem sum_one (l : List RequestLog) : (l.map fun _ => 1).sum = l.length := by
  rw [List.map_const', List.sum_replicate]
  exact Nat.mul_one _

theorem sum_errors (l : List RequestLog) :
    (l.map fun r => if 500 ≤ r.statusCode then 1 else 0).sum =
        l.countP fun r => decide (500 ≤ r.statusCode) := by
  induction l with
  | nil => rfl
  | cons r l ih =>
    rw [List.map_cons, List.sum_cons, ih, List.countP_cons, Nat.add_comm]
    simp only [decide_eq_true_eq]

theorem sum_latencies (l : List RequestLog) :
    (l.map fun r => ({r.latencyMs} : Multiset ℚ)).sum =
        ((l.map (·.latencyMs) : List ℚ) : Multiset ℚ) := by
  induction l with
  | nil => rfl
  | cons r l ih =>
    rw [List.map_cons, List.sum_cons, ih, List.map_cons, Multiset.singleton_add]
    rfl

theorem coe_flatMap (l : List ρ) (f : ρ → List ℚ) :
    ((l.flatMap f : List ℚ) : Multiset ℚ) = (l.map fun a => (f a : Multiset ℚ)).sum := by
  induction l with
  | nil => rfl
  | cons a l ih => rw [List.flatMap_cons, ← Multiset.coe_add, ih, List.map_cons, List.sum_cons]

/-- The rows of `daily_usage` that a series is about. -/
def seriesUsage (organizationId : Uuid) (apiId : Option Uuid) (sinceDate : Day) (db : PlatformDb) :
    List DailyUsage :=
  db.dailyUsage.select fun u =>
    u.organizationId == organizationId && decide (sinceDate ≤ u.usageDate) && apiId.all (u.apiId == ·)

/-- A total of `daily_usage` over the APIs of a day is the total over the logs. -/
theorem sum_rolledUp {M : Type} [AddCommMonoid M] {v : RollupRow → M} {w : RequestLog → M}
    (h : db.RolledUp day)
    (hv : ∀ r a, r.Totals organizationId a (db.dayLogs day organizationId a) →
      v r = ((db.dayLogs day organizationId a).map w).sum) :
    (((seriesUsage organizationId apiId sinceDate db).filter
      fun u => decide (u.usageDate = day)).map fun u => v u.row).sum =
      ((seriesDay organizationId apiId sinceDate db day).map w).sum := by
  generalize hrows :
    ((seriesUsage organizationId apiId sinceDate db).filter fun u => decide (u.usageDate = day)) =
      rows
  generalize hlogs : seriesDay organizationId apiId sinceDate db day = logs
  let apis := (rows.map (·.apiId) ++ logs.map (·.apiId)).dedup
  have hapis : ∀ a ∈ apis, sinceDate ≤ day ∧ apiId.all (a == ·) = true := by
    intro a ha
    rcases List.mem_append.1 (List.mem_dedup.1 ha) with ha | ha
    · obtain ⟨u, hu, rfl⟩ := List.mem_map.1 ha
      rw [← hrows] at hu
      exact (mem_seriesDay hu).2
    · obtain ⟨r, hr, rfl⟩ := List.mem_map.1 ha
      rw [← hlogs] at hr
      exact (mem_seriesDay hr).2
  have husum : (rows.map fun u => v u.row).sum =
      (apis.map fun a => ((rows.filter fun u => decide (u.apiId = a)).map fun u => v u.row).sum).sum :=
    sum_by_key (List.nodup_dedup _)
      fun u hu => List.mem_dedup.2 (List.mem_append_left _ (List.mem_map_of_mem hu))
  have hlsum : (logs.map w).sum =
      (apis.map fun a => ((logs.filter fun r => decide (r.apiId = a)).map w).sum).sum :=
    sum_by_key (List.nodup_dedup _)
      fun r hr => List.mem_dedup.2 (List.mem_append_right _ (List.mem_map_of_mem hr))
  rw [husum, hlsum]
  refine congrArg List.sum (List.map_congr_left fun a ha => ?_)
  obtain ⟨hsince, hall⟩ := hapis a ha
  have husage : (rows.filter fun u => decide (u.apiId = a)).map (·.row) =
      db.usageOf day organizationId a :=
    hrows ▸ congrArg (List.map DailyUsage.row) (filter_seriesDay hsince hall)
  have hof : (logs.filter fun r => decide (r.apiId = a)) = db.dayLogs day organizationId a :=
    hlogs ▸ filter_seriesDay hsince hall
  have hrow : ((rows.filter fun u => decide (u.apiId = a)).map fun u => v u.row).sum =
      ((db.usageOf day organizationId a).map v).sum := by
    rw [← husage, List.map_map]
    rfl
  rw [hrow, hof]
  rcases h organizationId a with ⟨hnil, husage⟩ | ⟨-, r, hone, htotals⟩
  · rw [hnil, husage]
    rfl
  · rw [hone, List.map_singleton, List.sum_singleton]
    exact hv r a htotals

/-- The latencies of a day, added up for every API and then over the APIs. -/
theorem latency_rolledUp (h : db.RolledUp day) :
    Double.SumsTo ((seriesDay organizationId apiId sinceDate db day).map (·.latencyMs))
      (Double.sum (((seriesUsage organizationId apiId sinceDate db).filter
        fun u => decide (u.usageDate = day)).map
        (·.totalLatencyMs))) := by
  let latencies (u : DailyUsage) : List ℚ := (db.dayLogs day organizationId u.apiId).map (·.latencyMs)
  have htotals : ∀ u ∈ (seriesUsage organizationId apiId sinceDate db).filter
      fun u => decide (u.usageDate = day),
      Double.SumsTo (latencies u) u.totalLatencyMs := by
    intro u hu
    obtain ⟨horg, -, -⟩ := mem_seriesDay hu
    obtain ⟨hmem, hdate⟩ := List.mem_filter.1 hu
    have husage : u.row ∈ db.usageOf day organizationId u.apiId :=
      List.mem_map_of_mem
        (Table.mem_select.2 ⟨(Table.mem_select.1 hmem).1, by simp [of_decide_eq_true hdate, horg]⟩)
    rcases h organizationId u.apiId with ⟨-, hnil⟩ | ⟨-, r, hone, htotals⟩
    · rw [hnil] at husage
      cases husage
    · rw [hone] at husage
      obtain rfl := List.mem_singleton.1 husage
      exact htotals.latency
  refine ((Double.sumsTo_sum _).flatMap htotals).perm ?_
  rw [← Multiset.coe_eq_coe, coe_flatMap, ← sum_latencies]
  refine sum_rolledUp
    (v := fun r => (((db.dayLogs day organizationId r.apiId).map (·.latencyMs) : List ℚ) :
      Multiset ℚ)) h
    fun r a htotals => ?_
  rw [sum_latencies, htotals.apiId]

/-- The days of the series of `daily_usage` are those of the logs if the days with logs are rolled
up. -/
theorem series_days_iff
    (hlogged : ∀ u ∈ db.dailyUsage.rows, db.dayLogs u.usageDate u.organizationId u.apiId ≠ [])
    (hrolled : ∀ day, sinceDate ≤ day → (∃ r ∈ db.requestLogs.rows, r.createdAt / dayLength = day) →
      db.RolledUp day) :
    day ∈ (seriesUsage organizationId apiId sinceDate db).map (·.usageDate) ↔
      day ∈ (seriesLogs organizationId apiId sinceDate db).map fun r => r.createdAt / dayLength := by
  rw [List.mem_map, List.mem_map]
  constructor
  · rintro ⟨u, hu, rfl⟩
    obtain ⟨hu, hkey⟩ := Table.mem_select.1 hu
    obtain ⟨r, hr⟩ := List.exists_mem_of_ne_nil _ (hlogged u hu)
    obtain ⟨hr, hof⟩ := Table.mem_select.1 hr
    simp only [Bool.and_eq_true, beq_iff_eq] at hof
    refine ⟨r, Table.mem_select.2 ⟨hr, ?_⟩, hof.1⟩
    rw [hof.1, hof.2.1, hof.2.2]
    exact hkey
  · rintro ⟨r, hr, rfl⟩
    obtain ⟨hr, hkey⟩ := Table.mem_select.1 hr
    have hsince : sinceDate ≤ r.createdAt / dayLength := by
      simp only [Bool.and_eq_true, decide_eq_true_iff] at hkey
      exact hkey.1.2
    have hof : r ∈ db.dayLogs (r.createdAt / dayLength) r.organizationId r.apiId :=
      Table.mem_select.2 ⟨hr, by simp⟩
    rcases hrolled _ hsince ⟨r, hr, rfl⟩ r.organizationId r.apiId with ⟨hnil, -⟩ | ⟨-, row, hone, -⟩
    · exact absurd hnil (List.ne_nil_of_mem hof)
    · obtain ⟨u, hu, -⟩ := List.mem_map.1 (hone ▸ List.mem_singleton_self row)
      obtain ⟨hu, hukey⟩ := Table.mem_select.1 hu
      simp only [Bool.and_eq_true, beq_iff_eq] at hukey
      refine ⟨u, Table.mem_select.2 ⟨hu, ?_⟩, hukey.1⟩
      rw [hukey.1, hukey.2.1, hukey.2.2]
      exact hkey

/-- The series of `daily_usage` is the series of the logs if the days with logs are rolled up. -/
theorem dailySeries_eq_rawSeries
    (hlogged : ∀ u ∈ db.dailyUsage.rows, db.dayLogs u.usageDate u.organizationId u.apiId ≠ [])
    (hrolled : ∀ day, sinceDate ≤ day → (∃ r ∈ db.requestLogs.rows, r.createdAt / dayLength = day) →
      db.RolledUp day) :
    ∃ latency : Day → ℚ,
      (∀ day, Double.SumsTo ((seriesDay organizationId apiId sinceDate db day).map (·.latencyMs))
        (latency day)) ∧
      dailySeries organizationId apiId sinceDate db =
          rawSeries latency organizationId apiId sinceDate db := by
  have hdays : ∀ day, day ∈ (seriesUsage organizationId apiId sinceDate db).map (·.usageDate) ↔
      day ∈ (seriesLogs organizationId apiId sinceDate db).map fun r => r.createdAt / dayLength :=
    fun day => series_days_iff hlogged hrolled
  have hday : ∀ day, day ∈ (seriesLogs organizationId apiId sinceDate db).map
      (fun r => r.createdAt / dayLength) →
      db.RolledUp day ∧ seriesDay organizationId apiId sinceDate db day ≠ [] := by
    intro day hday
    obtain ⟨r, hr, hdate⟩ := List.mem_map.1 hday
    have hmem : r ∈ seriesDay organizationId apiId sinceDate db day :=
      List.mem_filter.2 ⟨hr, decide_eq_true hdate⟩
    exact ⟨hrolled day (mem_seriesDay hmem).2.1 ⟨r, (Table.mem_select.1 hr).1, hdate⟩,
      List.ne_nil_of_mem hmem⟩
  have hlatency : ∀ day, ∃ x,
      Double.SumsTo ((seriesDay organizationId apiId sinceDate db day).map (·.latencyMs)) x ∧
      (day ∈ (seriesLogs organizationId apiId sinceDate db).map (fun r => r.createdAt / dayLength) →
        x = Double.sum
          (((seriesUsage organizationId apiId sinceDate db).filter
            fun u => decide (u.usageDate = day)).map
          (·.totalLatencyMs))) := by
    intro day
    by_cases h : day ∈ (seriesLogs organizationId apiId sinceDate db).map
      fun r => r.createdAt / dayLength
    · exact ⟨_, latency_rolledUp (hday day h).1, fun _ => rfl⟩
    · exact ⟨_, Double.sumsTo_sum _, fun h' => absurd h' h⟩
  choose latency hsums hseries using hlatency
  refine ⟨latency, hsums, ?_⟩
  unfold dailySeries rawSeries
  refine orderBy_groupBy_congr (fun _ => rfl) (orders_byAsc _) hdays fun day hin => ?_
  obtain ⟨hrolledDay, hne⟩ := hday day ((hdays day).1 hin)
  have hrequests :
      (((seriesUsage organizationId apiId sinceDate db).filter
        fun u => decide (u.usageDate = day)).map
      (·.requestCount)).sum = (seriesDay organizationId apiId sinceDate db day).length :=
    (sum_rolledUp (v := RollupRow.requests) (w := fun _ => 1) hrolledDay fun r a htotals =>
      htotals.requests.trans (sum_one _).symm).trans (sum_one _)
  have herrors :
      (((seriesUsage organizationId apiId sinceDate db).filter
        fun u => decide (u.usageDate = day)).map
      (·.errorCount)).sum = (seriesDay organizationId apiId sinceDate db day).countP
          fun r => decide (500 ≤ r.statusCode) :=
    (sum_rolledUp (v := RollupRow.errors) (w := fun r => if 500 ≤ r.statusCode then 1 else 0)
        hrolledDay fun r a htotals =>
      htotals.errors.trans (sum_errors _).symm).trans (sum_errors _)
  have hlength : (seriesDay organizationId apiId sinceDate db day).length ≠ 0 :=
    fun h => hne (List.length_eq_zero_iff.1 h)
  show point day _ _ (Double.sum _) =
    ⟨day, (seriesDay organizationId apiId sinceDate db day).length, _, _⟩
  refine (congrArg₂ (fun requests errors => point day requests errors _) hrequests herrors).trans ?_
  rw [point, if_neg hlength]
  show (⟨day, _, _, pyRound2 (Double.round (_ / _))⟩ : TimeseriesPoint) =
    ⟨day, _, _, pyRound2 (Double.round (latency day / _))⟩
  rw [hseries day ((hdays day).1 hin)]
  rfl

end

/-! ### The rollup path and the raw path -/

/-- The hypotheses of a rollup that succeeds. -/
structure Ready (s : State platformTables.backend) : Prop where
  sound : Sound s
  one : s.db.OneOrganization
  fits : ∀ day, s.db.TotalsFit day

section
variable {s : State platformTables.backend}

theorem Ready.rollup (h : Ready s) (day : Day) (envs : Nat → Env PlatformInput) :
    Ready (UsageEvent.next s (.rollup day envs)) := by
  have hlogs := (rollup_next day envs s).logs
  refine ⟨sound_next h.sound _, ?_, fun day => (h.fits day).congr fun o a => ?_⟩
  · unfold PlatformDb.OneOrganization
    rw [hlogs]
    exact h.one
  · unfold PlatformDb.dayLogs
    rw [hlogs]

theorem Ready.rolledUp (h : Ready s) (day : Day) (envs : Nat → Env PlatformInput) :
    (UsageEvent.next s (.rollup day envs)).db.RolledUp day := by
  rw [next_rollup]
  exact (rollup_ok h.sound h.one (h.fits day) envs).2

end

theorem sameUsage_of {db db' : PlatformDb} (hlogs : db'.requestLogs = db.requestLogs)
    (h : ∀ day, (db.RolledUp day ∧ db'.RolledUp day) ∨
      (db'.dailyUsage.select fun u => u.usageDate == day) = db.dailyUsage.select
        fun u => u.usageDate == day) :
    db.SameUsage db' := by
  refine ⟨hlogs, fun day organizationId apiId => ?_⟩
  have hof : db'.dayLogs day organizationId apiId = db.dayLogs day organizationId apiId := by
    unfold PlatformDb.dayLogs
    rw [hlogs]
  rcases h day with ⟨hrolled, hrolled'⟩ | hsame
  · exact .inr ⟨hrolled organizationId apiId, hof ▸ hrolled' organizationId apiId⟩
  · exact .inl (usageOf_congr hsame organizationId apiId)

/-- In a history without `daily_usage` rows at its begin in which every API is logged under one
organization and the totals fit: `rollup_daily` succeeds, leaves one row with the totals for every
organization and API with logs on the day and keeps the other days; to repeat it or to swap two days
changes at most the order in which latencies are added; and a series whose days were rolled up after
their last logs is the series of the logs, the latencies of every day added up in some order. -/
theorem rollup_path_eq_raw_path (db : PlatformDb) (world : World PlatformOutside)
    (es : List UsageEvent) (hempty : db.dailyUsage.rows = [])
    (hone : (run UsageEvent.next ⟨db, world⟩ es).db.OneOrganization)
    (hfits : ∀ day, (run UsageEvent.next ⟨db, world⟩ es).db.TotalsFit day) :
    let s := run UsageEvent.next ⟨db, world⟩ es
    (∀ day envs, (∃ n, (scope (rollupDaily day) envs s).1 = .ok n) ∧
      (UsageEvent.next s (.rollup day envs)).db.requestLogs = s.db.requestLogs ∧
      (UsageEvent.next s (.rollup day envs)).db.RolledUp day ∧
      ∀ other, other ≠ day →
        ((UsageEvent.next s (.rollup day envs)).db.dailyUsage.select
          fun u => u.usageDate == other) =
        s.db.dailyUsage.select fun u => u.usageDate == other) ∧
    (∀ day envs envs', (run UsageEvent.next s [.rollup day envs, .rollup day envs']).db.SameUsage
      (run UsageEvent.next s [.rollup day envs]).db) ∧
    (∀ day other envs₁ envs₂ envs₃ envs₄,
      (run UsageEvent.next s [.rollup day envs₁, .rollup other envs₂]).db.SameUsage
      (run UsageEvent.next s [.rollup other envs₃, .rollup day envs₄]).db) ∧
    ∀ organizationId apiId sinceDate,
      (∀ day, sinceDate ≤ day → (∃ r ∈ s.db.requestLogs.rows, r.createdAt / dayLength = day) →
        RolledUpLast day es) →
      ∃ latency : Day → ℚ,
        (∀ day, Double.SumsTo
          ((seriesDay organizationId apiId sinceDate s.db day).map (·.latencyMs)) (latency day)) ∧
        dailySeries organizationId apiId sinceDate s.db =
          rawSeries latency organizationId apiId sinceDate s.db := by
  have hinit : Sound ⟨db, world⟩ := by
    constructor <;> exact fun u hu => absurd (hempty ▸ hu : u ∈ []) List.not_mem_nil
  have hsound : Sound (run UsageEvent.next ⟨db, world⟩ es) :=
    run_invariant (I := Sound) (fun _ e h => sound_next h e) hinit es
  have hready : Ready (run UsageEvent.next ⟨db, world⟩ es) := ⟨hsound, hone, hfits⟩
  intro s
  refine ⟨fun day envs => ?_, fun day envs envs' => ?_,
    fun day other envs₁ envs₂ envs₃ envs₄ => ?_, fun o a sinceDate hlast => ?_⟩
  · have hstep := rollup_next day envs s
    exact ⟨(rollup_ok hsound hone (hfits day) envs).1, hstep.logs, hready.rolledUp day envs,
      hstep.others⟩
  · have hfirst := hready.rollup day envs
    have hstep := rollup_next day envs' (UsageEvent.next s (.rollup day envs))
    simp only [run]
    refine sameUsage_of hstep.logs.symm fun day' => ?_
    by_cases hday : day' = day
    · rw [hday]
      exact .inl ⟨hfirst.rolledUp day envs', hready.rolledUp day envs⟩
    · exact .inr (hstep.others day' hday).symm
  · have hday := rollup_next day envs₁ s
    have hother := rollup_next other envs₃ s
    have hdayOther := rollup_next other envs₂ (UsageEvent.next s (.rollup day envs₁))
    have hotherDay := rollup_next day envs₄ (UsageEvent.next s (.rollup other envs₃))
    simp only [run]
    refine sameUsage_of ?_ fun day' => ?_
    · rw [hotherDay.logs, hother.logs, hdayOther.logs, hday.logs]
    -- a rollup of another day inserts no logs
    by_cases hisDay : day' = day
    · rw [hisDay]
      exact .inl ⟨rolledUp_spares (e := .rollup other envs₂) trivial (hready.rolledUp day envs₁),
        (hready.rollup other envs₃).rolledUp day envs₄⟩
    by_cases hisOther : day' = other
    · rw [hisOther]
      exact .inl ⟨(hready.rollup day envs₁).rolledUp other envs₂,
        rolledUp_spares (e := .rollup day envs₄) trivial (hready.rolledUp other envs₃)⟩
    · refine .inr ?_
      rw [hotherDay.others day' hisDay, hother.others day' hisOther,
        hdayOther.others day' hisOther, hday.others day' hisDay]
  · refine dailySeries_eq_rawSeries hsound.logged fun day hday hlogs => ?_
    exact rolledUp_of_last hinit hone (hfits day) (hlast day hday hlogs)

theorem totalsFit_of_all {db : PlatformDb} (hrequests : db.requestLogs.rows.length < 2 ^ 31)
    (hreq : (db.requestLogs.rows.map (·.requestBytes)).sum < 2 ^ 31)
    (hresp : (db.requestLogs.rows.map (·.responseBytes)).sum < 2 ^ 31) (day : Day) :
    db.TotalsFit day := by
  have hsub : ∀ organizationId apiId,
      (db.dayLogs day organizationId apiId).Sublist db.requestLogs.rows :=
    fun _ _ => List.filter_sublist
  constructor <;> intro o a
  · exact (hsub o a).length_le.trans_lt hrequests
  · exact (List.Sublist.sum_le_sum ((hsub o a).map _) fun _ _ => Nat.zero_le _).trans_lt hreq
  · exact (List.Sublist.sum_le_sum ((hsub o a).map _) fun _ _ => Nat.zero_le _).trans_lt hresp

/-- Two requests of an organization, rolled up. -/
def sampleHistory : List UsageEvent :=
  [.insertLog (sampleLog 201 5 200) fun _ => sampleGatewayEnv 1,
    .insertLog (sampleLog 202 5 500) fun _ => sampleGatewayEnv 1,
    .rollup (epoch / dayLength) fun _ => sampleGatewayEnv 1]

theorem rolledUpLast_of_day {db : PlatformDb} (es : List UsageEvent)
    {envs : Nat → Env PlatformInput} {day : Day}
    (h : ∀ r ∈ db.requestLogs.rows, r.createdAt / dayLength = epoch / dayLength)
    (hlogs : ∃ r ∈ db.requestLogs.rows, r.createdAt / dayLength = day) :
    RolledUpLast day (es ++ [.rollup (epoch / dayLength) envs]) := by
  obtain ⟨r, hr, rfl⟩ := hlogs
  rw [h r hr]
  exact ⟨es, envs, [], rfl, fun e he => absurd he List.not_mem_nil⟩

theorem rollup_path_eq_raw_path_sample :
    let s := run UsageEvent.next ⟨sampleDailyDb, sampleGatewayWorld⟩ sampleHistory
    ∃ latency : Day → ℚ,
      (∀ day, Double.SumsTo ((seriesDay 5 none (epoch / dayLength) s.db day).map (·.latencyMs))
        (latency day)) ∧
      dailySeries 5 none (epoch / dayLength) s.db =
        rawSeries latency 5 none (epoch / dayLength) s.db := by
  refine (rollup_path_eq_raw_path sampleDailyDb sampleGatewayWorld sampleHistory rfl ?_
    (totalsFit_of_all (by decide +kernel) (by decide +kernel) (by decide +kernel))).2.2.2 5 none
      (epoch / dayLength)
      fun day _ hlogs => ?_
  · unfold PlatformDb.OneOrganization
    decide +kernel
  · exact rolledUpLast_of_day (sampleHistory.take 2) (by decide +kernel) hlogs

/-! ### What a rollup does not promise -/

theorem not_rolledUp {db : PlatformDb} {day : Day} {organizationId apiId : Uuid}
    (hlogs : db.dayLogs day organizationId apiId ≠ [])
    (husage : db.usageOf day organizationId apiId = []) :
    ¬ db.RolledUp day := by
  intro h
  rcases h organizationId apiId with ⟨hnil, -⟩ | ⟨-, r, hone, -⟩
  · exact hlogs hnil
  · rw [husage] at hone
    cases hone

theorem avgLatency_of_mem_rawSeries {latency : Day → ℚ} {organizationId : Uuid}
    {apiId : Option Uuid} {sinceDate : Day} {db : PlatformDb} {p : TimeseriesPoint}
    (h : p ∈ rawSeries latency organizationId apiId sinceDate db) :
    p.avgLatencyMs = pyRound2 (Double.round (latency p.date /
      (seriesDay organizationId apiId sinceDate db p.date).length)) := by
  obtain ⟨g, hg, rfl⟩ := List.mem_map.1 (List.mem_mergeSort.1 h)
  dsimp only
  rw [(mem_groupBy.1 hg).2]
  rfl

/-- A log of an API with the given latency, in hundredths of a millisecond. -/
def sampleLatency (id apiId hundredths : Nat) : RequestLog :=
  { sampleLog id 5 200 with apiId := apiId, latencyMs := Double.round (hundredths / 100) }

/-- An order of the logs. -/
def sampleOrder (n : Nat) : Nat → Env PlatformInput := fun _ => { sampleGatewayEnv 1 with number := n }

/-- Three logs of one API. -/
def sampleThree : List UsageEvent :=
  [.insertLog (sampleLatency 201 41 10) (sampleOrder 0),
    .insertLog (sampleLatency 202 41 20) (sampleOrder 0),
    .insertLog (sampleLatency 203 41 30) (sampleOrder 0)]

/-- Two logs each of two APIs, rolled up. -/
def sampleFour : List UsageEvent :=
  [.insertLog (sampleLatency 201 41 3) (sampleOrder 0),
    .insertLog (sampleLatency 202 41 5) (sampleOrder 0),
    .insertLog (sampleLatency 203 44 30) (sampleOrder 0),
    .insertLog (sampleLatency 204 44 40) (sampleOrder 0),
    .rollup (epoch / dayLength) (sampleOrder 0)]

def sampleFourDb : PlatformDb := (run UsageEvent.next ⟨sampleDailyDb, sampleGatewayWorld⟩ sampleFour).db

theorem sampleFourDb_latencies :
    (seriesDay 5 none (epoch / dayLength) sampleFourDb (epoch / dayLength)).map (·.latencyMs) =
    [3, 5, 30, 40].map fun n : Nat => Double.round (n / 100) := by decide +kernel

theorem sampleFourDb_series : dailySeries 5 none (epoch / dayLength) sampleFourDb =
    [⟨epoch / dayLength, 4, 0, Double.round (19 / 100)⟩] := by decide +kernel

/-- The latencies of the four logs, added one by one in any order, have another average than the
series. -/
theorem sampleFour_differs {order : Day → List RequestLog}
    (hperm : ∀ day, (order day).Perm (seriesDay 5 none (epoch / dayLength) sampleFourDb day)) :
    dailySeries 5 none (epoch / dayLength) sampleFourDb ≠
      rawSeries (fun day => Double.addUp ((order day).map (·.latencyMs))) 5 none (epoch / dayLength)
        sampleFourDb := by
  intro hseries
  have hmem := hseries ▸ sampleFourDb_series ▸ List.mem_singleton_self _
  have havg := avgLatency_of_mem_rawSeries hmem
  have horders : ∀ l ∈ [3, 5, 30, 40].permutations', Double.round (19 / 100) ≠
      pyRound2 (Double.round (Double.addUp (l.map fun n : Nat => Double.round (n / 100)) / 4)) := by
    decide +kernel
  have hcomp : Relation.Comp (· = List.map (fun n : Nat => Double.round (n / 100)) ·) List.Perm
      ((order (epoch / dayLength)).map (·.latencyMs)) [3, 5, 30, 40] := by
    rw [List.eq_map_comp_perm]
    show List.Perm _ _
    rw [← sampleFourDb_latencies]
    exact (hperm (epoch / dayLength)).map _
  obtain ⟨l, hl, hpermutation⟩ := hcomp
  refine horders l (List.mem_permutations'.2 hpermutation) (havg.trans ?_)
  have hlength :
      (seriesDay 5 none (epoch / dayLength) sampleFourDb (epoch / dayLength)).length = 4 := by
    rw [← List.length_map (·.latencyMs), sampleFourDb_latencies]
    rfl
  rw [← hl]
  show pyRound2 (Double.round (_ /
    ((seriesDay 5 none (epoch / dayLength) sampleFourDb (epoch / dayLength)).length : ℚ))) = _
  rw [hlength]
  rfl

/-- Three promises that a rollup does not keep. Two logs of one API under two organizations:
`daily_usage` has no room for both. A day rolled up again, its logs met in another order: 0.6
instead of 0.6000000000000001 for 0.1, 0.2 and 0.3. And four logs of two APIs: the series adds the
totals of the APIs and has 0.19, where the latencies of the logs give 0.2, in whatever order they
are added one by one. -/
theorem rollup_refused :
    (¬ ∀ (db : PlatformDb) (world : World PlatformOutside) (es : List UsageEvent),
      db.dailyUsage.rows = [] →
      (∀ day, (run UsageEvent.next ⟨db, world⟩ es).db.TotalsFit day) → ∀ day envs,
        (run UsageEvent.next ⟨db, world⟩ (es ++ [.rollup day envs])).db.RolledUp day) ∧
    (¬ ∀ (db : PlatformDb) (world : World PlatformOutside) (es : List UsageEvent),
      db.dailyUsage.rows = [] →
      (run UsageEvent.next ⟨db, world⟩ es).db.OneOrganization →
      (∀ day, (run UsageEvent.next ⟨db, world⟩ es).db.TotalsFit day) →
        ∀ day envs envs' organizationId apiId,
        (run UsageEvent.next ⟨db, world⟩ (es ++ [.rollup day envs, .rollup day envs'])).db.usageOf
          day organizationId apiId =
          (run UsageEvent.next ⟨db, world⟩ (es ++ [.rollup day envs])).db.usageOf day
            organizationId apiId) ∧
    ¬ ∀ (db : PlatformDb) (world : World PlatformOutside) (es : List UsageEvent),
      db.dailyUsage.rows = [] →
      (run UsageEvent.next ⟨db, world⟩ es).db.OneOrganization →
      (∀ day, (run UsageEvent.next ⟨db, world⟩ es).db.TotalsFit day) → ∀ organizationId apiId sinceDate,
        let db' := (run UsageEvent.next ⟨db, world⟩ es).db
        (∀ day, sinceDate ≤ day → (∃ r ∈ db'.requestLogs.rows, r.createdAt / dayLength = day) →
          RolledUpLast day es) →
        ∃ order : Day → List RequestLog,
          (∀ day, (order day).Perm (seriesDay organizationId apiId sinceDate db' day)) ∧
          dailySeries organizationId apiId sinceDate db' =
            rawSeries (fun day => Double.addUp ((order day).map (·.latencyMs))) organizationId apiId
                sinceDate db' := by
  refine ⟨fun h => ?_, fun h => ?_, fun h => ?_⟩
  · have hrolled := h sampleDailyDb sampleGatewayWorld
      [.insertLog (sampleLog 201 5 200) (sampleOrder 0),
        .insertLog (sampleLog 202 6 200) (sampleOrder 0)] rfl
      (totalsFit_of_all (by decide +kernel) (by decide +kernel) (by decide +kernel))
      (epoch / dayLength) (sampleOrder 0)
    exact @not_rolledUp _ _ 5 41 (by decide +kernel) (by decide +kernel) hrolled
  · have hsame := h sampleDailyDb sampleGatewayWorld sampleThree rfl
      (by unfold PlatformDb.OneOrganization; decide +kernel)
      (totalsFit_of_all (by decide +kernel) (by decide +kernel) (by decide +kernel))
      (epoch / dayLength) (sampleOrder 0) (sampleOrder 2) 5 41
    revert hsame
    decide +kernel
  · obtain ⟨order, hperm, hseries⟩ := h sampleDailyDb sampleGatewayWorld sampleFour rfl
      (by unfold PlatformDb.OneOrganization; decide +kernel)
      (totalsFit_of_all (by decide +kernel) (by decide +kernel) (by decide +kernel))
      5 none (epoch / dayLength) fun day _ hlogs => rolledUpLast_of_day (sampleFour.take 4) (by decide +kernel) hlogs
    exact sampleFour_differs hperm hseries

end TrafficPlatform
