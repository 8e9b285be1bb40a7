import TrafficPlatform.Analytics.Series
import TrafficPlatform.Gateway.DailyUsage

/-!
# The totals of a rollup

The columns of `daily_usage` have the width of those of one request log, and a rollup writes the
sums over all logs of an API on a day. `rollup_exact_iff` says for which logs it succeeds. What it
counts is the usage of the API's keys (`usage_rolledUp`).
-/

namespace TrafficPlatform
open Kit
open AnalyticsRepository (rollupDaily)

namespace PlatformDb

/-- The logs of an API on the day carry one organization. -/
def OneOrganizationOn (db : PlatformDb) (day : Day) : Prop :=
  ∀ r ∈ db.requestLogs.rows, ∀ r' ∈ db.requestLogs.rows, r.createdAt / dayLength = day →
    r'.createdAt / dayLength = day →
    r.apiId = r'.apiId → r.organizationId = r'.organizationId

variable {db : PlatformDb} {day : Day} {n : Nat}

theorem rollupRows_apis_iff :
    ((db.rollupRows day n).Pairwise fun r r' => r.apiId ≠ r'.apiId) ↔ db.OneOrganizationOn day := by
  constructor
  · intro h l hl l' hl' hday hday' hid
    have hlogs : ∀ {l}, l ∈ db.requestLogs.rows → l.createdAt / dayLength = day →
        db.dayLogs day l.organizationId l.apiId ≠ [] := fun hl hday =>
      List.ne_nil_of_mem (Table.mem_select.2 ⟨hl, by simp [hday]⟩)
    obtain ⟨r, hr, htotals⟩ := exists_rollupRow (hlogs hl hday) n
    obtain ⟨r', hr', htotals'⟩ := exists_rollupRow (hlogs hl' hday') n
    by_contra hne
    have hsymm : Std.Symm fun r r' : RollupRow => r.apiId ≠ r'.apiId := ⟨fun _ _ h => h.symm⟩
    refine h.forall hr hr' (fun he => hne ?_) (by rw [htotals.apiId, htotals'.apiId, hid])
    rw [← htotals.organizationId, ← htotals'.organizationId, he]
  · exact rollupRows_apis_on

end PlatformDb

/-- A rollup succeeds and stores the totals for every organization and API exactly if they fit their
columns and no API is logged under two organizations on the day. -/
theorem rollup_exact_iff {s : State platformTables.backend} (day : Day)
    (hs : ∀ u ∈ s.db.dailyUsage.rows, u.id < s.world.supply) (envs : Nat → Env PlatformInput) :
    ((∃ n, (scope (rollupDaily day) envs s).1 = .ok n) ∧ ∀ organizationId apiId,
      HoldsTotals organizationId apiId (s.db.dayLogs day organizationId apiId)
        ((scope (rollupDaily day) envs s).2.db.usageOf day organizationId apiId)) ↔
      s.db.TotalsFit day ∧ s.db.OneOrganizationOn day := by
  have hlogs : ∀ organizationId apiId,
      (scope (rollupDaily day) envs s).2.db.dayLogs day organizationId apiId =
      s.db.dayLogs day organizationId apiId := by
    intro organizationId apiId
    unfold PlatformDb.dayLogs
    rw [(rollup_step day envs s).logs]
  rw [← PlatformDb.rollupRows_apis_iff (n := (envs 0).number)]
  constructor
  · rintro ⟨⟨n, hok⟩, -⟩
    have hapis := rollup_ok_apis hok
    refine ⟨?_, hapis⟩
    rcases rollup_outcome hs hapis with ⟨hfits, -⟩ | ⟨-, herr⟩
    · exact hfits
    · rw [hok] at herr
      cases herr
  · rintro ⟨hfits, hapis⟩
    rcases rollup_outcome hs hapis with ⟨-, hok, hrolled⟩ | ⟨hno, -⟩
    · exact ⟨hok, fun organizationId apiId => hlogs organizationId apiId ▸ hrolled organizationId apiId⟩
    · exact absurd hfits hno

/-- Two requests of an organization. -/
def sampleLoggedDb : PlatformDb :=
  { sampleDailyDb with requestLogs := ⟨[sampleLog 201 5 200, sampleLog 202 5 500], by decide⟩ }

theorem rollup_exact_iff_sample :
    (∃ n, (scope (rollupDaily (epoch / dayLength)) (fun _ => sampleGatewayEnv 1)
      (⟨sampleLoggedDb, sampleGatewayWorld⟩ : State platformTables.backend)).1 = .ok n) ∧
    ∀ organizationId apiId,
      HoldsTotals organizationId apiId (sampleLoggedDb.dayLogs (epoch / dayLength) organizationId apiId)
        ((scope (rollupDaily (epoch / dayLength)) (fun _ => sampleGatewayEnv 1)
          (⟨sampleLoggedDb, sampleGatewayWorld⟩ : State platformTables.backend)).2.db.usageOf
            (epoch / dayLength) organizationId apiId) := by
  refine (rollup_exact_iff (s := ⟨sampleLoggedDb, sampleGatewayWorld⟩) (epoch / dayLength) (by decide)
    fun _ => sampleGatewayEnv 1).2 ⟨?_, ?_⟩
  · exact totalsFit_of_all (by decide) (by decide) (by decide) _
  · unfold PlatformDb.OneOrganizationOn
    decide +kernel

/-- A request log of the most bytes that its column takes. -/
def sampleLargeLog (id : Nat) : RequestLog := { sampleLog id 5 200 with requestBytes := 2 ^ 31 - 1 }

def sampleLargeDb : PlatformDb :=
  { sampleDailyDb with requestLogs := ⟨[sampleLargeLog 201, sampleLargeLog 202], by decide⟩ }

/-- Two logs that fit their columns, and no rollup of their day. -/
theorem rollup_overflows : ¬ ∀ (db : PlatformDb) (world : World PlatformOutside) (day : Day)
    (envs : Nat → Env PlatformInput),
    (∀ r ∈ db.requestLogs.rows, r.fits = true) → (∀ u ∈ db.dailyUsage.rows, u.id < world.supply) →
      db.OneOrganization →
      ∃ n, (scope (rollupDaily day) envs (⟨db, world⟩ : State platformTables.backend)).1 = .ok n := by
  intro h
  obtain ⟨n, hok⟩ :=
    h sampleLargeDb sampleGatewayWorld (epoch / dayLength) (fun _ => sampleGatewayEnv 1)
      (by decide +kernel)
    (by decide) (by unfold PlatformDb.OneOrganization; decide +kernel)
  have herr : (scope (rollupDaily (epoch / dayLength)) (fun _ => sampleGatewayEnv 1)
      (⟨sampleLargeDb, sampleGatewayWorld⟩ : State platformTables.backend)).1 = .error dataError := by
        decide +kernel
  rw [hok] at herr
  cases herr

/-! ### The usage of the keys -/

namespace PlatformDb

/-- Every request log names a key of its API. -/
def LoggedByKeys (db : PlatformDb) : Prop := ∀ r ∈ db.requestLogs.rows, ∃ k ∈ db.apiKeys.rows,
  r.apiKeyId = some k.id ∧ r.organizationId = k.organizationId ∧ r.apiId = k.apiId

/-- The ids of the keys of an API. -/
def keysOf (db : PlatformDb) (organizationId apiId : Uuid) : List Uuid :=
  (db.apiKeys.select fun k => k.organizationId == organizationId && k.apiId == apiId).map (·.id)

variable {db : PlatformDb} {day : Day} {organizationId apiId : Uuid}

theorem nodup_keysOf : (db.keysOf organizationId apiId).Nodup := by
  unfold keysOf Table.select
  refine List.pairwise_map.2 ((db.apiKeys.distinct.filter _).imp fun hab he => hab ?_)
  exact ApiKey.clash_iff.2 (.inl he)

/-- The logs of a key are logs of its API. -/
theorem filter_dayLogs (h : db.LoggedByKeys) {k : Uuid} (hk : k ∈ db.keysOf organizationId apiId) :
    ((db.dayLogs day organizationId apiId).filter fun r => decide (r.apiKeyId = some k)) =
      db.requestLogs.select fun r => r.apiKeyId == some k && r.createdAt / dayLength == day := by
  obtain ⟨key, hkey, rfl⟩ := List.mem_map.1 hk
  obtain ⟨hkey, hof⟩ := Table.mem_select.1 hkey
  simp only [Bool.and_eq_true, beq_iff_eq] at hof
  unfold dayLogs Table.select
  rw [List.filter_filter]
  refine List.filter_congr fun r hr => ?_
  obtain ⟨key', hkey', hid, horg, hapi⟩ := h r hr
  rw [Bool.eq_iff_iff]
  simp only [Bool.and_eq_true, decide_eq_true_iff, beq_iff_eq]
  constructor
  · rintro ⟨hkid, hday, -, -⟩
    exact ⟨hkid, hday⟩
  · rintro ⟨hkid, hday⟩
    -- one row has the id
    obtain rfl :=
      Table.eq_of_clash hkey' hkey
        (ApiKey.clash_iff.2 (.inl (Option.some.inj (hid.symm.trans hkid))))
    exact ⟨hkid, hday, horg.trans hof.1, hapi.trans hof.2⟩

/-- A total over the logs of an API, key by key. -/
theorem sum_by_keys (h : db.LoggedByKeys) (w : RequestLog → Nat) :
    ((db.dayLogs day organizationId apiId).map w).sum = ((db.keysOf organizationId apiId).map fun k =>
      ((db.requestLogs.select fun r => r.apiKeyId == some k && r.createdAt / dayLength == day).map
          w).sum).sum := by
  have hnodup : ((db.keysOf organizationId apiId).map some).Nodup :=
    nodup_keysOf.map (Option.some_injective _)
  have hkeys : ∀ r ∈ db.dayLogs day organizationId apiId,
      r.apiKeyId ∈ (db.keysOf organizationId apiId).map some := by
    intro r hr
    obtain ⟨hmem, hof⟩ := Table.mem_select.1 hr
    simp only [Bool.and_eq_true, beq_iff_eq] at hof
    obtain ⟨key, hkey, hid, horg, hapi⟩ := h r hmem
    rw [hid]
    refine List.mem_map_of_mem (List.mem_map_of_mem (Table.mem_select.2 ⟨hkey, ?_⟩))
    rw [← horg, ← hapi, hof.2.1, hof.2.2, beq_self_eq_true, beq_self_eq_true]
    rfl
  rw [sum_by_key hnodup hkeys, List.map_map]
  refine congrArg List.sum (List.map_congr_left fun k hk => ?_)
  exact congrArg (fun l : List RequestLog => (l.map w).sum) (filter_dayLogs h hk)

/-- Where the usage counts the request logs, the usage summed over the keys of an API is what a
rollup of the day stores. -/
theorem usage_rolledUp (hagg : db.Aggregated) (hkeys : db.LoggedByKeys) (hrolled : db.RolledUp day) :
    ((db.usageOf day organizationId apiId).map (·.requests)).sum =
        ((db.keysOf organizationId apiId).map fun k => (db.usage k day).1).sum ∧
      ((db.usageOf day organizationId apiId).map (·.errors)).sum =
        ((db.keysOf organizationId apiId).map fun k => (db.usage k day).2).sum := by
  have hrequests := @sum_by_keys db day organizationId apiId hkeys fun _ => 1
  have herrors :=
    @sum_by_keys db day organizationId apiId hkeys fun r => if 500 ≤ r.statusCode then 1 else 0
  simp only [sum_one, sum_errors] at hrequests herrors
  have husage : ∀ k, db.usage k day = db.logged k day := fun k => hagg k day
  simp only [husage]
  rcases hrolled organizationId apiId with ⟨hnil, hrows⟩ | ⟨-, r, hone, htotals⟩
  · rw [hnil] at hrequests herrors
    rw [hrows]
    exact ⟨hrequests, herrors⟩
  · rw [hone, List.map_singleton, List.sum_singleton, List.map_singleton, List.sum_singleton]
    exact ⟨htotals.requests.trans hrequests, htotals.errors.trans herrors⟩

end PlatformDb

end TrafficPlatform
