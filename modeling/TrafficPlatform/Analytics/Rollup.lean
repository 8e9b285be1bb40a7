import TrafficPlatform.Analytics
import TrafficPlatform.Gateway.Effects
import TrafficPlatform.Kit.Run
import Mathlib.Algebra.Order.BigOperators.Group.List

/-!
# The daily rollup

`rollup_daily` deletes the rows of a day and inserts the totals of its request logs.
`scope_rollupDaily` says which rows it leaves; an API that is logged under two organizations makes
it fail, because `daily_usage` has one row per API and day. Otherwise a day holds the totals of its
logs for every organization and API, until its next log.
-/

namespace TrafficPlatform
open Kit
open AnalyticsRepository (rollupRow addRollup rollupDaily)

/-- The sums that a row holds. -/
def DailyUsage.row (u : DailyUsage) : RollupRow where
  organizationId := u.organizationId
  apiId := u.apiId
  requests := u.requestCount
  errors := u.errorCount
  latency := u.totalLatencyMs
  reqBytes := u.totalRequestBytes
  respBytes := u.totalResponseBytes

/-- The columns of `daily_usage` take the sums. -/
def RollupRow.fits (r : RollupRow) : Bool :=
  fitsInteger r.requests && fitsInteger r.errors && fitsInteger r.reqBytes && fitsInteger r.respBytes

/-- The row holds the totals of the request logs; their latencies are added up as doubles, in some
order. -/
structure RollupRow.Totals (organizationId apiId : Uuid) (logs : List RequestLog)
    (r : RollupRow) : Prop where
  organizationId : r.organizationId = organizationId
  apiId : r.apiId = apiId
  requests : r.requests = logs.length
  errors : r.errors = logs.countP fun l => decide (500 ≤ l.statusCode)
  latency : Double.SumsTo (logs.map (·.latencyMs)) r.latency
  reqBytes : r.reqBytes = (logs.map (·.requestBytes)).sum
  respBytes : r.respBytes = (logs.map (·.responseBytes)).sum

/-- One row with the totals of the logs, if there are any, and no row otherwise. -/
def HoldsTotals (organizationId apiId : Uuid) (logs : List RequestLog) (rows : List RollupRow) : Prop :=
  (logs = [] ∧ rows = []) ∨ (logs ≠ [] ∧ ∃ r, rows = [r] ∧ r.Totals organizationId apiId logs)

namespace PlatformDb

/-- The request logs of an API under an organization on a day. -/
def dayLogs (db : PlatformDb) (day : Day) (organizationId apiId : Uuid) : List RequestLog :=
  db.requestLogs.select
    fun r => r.createdAt / dayLength == day &&
      (r.organizationId == organizationId && r.apiId == apiId)

/-- What `daily_usage` holds for an API under an organization on a day. -/
def usageOf (db : PlatformDb) (day : Day) (organizationId apiId : Uuid) : List RollupRow :=
  (db.dailyUsage.select
    fun u => u.usageDate == day && (u.organizationId == organizationId && u.apiId == apiId)).map
      (·.row)

/-- For every organization and API with logs on the day there is one row with their totals, and no
other row. -/
def RolledUp (db : PlatformDb) (day : Day) : Prop :=
  ∀ organizationId apiId,
    HoldsTotals organizationId apiId (db.dayLogs day organizationId apiId)
      (db.usageOf day organizationId apiId)

/-- The same totals of the same logs; where the rows differ, they hold them both, added up in
different orders. -/
structure SameUsage (db db' : PlatformDb) : Prop where
  logs : db'.requestLogs = db.requestLogs
  rows : ∀ day organizationId apiId, db'.usageOf day organizationId apiId =
    db.usageOf day organizationId apiId ∨
    HoldsTotals organizationId apiId (db.dayLogs day organizationId apiId)
      (db.usageOf day organizationId apiId) ∧
      HoldsTotals organizationId apiId (db.dayLogs day organizationId apiId)
        (db'.usageOf day organizationId apiId)

/-- All logs of an API carry one organization. -/
def OneOrganization (db : PlatformDb) : Prop :=
  ∀ r ∈ db.requestLogs.rows, ∀ r' ∈ db.requestLogs.rows, r.apiId = r'.apiId →
    r.organizationId = r'.organizationId

/-- The totals of the day are below the bound of their columns. -/
structure TotalsFit (db : PlatformDb) (day : Day) : Prop where
  requests : ∀ organizationId apiId, (db.dayLogs day organizationId apiId).length < 2 ^ 31
  requestBytes : ∀ organizationId apiId,
    ((db.dayLogs day organizationId apiId).map (·.requestBytes)).sum < 2 ^ 31
  responseBytes : ∀ organizationId apiId,
    ((db.dayLogs day organizationId apiId).map (·.responseBytes)).sum < 2 ^ 31

/-- The rows that `rollup_daily` adds if it meets the logs in the order of number `n`. -/
def rollupRows (db : PlatformDb) (day : Day) (n : Nat) : List RollupRow :=
  (groupBy (fun r : RequestLog => (r.organizationId, r.apiId))
    (arrange n (db.requestLogs.select fun r => decide (day * dayLength ≤ r.createdAt) &&
      decide (r.createdAt ≤ day * dayLength + (dayLength - 1))))).map fun g => rollupRow g.1.1 g.1.2 g.2

end PlatformDb

/-! ### The query -/

theorem mem_day_iff (day : Day) (t : Nat) :
    (day * dayLength ≤ t ∧ t ≤ day * dayLength + (dayLength - 1)) ↔ t / dayLength = day := by
  have hbounds : ∀ d n : Nat, 0 < n → ((d * n ≤ t ∧ t ≤ d * n + (n - 1)) ↔ t / n = d) := by
    intro d n hn
    rw [Nat.div_eq_iff hn]
    omega
  exact hbounds day dayLength (by decide)

theorem queried_eq (db : PlatformDb) (day : Day) :
    (db.requestLogs.select fun r => decide (day * dayLength ≤ r.createdAt) &&
      decide (r.createdAt ≤ day * dayLength + (dayLength - 1))) =
    db.requestLogs.select fun r => r.createdAt / dayLength == day := by
  refine List.filter_congr fun r _ => ?_
  rw [Bool.eq_iff_iff, Bool.and_eq_true, decide_eq_true_iff, decide_eq_true_iff, beq_iff_eq]
  exact mem_day_iff day r.createdAt

theorem totals_rollupRow {organizationId apiId : Uuid} {rows logs : List RequestLog}
    (h : rows.Perm logs) :
    (rollupRow organizationId apiId rows).Totals organizationId apiId logs where
  organizationId := rfl
  apiId := rfl
  requests := h.length_eq
  errors := h.countP_eq _
  latency := (Double.sumsTo_addUp _).perm (h.map _)
  reqBytes := (h.map _).sum_eq
  respBytes := (h.map _).sum_eq

theorem RollupRow.Totals.fits_iff {organizationId apiId : Uuid} {logs : List RequestLog} {r : RollupRow}
    (h : r.Totals organizationId apiId logs) : r.fits = true ↔ logs.length < 2 ^ 31 ∧
      (logs.map (·.requestBytes)).sum < 2 ^ 31 ∧ (logs.map (·.responseBytes)).sum < 2 ^ 31 := by
  -- there are no more errors than requests
  have herrors : r.errors ≤ r.requests := by
    rw [h.errors, h.requests]
    exact List.countP_le_length
  rw [← h.requests, ← h.reqBytes, ← h.respBytes]
  unfold RollupRow.fits fitsInteger
  simp only [Bool.and_eq_true, decide_eq_true_iff, and_assoc]
  constructor
  · rintro ⟨hrequests, -, hreq, hresp⟩
    exact ⟨hrequests, hreq, hresp⟩
  · rintro ⟨hrequests, hreq, hresp⟩
    exact ⟨hrequests, herrors.trans_lt hrequests, hreq, hresp⟩

/-- The rows of the query for an organization and an API. -/
theorem holdsTotals_rollupRows (db : PlatformDb) (day : Day) (n : Nat) (organizationId apiId : Uuid) :
    HoldsTotals organizationId apiId (db.dayLogs day organizationId apiId)
      ((db.rollupRows day n).filter
          fun r => r.organizationId == organizationId && r.apiId == apiId) := by
  have hlogs : ((arrange n (db.requestLogs.select fun r => r.createdAt / dayLength == day)).filter
      fun r => decide ((r.organizationId, r.apiId) = (organizationId, apiId))).Perm
          (db.dayLogs day organizationId apiId) := by
    refine ((arrange_perm n _).filter _).trans (List.Perm.of_eq ?_)
    unfold PlatformDb.dayLogs Table.select
    rw [List.filter_filter]
    refine List.filter_congr fun r _ => ?_
    rw [Bool.eq_iff_iff]
    simp [and_comm]
  unfold PlatformDb.rollupRows
  rw [queried_eq, List.filter_map]
  have hpred : ((fun r : RollupRow => r.organizationId == organizationId && r.apiId == apiId) ∘
      fun g : (Uuid × Uuid) × List RequestLog => rollupRow g.1.1 g.1.2 g.2) =
        fun g => decide (g.1 = (organizationId, apiId)) := by
    funext g
    rw [Bool.eq_iff_iff]
    simp [rollupRow, Prod.ext_iff]
  rw [hpred, filter_groupBy]
  split
  · rename_i hempty
    exact .inl ⟨List.nil_perm.1 (hempty ▸ hlogs), rfl⟩
  · rename_i hne
    exact .inr ⟨fun hempty => hne (List.perm_nil.1 (hempty ▸ hlogs)), _, rfl, totals_rollupRow hlogs⟩

/-! ### The writes -/

/-- The rows that `addRollup` adds: new ids for the sums. -/
structure NewUsage (day : Day) (rows : List RollupRow) (low high : Uuid)
    (new : List DailyUsage) : Prop where
  rows_eq : new.map (·.row) = rows
  date : ∀ u ∈ new, u.usageDate = day
  low_le : ∀ u ∈ new, low ≤ u.id
  lt_high : ∀ u ∈ new, u.id < high
  ids : new.Pairwise fun u u' => u.id ≠ u'.id

theorem eval_addRollup (day : Day) (rows : List RollupRow) (s : Session platformTables.backend) :
    ∃ new high envs, s.world.supply ≤ high ∧ NewUsage day rows s.world.supply high new ∧
      ∀ k : Unit → Platform Nat, (addRollup day rows >>= k).eval s =
        (k ()).eval ⟨s.db, s.dirty ++ new.map .addDailyUsage,
            { s.world with supply := high }, envs⟩ := by
  induction rows generalizing s with
  | nil =>
    refine ⟨[], s.world.supply, s.envs, le_refl _, ⟨rfl, ?_, ?_, ?_, .nil⟩, fun k => ?_⟩
    · exact fun u hu => absurd hu List.not_mem_nil
    · exact fun u hu => absurd hu List.not_mem_nil
    · exact fun u hu => absurd hu List.not_mem_nil
    · rw [List.map_nil, List.append_nil]
      rfl
  | cons r rows ih =>
    let id := (World.uuid4 (s.envs 0) s.world).1
    let u : DailyUsage :=
      ⟨id, r.organizationId, r.apiId, day, r.requests, r.errors, r.latency, r.reqBytes, r.respBytes⟩
    obtain ⟨new, high, envs, hle, hnew, heval⟩ :=
      ih ⟨s.db, s.dirty ++ [.addDailyUsage u], { s.world with supply := id + 1 },
      fun n => s.envs (n + 1)⟩
    have hid : s.world.supply ≤ id := Nat.le_max_left _ _
    have hhigh : id < high := hle
    refine ⟨u :: new, high, envs, hid.trans hhigh.le, ⟨?_, ?_, ?_, ?_, ?_⟩, fun k => ?_⟩
    · rw [List.map_cons, hnew.rows_eq]
      rfl
    · exact List.forall_mem_cons.2 ⟨rfl, hnew.date⟩
    · exact List.forall_mem_cons.2
        ⟨hid, fun u' hu' => hid.trans ((Nat.le_succ _).trans (hnew.low_le u' hu'))⟩
    · exact List.forall_mem_cons.2 ⟨hhigh, hnew.lt_high⟩
    · exact List.pairwise_cons.2 ⟨fun u' hu' => Nat.ne_of_lt (hnew.low_le u' hu'), hnew.ids⟩
    · refine (heval k).trans ?_
      rw [List.append_assoc]
      rfl

theorem applyAll_deleteDailyUsage (us : List DailyUsage) (db : PlatformDb) :
    applyAll platformTables.backend (us.map fun u => .deleteDailyUsage u.id) db =
      { db with dailyUsage := db.dailyUsage.delete fun u => us.any fun u' => u.id == u'.id } := by
  induction us generalizing db with
  | nil =>
    have hsame : db.dailyUsage.delete (fun _ => false) = db.dailyUsage :=
      Table.ext_rows (List.filter_true _)
    exact congrArg (fun t => { db with dailyUsage := t }) hsame.symm
  | cons u us ih =>
    rw [List.map_cons, applyAll_cons]
    refine (ih (db.deleteDailyUsage u.id)).trans ?_
    exact congrArg (fun t => { db with dailyUsage := t }) (Table.delete_delete db.dailyUsage _ _)

theorem delete_day (t : Table DailyUsage) (day : Day) :
    (t.delete fun u => (t.select fun u => u.usageDate == day).any fun u' => u.id == u'.id) =
      t.delete fun u => u.usageDate == day := by
  refine Table.ext_rows (List.filter_congr fun u hu => congrArg Bool.not ?_)
  rw [Bool.eq_iff_iff, List.any_eq_true]
  constructor
  · rintro ⟨u', hu', he⟩
    obtain ⟨hmem, hday⟩ := Table.mem_select.1 hu'
    rw [Table.eq_of_clash hu hmem (DailyUsage.clash_iff.2 (.inl (beq_iff_eq.1 he)))]
    exact hday
  · exact fun hday => ⟨u, Table.mem_select.2 ⟨hu, hday⟩, beq_self_eq_true _⟩

/-- The flush of new rows that violate no constraint succeeds exactly if they fit. -/
theorem flushAll_addDailyUsage {new : List DailyUsage} {db : PlatformDb}
    (hdistinct : (db.dailyUsage.rows ++ new).Pairwise fun a b => ¬ Schema.clash a b = true) :
    ((∀ u ∈ new, u.fits = true) ∧ ∃ db',
      flushAll platformTables.backend (new.map .addDailyUsage) db = .ok db') ∨
      ((∃ u ∈ new, ¬ u.fits = true) ∧ flushAll platformTables.backend (new.map .addDailyUsage) db =
          .error dataError) := by
  induction new generalizing db with
  | nil => exact .inl ⟨fun u hu => absurd hu List.not_mem_nil, db, rfl⟩
  | cons u new ih =>
    have hadmits : db.dailyUsage.admits u = true :=
      Table.admits_iff.2 fun a ha => (List.pairwise_append.1 hdistinct).2.2 a ha u List.mem_cons_self
    rw [List.map_cons]
    by_cases hu : u.fits = true
    · have hcheck : (PlatformOp.addDailyUsage u).check db = .ok () := insertCheck_eq_ok.2 ⟨hu, hadmits⟩
      rw [flushAll_cons hcheck]
      have hrows : (db.addDailyUsage u).dailyUsage.rows ++ new = db.dailyUsage.rows ++ u :: new := by
        rw [show (db.addDailyUsage u).dailyUsage.rows = _ from Table.rows_insert hadmits,
          List.append_assoc]
        rfl
      have hrest : ((db.addDailyUsage u).dailyUsage.rows ++ new).Pairwise
        fun a b => ¬ Schema.clash a b = true := hrows ▸ hdistinct
      rcases ih hrest with ⟨hfits, db', hflush⟩ | ⟨⟨u', hu', hno⟩, hflush⟩
      · refine .inl ⟨fun u' hu' => ?_, db', hflush⟩
        rcases List.mem_cons.1 hu' with rfl | hu'
        · exact hu
        · exact hfits u' hu'
      · exact .inr ⟨⟨u', List.mem_cons_of_mem _ hu', hno⟩, hflush⟩
    · refine .inr ⟨⟨u, List.mem_cons_self, hu⟩, ?_⟩
      have hcheck : (PlatformOp.addDailyUsage u).check db = .error dataError := by
        show insertCheck u.fits (db.dailyUsage.admits u) = _
        rw [Bool.not_eq_true] at hu
        rw [hu]
        rfl
      unfold flushAll
      rw [show platformTables.backend.check (.addDailyUsage u) db = _ from hcheck]

/-- The tables after the flush. -/
theorem flushAll_addDailyUsage_eq {new : List DailyUsage} {db db' : PlatformDb}
    (h : flushAll platformTables.backend (new.map .addDailyUsage) db = .ok db') :
    ∃ t : Table DailyUsage, t.rows = db.dailyUsage.rows ++ new ∧ db' = { db with dailyUsage := t } := by
  induction new generalizing db with
  | nil =>
    cases h
    exact ⟨_, (List.append_nil _).symm, rfl⟩
  | cons u new ih =>
    rw [List.map_cons] at h
    unfold flushAll at h
    split at h
    · rename_i hcheck
      obtain ⟨t, ht, rfl⟩ := ih h
      have hrows : (db.addDailyUsage u).dailyUsage.rows = db.dailyUsage.rows ++ [u] :=
        Table.rows_insert (insertCheck_eq_ok.1 hcheck).2
      exact ⟨t, ht.trans ((congrArg (· ++ new) hrows).trans (List.append_assoc _ _ _)), rfl⟩
    · cases h

/-! ### One call -/

/-- The database without the rows of the day. -/
def PlatformDb.cleared (db : PlatformDb) (day : Day) : PlatformDb :=
  { db with dailyUsage := db.dailyUsage.delete fun u => u.usageDate == day }

/-- `rollup_daily` clears the day and flushes its sums, under new ids; its first environment gives
the order in which it meets the logs. -/
theorem scope_rollupDaily (day : Day) (envs : Nat → Env PlatformInput)
    (s : State platformTables.backend) :
    ∃ new high, s.world.supply ≤ high ∧
      NewUsage day (s.db.rollupRows day (envs 0).number) s.world.supply high new ∧
      scope (rollupDaily day) envs s = match flushAll platformTables.backend
          (new.map .addDailyUsage) (s.db.cleared day) with
        | .ok db => (.ok (s.db.rollupRows day (envs 0).number).length, ⟨db, { s.world with supply := high }⟩)
        | .error e => (.error e, ⟨s.db, { s.world with supply := high }⟩) := by
  obtain ⟨new, high, envs', hle, hnew, heval⟩ :=
    eval_addRollup day (s.db.rollupRows day (envs 0).number)
    ⟨s.db.cleared day, [], s.world, fun n => envs (n + 1)⟩
  have hcleared : applyAll platformTables.backend
      ((s.db.dailyUsage.select fun u => u.usageDate == day).map fun u => .deleteDailyUsage u.id)
          s.db = s.db.cleared day :=
    (applyAll_deleteDailyUsage _ _).trans
      (congrArg (fun t => { s.db with dailyUsage := t }) (delete_day _ _))
  refine ⟨new, high, hle, hnew, ?_⟩
  have hrun : (rollupDaily day).commit.eval ⟨s.db, [], s.world, envs⟩ =
      match flushAll platformTables.backend (new.map .addDailyUsage) (s.db.cleared day) with
        | .ok db => (.ok (s.db.rollupRows day (envs 0).number).length,
            ⟨db, [], { s.world with supply := high }, envs'⟩)
        | .error e => (.error e, ⟨s.db.cleared day, new.map .addDailyUsage,
            { s.world with supply := high }, envs'⟩) := by
    unfold Prog.commit rollupDaily AnalyticsRepository.inAnyOrder
    simp only [Prog.bind_assoc', Prog.eval_executeAll, Prog.eval_query, Prog.eval_ask]
    rw [hcleared]
    refine (heval _).trans ?_
    rw [Prog.eval_flushSession]
    dsimp only [List.nil_append]
    split <;> rename_i hflush <;> rw [hflush]
    rfl
  cases hflush : flushAll platformTables.backend (new.map .addDailyUsage) (s.db.cleared day) with
  | ok db => exact scope_of_ok (by rw [hrun, hflush])
  | error e => exact scope_of_error (by rw [hrun, hflush])

section
variable {db : PlatformDb} {day : Day} {n : Nat} {low high : Uuid} {new : List DailyUsage}
    {t : Table DailyUsage}

theorem usageOf_congr {db' : PlatformDb}
    (h : (db'.dailyUsage.select fun u => u.usageDate == day) = db.dailyUsage.select
      fun u => u.usageDate == day)
    (organizationId apiId : Uuid) : db'.usageOf day organizationId apiId =
        db.usageOf day organizationId apiId := by
  have hselect : ∀ t : Table DailyUsage,
      (t.select fun u => u.usageDate == day &&
        (u.organizationId == organizationId && u.apiId == apiId)) =
        (t.select fun u => u.usageDate == day).filter
            fun u => u.organizationId == organizationId && u.apiId == apiId := by
    intro t
    unfold Table.select
    rw [List.filter_filter]
    exact List.filter_congr fun u _ => Bool.and_comm _ _
  unfold PlatformDb.usageOf
  rw [hselect, hselect, h]

theorem select_day {rows : List RollupRow} (hnew : NewUsage day rows low high new)
    (ht : t.rows = (db.cleared day).dailyUsage.rows ++ new) :
        (t.select fun u => u.usageDate == day) = new := by
  unfold Table.select
  rw [ht, List.filter_append]
  have hkept : (db.cleared day).dailyUsage.rows.filter (fun u => u.usageDate == day) = [] :=
    List.filter_eq_nil_iff.2 fun u hu => (Table.mem_delete.1 hu).2
  rw [hkept, List.nil_append, List.filter_eq_self]
  exact fun u hu => beq_iff_eq.2 (hnew.date u hu)

theorem select_other {rows : List RollupRow} (hnew : NewUsage day rows low high new)
    (ht : t.rows = (db.cleared day).dailyUsage.rows ++ new) {other : Day} (hne : other ≠ day) :
    (t.select fun u => u.usageDate == other) = db.dailyUsage.select fun u => u.usageDate == other := by
  unfold Table.select
  rw [ht, List.filter_append]
  have hothers : new.filter (fun u => u.usageDate == other) = [] :=
    List.filter_eq_nil_iff.2 fun u hu he => hne ((beq_iff_eq.1 he).symm.trans (hnew.date u hu))
  rw [hothers, List.append_nil]
  unfold PlatformDb.cleared Table.delete
  dsimp only
  rw [List.filter_filter]
  refine List.filter_congr fun u _ => ?_
  rw [Bool.eq_iff_iff, Bool.and_eq_true, and_iff_left_iff_imp, beq_iff_eq]
  rintro rfl
  simpa using hne

theorem rolledUp_flushed (hnew : NewUsage day (db.rollupRows day n) low high new)
    (ht : t.rows = (db.cleared day).dailyUsage.rows ++ new) :
        ({ db with dailyUsage := t } : PlatformDb).RolledUp day := by
  intro organizationId apiId
  have hselect :
      (t.select fun u => u.usageDate == day &&
        (u.organizationId == organizationId && u.apiId == apiId)) =
      new.filter fun u => u.organizationId == organizationId && u.apiId == apiId := by
    rw [← select_day hnew ht]
    unfold Table.select
    rw [List.filter_filter]
    exact List.filter_congr fun u _ => Bool.and_comm _ _
  have husage : ({ db with dailyUsage := t } : PlatformDb).usageOf day organizationId apiId =
      (db.rollupRows day n).filter fun r => r.organizationId == organizationId && r.apiId == apiId := by
    unfold PlatformDb.usageOf
    dsimp only
    rw [hselect, ← hnew.rows_eq, List.filter_map]
    rfl
  rw [husage]
  exact holdsTotals_rollupRows db day n organizationId apiId

theorem mem_rollupRows {r : RollupRow} (h : r ∈ db.rollupRows day n) :
    db.dayLogs day r.organizationId r.apiId ≠ [] ∧
      r.Totals r.organizationId r.apiId (db.dayLogs day r.organizationId r.apiId) := by
  have hfilter :
      r ∈ (db.rollupRows day n).filter
          fun r' => r'.organizationId == r.organizationId && r'.apiId == r.apiId :=
    List.mem_filter.2 ⟨h, by simp⟩
  rcases holdsTotals_rollupRows db day n r.organizationId r.apiId with
    ⟨-, hnil⟩ | ⟨hne, r', hone, htotals⟩
  · rw [hnil] at hfilter
    cases hfilter
  · rw [hone] at hfilter
    exact ⟨hne, List.mem_singleton.1 hfilter ▸ htotals⟩

theorem exists_rollupRow {organizationId apiId : Uuid}
    (h : db.dayLogs day organizationId apiId ≠ []) (n : Nat) :
    ∃ r ∈ db.rollupRows day n, r.Totals organizationId apiId (db.dayLogs day organizationId apiId) := by
  rcases holdsTotals_rollupRows db day n organizationId apiId with ⟨hnil, -⟩ | ⟨-, r, hone, htotals⟩
  · exact absurd hnil h
  · have hr : r ∈ (db.rollupRows day n).filter
        fun r => r.organizationId == organizationId && r.apiId == apiId := by
      rw [hone]
      exact List.mem_singleton_self r
    exact ⟨r, (List.mem_filter.1 hr).1, htotals⟩

/-- Under one organization for every API of the day the query has one row for every API. -/
theorem rollupRows_apis_on
    (h : ∀ r ∈ db.requestLogs.rows, ∀ r' ∈ db.requestLogs.rows, r.createdAt / dayLength = day →
    r'.createdAt / dayLength = day → r.apiId = r'.apiId → r.organizationId = r'.organizationId) :
    (db.rollupRows day n).Pairwise fun r r' => r.apiId ≠ r'.apiId := by
  have hmem : ∀ {r : RollupRow}, r ∈ db.rollupRows day n → ∃ l ∈ db.requestLogs.rows,
      l.createdAt / dayLength = day ∧
      l.organizationId = r.organizationId ∧ l.apiId = r.apiId := by
    intro r hr
    obtain ⟨l, hl⟩ := List.exists_mem_of_ne_nil _ (mem_rollupRows hr).1
    obtain ⟨hl, hkey⟩ := Table.mem_select.1 hl
    simp only [Bool.and_eq_true, beq_iff_eq] at hkey
    exact ⟨l, hl, hkey⟩
  have hkeys : (db.rollupRows day n).Pairwise
      fun r r' => (r.organizationId, r.apiId) ≠ (r'.organizationId, r'.apiId) :=
    List.pairwise_map.2 (List.pairwise_map.1 nodup_keys_groupBy)
  refine hkeys.imp_of_mem fun {r r'} hr hr' hne he => hne ?_
  obtain ⟨l, hl, hday, ho, ha⟩ := hmem hr
  obtain ⟨l', hl', hday', ho', ha'⟩ := hmem hr'
  rw [← ho, ← ho', h l hl l' hl' hday hday' (by rw [ha, ha', he]), he]

theorem rollupRows_apis (h : db.OneOrganization) :
    (db.rollupRows day n).Pairwise fun r r' => r.apiId ≠ r'.apiId :=
  rollupRows_apis_on fun r hr r' hr' _ _ => h r hr r' hr'

theorem rollupRows_fit : (∀ r ∈ db.rollupRows day n, r.fits = true) ↔ db.TotalsFit day := by
  constructor
  · intro h
    have hrow : ∀ organizationId apiId, (db.dayLogs day organizationId apiId).length < 2 ^ 31 ∧
        ((db.dayLogs day organizationId apiId).map (·.requestBytes)).sum < 2 ^ 31 ∧
        ((db.dayLogs day organizationId apiId).map (·.responseBytes)).sum < 2 ^ 31 := by
      intro organizationId apiId
      by_cases hlogs : db.dayLogs day organizationId apiId = []
      · simp [hlogs]
      · obtain ⟨r, hr, htotals⟩ := exists_rollupRow hlogs n
        exact htotals.fits_iff.1 (h r hr)
    exact ⟨fun o a => (hrow o a).1, fun o a => (hrow o a).2.1, fun o a => (hrow o a).2.2⟩
  · intro h r hr
    have htotals := (mem_rollupRows hr).2
    exact htotals.fits_iff.2 ⟨h.requests _ _, h.requestBytes _ _, h.responseBytes _ _⟩

end

/-- The row ids that were handed out are below the supply, and every row has logs. -/
structure Sound (s : State platformTables.backend) : Prop where
  supplied : ∀ u ∈ s.db.dailyUsage.rows, u.id < s.world.supply
  logged : ∀ u ∈ s.db.dailyUsage.rows, s.db.dayLogs u.usageDate u.organizationId u.apiId ≠ []

/-- What a call of `rollup_daily` does in any case. -/
structure Rollup (day : Day) (s s' : State platformTables.backend) : Prop where
  logs : s'.db.requestLogs = s.db.requestLogs
  others : ∀ other, other ≠ day →
    (s'.db.dailyUsage.select fun u => u.usageDate == other) = s.db.dailyUsage.select
      fun u => u.usageDate == other
  outcome : s'.db.RolledUp day ∨ s'.db = s.db
  sound : Sound s → Sound s'

theorem rollup_step (day : Day) (envs : Nat → Env PlatformInput) (s : State platformTables.backend) :
    Rollup day s (scope (rollupDaily day) envs s).2 := by
  obtain ⟨new, high, hle, hnew, hscope⟩ := scope_rollupDaily day envs s
  rw [hscope]
  cases hflush : flushAll platformTables.backend (new.map .addDailyUsage) (s.db.cleared day) with
  | error e =>
    exact ⟨rfl, fun _ _ => rfl, .inr rfl,
      fun h => ⟨fun u hu => (h.supplied u hu).trans_le hle, h.logged⟩⟩
  | ok db =>
    obtain ⟨t, ht, rfl⟩ := flushAll_addDailyUsage_eq hflush
    have hrolled : ({ s.db with dailyUsage := t } : PlatformDb).RolledUp day := rolledUp_flushed hnew ht
    refine ⟨rfl, fun other hne => select_other hnew ht hne, .inl hrolled, fun h => ?_⟩
    have hrows : ∀ u ∈ t.rows, u ∈ s.db.dailyUsage.rows ∨ u ∈ new := fun u hu =>
      (List.mem_append.1 (ht ▸ hu)).imp_left fun hu => (Table.mem_delete.1 hu).1
    constructor
    · intro u hu
      rcases hrows u hu with hu | hu
      · exact (h.supplied u hu).trans_le hle
      · exact hnew.lt_high u hu
    · intro u hu
      rcases hrows u hu with hu | hu
      · exact h.logged u hu
      · rw [hnew.date u hu]
        exact (mem_rollupRows (r := u.row) (hnew.rows_eq ▸ List.mem_map_of_mem hu)).1

/-- If every API is logged under one organization, the call succeeds exactly if the totals fit; no
constraint is violated then. -/
theorem rollup_outcome {day : Day} {s : State platformTables.backend}
    (hs : ∀ u ∈ s.db.dailyUsage.rows, u.id < s.world.supply) {envs : Nat → Env PlatformInput}
    (hapis : (s.db.rollupRows day (envs 0).number).Pairwise fun r r' => r.apiId ≠ r'.apiId) :
    let out := scope (rollupDaily day) envs s
    (s.db.TotalsFit day ∧ (∃ n, out.1 = .ok n) ∧ out.2.db.RolledUp day) ∨
      (¬ s.db.TotalsFit day ∧ out.1 = .error dataError) := by
  obtain ⟨new, high, hle, hnew, hscope⟩ := scope_rollupDaily day envs s
  have hnewapis : new.Pairwise fun u u' => u.apiId ≠ u'.apiId :=
    (List.pairwise_map (f := DailyUsage.row)).1 (hnew.rows_eq.symm ▸ hapis)
  have hdistinct : ((s.db.cleared day).dailyUsage.rows ++ new).Pairwise
      fun a b => ¬ Schema.clash a b = true := by
    refine List.pairwise_append.2 ⟨(s.db.cleared day).dailyUsage.distinct, ?_, fun u hu u' hu' hc => ?_⟩
    · refine hnewapis.imp₂ (fun u u' ha hi hc => ?_) hnew.ids
      rcases DailyUsage.clash_iff.1 hc with hc | hc
      · exact hi hc
      · exact ha hc.1
    · obtain ⟨hu, hday⟩ := Table.mem_delete.1 hu
      rcases DailyUsage.clash_iff.1 hc with hc | hc
      · exact absurd hc (Nat.ne_of_lt ((hs u hu).trans_le (hnew.low_le u' hu')))
      · exact hday (beq_iff_eq.2 (hc.2.trans (hnew.date u' hu')))
  have hrows : ∀ r, r ∈ s.db.rollupRows day (envs 0).number ↔ ∃ u ∈ new, u.row = r := fun r =>
    hnew.rows_eq ▸ List.mem_map
  dsimp only
  rw [hscope, ← rollupRows_fit]
  rcases flushAll_addDailyUsage hdistinct with ⟨hfits, db, hdb⟩ | ⟨⟨u, hu, hno⟩, herr⟩
  · obtain ⟨t, ht, rfl⟩ := flushAll_addDailyUsage_eq hdb
    have hrolled : ({ s.db with dailyUsage := t } : PlatformDb).RolledUp day := rolledUp_flushed hnew ht
    rw [hdb]
    refine .inl ⟨fun r hr => ?_, ⟨_, rfl⟩, hrolled⟩
    obtain ⟨u, hu, rfl⟩ := (hrows r).1 hr
    exact hfits u hu
  · rw [herr]
    exact .inr ⟨fun hfits => hno (hfits u.row ((hrows _).2 ⟨u, hu, rfl⟩)), rfl⟩

theorem rollup_ok_apis {day : Day} {s : State platformTables.backend}
    {envs : Nat → Env PlatformInput} {n : Nat} (h : (scope (rollupDaily day) envs s).1 = .ok n) :
    (s.db.rollupRows day (envs 0).number).Pairwise fun r r' => r.apiId ≠ r'.apiId := by
  obtain ⟨new, high, hle, hnew, hscope⟩ := scope_rollupDaily day envs s
  rw [hscope] at h
  cases hflush : flushAll platformTables.backend (new.map .addDailyUsage) (s.db.cleared day) with
  | error e =>
    rw [hflush] at h
    cases h
  | ok db =>
    obtain ⟨t, ht, -⟩ := flushAll_addDailyUsage_eq hflush
    have hdistinct :
      new.Pairwise fun u u' => ¬ Schema.clash u u' = true :=
        (List.pairwise_append.1 (ht ▸ t.distinct)).2.1
    rw [← hnew.rows_eq, List.pairwise_map]
    refine hdistinct.imp_of_mem fun {u u'} hu hu' hno he => hno (DailyUsage.clash_iff.2 (.inr ⟨he, ?_⟩))
    rw [hnew.date u hu, hnew.date u' hu']

theorem rollup_ok {day : Day} {s : State platformTables.backend} (hs : Sound s)
    (hone : s.db.OneOrganization) (hfits : s.db.TotalsFit day) (envs : Nat → Env PlatformInput) :
    (∃ n, (scope (rollupDaily day) envs s).1 = .ok n) ∧
        (scope (rollupDaily day) envs s).2.db.RolledUp day := by
  have hapis : (s.db.rollupRows day (envs 0).number).Pairwise _ := rollupRows_apis hone
  rcases rollup_outcome hs.supplied hapis with ⟨-, hok⟩ | ⟨hno, -⟩
  · exact hok
  · exact absurd hfits hno

/-! ### Histories -/

/-- An event of a history: a transaction that inserts a request log, or a call of `rollup_daily`. -/
inductive UsageEvent
  | insertLog (r : RequestLog) (envs : Nat → Env PlatformInput)
  | rollup (day : Day) (envs : Nat → Env PlatformInput)

namespace UsageEvent

def next (s : State platformTables.backend) : UsageEvent → State platformTables.backend
  | insertLog r envs => (scope (Prog.set (.addRequestLog r) : Platform Unit) envs s).2
  | rollup day envs => (scope (rollupDaily day) envs s).2

/-- The event inserts no log of the day. -/
def Spares (day : Day) : UsageEvent → Prop
  | insertLog r _ => r.createdAt / dayLength ≠ day
  | rollup _ _ => True

end UsageEvent

/-- The day is rolled up after its last log. -/
def RolledUpLast (day : Day) (es : List UsageEvent) : Prop :=
  ∃ es₁ envs es₂, es = es₁ ++ .rollup day envs :: es₂ ∧ ∀ e ∈ es₂, e.Spares day

theorem next_rollup (day : Day) (envs : Nat → Env PlatformInput) (s : State platformTables.backend) :
    UsageEvent.next s (.rollup day envs) = (scope (rollupDaily day) envs s).2 := rfl

theorem rollup_next (day : Day) (envs : Nat → Env PlatformInput) (s : State platformTables.backend) :
    Rollup day s (UsageEvent.next s (.rollup day envs)) := rollup_step day envs s

theorem insertLog_step (r : RequestLog) (envs : Nat → Env PlatformInput)
    (s : State platformTables.backend) :
    UsageEvent.next s (.insertLog r envs) = s ∨
      ((PlatformOp.addRequestLog r).check s.db = .ok () ∧ UsageEvent.next s (.insertLog r envs) =
          ⟨s.db.addRequestLog r, s.world⟩) := by
  have hscope := scope_set (B := platformTables.backend) (.addRequestLog r) envs s
  unfold UsageEvent.next
  dsimp only
  rw [hscope]
  cases hcheck : platformTables.backend.check (.addRequestLog r) s.db with
  | error e => exact .inl rfl
  | ok _ => exact .inr ⟨hcheck, rfl⟩

theorem requestLogs_next (s : State platformTables.backend) (e : UsageEvent) :
    (e.next s).db.requestLogs = s.db.requestLogs ∨
      ∃ r envs, e = .insertLog r envs ∧ (e.next s).db.requestLogs.rows = s.db.requestLogs.rows ++
          [r.stored] := by
  cases e with
  | rollup day envs => exact .inl (rollup_next day envs s).logs
  | insertLog r envs =>
    rcases insertLog_step r envs s with h | ⟨hcheck, h⟩
    · exact .inl (congrArg (fun s : State platformTables.backend => s.db.requestLogs) h)
    · refine .inr ⟨r, envs, rfl, ?_⟩
      exact (congrArg (fun s : State platformTables.backend => s.db.requestLogs.rows) h).trans
        (rows_addRequestLog hcheck)

theorem insertLog_dailyUsage (r : RequestLog) (envs : Nat → Env PlatformInput)
    (s : State platformTables.backend) :
    (UsageEvent.next s (.insertLog r envs)).db.dailyUsage = s.db.dailyUsage ∧
      (UsageEvent.next s (.insertLog r envs)).world = s.world := by
  rcases insertLog_step r envs s with h | ⟨-, h⟩ <;> rw [h]
  · exact ⟨rfl, rfl⟩
  · exact ⟨rfl, rfl⟩

theorem mem_logs_run {r : RequestLog} {s : State platformTables.backend}
    (h : r ∈ s.db.requestLogs.rows) (es : List UsageEvent) :
    r ∈ (run UsageEvent.next s es).db.requestLogs.rows := by
  refine run_invariant (I := fun s : State platformTables.backend => r ∈ s.db.requestLogs.rows)
    (fun s e hs => ?_) h es
  rcases requestLogs_next s e with he | ⟨r', envs, -, he⟩ <;> rw [he]
  · exact hs
  · exact List.mem_append_left _ hs

theorem dayLogs_mono {db db' : PlatformDb} {day : Day} {organizationId apiId : Uuid}
    (h : ∀ r ∈ db.requestLogs.rows, r ∈ db'.requestLogs.rows)
    (hne : db.dayLogs day organizationId apiId ≠ []) :
    db'.dayLogs day organizationId apiId ≠ [] := by
  obtain ⟨r, hr⟩ := List.exists_mem_of_ne_nil _ hne
  obtain ⟨hmem, hkey⟩ := Table.mem_select.1 hr
  exact List.ne_nil_of_mem (Table.mem_select.2 ⟨h r hmem, hkey⟩)

theorem sound_next {s : State platformTables.backend} (h : Sound s) (e : UsageEvent) :
    Sound (e.next s) := by
  cases e with
  | rollup day envs => exact (rollup_next day envs s).sound h
  | insertLog r envs =>
    obtain ⟨husage, hworld⟩ := insertLog_dailyUsage r envs s
    constructor
    · rw [husage, hworld]
      exact h.supplied
    · rw [husage]
      exact fun u hu => dayLogs_mono (fun r' hr' => mem_logs_run hr' [.insertLog r envs])
        (h.logged u hu)

theorem dayLogs_spares {day : Day} {e : UsageEvent} (he : e.Spares day)
    (s : State platformTables.backend)
    (organizationId apiId : Uuid) : (e.next s).db.dayLogs day organizationId apiId =
        s.db.dayLogs day organizationId apiId := by
  unfold PlatformDb.dayLogs Table.select
  rcases requestLogs_next s e with h | ⟨r, envs, rfl, h⟩ <;> rw [h]
  have hother : (r.stored.createdAt / dayLength == day &&
      (r.stored.organizationId == organizationId && r.stored.apiId == apiId)) = false := by
    rw [Bool.and_eq_false_iff]
    exact .inl (beq_false_of_ne he)
  rw [List.filter_append, List.filter_cons, hother]
  exact List.append_nil _

theorem rolledUp_congr {db db' : PlatformDb} {day : Day} (h : db.RolledUp day)
    (hlogs : ∀ organizationId apiId, db'.dayLogs day organizationId apiId =
      db.dayLogs day organizationId apiId)
    (husage : ∀ organizationId apiId, db'.usageOf day organizationId apiId =
      db.usageOf day organizationId apiId) :
    db'.RolledUp day := by
  intro organizationId apiId
  rw [hlogs, husage]
  exact h organizationId apiId

theorem PlatformDb.TotalsFit.congr {db db' : PlatformDb} {day : Day} (h : db.TotalsFit day)
    (hlogs : ∀ organizationId apiId, db'.dayLogs day organizationId apiId =
      db.dayLogs day organizationId apiId) :
    db'.TotalsFit day where
  requests o a := (hlogs o a).symm ▸ h.requests o a
  requestBytes o a := (hlogs o a).symm ▸ h.requestBytes o a
  responseBytes o a := (hlogs o a).symm ▸ h.responseBytes o a

/-- A day stays rolled up until its next log. -/
theorem rolledUp_spares {day : Day} {e : UsageEvent} (he : e.Spares day)
    {s : State platformTables.backend} (h : s.db.RolledUp day) : (e.next s).db.RolledUp day := by
  cases e with
  | insertLog r envs =>
    refine rolledUp_congr h (dayLogs_spares he s) (usageOf_congr ?_)
    rw [(insertLog_dailyUsage r envs s).1]
  | rollup other envs =>
    have hstep := rollup_next other envs s
    by_cases hday : day = other
    · rcases hstep.outcome with hrolled | hsame
      · rw [hday]
        exact hrolled
      · rw [hsame]
        exact h
    · have hlogs := dayLogs_spares he s
      have husage := usageOf_congr (hstep.others day hday)
      exact rolledUp_congr h hlogs husage

theorem spares_run {day : Day} {es : List UsageEvent} (hes : ∀ e ∈ es, e.Spares day)
    (s : State platformTables.backend) :
    (∀ organizationId apiId, (run UsageEvent.next s es).db.dayLogs day organizationId apiId =
      s.db.dayLogs day organizationId apiId) ∧
      (s.db.RolledUp day → (run UsageEvent.next s es).db.RolledUp day) := by
  induction es generalizing s with
  | nil => exact ⟨fun _ _ => rfl, id⟩
  | cons e es ih =>
    obtain ⟨he, hes⟩ := List.forall_mem_cons.1 hes
    obtain ⟨hlogs, hrolled⟩ := ih hes (e.next s)
    exact ⟨fun o a => (hlogs o a).trans (dayLogs_spares he s o a),
      fun h => hrolled (rolledUp_spares he h)⟩

/-- A day that is rolled up after its last log holds the sums of its logs. -/
theorem rolledUp_of_last {day : Day} {es : List UsageEvent} {s : State platformTables.backend}
    (hs : Sound s) (hone : (run UsageEvent.next s es).db.OneOrganization)
    (hfits : (run UsageEvent.next s es).db.TotalsFit day)
    (hlast : RolledUpLast day es) : (run UsageEvent.next s es).db.RolledUp day := by
  obtain ⟨es₁, envs, es₂, rfl, hes₂⟩ := hlast
  have hrest : ∀ e ∈ UsageEvent.rollup day envs :: es₂, e.Spares day :=
    List.forall_mem_cons.2 ⟨trivial, hes₂⟩
  rw [run_append] at hone hfits ⊢
  have hsound : Sound (run UsageEvent.next s es₁) :=
    run_invariant (I := Sound) (fun _ e h => sound_next h e) hs es₁
  have hone₁ : (run UsageEvent.next s es₁).db.OneOrganization := fun r hr r' hr' =>
    hone r (mem_logs_run hr _) r' (mem_logs_run hr' _)
  have hlogs := (spares_run hrest (run UsageEvent.next s es₁)).1
  have hfits₁ : (run UsageEvent.next s es₁).db.TotalsFit day := hfits.congr fun o a => (hlogs o a).symm
  obtain ⟨-, hrolled⟩ := rollup_ok hsound hone₁ hfits₁ envs
  rw [← next_rollup] at hrolled
  rw [run_cons]
  exact (spares_run hes₂ _).2 hrolled

/-- A request log of an API on the day of the epoch. -/
def sampleLog (id organizationId statusCode : Nat) : RequestLog :=
  ⟨id, epoch + id, organizationId, 41, 42, some 43, "GET", "ok", statusCode, 5, 0, 2, "10.0.0.1",
    "https://weather.test/ok"⟩

end TrafficPlatform
