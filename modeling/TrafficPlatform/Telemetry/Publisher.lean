import TrafficPlatform.Gateway
import TrafficPlatform.Kit.Ends
import Mathlib.Data.List.Sort

/-!
# The telemetry publisher

`app/services/telemetry/publisher.py` and the task `_publish_telemetry` of `app/workers/tasks.py`.
One transaction drains batch after batch; what a failed delivery writes is rolled back by the
exception that it raises.
-/

namespace TrafficPlatform
open Kit

/-- The write of a row as it is: `FOR UPDATE` locks what it would lock, and changes nothing. -/
def TelemetryOutbox.lock (r : TelemetryOutbox) : PlatformOp := .setOutbox r.id r.publishedAt r.attempts

/-- `published_at = now`, `attempts += 1`. -/
def TelemetryOutbox.stamp (time : Time) (r : TelemetryOutbox) : PlatformOp :=
  .setOutbox r.id (some time) (r.attempts + 1)

/-- `attempts += 1`. -/
def TelemetryOutbox.bump (r : TelemetryOutbox) : PlatformOp :=
  .setOutbox r.id r.publishedAt (r.attempts + 1)

namespace TelemetryPublisher

/-- `WHERE published_at IS NULL ORDER BY created_at LIMIT …`, of the rows that no other transaction
has locked. -/
def pending (locked : PlatformKey → Bool) (db : PlatformDb) (batchSize : Nat) : List TelemetryOutbox :=
  ((db.outbox.select fun r => r.publishedAt.isNone && !locked (.outboxRow r.id)).insertionSort
      fun r r' =>
    r.createdAt ≤ r'.createdAt).take batchSize

/-- `SELECT … FOR UPDATE SKIP LOCKED`. -/
def selectPending (batchSize : Nat) : Platform (List TelemetryOutbox) :=
  .stmt (fun locked db => .ok (pending locked db batchSize,
    (pending locked db batchSize).map (·.lock))) .ret

/-- `sink.deliver`, as the sink answers. -/
def deliver (events : List TelemetryEvent) : Platform (Except Failure Unit) :=
  .attempt fun env w => match env.reply.sink with
    | .ok () => (.ok (), { w with outside := { w.outside with delivered := w.outside.delivered ++ [events] } })
    | .error e => (.error e, w)

def stampEach (time : Time) : List TelemetryOutbox → Platform Unit
  | [] => pure ()
  | r :: rows => do
    .set (r.stamp time)
    stampEach time rows

def bumpEach : List TelemetryOutbox → Platform Unit
  | [] => pure ()
  | r :: rows => do
    .set r.bump
    bumpEach rows

def drainOutbox (batchSize : Nat) : Platform Nat := do
  let rows ← selectPending batchSize
  if rows.isEmpty then return 0
  else
    let delivery ← deliver (rows.map (·.payload))
    match delivery with
    | .error e =>
      if e.isException then do
        bumpEach rows
        .flushSession
        .raise e
      else .raise e
    | .ok () => do
      let time ← now
      stampEach time rows
      .flushSession
      return rows.length

/-- The loop of the task. -/
def drainRounds (batchSize : Nat) : Nat → Nat → Platform Nat
  | 0, publishedTotal => pure publishedTotal
  | rounds + 1, publishedTotal => do
    let count ← drainOutbox batchSize
    if count = 0 then return publishedTotal + count
    else drainRounds batchSize rounds (publishedTotal + count)

/-- `_publish_telemetry`, with batches of 200. -/
def publishTelemetry (batchSize : Nat) : Platform Nat := drainRounds batchSize 50 0

/-! ### A run on which the sink raises -/

/-- The batches of a run: those that the sink accepts, and the one on which it raises. -/
def batches (batchSize : Nat) : Nat → Session platformTables.backend →
    Option (List (List TelemetryOutbox) × List TelemetryOutbox)
  | 0, _ => none
  | rounds + 1, s =>
    let rows := pending (fun _ => false) s.db batchSize
    if rows.isEmpty then none
    else match (s.envs 0).reply.sink with
      | .error _ => some ([], rows)
      | .ok () => (batches batchSize rounds ((drainOutbox batchSize).eval s).2).map fun b =>
        (rows :: b.1, b.2)

/-- The accepted events are marked as published, and the attempt at the failed ones is counted. -/
structure Progress (accepted : List (List TelemetryOutbox)) (failed : List TelemetryOutbox)
    (db db' : PlatformDb) : Prop where
  published : ∀ rows ∈ accepted, ∀ r ∈ rows, ∃ r' ∈ db'.outbox.rows, r'.id = r.id ∧
    r'.publishedAt.isSome = true
  attempted : ∀ r ∈ failed, ∃ r₀ ∈ db.outbox.rows, ∃ r' ∈ db'.outbox.rows, r₀.id = r.id ∧
    r'.id = r.id ∧ r'.publishedAt = none ∧
    r'.attempts = r₀.attempts + 1

variable {batchSize : Nat} {s : Session platformTables.backend}

/-- A drain that returns has found no batch, or delivered it. -/
theorem drainOutbox_ends (batchSize : Nat) (s : Session platformTables.backend) :
    (drainOutbox batchSize).Ends
    (fun count _ => count = (pending (fun _ => false) s.db batchSize).length ∧
      (count ≠ 0 → (s.envs 0).reply.sink = .ok ()))
    (fun _ _ => True) s := by
  have hselect :
      (selectPending batchSize).Ends
        (fun rows s' => rows = pending (fun _ => false) s.db batchSize ∧ s'.envs = s.envs)
      (fun _ _ => True) s := ⟨rfl, rfl⟩
  refine hselect.bind ?_
  rintro _ s₁ ⟨rfl, henvs⟩
  split
  · rename_i hempty
    exact ⟨(List.length_eq_zero_iff.2 (List.isEmpty_iff.1 hempty)).symm, fun h => absurd rfl h⟩
  · refine Prog.Ends.bind
      (Q := fun delivery _ => delivery = .ok () → (s.envs 0).reply.sink = .ok ())
        (Prog.ends_attempt ?_) ?_
    · rw [henvs]
      intro hok
      split at hok
      · assumption
      · cases hok
    · intro delivery s₂ hdelivery
      cases delivery with
      | error e =>
        dsimp only
        split
        · exact (Prog.ends_true _ _).bind fun _ _ _ => (Prog.ends_true _ _).bind fun _ _ _ => trivial
        · trivial
      | ok u =>
        refine (Prog.ends_true _ _).bind
          fun _ _ _ => (Prog.ends_true _ _).bind
            fun _ _ _ => (Prog.ends_true _ _).bind fun _ _ _ => ?_
        exact ⟨rfl, fun _ => hdelivery rfl⟩

theorem batches_ne_nil {accepted : List (List TelemetryOutbox)} {failed : List TelemetryOutbox}
    {rounds : Nat} (h : batches batchSize rounds s = some (accepted, failed)) : failed ≠ [] := by
  induction rounds generalizing s accepted with
  | zero => cases h
  | succ rounds ih =>
    simp only [batches] at h
    split at h
    · cases h
    rename_i hne
    split at h
    · cases h
      exact fun he => hne (by rw [he]; rfl)
    · obtain ⟨b, hb, he⟩ := Option.map_eq_some_iff.1 h
      cases he
      exact ih hb

/-- The loop raises when the sink raises on a batch. -/
theorem drainRounds_raises {rounds publishedTotal : Nat}
    {b : List (List TelemetryOutbox) × List TelemetryOutbox}
    (h : batches batchSize rounds s = some b) : (drainRounds batchSize rounds publishedTotal).Ends
        (fun _ _ => False) (fun _ _ => True) s := by
  induction rounds generalizing s publishedTotal b with
  | zero => cases h
  | succ rounds ih =>
    simp only [batches] at h
    split at h
    · cases h
    rename_i hne
    have hends := drainOutbox_ends batchSize s
    unfold drainRounds
    cases heval : (drainOutbox batchSize).eval s with
    | mk result s' =>
      cases result with
      | error e => exact Prog.ends_bind_error heval trivial
      | ok count =>
        obtain ⟨hcount, hsink⟩ := hends.of_ok heval
        have hpos : count ≠ 0 := by
          rw [hcount]
          exact fun h0 => hne (List.isEmpty_iff.2 (List.length_eq_zero_iff.1 h0))
        refine Prog.ends_bind_ok heval ?_
        rw [if_neg hpos]
        rw [hsink hpos, heval] at h
        obtain ⟨b', hb', -⟩ := Option.map_eq_some_iff.1 h
        exact ih hb'

/-- Whenever the sink raises on a batch, the whole run is rolled back: no accepted event stays
marked, and no attempt is counted. -/
theorem progress_lost (batchSize : Nat) (s : State platformTables.backend)
    (envs : Nat → Env PlatformInput) (accepted : List (List TelemetryOutbox))
    (failed : List TelemetryOutbox)
    (h : batches batchSize 50 ⟨s.db, [], s.world, envs⟩ = some (accepted, failed)) :
    (scope (publishTelemetry batchSize) envs s).2.db = s.db ∧
      ¬ Progress accepted failed s.db (scope (publishTelemetry batchSize) envs s).2.db := by
  have hraises : (publishTelemetry batchSize).Ends (fun _ _ => False) (fun _ _ => True)
      ⟨s.db, [], s.world, envs⟩ :=
    drainRounds_raises h
  have hdb : (scope (publishTelemetry batchSize) envs s).2.db = s.db := by
    rcases hraises.scope with ⟨a, s', db, hfalse, -⟩ | ⟨e, s', -, hs⟩
    · exact hfalse.elim
    · rw [hs]
  refine ⟨hdb, fun hprogress => ?_⟩
  obtain ⟨r, hr⟩ := List.exists_mem_of_ne_nil _ (batches_ne_nil h)
  obtain ⟨r₀, hr₀, r', hr', hid₀, hid', -, hattempts⟩ := hprogress.attempted r hr
  rw [hdb] at hr'
  have heq : r₀ = r' := Table.eq_of_clash hr₀ hr' (by simp [Schema.clash, hid₀, hid'])
  rw [← heq] at hattempts
  exact absurd hattempts (Nat.ne_of_lt (Nat.lt_succ_self _))

def sampleAuditEvent (eventId : Uuid) : TelemetryEvent :=
  .auditLog ⟨⟨schemaVersion, eventId, epoch⟩, none, none, "organization.create", "organization",
    none, none, []⟩

/-- Two events are pending. -/
def sampleOutbox : State platformTables.backend where
  db := { samplePlatformDb .empty with
    outbox := ⟨[OutboxEmitter.row 60 epoch (sampleAuditEvent 50),
      OutboxEmitter.row 61 (epoch + 1) (sampleAuditEvent 51)], by decide⟩ }
  world := sampleGatewayWorld

/-- The sink accepts a batch, and raises on the next one. -/
def sampleSink (n : Nat) : Env PlatformInput :=
  ⟨epoch + 2, "", 0,
    ⟨.response ⟨200, [], []⟩, if n < 2 then .ok () else .error (.other "HTTPStatusError")⟩⟩

theorem progress_lost_second :
    (scope (publishTelemetry 1) sampleSink sampleOutbox).2.db = sampleOutbox.db ∧
      ¬ Progress [[OutboxEmitter.row 60 epoch (sampleAuditEvent 50)]]
        [OutboxEmitter.row 61 (epoch + 1) (sampleAuditEvent 51)]
        sampleOutbox.db (scope (publishTelemetry 1) sampleSink sampleOutbox).2.db :=
  progress_lost 1 sampleOutbox sampleSink _ _ rfl

theorem progress_not_kept : ¬ ∀ (batchSize : Nat) (s : State platformTables.backend)
    (envs : Nat → Env PlatformInput)
    (accepted : List (List TelemetryOutbox)) (failed : List TelemetryOutbox),
    batches batchSize 50 ⟨s.db, [], s.world, envs⟩ = some (accepted, failed) →
    Progress accepted failed s.db (scope (publishTelemetry batchSize) envs s).2.db := by
  intro h
  have hprogress := h 1 sampleOutbox sampleSink [[OutboxEmitter.row 60 epoch (sampleAuditEvent 50)]]
    [OutboxEmitter.row 61 (epoch + 1) (sampleAuditEvent 51)] rfl
  obtain ⟨r', hr', hid, hpublished⟩ := hprogress.published _ List.mem_cons_self _ List.mem_cons_self
  have hpending : ∀ r ∈ (scope (publishTelemetry 1) sampleSink sampleOutbox).2.db.outbox.rows,
      r.publishedAt = none := by
    decide +kernel
  rw [hpending r' hr'] at hpublished
  cases hpublished

end TelemetryPublisher

end TrafficPlatform
