import TrafficPlatform.Kit.Traced
import TrafficPlatform.Gateway.Headers
import TrafficPlatform.Telemetry.Publisher

/-!
# Concurrent publishers

Any number of transactions of `_publish_telemetry` run among transactions that insert events. The
ghost of a publisher is what it has handed to the sink, and whether the sink has raised.
-/

namespace TrafficPlatform
open Kit

/-- The row has the same event, whatever has become of it. -/
def TelemetryOutbox.Same (r r' : TelemetryOutbox) : Prop :=
  ∃ publishedAt attempts, r' = { r with publishedAt := publishedAt, attempts := attempts }

/-- What is handed to the sink of a row, with the id of the row. -/
def TelemetryOutbox.entry (r : TelemetryOutbox) : Uuid × TelemetryEvent := (r.id, r.payload)

theorem TelemetryOutbox.Same.refl (r : TelemetryOutbox) : r.Same r := ⟨_, _, rfl⟩

theorem TelemetryOutbox.Same.trans {a b c : TelemetryOutbox} (h : a.Same b) (h' : b.Same c) :
    a.Same c := by
  obtain ⟨p, n, rfl⟩ := h
  obtain ⟨p', n', rfl⟩ := h'
  exact ⟨p', n', rfl⟩

theorem TelemetryOutbox.Same.id_eq {r r' : TelemetryOutbox} (h : r.Same r') : r'.id = r.id := by
  obtain ⟨p, n, rfl⟩ := h
  rfl

theorem TelemetryOutbox.Same.entry_eq {r r' : TelemetryOutbox} (h : r.Same r') :
    r'.entry = r.entry := by
  obtain ⟨p, n, rfl⟩ := h
  rfl

/-- No event is removed or changed. -/
def PlatformDb.KeepsEvents (db db' : PlatformDb) : Prop := ∀ r ∈ db.outbox.rows,
    ∃ r' ∈ db'.outbox.rows, r.Same r'

namespace PlatformDb

variable {db db' : PlatformDb} {id : Uuid} {publishedAt : Option Time} {attempts : Nat}
    {r r' : TelemetryOutbox}

theorem KeepsEvents.refl (db : PlatformDb) : db.KeepsEvents db := fun r hr => ⟨r, hr, .refl r⟩

theorem KeepsEvents.trans {a b c : PlatformDb} (h : a.KeepsEvents b) (h' : b.KeepsEvents c) :
    a.KeepsEvents c := by
  intro r hr
  obtain ⟨r', hr', hs⟩ := h r hr
  obtain ⟨r'', hr'', hs'⟩ := h' r' hr'
  exact ⟨r'', hr'', hs.trans hs'⟩

theorem outbox_ext (hr : r ∈ db.outbox.rows) (hr' : r' ∈ db.outbox.rows) (h : r.id = r'.id) : r = r' :=
  Table.eq_of_clash hr hr' (by simp [Schema.clash, h])

theorem outbox_ids_nodup (db : PlatformDb) : (db.outbox.rows.map (·.id)).Nodup := by
  refine List.pairwise_map.2 (db.outbox.distinct.imp fun {r r'} h hid => h ?_)
  simp [Schema.clash, hid]

theorem mem_setOutbox : r' ∈ (db.setOutbox id publishedAt attempts).outbox.rows ↔
    ∃ r ∈ db.outbox.rows, r' = if r.id = id then { r with publishedAt, attempts } else r := by
  simp [setOutbox, Table.mem_update, eq_comm (a := r')]

theorem outbox_addApiKey (db : PlatformDb) (k : ApiKey) : (db.addApiKey k).outbox = db.outbox := by
  unfold addApiKey
  split <;> rfl

theorem keeps_apply (o : PlatformOp) (db : PlatformDb) : db.KeepsEvents (o.apply db) := by
  cases o with
  | addOutbox r => exact fun a ha => ⟨a, Table.mem_insert_of_mem ha, .refl a⟩
  | setOutbox id publishedAt attempts =>
    intro r hr
    refine ⟨_, mem_setOutbox.2 ⟨r, hr, rfl⟩, ?_⟩
    split
    · exact ⟨_, _, rfl⟩
    · exact .refl r
  | addApiKey k =>
    rw [KeepsEvents, show (PlatformOp.apply (.addApiKey k) db).outbox =
      db.outbox from outbox_addApiKey db k]
    exact KeepsEvents.refl db
  | incrementUsage i =>
    rw [KeepsEvents, show (PlatformOp.apply (.incrementUsage i) db).outbox =
      db.outbox from incrementUsage_outbox db i]
    exact KeepsEvents.refl db
  | _ => exact KeepsEvents.refl db

theorem keeps_applyAll (ops : List PlatformOp) (db : PlatformDb) :
    db.KeepsEvents (applyAll platformTables.backend ops db) := by
  induction ops generalizing db with
  | nil => exact .refl db
  | cons o ops ih => exact (keeps_apply o db).trans (ih (o.apply db))

theorem row_kept {o : PlatformOp} (hr : r ∈ db.outbox.rows) (ho : ∀ p n, o ≠ .setOutbox r.id p n) :
    r ∈ (o.apply db).outbox.rows := by
  cases o with
  | addOutbox r' => exact Table.mem_insert_of_mem hr
  | setOutbox id p n =>
    refine mem_setOutbox.2 ⟨r, hr, (if_neg fun h => ho p n ?_).symm⟩
    rw [h]
  | addApiKey k => exact outbox_addApiKey db k ▸ hr
  | incrementUsage i => exact incrementUsage_outbox db i ▸ hr
  | _ => exact hr

theorem row_kept_all {ops : List PlatformOp} (hr : r ∈ db.outbox.rows)
    (ho : ∀ p n, .setOutbox r.id p n ∉ ops) :
    r ∈ (applyAll platformTables.backend ops db).outbox.rows := by
  induction ops generalizing db with
  | nil => exact hr
  | cons o ops ih =>
    refine ih (row_kept hr fun p n he => ho p n ?_) fun p n h => ho p n (List.mem_cons_of_mem _ h)
    rw [he]
    exact List.mem_cons_self

/-- After writes of outbox columns, each row is an old one, and it is published as before or as the
last write to it says. -/
theorem back_setOutbox {ops : List PlatformOp} (hops : ∀ o ∈ ops, ∃ id p n, o = .setOutbox id p n)
    (hr' : r' ∈ (applyAll platformTables.backend ops db).outbox.rows) :
      ∃ r ∈ db.outbox.rows, r.Same r' ∧
      ((r'.publishedAt = r.publishedAt ∧ ∀ o ∈ ops, .outboxRow r.id ∉ o.keys) ∨
        ∃ n, .setOutbox r.id r'.publishedAt n ∈ ops) := by
  induction ops generalizing db with
  | nil => exact ⟨r', hr', .refl r', .inl ⟨rfl, fun o ho => absurd ho List.not_mem_nil⟩⟩
  | cons o ops ih =>
    obtain ⟨id, p, n, rfl⟩ := hops o List.mem_cons_self
    rw [applyAll_cons] at hr'
    obtain ⟨r₁, hr₁, hsame, hor⟩ := ih (fun o ho => hops o (List.mem_cons_of_mem _ ho)) hr'
    obtain ⟨r, hr, he⟩ := mem_setOutbox.1 hr₁
    have hid : r₁.id = r.id := by rw [he]; split <;> rfl
    refine ⟨r, hr, TelemetryOutbox.Same.trans ?_ hsame, ?_⟩
    · rw [he]
      split
      · exact ⟨_, _, rfl⟩
      · exact .refl r
    rw [hid] at hor
    rcases hor with ⟨hp, hfree⟩ | ⟨n', hn'⟩
    · by_cases hrid : r.id = id
      · refine .inr ⟨n, ?_⟩
        rw [hp, he, if_pos hrid, hrid]
        exact List.mem_cons_self
      · refine .inl ⟨by rw [hp, he, if_neg hrid], fun o ho => ?_⟩
        rcases List.mem_cons.1 ho with rfl | ho
        · simpa [PlatformOp.keys] using hrid
        · exact hfree o ho
    · exact .inr ⟨n', List.mem_cons_of_mem _ hn'⟩

end PlatformDb

def PlatformDb.published (db : PlatformDb) : List TelemetryOutbox :=
  db.outbox.select fun r => r.publishedAt.isSome

/-! ### The contract -/

/-- The write does not concern events, or it inserts one that is pending. -/
def PlatformOp.InsertsOnly : PlatformOp → Prop
  | addOutbox r => r.publishedAt = none
  | setOutbox _ _ _ => False
  | _ => True

theorem PlatformOp.back_insertsOnly {o : PlatformOp} {db : PlatformDb} {r : TelemetryOutbox}
    (hr : r ∈ (o.apply db).outbox.rows)
    (ho : o.InsertsOnly) : r ∈ db.outbox.rows ∨ r.publishedAt = none := by
  cases o with
  | addOutbox r' =>
    rcases Table.mem_or_eq_of_mem_insert hr with hr | rfl
    · exact .inl hr
    · exact .inr ho
  | setOutbox id p n => exact ho.elim
  | addApiKey k => exact .inl (PlatformDb.outbox_addApiKey db k ▸ hr)
  | incrementUsage i => exact .inl (PlatformDb.incrementUsage_outbox db i ▸ hr)
  | _ => exact .inl hr

/-- A transaction that inserts events, and hands none to the sink. -/
structure Inserts (p : Platform Unit) : Prop where
  writes : p.Emits PlatformOp.InsertsOnly
  delivers : p.Within fun (w w' : World PlatformOutside) => w'.outside.delivered = w.outside.delivered

theorem inserts_proxy (cfg : GatewayConfig) (request : HttpRequest) : Inserts (do
    let _ ← Gateway.proxy cfg request
    return ()) where
  writes := by
    refine Prog.Emits.bind ?_ fun _ => trivial
    unfold Gateway.proxy
    refine reads_now.emits.bind
      fun createdAt => (reads_handle cfg _ _).emits.bind
        fun outcome => Prog.Emits.bind ?_ fun _ => ?_
    · rw [record_eq]
      refine (Prog.emits_ask _).2
        fun id => (Prog.emits_set _ _).2 ⟨trivial, (Prog.emits_ask _).2 fun usageId => ?_⟩
      refine (Prog.emits_execute trivial).bind fun _ => (Prog.emits_ask _).2 fun eventId => ?_
      exact (Prog.emits_ask _).2 fun outboxId => ⟨rfl, trivial⟩
    · split <;> trivial
  delivers := by
    refine Prog.Within.bind ?_ fun _ => trivial
    exact sends_proxy (fun _ _ _ h => h) cfg request fun _ _ _ => rfl

namespace TelemetryPublisher

/-- What a transaction is: a run of the task, or an insertion. -/
inductive Job (ι : Type)
  | publish (batchSize : Nat)
  | insert (i : ι)

abbrev Workers (ι : Type) : Type 1 := System platformTables.backend (Job ι) Nat

abbrev WorkerEvent (ι : Type) : Type := Event platformTables.backend (Job ι)

variable {ι : Type}

def jobs (inserting : ι → Platform Unit) : Job ι → Platform Nat
  | .publish batchSize => publishTelemetry batchSize
  | .insert i => do
    inserting i
    return 0

/-- What a publisher has handed to the sink, and whether the sink has raised. -/
structure Handed where
  sent : List (Uuid × TelemetryEvent)
  failed : Bool

/-- A step that hands `batch` to the sink: pending events that the transaction holds and has not
handed out yet. -/
structure Hands (batch : List (Uuid × TelemetryEvent)) (job : Job ι) (g : Handed) (w : List PlatformOp)
    (st : State platformTables.backend) (world : World PlatformOutside) (g' : Handed) : Prop where
  publishes : ∃ batchSize, job = .publish batchSize
  delivered : world.outside.delivered = st.world.outside.delivered ++ [batch.map (·.2)]
  sent : g'.sent = g.sent ++ batch
  failed : g'.failed = g.failed
  distinct : (batch.map (·.1)).Nodup
  unsent : ∀ x ∈ batch, x.1 ∉ g.sent.map (·.1)
  pending : ∀ x ∈ batch, ∃ r ∈ st.db.outbox.rows, r.entry = x ∧ r.publishedAt = none
  held : ∀ x ∈ batch, ∃ o ∈ w, .outboxRow x.1 ∈ PlatformOp.keys o

/-- The writes of a publisher: it holds what it has handed to the sink, and marks that and nothing
else. -/
structure Drained (w : List PlatformOp) (g : Handed) : Prop where
  writes : ∀ o ∈ w, ∃ id p n, o = .setOutbox id p n ∧ (p.isSome = true → id ∈ g.sent.map (·.1))
  marked : ∀ (db : PlatformDb), ∀ r ∈ (applyAll platformTables.backend w db).outbox.rows,
    r.id ∈ g.sent.map (·.1) → r.publishedAt.isSome = true

def contract (ι : Type) : Contract platformTables.backend (Job ι) Nat Handed where
  Rely st st' := st.db.KeepsEvents st'.db
  Own o db := ∀ id p n, o = .setOutbox id p n → ∃ r ∈ db.outbox.rows, r.id = id ∧ r.publishedAt = none
  Act job g w st ok world g' := (∃ batch, Hands batch job g w st world g') ∨
    (world.outside.delivered = st.world.outside.delivered ∧ g'.sent = g.sent ∧
      (g'.failed = g.failed ∨ (ok = false ∧ ∃ batchSize, job = .publish batchSize)))
  Fails job g := ∀ batchSize, job = .publish batchSize → g.failed = true
  Returns job _ w g _ := match job with
    | .publish _ => Drained w g
    | .insert _ => ∀ o ∈ w, o.InsertsOnly
  initial := ⟨[], false⟩

theorem rely_refl (st : State platformTables.backend) : (contract ι).Rely st st :=
  PlatformDb.KeepsEvents.refl st.db

theorem rely_trans (a b c : State platformTables.backend) (h : (contract ι).Rely a b)
    (h' : (contract ι).Rely b c) :
    (contract ι).Rely a c := PlatformDb.KeepsEvents.trans h h'

variable {job : Job ι} {batchSize : Nat} {w : List PlatformOp} {g : Handed}
    {st : State platformTables.backend}

theorem mem_pending {locked : PlatformKey → Bool} {db : PlatformDb} {r : TelemetryOutbox}
    (h : r ∈ pending locked db batchSize) :
    r ∈ db.outbox.rows ∧ r.publishedAt = none := by
  have hr := (List.mem_insertionSort _).1 (List.mem_of_mem_take h)
  obtain ⟨hr, hp⟩ := Table.mem_select.1 hr
  rw [Bool.and_eq_true] at hp
  exact ⟨hr, Option.isNone_iff_eq_none.1 hp.1⟩

theorem pending_ids_nodup (locked : PlatformKey → Bool) (db : PlatformDb) (batchSize : Nat) :
    ((pending locked db batchSize).map (·.id)).Nodup := by
  refine (List.Nodup.sublist ((List.take_sublist _ _).map _)) ?_
  rw [((List.perm_insertionSort _ _).map _).nodup_iff]
  exact db.outbox_ids_nodup.sublist (List.filter_sublist.map _)

theorem Drained.sets (hw : Drained w g) : ∀ o ∈ w, ∃ id p n, o = .setOutbox id p n := by
  intro o ho
  obtain ⟨id, p, n, he, -⟩ := hw.writes o ho
  exact ⟨id, p, n, he⟩

theorem pending_committed (hw : Drained w g) (hown : ∀ o ∈ w, (contract ι).Own o st.db)
    {locked : PlatformKey → Bool} {r : TelemetryOutbox}
    (h : r ∈ pending locked (applyAll platformTables.backend w st.db) batchSize) :
    ∃ r₀ ∈ st.db.outbox.rows, r₀.Same r ∧ r₀.publishedAt = none := by
  obtain ⟨hr, hp⟩ := mem_pending h
  obtain ⟨r₀, hr₀, hsame, hor⟩ := PlatformDb.back_setOutbox hw.sets hr
  refine ⟨r₀, hr₀, hsame, ?_⟩
  rcases hor with ⟨hsame, -⟩ | ⟨n, hn⟩
  · rw [← hsame, hp]
  · obtain ⟨r₁, hr₁, hid, hp₁⟩ := hown _ hn _ _ _ rfl
    rwa [PlatformDb.outbox_ext hr₀ hr₁ hid.symm]

/-- The loop invariant is kept by a batch that is locked, handed to the sink and marked. -/
theorem Drained.batch {locked : PlatformKey → Bool} {time : Time} {rows : List TelemetryOutbox}
    {db₀ : PlatformDb} (hw : Drained w g)
    (hrows : rows = pending locked (applyAll platformTables.backend w db₀) batchSize) :
    Drained (w ++ rows.map (·.lock) ++ rows.map (·.stamp time))
        ⟨g.sent ++ rows.map (·.entry), g.failed⟩ := by
  have hpending : ∀ r ∈ rows, r ∈ (applyAll platformTables.backend w db₀).outbox.rows ∧
      r.publishedAt = none :=
    fun r hr => mem_pending (hrows ▸ hr)
  have hids : (g.sent ++ rows.map (·.entry)).map (·.1) = g.sent.map (·.1) ++ rows.map (·.id) := by
    rw [List.map_append, List.map_map]
    rfl
  have hlocks : ∀ o ∈ rows.map (·.lock), ∃ id p n, o = .setOutbox id p n := by
    rintro _ ho
    obtain ⟨r, -, rfl⟩ := List.mem_map.1 ho
    exact ⟨_, _, _, rfl⟩
  have hstamps : ∀ o ∈ rows.map (·.stamp time), ∃ id p n, o = .setOutbox id p n := by
    rintro _ ho
    obtain ⟨r, -, rfl⟩ := List.mem_map.1 ho
    exact ⟨_, _, _, rfl⟩
  refine ⟨fun o ho => ?_, fun db r hr hid => ?_⟩
  · rw [hids]
    rcases List.mem_append.1 ho with ho | ho
    · rcases List.mem_append.1 ho with ho | ho
      · obtain ⟨id, p, n, rfl, hp⟩ := hw.writes o ho
        exact ⟨id, p, n, rfl, fun h => List.mem_append_left _ (hp h)⟩
      · obtain ⟨r, hr, rfl⟩ := List.mem_map.1 ho
        refine ⟨r.id, r.publishedAt, r.attempts, rfl, fun h => ?_⟩
        rw [(hpending r hr).2] at h
        cases h
    · obtain ⟨r, hr, rfl⟩ := List.mem_map.1 ho
      exact ⟨_, _, _, rfl, fun _ => List.mem_append_right _ (List.mem_map_of_mem hr)⟩
  · rw [hids] at hid
    rw [applyAll_append] at hr
    obtain ⟨r₁, hr₁, hsame₁, hor₁⟩ := PlatformDb.back_setOutbox hstamps hr
    rw [hsame₁.id_eq] at hid
    rcases hor₁ with ⟨hp₁, hfree₁⟩ | ⟨n, hn⟩
    · -- not of this batch: handed out before, and the locks leave it as it is
      have hnot : r₁.id ∉ rows.map (·.id) := by
        intro h
        obtain ⟨r₂, hr₂, hid₂⟩ := List.mem_map.1 h
        exact hfree₁ _ (List.mem_map_of_mem hr₂)
          (by simp [TelemetryOutbox.stamp, PlatformOp.keys, hid₂])
      have hsent : r₁.id ∈ g.sent.map (·.1) := (List.mem_append.1 hid).resolve_right hnot
      rw [applyAll_append] at hr₁
      obtain ⟨r₂, hr₂, hsame₂, hor₂⟩ := PlatformDb.back_setOutbox hlocks hr₁
      rw [hsame₂.id_eq] at hsent hnot
      rcases hor₂ with ⟨hp₂, -⟩ | ⟨n, hn⟩
      · rw [hp₁, hp₂]
        exact hw.marked db r₂ hr₂ hsent
      · obtain ⟨r₃, hr₃, he⟩ := List.mem_map.1 hn
        injection he with hid₃
        exact absurd (List.mem_map.2 ⟨r₃, hr₃, hid₃⟩) hnot
    · obtain ⟨r₂, -, he⟩ := List.mem_map.1 hn
      injection he with _ hp
      rw [← hp]
      rfl

section
variable {C : Contract platformTables.backend (Job ι) Nat Handed} {k : Unit → Platform Nat}
    {d : List PlatformOp}

theorem traced_stampEach {time : Time} {rows : List TelemetryOutbox}
    (h : (k ()).Traced C job (d ++ rows.map (·.stamp time)) w g st) :
    (stampEach time rows >>= k).Traced C job d w g st := by
  induction rows generalizing d with
  | nil =>
    rw [List.map_nil, List.append_nil] at h
    exact h
  | cons r rows ih =>
    rw [stampEach, Prog.bind_assoc']
    exact Prog.traced_set (ih (by simpa using h))

theorem traced_bumpEach {rows : List TelemetryOutbox}
    (h : (k ()).Traced C job (d ++ rows.map (·.bump)) w g st) :
    (bumpEach rows >>= k).Traced C job d w g st := by
  induction rows generalizing d with
  | nil =>
    rw [List.map_nil, List.append_nil] at h
    exact h
  | cons r rows ih =>
    rw [bumpEach, Prog.bind_assoc']
    exact Prog.traced_set (ih (by simpa using h))

end

theorem check_setOutbox {db : PlatformDb} {r : TelemetryOutbox} (hr : r ∈ db.outbox.rows)
    (w : List PlatformOp) (p : Option Time) (n : Nat) :
        (PlatformOp.setOutbox r.id p n).check (applyAll platformTables.backend w db) = .ok () := by
  obtain ⟨r', hr', hsame⟩ := PlatformDb.keeps_applyAll w db r hr
  have hhas : (applyAll platformTables.backend w db).hasOutbox r.id = true := by
    simp only [PlatformDb.hasOutbox, List.any_eq_true, beq_iff_eq]
    exact ⟨r', hr', hsame.id_eq⟩
  exact if_pos hhas

theorem traced_drainOutbox {k : Nat → Platform Nat} (hw : Drained w g) (hg : g.failed = false)
    (hk : ∀ count w' g' st', Drained w' g' → g'.failed = false →
      (k count).Traced (contract ι) (.publish batchSize) [] w' g' st') :
    (drainOutbox batchSize >>= k).Traced (contract ι) (.publish batchSize) [] w g st := by
  rw [drainOutbox, Prog.bind_assoc']
  refine Prog.traced_stmt fun st₁ _ hown₁ lk => ?_
  generalize hrows : pending lk (applyAll platformTables.backend w st₁.db) batchSize = rows
  have hcommitted : ∀ r ∈ rows, ∃ r₀ ∈ st₁.db.outbox.rows, r₀.Same r ∧ r₀.publishedAt = none :=
    fun r hr => pending_committed hw hown₁ (hrows ▸ hr)
  have hlocks : ∀ o ∈ rows.map (·.lock), (contract ι).Own o st₁.db := by
    rintro _ ho id p n he
    obtain ⟨r, hr, rfl⟩ := List.mem_map.1 ho
    injection he with hid
    obtain ⟨r₀, hr₀, hsame, hp⟩ := hcommitted r hr
    exact ⟨r₀, hr₀, by rw [← hid, hsame.id_eq], hp⟩
  refine ⟨hlocks, ?_⟩
  split
  · rename_i hempty
    rw [List.isEmpty_iff.1 hempty, List.map_nil, List.append_nil]
    exact hk 0 w g st₁ hw hg
  rw [Prog.bind_assoc']
  refine Prog.traced_attempt fun st₂ hr₂ hown₂ env => ?_
  have hbatch : (rows.map (·.entry)).map (·.1) = rows.map (·.id) := by
    rw [List.map_map]
    rfl
  cases hsink : env.reply.sink with
  | error e =>
    refine ⟨⟨g.sent, true⟩, .inr ⟨rfl, rfl, .inr ⟨rfl, batchSize, rfl⟩⟩, ?_⟩
    dsimp only
    split
    · show ((bumpEach rows >>= fun _ => Prog.flushSession >>= fun _ => .raise e) >>= k).Traced _ _ _
        _ _ _
      rw [Prog.bind_assoc']
      refine traced_bumpEach ?_
      rw [Prog.bind_assoc']
      refine Prog.traced_flushSession ?_
      refine Contract.Flushes.of_own (rows.map (·.lock)) rely_refl rely_trans (fun o ho db hdb => ?_)
        (fun _ _ _ _ _ _ _ _ _ _ => rfl) (List.subset_append_right _ _) hown₂ fun _ _ _ _ _ => rfl
      obtain ⟨r, hr, rfl⟩ := List.mem_map.1 ho
      intro id p n he
      injection he with hid
      subst hid
      exact hdb _ (List.mem_map_of_mem hr) _ _ _ rfl
    · exact fun _ _ => rfl
  | ok u =>
    refine ⟨⟨g.sent ++ rows.map (·.entry), g.failed⟩,
      .inl ⟨rows.map (·.entry), ⟨_, rfl⟩, ?_, rfl, rfl, ?_, ?_, ?_, ?_⟩, ?_⟩
    · rw [List.map_map]
      rfl
    · rw [hbatch, ← hrows]
      exact pending_ids_nodup _ _ _
    · -- what it has handed out is published, as it sees it
      intro x hx hsent
      obtain ⟨r, hr, rfl⟩ := List.mem_map.1 hx
      obtain ⟨hmem, hp⟩ := mem_pending (hrows ▸ hr)
      have hmarked := hw.marked st₁.db r hmem hsent
      rw [hp] at hmarked
      cases hmarked
    · intro x hx
      obtain ⟨r, hr, rfl⟩ := List.mem_map.1 hx
      obtain ⟨r₀, hr₀, hid, hp⟩ :=
        hown₂ r.lock (List.mem_append_right _ (List.mem_map_of_mem hr)) _ _ _ rfl
      obtain ⟨r₁, hr₁, hsame₁, -⟩ := hcommitted r hr
      obtain ⟨r₂, hr₂', hsame₂⟩ := hr₂ r₁ hr₁
      have he : r₀ = r₂ := PlatformDb.outbox_ext hr₀ hr₂' (by rw [hid, hsame₂.id_eq, hsame₁.id_eq])
      exact ⟨r₀, hr₀, by rw [he, hsame₂.entry_eq, hsame₁.entry_eq], hp⟩
    · intro x hx
      obtain ⟨r, hr, rfl⟩ := List.mem_map.1 hx
      exact ⟨r.lock, List.mem_append_right _ (List.mem_map_of_mem hr), List.mem_singleton_self _⟩
    show ((now >>=
      fun time => stampEach time rows >>= fun _ => Prog.flushSession >>= fun _ => pure rows.length)
        >>= k).Traced _ _ _ _ _ _
    rw [Prog.bind_assoc']
    refine Prog.traced_ask fun st₃ hr₃ hown₃ env₃ => ⟨_, .inr ⟨rfl, rfl, .inl rfl⟩, ?_⟩
    rw [Prog.bind_assoc']
    refine traced_stampEach ?_
    rw [Prog.bind_assoc']
    refine Prog.traced_flushSession ?_
    refine Contract.Flushes.of_own (rows.map (·.lock)) rely_refl rely_trans (fun o ho db hdb => ?_)
      (fun o ho w' db e _ hdb hcheck => ?_) (List.subset_append_right _ _) hown₃ fun st₄ hr₄ hown₄ => ?_
    · obtain ⟨r, hr, rfl⟩ := List.mem_map.1 ho
      intro id p n he
      injection he with hid
      subst hid
      exact hdb _ (List.mem_map_of_mem hr) _ _ _ rfl
    · obtain ⟨r, hr, rfl⟩ := List.mem_map.1 ho
      obtain ⟨r₀, hr₀, hid, -⟩ := hdb _ (List.mem_map_of_mem hr) _ _ _ rfl
      have hok := check_setOutbox hr₀ w' (some (max st₂.world.clock env₃.time)) (r.attempts + 1)
      rw [hid] at hok
      exact absurd (hok.symm.trans hcheck) (by simp)
    · exact hk rows.length _ _ st₄ (hw.batch hrows.symm) hg

theorem traced_drainRounds {rounds publishedTotal : Nat} (hw : Drained w g) (hg : g.failed = false) :
    (drainRounds batchSize rounds publishedTotal >>= fun total => .flush (.ret total)).Traced
      (contract ι) (.publish batchSize)
      [] w g st := by
  induction rounds generalizing publishedTotal w g st with
  | zero => exact fun _ _ _ => hw
  | succ rounds ih =>
    rw [drainRounds, Prog.bind_assoc']
    refine traced_drainOutbox hw hg fun count w' g' st' hw' hg' => ?_
    split
    · exact fun _ _ _ => hw'
    · exact ih hw' hg'

/-- The publisher and the insertions keep the contract. -/
theorem lawful {inserting : ι → Platform Unit} (h : ∀ i, Inserts (inserting i)) :
    (contract ι).Lawful (jobs inserting) where
  refl := rely_refl
  trans := rely_trans
  stable o o' db hkeys hown id p n he := by
    obtain ⟨r, hr, hid, hp⟩ := hown id p n he
    have hfree : .outboxRow id ∉ PlatformOp.keys o' :=
      hkeys _ (by rw [he]; exact List.mem_singleton_self _)
    refine ⟨r, PlatformDb.row_kept hr fun p' n' he' => hfree ?_, hid, hp⟩
    rw [he', hid]
    exact List.mem_singleton_self _
  act _ _ _ st _ _ _ _ := PlatformDb.KeepsEvents.refl st.db
  commit _ _ w _ st _ := PlatformDb.keeps_applyAll w st.db
  traced job st := by
    cases job with
    | publish batchSize =>
      refine traced_drainRounds
        ⟨fun o ho => absurd ho List.not_mem_nil, fun _ _ _ hid => absurd hid List.not_mem_nil⟩ rfl
    | insert i =>
      have hemits : (jobs inserting (.insert i)).commit.Emits PlatformOp.InsertsOnly := by
        refine Prog.Emits.bind ?_ fun _ => trivial
        exact (h i).writes.bind fun _ => trivial
      have hdelivers : (jobs inserting (.insert i)).commit.Within fun (w w' : World PlatformOutside) =>
          w'.outside.delivered = w.outside.delivered := by
        refine Prog.Within.bind ?_ fun _ => trivial
        exact (h i).delivers.bind fun _ => trivial
      refine Prog.Traced.of_emits (fun o db ho id p n he => ?_) (fun w st ok world hworld => ?_)
        (fun _ _ _ hw => hw)
        (fun _ hjob => by cases hjob) hemits hdelivers fun o ho => absurd ho List.not_mem_nil
      · rw [he] at ho
        exact ho.elim
      · exact Or.inr ⟨hworld, rfl, .inl rfl⟩

/-! ### Runs -/

section
variable {inserting : ι → Platform Unit} {s : Workers ι} {e : WorkerEvent ι}
  {ghost ghost' : Nat → Handed}

/-- What a transaction has handed out, it holds. -/
def Holding (ghost : Nat → Handed) (s : Workers ι) : Prop :=
  ∀ i job w, s.InFlight i job w → ∀ x ∈ (ghost i).sent, ∃ o ∈ w, .outboxRow x.1 ∈ PlatformOp.keys o

/-- What `log` says of the deliveries: it lists what they contained, all of it are events of the
outbox, and it has everything that is published or handed out. -/
structure Logged (ghost : Nat → Handed) (s : Workers ι)
    (log : List (Uuid × TelemetryEvent)) : Prop where
  delivered : s.world.outside.delivered.flatten = log.map (·.2)
  known : ∀ x ∈ log, ∃ r ∈ s.db.outbox.rows, r.entry = x
  published : ∀ r ∈ s.db.outbox.rows, r.publishedAt.isSome = true → r.entry ∈ log
  sent : ∀ i, ∀ x ∈ (ghost i).sent, x ∈ log
  held : Holding ghost s

/-- Transaction `i` is a run of the task that has not ended. -/
def publishing (s : Workers ι) (i : Nat) : Bool :=
  match s.threads[i]? with
  | some ⟨.publish _, .running ..⟩ => true
  | _ => false

/-- The event is a failure of a publisher: it dies, or the sink raises. -/
def fails (s : Workers ι) : WorkerEvent ι → Bool
  | .start _ => false
  | .step i env => publishing s i && s.raises (.step i env)
  | .crash i => publishing s i

theorem publishing_of_inFlight {i : Nat} (h : s.InFlight i (.publish batchSize) w) :
    publishing s i = true := by
  obtain ⟨p, d, h⟩ := h
  rw [publishing, h]

/-- While no publisher has failed, nothing is handed out twice. -/
structure Once (ghost : Nat → Handed) (s : Workers ι) (log : List (Uuid × TelemetryEvent)) : Prop where
  nodup : (log.map (·.1)).Nodup
  accounted : ∀ x ∈ log, (∃ r ∈ s.db.outbox.rows, r.entry = x ∧ r.publishedAt.isSome = true) ∨
    ∃ i batchSize w, s.InFlight i (.publish batchSize) w ∧ x ∈ (ghost i).sent
  unfailed : ∀ i, (ghost i).failed = false

/-- A commit publishes what it has handed out. -/
theorem published_of_commit {job : Job ι} {a : Nat} {w : List PlatformOp} {g : Handed}
    {db : PlatformDb} (h : (contract ι).Returns job a w g db) {r' : TelemetryOutbox}
    (hr' : r' ∈ (applyAll platformTables.backend w db).outbox.rows)
    (hp : r'.publishedAt.isSome = true) : ∃ r ∈ db.outbox.rows, r.Same r' ∧
      (r.publishedAt.isSome = true ∨ r.id ∈ g.sent.map (·.1)) := by
  cases job with
  | publish batchSize =>
    obtain ⟨r, hr, hsame, hor⟩ := PlatformDb.back_setOutbox h.sets hr'
    refine ⟨r, hr, hsame, ?_⟩
    rcases hor with ⟨he, -⟩ | ⟨n, hn⟩
    · exact .inl (by rwa [← he])
    · obtain ⟨id, p, n, he, hsent⟩ := h.writes _ hn
      injection he with hid hpe
      rw [hid]
      exact .inr (hsent (by rwa [← hpe]))
  | insert i =>
    have hold : ∀ {ops : List PlatformOp} {db : PlatformDb}, (∀ o ∈ ops, o.InsertsOnly) →
        r' ∈ (applyAll platformTables.backend ops db).outbox.rows → r' ∈ db.outbox.rows := by
      intro ops
      induction ops with
      | nil => exact fun _ h => h
      | cons o ops ih =>
        intro db hops hr
        rw [applyAll_cons] at hr
        have hr₁ := ih (fun o ho => hops o (List.mem_cons_of_mem _ ho)) hr
        rcases PlatformOp.back_insertsOnly hr₁ (hops o List.mem_cons_self) with hr₀ | hnone
        · exact hr₀
        · rw [hnone] at hp
          cases hp
    exact ⟨r', hold h hr', .refl r', .inl hp⟩

/-- The invariant of all runs; `calm` says that no publisher has failed. -/
def Invariant (calm : Prop) (s : Workers ι) : Prop :=
  ∃ ghost log, s.Traced (contract ι) ghost ∧ Logged ghost s log ∧ (calm → Once ghost s log)

theorem init_invariant (calm : Prop) {db : PlatformDb}
    (hdb : ∀ r ∈ db.outbox.rows, r.publishedAt = none) {world : World PlatformOutside}
    (hworld : world.outside.delivered = []) :
        Invariant calm (System.init db world : Workers ι) := by
  refine ⟨fun _ => ⟨[], false⟩, [],
    ⟨?_, fun t ht => absurd ht List.not_mem_nil, ?_, fun _ _ => rfl⟩, ⟨?_, ?_, ?_, ?_, ?_⟩,
    fun _ => ⟨?_, ?_, ?_⟩⟩
  · intro i r p d w h
    cases h
  · intro i j t t' _ h
    cases h
  · rw [System.init, hworld]
    rfl
  · exact fun x hx => absurd hx List.not_mem_nil
  · intro r hr hp
    rw [hdb r hr] at hp
    cases hp
  · exact fun i x hx => absurd hx List.not_mem_nil
  · rintro i job w ⟨p, d, h⟩
    cases h
  · exact List.nodup_nil
  · exact fun x hx => absurd hx List.not_mem_nil
  · exact fun _ => rfl

theorem Logged.held_next {log : List (Uuid × TelemetryEvent)} (hlog : Logged ghost s log)
    (ht : s.Traced (contract ι) ghost)
    (inserting : ι → Platform Unit) (e : WorkerEvent ι)
    (hkeep : ∀ j r w r' w', (s.next (jobs inserting) e).InFlight j r' w' →
      s.InFlight j r w → ∃ w', w ⊆ w' ∧ (s.next (jobs inserting) e).InFlight j r w') :
          Holding ghost (s.next (jobs inserting) e) := by
  intro i job w hi x hx
  rcases hi.before with ⟨w₀, hi₀⟩ | hnew
  · obtain ⟨o, ho, hkey⟩ := hlog.held i job w₀ hi₀ x hx
    obtain ⟨w₁, hsub, hi₁⟩ := hkeep i job w₀ job w hi hi₀
    rw [(hi.unique hi₁).2]
    exact ⟨o, hsub ho, hkey⟩
  · rw [ht.fresh i hnew] at hx
    exact absurd hx List.not_mem_nil

theorem Once.keep {log : List (Uuid × TelemetryEvent)} {s' : Workers ι} (h : Once ghost s log)
    (hpublished : ∀ r ∈ s.db.outbox.rows, r.publishedAt.isSome = true → r ∈ s'.db.outbox.rows)
    (hsent : ∀ i batchSize w, s.InFlight i (.publish batchSize) w → ∀ x ∈ (ghost i).sent,
      (∃ r ∈ s'.db.outbox.rows, r.entry = x ∧ r.publishedAt.isSome = true) ∨ ∃ w',
        s'.InFlight i (.publish batchSize) w') :
    Once ghost s' log := by
  refine ⟨h.nodup, fun x hx => ?_, h.unfailed⟩
  rcases h.accounted x hx with ⟨r, hr, hent, hp⟩ | ⟨i, batchSize, w, hi, hxi⟩
  · exact .inl ⟨r, hpublished r hr hp, hent, hp⟩
  · exact (hsent i batchSize w hi x hxi).imp_right fun ⟨w', hi'⟩ => ⟨i, batchSize, w', hi', hxi⟩

/-- A batch goes to the sink. -/
theorem Logged.hand {log batch : List (Uuid × TelemetryEvent)} {i : Nat} {job : Job ι}
    {w w' : List PlatformOp} {g : Handed} {s' : Workers ι} (hlog : Logged ghost s log)
    (hi : s'.InFlight i job w') (hw : w ⊆ w') (hdb : s'.db = s.db)
    (hact : Hands batch job (ghost i) w ⟨s.db, s.world⟩ s'.world g) (hheld : Holding ghost s') :
    Logged (Function.update ghost i g) s' (log ++ batch) := by
  refine ⟨?delivered, ?known, ?published, ?sent, ?held⟩
  case delivered =>
    rw [hact.delivered, List.flatten_append, hlog.delivered, List.map_append]
    simp
  case known =>
    rw [hdb]
    intro x hx
    rcases List.mem_append.1 hx with hx | hx
    · exact hlog.known x hx
    · obtain ⟨r, hr, hent, -⟩ := hact.pending x hx
      exact ⟨r, hr, hent⟩
  case published =>
    rw [hdb]
    exact fun r hr hp => List.mem_append_left _ (hlog.published r hr hp)
  case sent =>
    intro j x hx
    by_cases hj : j = i
    · subst hj
      rw [Function.update_self, hact.sent] at hx
      exact List.mem_append.2 ((List.mem_append.1 hx).imp_left (hlog.sent j x))
    · rw [Function.update_of_ne hj] at hx
      exact List.mem_append_left _ (hlog.sent j x hx)
  case held =>
    intro j job' w₁ hj x hx
    by_cases hji : j = i
    · subst hji
      rw [Function.update_self, hact.sent] at hx
      rcases List.mem_append.1 hx with hx | hx
      · exact hheld j job' w₁ hj x hx
      · obtain ⟨o, ho, hkey⟩ := hact.held x hx
        rw [(hj.unique hi).2]
        exact ⟨o, hw ho, hkey⟩
    · rw [Function.update_of_ne hji] at hx
      exact hheld j job' w₁ hj x hx

/-- What goes to the sink has not been handed out before: who has handed it out holds it, and has it
published. -/
theorem Once.hand {log batch : List (Uuid × TelemetryEvent)} {i : Nat} {job : Job ι}
    {w : List PlatformOp} {g : Handed} {s' : Workers ι} (honce : Once ghost s log)
    (hlog : Logged ghost s log) (hx : s.Exclusive) (hi : s.InFlight i job w) (hdb : s'.db = s.db)
    (hact : Hands batch job (ghost i) w ⟨s.db, s.world⟩ s'.world g)
    (hkeep : ∀ j r w, s.InFlight j r w → ∃ w', s'.InFlight j r w') :
        Once (Function.update ghost i g) s' (log ++ batch) := by
  have hsub : ∀ j, ∀ x ∈ (ghost j).sent, x ∈ (Function.update ghost i g j).sent := by
    intro j x hx
    by_cases hj : j = i
    · subst hj
      rw [Function.update_self, hact.sent]
      exact List.mem_append_left _ hx
    · rwa [Function.update_of_ne hj]
  refine ⟨?nodup, ?accounted, ?unfailed⟩
  case nodup =>
    rw [List.map_append]
    refine List.nodup_append.2 ⟨honce.nodup, hact.distinct, ?_⟩
    rintro id hid _ hid' rfl
    obtain ⟨x, hxl, rfl⟩ := List.mem_map.1 hid
    obtain ⟨y, hy, hyx⟩ := List.mem_map.1 hid'
    obtain ⟨r, hr, hent, hp⟩ := hact.pending y hy
    have hrid : r.id = x.1 := by
      rw [← hyx, ← hent]
      rfl
    rcases honce.accounted x hxl with ⟨r', hr', hent', hp'⟩ | ⟨j, n, w', hj, hsent⟩
    · have hrid' : r'.id = x.1 := by
        rw [← hent']
        rfl
      rw [PlatformDb.outbox_ext hr' hr (hrid'.trans hrid.symm), hp] at hp'
      cases hp'
    · by_cases hji : j = i
      · subst hji
        exact hact.unsent y hy (by rw [hyx]; exact List.mem_map_of_mem hsent)
      · obtain ⟨o, ho, hkey⟩ := hact.held y hy
        obtain ⟨o', ho', hkey'⟩ := hlog.held j _ w' hj x hsent
        obtain ⟨p, d, hi⟩ := hi
        obtain ⟨p', d', hj⟩ := hj
        exact hx j i _ _ hji hj hi o' ho' o ho _ hkey' (hyx ▸ hkey)
  case accounted =>
    rw [hdb]
    intro x hx
    rcases List.mem_append.1 hx with hx | hx
    · refine (honce.accounted x hx).imp_right fun ⟨j, n, w', hj, hsent⟩ => ?_
      obtain ⟨w'', hj'⟩ := hkeep j _ w' hj
      exact ⟨j, n, w'', hj', hsub j x hsent⟩
    · obtain ⟨n, rfl⟩ := hact.publishes
      obtain ⟨w', hi'⟩ := hkeep i _ w hi
      refine .inr ⟨i, n, w', hi', ?_⟩
      rw [Function.update_self, hact.sent]
      exact List.mem_append_right _ hx
  case unfailed =>
    intro j
    by_cases hj : j = i
    · subst hj
      rw [Function.update_self, hact.failed]
      exact honce.unfailed j
    · rw [Function.update_of_ne hj]
      exact honce.unfailed j

/-- A commit publishes what its transaction has handed out. -/
theorem Logged.commit {log : List (Uuid × TelemetryEvent)} {i a : Nat} {job : Job ι}
    {w : List PlatformOp} {s' : Workers ι} (hlog : Logged ghost s log)
    (hret : (contract ι).Returns job a w (ghost i) s.db)
    (hdb : s'.db = applyAll platformTables.backend w s.db) (hworld : s'.world = s.world)
    (hheld : Holding ghost s') : Logged ghost s' log := by
  refine ⟨by rw [hworld]; exact hlog.delivered, fun x hx => ?_, fun r' hr' hp => ?_, hlog.sent, hheld⟩
  · obtain ⟨r, hr, rfl⟩ := hlog.known x hx
    obtain ⟨r', hr', hsame⟩ := PlatformDb.keeps_applyAll w s.db r hr
    exact ⟨r', hdb ▸ hr', hsame.entry_eq⟩
  · obtain ⟨r, hr, hsame, hor⟩ := published_of_commit hret (hdb ▸ hr') hp
    rw [hsame.entry_eq]
    rcases hor with hp | hid
    · exact hlog.published r hr hp
    · obtain ⟨x, hx, hxid⟩ := List.mem_map.1 hid
      obtain ⟨r₂, hr₂, rfl⟩ := hlog.known x (hlog.sent i x hx)
      rw [← PlatformDb.outbox_ext hr₂ hr hxid]
      exact hlog.sent i _ hx

theorem Once.commit {log : List (Uuid × TelemetryEvent)} {i a : Nat} {job : Job ι}
    {w : List PlatformOp} {s' : Workers ι} (honce : Once ghost s log) (hlog : Logged ghost s log)
    (ht : s.Traced (contract ι) ghost) (hi : s.InFlight i job w)
    (hret : (contract ι).Returns job a w (ghost i) s.db)
    (hdb : s'.db = applyAll platformTables.backend w s.db)
    (hkeep : ∀ j r w, j ≠ i → s.InFlight j r w → ∃ w', s'.InFlight j r w') : Once ghost s' log := by
  refine honce.keep (fun r hr hp => ?_) fun j n w' hj x hx => ?_
  · -- nobody holds a published row
    rw [hdb]
    refine PlatformDb.row_kept_all hr fun p n hw => ?_
    obtain ⟨q, d, hi⟩ := hi
    obtain ⟨r₀, hr₀, hid, hp₀⟩ := ht.owned _ (List.mem_of_getElem? hi) _ hw _ p n rfl
    rw [← PlatformDb.outbox_ext hr₀ hr hid, hp₀] at hp
    cases hp
  · by_cases hji : j = i
    · subst hji
      obtain ⟨rfl, rfl⟩ := hi.unique hj
      obtain ⟨r, hr, rfl⟩ := hlog.known x (hlog.sent j x hx)
      obtain ⟨r', hr', hsame⟩ := PlatformDb.keeps_applyAll w s.db r hr
      refine .inl ⟨r', hdb ▸ hr', hsame.entry_eq, hret.marked s.db r' hr' ?_⟩
      rw [hsame.id_eq]
      exact List.mem_map_of_mem hx
    · exact .inr (hkeep j _ w' hji hj)

theorem Logged.same {log : List (Uuid × TelemetryEvent)} {s' : Workers ι} (hlog : Logged ghost s log)
    (hghost : ∀ j, (ghost' j).sent = (ghost j).sent) (hdb : s'.db = s.db)
    (hdelivered : s'.world.outside.delivered = s.world.outside.delivered)
    (hheld : Holding ghost s') : Logged ghost' s' log := by
  refine ⟨by rw [hdelivered]; exact hlog.delivered, by rw [hdb]; exact hlog.known,
    by rw [hdb]; exact hlog.published, fun j => ?_,
    fun j => ?_⟩
  · rw [hghost j]
    exact hlog.sent j
  · rw [hghost j]
    exact hheld j

theorem Invariant.next {calm : Prop} (hins : ∀ i, Inserts (inserting i)) (hs : Invariant calm s)
    (hcalm : calm → fails s e = false) :
    Invariant calm (s.next (jobs inserting) e) := by
  obtain ⟨ghost, log, ht, hlog, honce⟩ := hs
  obtain ⟨ghost', hdoes, ht'⟩ := ht.next (lawful hins) e
  have hheld := hlog.held_next ht inserting e
  cases hdoes with
  | quiet hdb hworld hkeep =>
    refine ⟨ghost, log, ht', hlog.same (fun _ => rfl) hdb (by rw [hworld])
      (hheld fun j r w _ _ _ => hkeep j r w), fun hc => ?_⟩
    refine (honce hc).keep (fun r hr _ => by rwa [hdb]) fun i n w hi x _ => .inr ?_
    exact (hkeep i _ w hi).imp fun w' h => h.2
  | @act i job w g env he hi hdb hact hkeep =>
    have hheld := hheld fun j r w _ _ _ => hkeep j r w
    rcases hact with ⟨batch, hact⟩ | ⟨hdelivered, hsent, hfailed⟩
    · obtain ⟨w', hw, hi'⟩ := hkeep i job w hi
      refine ⟨_, log ++ batch, ht', hlog.hand hi' hw hdb hact hheld, fun hc => ?_⟩
      exact (honce hc).hand hlog ht.exclusive hi hdb hact
        fun j r w hj => (hkeep j r w hj).imp fun w' h => h.2
    · have hghost : ∀ j, (Function.update ghost i g j).sent = (ghost j).sent := by
        intro j
        by_cases hj : j = i
        · subst hj
          rw [Function.update_self, hsent]
        · rw [Function.update_of_ne hj]
      refine ⟨_, log, ht', hlog.same hghost hdb hdelivered hheld, fun hc => ?_⟩
      have hkept : Once ghost (s.next (jobs inserting) e) log :=
          (honce hc).keep (fun r hr _ => by rwa [hdb]) fun j n w hj x _ => .inr <|
        (hkeep j _ w hj).imp fun w' h => h.2
      refine ⟨hkept.nodup, fun x hx => ?_, fun j => ?_⟩
      · exact (hkept.accounted x hx).imp_right fun ⟨j, n, w', hj, hx⟩ => ⟨j, n, w', hj, by rwa [hghost]⟩
      · by_cases hj : j = i
        · subst hj
          rw [Function.update_self]
          rcases hfailed with hfailed | ⟨hraises, n, rfl⟩
          · rw [hfailed]
            exact hkept.unfailed j
          · have hfalse := hcalm hc
            rw [he, fails, publishing_of_inFlight hi, ← he, Bool.true_and] at hfalse
            rw [hfalse] at hraises
            cases hraises
        · rw [Function.update_of_ne hj]
          exact hkept.unfailed j
  | @commit i job a w hi hret hdb hworld hend hkeep =>
    have hheld := hheld fun j r w r' w' hj => hkeep j r w fun hji => hend r' w' (hji ▸ hj)
    refine ⟨ghost, log, ht', hlog.commit hret hdb hworld hheld, fun hc => ?_⟩
    exact (honce hc).commit hlog ht hi hret hdb fun j r w hj h => (hkeep j r w hj h).imp fun w' h => h.2
  | @drop i job w hi he hdb hworld hend hkeep =>
    have hheld := hheld fun j r w r' w' hj => hkeep j r w fun hji => hend r' w' (hji ▸ hj)
    refine ⟨ghost, log, ht', hlog.same (fun _ => rfl) hdb (by rw [hworld]) hheld, fun hc => ?_⟩
    refine (honce hc).keep (fun r hr _ => by rwa [hdb]) fun j n w' hj x _ => .inr ?_
    by_cases hji : j = i
    · subst hji
      rcases he with he | he
      · have hfalse := hcalm hc
        rw [he, fails, publishing_of_inFlight hj] at hfalse
        cases hfalse
      · have hfailed := he n (hi.unique hj).1
        rw [(honce hc).unfailed j] at hfailed
        cases hfailed
    · exact (hkeep j _ w' hji hj).imp fun w' h => h.2

theorem Invariant.subperms {calm : Prop} (hs : Invariant calm s) :
    (s.db.published.map (·.payload)).Subperm s.world.outside.delivered.flatten ∧
      (calm → s.world.outside.delivered.flatten.Subperm (s.db.outbox.rows.map (·.payload))) := by
  obtain ⟨ghost, log, ht, hlog, honce⟩ := hs
  have hentries : ∀ rows : List TelemetryOutbox,
      rows.map (·.payload) = (rows.map (·.entry)).map (·.2) := by
    intro rows
    rw [List.map_map]
    rfl
  have hmap : ∀ {l l' : List (Uuid × TelemetryEvent)}, l.Subperm l' →
      (l.map (·.2)).Subperm (l'.map (·.2)) :=
    fun ⟨l, hp, hs⟩ => ⟨l.map _, hp.map _, hs.map _⟩
  rw [hlog.delivered, hentries, hentries]
  constructor
  · have hnodup : (s.db.published.map (·.entry)).Nodup := by
      refine List.Nodup.of_map (·.1) ?_
      rw [List.map_map]
      exact s.db.outbox_ids_nodup.sublist (List.filter_sublist.map _)
    refine hmap (hnodup.subperm fun x hx => ?_)
    obtain ⟨r, hr, rfl⟩ := List.mem_map.1 hx
    obtain ⟨hr, hp⟩ := Table.mem_select.1 hr
    exact hlog.published r hr hp
  · intro hc
    refine hmap ((List.Nodup.of_map _ (honce hc).nodup).subperm fun x hx => ?_)
    obtain ⟨r, hr, rfl⟩ := hlog.known x hx
    exact List.mem_map_of_mem hr

theorem keeps_next (prog : Job ι → Platform Nat) (s : Workers ι) (e : WorkerEvent ι) :
    s.db.KeepsEvents (s.next prog e).db := by
  have hdb := System.next_db prog s e
  rw [hdb]
  split
  · exact PlatformDb.keeps_applyAll _ _
  · exact PlatformDb.KeepsEvents.refl _

theorem keeps_run (prog : Job ι → Platform Nat) (es : List (WorkerEvent ι)) (s : Workers ι) :
    s.db.KeepsEvents (run (System.next prog) s es).db := by
  induction es generalizing s with
  | nil => exact PlatformDb.KeepsEvents.refl _
  | cons e es ih => exact (keeps_next prog s e).trans (ih _)

end

/-- Telemetry delivery: however publishers interleave with each other and with transactions that
insert events, each published event has its own place in a delivery that the sink took, no row is
held by two transactions, no event is removed or changed, and as long as no publisher fails each
event is delivered at most once. -/
theorem telemetry_delivery {inserting : ι → Platform Unit} (hins : ∀ i, Inserts (inserting i))
    {db : PlatformDb} (hdb : ∀ r ∈ db.outbox.rows, r.publishedAt = none)
    {world : World PlatformOutside} (hworld : world.outside.delivered = [])
    (es : List (WorkerEvent ι)) :
    let s : Workers ι := run (System.next (jobs inserting)) (.init db world) es
    (s.db.published.map (·.payload)).Subperm s.world.outside.delivered.flatten ∧
      (∀ (i j : Nat) (t t' : Thread platformTables.backend (Job ι) Nat) (id : Uuid), i ≠ j →
        s.threads[i]? = some t →
        s.threads[j]? = some t' →
          ¬ (t.holds (.outboxRow id) = true ∧ t'.holds (.outboxRow id) = true)) ∧
      (∀ es', s.db.KeepsEvents (run (System.next (jobs inserting)) s es').db) ∧
      (Meets (System.next (jobs inserting)) (fun s e => fails s e = false) (.init db world) es →
        s.world.outside.delivered.flatten.Subperm (s.db.outbox.rows.map (·.payload))) := by
  intro s
  have hs : Invariant False s :=
    run_invariant (fun _ _ hs => hs.next hins False.elim) (init_invariant False hdb hworld) es
  refine ⟨hs.subperms.1,
    fun i j t t' id hij hi hj ⟨hti, htj⟩ => ?_, fun es' => keeps_run _ es' s, fun hm => ?_⟩
  · obtain ⟨ghost, log, ht, -, -⟩ := hs
    simp only [Thread.holds, List.any_eq_true, List.contains_iff_mem] at hti htj
    obtain ⟨o, ho, hkey⟩ := hti
    obtain ⟨o', ho', hkey'⟩ := htj
    exact ht.exclusive i j t t' hij hi hj o ho o' ho' _ hkey hkey'
  · have hcalm := Always.of_meets (P := Invariant True) (fun _ _ hs hc => hs.next hins fun _ => hc)
      (init_invariant True hdb hworld) hm
    exact (always_iff.1 hcalm es [] (by simp)).subperms.2 trivial

/-- Two publishers take turns, with batches of one event. -/
def sampleWorkers : List (WorkerEvent HttpRequest) :=
  [.start (.publish 1), .start (.publish 1)] ++
    (List.range 12).flatMap fun _ => [.step 0 (sampleGatewayEnv 1), .step 1 (sampleGatewayEnv 1)]

theorem telemetry_delivery_two :
    let s : Workers HttpRequest := run (System.next (jobs fun request => do
      let _ ← Gateway.proxy sampleGatewayConfig request
      return ())) (.init sampleOutbox.db sampleOutbox.world) sampleWorkers
    s.world.outside.delivered = [[sampleAuditEvent 50], [sampleAuditEvent 51]] ∧
      s.db.published.map (·.id) = [60, 61] ∧
      s.world.outside.delivered.flatten.Subperm (s.db.outbox.rows.map (·.payload)) :=
  ⟨by decide +kernel, by decide +kernel,
    (telemetry_delivery (fun request => inserts_proxy sampleGatewayConfig request)
      (by decide) rfl sampleWorkers).2.2.2
      (by decide +kernel)⟩

end TelemetryPublisher

end TrafficPlatform
