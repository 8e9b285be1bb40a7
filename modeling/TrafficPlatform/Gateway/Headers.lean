import TrafficPlatform.Gateway.Effects
import Mathlib.Data.List.Perm.Subperm

/-!
# The headers of an upstream request

The route reads the header lines of a request as a dictionary, and `_forward` drops a fixed set of
names from it. RFC 7230 makes more of them hop-by-hop: the names that the `Connection` header lists,
and `Trailer`. `forwarded_headers_iff` says for which requests the upstream gets what it should.
-/

namespace TrafficPlatform
open Kit Gateway GatewayService

/-! ### Names in lower case -/

namespace HeaderLines

/-- The lines as the server hands them to the application: the names in lower case. -/
def asgi (lines : HeaderLines) : HeaderLines := lines.map fun h => (asciiLower h.1, h.2)

variable {lines : HeaderLines} {h : String × String} {p : String → Bool}

theorem lower_of_mem_asgi (hmem : h ∈ lines.asgi) : asciiLower h.1 = h.1 := by
  obtain ⟨h', -, rfl⟩ := List.mem_map.1 hmem
  exact asciiLower_asciiLower h'.1

/-! ### The dictionary -/

theorem dict_cons (h : String × String) (hs : HeaderLines) : dict (h :: hs) = h ::
    (dict hs).filter fun h' => h'.1 != h.1 := rfl

theorem dict_sublist : ∀ lines : HeaderLines, lines.dict.Sublist lines
  | [] => .slnil
  | _ :: hs => (List.filter_sublist.trans (dict_sublist hs)).cons_cons _

theorem nodup_dict : ∀ lines : HeaderLines, (lines.dict.map (·.1)).Nodup
  | [] => List.nodup_nil
  | h :: hs => by
    refine List.nodup_cons.2 ⟨fun hmem => ?_, (nodup_dict hs).sublist (List.filter_sublist.map _)⟩
    obtain ⟨h', hh', he⟩ := List.mem_map.1 hmem
    simpa [he] using (List.mem_filter.1 hh').2

theorem exists_mem_dict (hmem : h ∈ lines) : ∃ h' ∈ lines.dict, h'.1 = h.1 := by
  induction lines with
  | nil => exact absurd hmem List.not_mem_nil
  | cons h₀ hs ih =>
    by_cases hname : h.1 = h₀.1
    · exact ⟨h₀, List.mem_cons_self, hname.symm⟩
    · obtain ⟨h', hh', he⟩ := ih ((List.mem_cons.1 hmem).resolve_left fun heq => hname (heq ▸ rfl))
      exact ⟨h', List.mem_cons_of_mem _ (List.mem_filter.2 ⟨hh', by simpa [he] using hname⟩), he⟩

theorem dict_of_nodup (hnodup : (lines.map (·.1)).Nodup) : lines.dict = lines := by
  induction lines with
  | nil => rfl
  | cons h₀ hs ih =>
    obtain ⟨hno, hnodup⟩ := List.nodup_cons.1 hnodup
    rw [dict_cons, ih hnodup,
      List.filter_eq_self.2 fun h' hh' => bne_iff_ne.2 fun he => hno (List.mem_map.2 ⟨h', hh', he⟩)]

theorem filter_dict (lines : HeaderLines) : lines.dict.filter (fun h => p h.1) =
    dict (lines.filter fun h => p h.1) := by
  induction lines with
  | nil => rfl
  | cons h₀ hs ih =>
    rw [dict_cons, List.filter_cons]
    have hcomm : ((dict hs).filter fun h => h.1 != h₀.1).filter (fun h => p h.1) =
        (dict (hs.filter fun h => p h.1)).filter fun h => h.1 != h₀.1 := by
      rw [← ih, List.filter_comm]
    cases hp : p h₀.1 with
    | true => rw [if_pos rfl, hcomm, List.filter_cons_of_pos (by simpa using hp), dict_cons]
    | false =>
      rw [if_neg (by simp), hcomm, List.filter_cons_of_neg (by simp [hp])]
      refine List.filter_eq_self.2 fun h hh => bne_iff_ne.2 fun he => ?_
      have hkept := (List.mem_filter.1 ((dict_sublist _).subset hh)).2
      rw [he, hp] at hkept
      cases hkept

theorem filter_sublist_filter {q r : String × String → Bool}
    (hqr : ∀ h ∈ lines, q h = true → r h = true) :
    (lines.filter q).Sublist (lines.filter r) := by
  have hq : (lines.filter r).filter q = lines.filter q := by
    rw [List.filter_filter]
    refine List.filter_congr fun h hmem => ?_
    cases hh : q h with
    | false => rfl
    | true => rw [hqr h hmem hh, Bool.true_and]
  exact hq ▸ List.filter_sublist

/-! ### What ends at the gateway -/

/-- Optional whitespace around a list element. -/
def isOws (c : Char) : Bool := c == ' ' || c == '\t'

/-- The names that the `Connection` lines list. -/
def connectionOptions (lines : HeaderLines) : List String :=
  lines.flatMap fun h => if asciiLower h.1 == "connection" then
    (h.2.toList.splitOn ',').map
      fun option => asciiLower (.ofList (dropRightWhile isOws (option.dropWhile isOws)))
  else []

/-- The hop-by-hop names that RFC 7230 defines or takes over. -/
def standardHopByHop : List String :=
  ["connection", "keep-alive", "proxy-authenticate", "proxy-authorization", "te", "trailer",
    "transfer-encoding", "upgrade"]

/-- A header of that name is not for the upstream. -/
def endsHere (lines : HeaderLines) (name : String) : Bool :=
  standardHopByHop.contains name || ["authorization", "x-api-key"].contains name ||
    lines.connectionOptions.contains name

/-- What the upstream should get: no header that ends at the gateway, and every other line, where
the client library sets `Host` and `Content-Length` itself. -/
structure Forwarded (lines sent : HeaderLines) : Prop where
  stopped : ∀ h ∈ sent, ¬ lines.endsHere (asciiLower h.1) = true
  kept : (lines.asgi.filter
    fun h => !lines.endsHere h.1 && !(["host", "content-length"].contains h.1)).Subperm sent

/-- The requests for which the fixed set of names and the dictionary do no harm. -/
structure Forwardable (lines : HeaderLines) : Prop where
  options : ∀ h ∈ lines.asgi, h.1 ∈ lines.connectionOptions → h.1 ∈ hopByHop
  trailer : ∀ h ∈ lines.asgi, h.1 ≠ "trailer"
  trailers : ∀ h ∈ lines.asgi, h.1 = "trailers" → h.1 ∈ lines.connectionOptions
  distinct : ((lines.asgi.filter fun h => !hopByHop.contains h.1).map (·.1)).Nodup

theorem mem_standardHopByHop {name : String} (h : name ∈ standardHopByHop) : name ∈ hopByHop ∨
    name = "trailer" := by
  unfold standardHopByHop at h
  unfold hopByHop
  simp only [List.mem_cons, List.not_mem_nil, or_false] at h ⊢
  tauto

theorem mem_hopByHop {name : String} (h : name ∈ hopByHop) :
    name ∈ standardHopByHop ∨ name = "trailers" ∨ name ∈ ["authorization", "x-api-key"] ∨
        name ∈ ["host", "content-length"] := by
  unfold hopByHop at h
  unfold standardHopByHop
  simp only [List.mem_cons, List.not_mem_nil, or_false] at h ⊢
  tauto

theorem endsHere_iff {name : String} : lines.endsHere name = true ↔
    name ∈ standardHopByHop ∨ name ∈ ["authorization", "x-api-key"] ∨
        name ∈ lines.connectionOptions := by
  unfold endsHere
  rw [Bool.or_eq_true, Bool.or_eq_true, List.contains_iff_mem, List.contains_iff_mem,
    List.contains_iff_mem, or_assoc]

theorem passedOn_dict (lines : HeaderLines) :
    passedOn lines.asgi.dict = dict (lines.asgi.filter fun h => !hopByHop.contains h.1) := by
  rw [← filter_dict (p := fun name => !hopByHop.contains name)]
  refine List.filter_congr fun h hh => ?_
  rw [lower_of_mem_asgi ((dict_sublist _).subset hh)]

theorem exists_sent (hmem : h ∈ lines.asgi) (hpass : h.1 ∉ hopByHop) :
    ∃ h' ∈ passedOn lines.asgi.dict, asciiLower h'.1 = h.1 := by
  rw [passedOn_dict]
  obtain ⟨h', hh', he⟩ := exists_mem_dict (List.mem_filter.2 ⟨hmem, by simpa using hpass⟩ :
    h ∈ lines.asgi.filter fun h => !hopByHop.contains h.1)
  exact ⟨h', hh', he.symm ▸ lower_of_mem_asgi hmem⟩

theorem Forwarded.forwardable (hf : lines.Forwarded (passedOn lines.asgi.dict)) :
    lines.Forwardable := by
  have hoptions : ∀ h ∈ lines.asgi, h.1 ∈ lines.connectionOptions → h.1 ∈ hopByHop := by
    intro h hmem hlisted
    by_contra hpass
    obtain ⟨h', hsent, he⟩ := exists_sent hmem hpass
    exact hf.stopped h' hsent (endsHere_iff.2 (.inr (.inr (he ▸ hlisted))))
  have htrailer : ∀ h ∈ lines.asgi, h.1 ≠ "trailer" := by
    intro h hmem hname
    obtain ⟨h', hsent, he⟩ := exists_sent hmem (hname ▸ by decide)
    exact hf.stopped h' hsent (endsHere_iff.2 (.inl (he.trans hname ▸ by decide)))
  refine ⟨hoptions, htrailer, fun h hmem hname => ?_, ?_⟩
  · by_contra hlisted
    have hends : ¬ lines.endsHere h.1 = true := by
      rw [endsHere_iff]
      rintro (hstd | hauth | hopt)
      · exact absurd (hname ▸ hstd) (by decide)
      · exact absurd (hname ▸ hauth) (by decide)
      · exact hlisted hopt
    have hkept : h ∈ passedOn lines.asgi.dict :=
      hf.kept.subset (List.mem_filter.2 ⟨hmem, by rw [hname] at hends ⊢; simpa using hends⟩)
    have hpassed := (List.mem_filter.1 hkept).2
    rw [lower_of_mem_asgi hmem, hname] at hpassed
    exact absurd hpassed (by decide)
  · have hsub : (lines.asgi.filter fun h => !hopByHop.contains h.1).Sublist
        (lines.asgi.filter
            fun h => !lines.endsHere h.1 && !(["host", "content-length"].contains h.1)) := by
      refine filter_sublist_filter fun h hmem hpass => ?_
      have hnot : h.1 ∉ hopByHop := by simpa using hpass
      have hends : ¬ lines.endsHere h.1 = true := by
        rw [endsHere_iff]
        rintro (hstd | hauth | hopt)
        · exact (mem_standardHopByHop hstd).elim hnot (htrailer h hmem)
        · exact hnot ((by decide : ["authorization", "x-api-key"] ⊆ hopByHop) hauth)
        · exact hnot (hoptions h hmem hopt)
      have hset : h.1 ∉ ["host", "content-length"] :=
        fun hset => hnot ((by decide : ["host", "content-length"] ⊆ hopByHop) hset)
      rw [← List.contains_iff_mem] at hset
      rw [Bool.and_eq_true, Bool.not_eq_true', Bool.not_eq_true', ← Bool.not_eq_true,
        ← Bool.not_eq_true]
      exact ⟨hends, hset⟩
    have hnames : ((passedOn lines.asgi.dict).map (·.1)).Nodup :=
      (nodup_dict _).sublist (List.filter_sublist.map _)
    obtain ⟨l, hperm, hl⟩ := hf.kept
    exact ((hperm.map (·.1)).nodup_iff.1 (hnames.sublist (hl.map _))).sublist (hsub.map _)

theorem Forwardable.forwarded (hf : lines.Forwardable) :
    lines.Forwarded (passedOn lines.asgi.dict) := by
  rw [passedOn_dict, dict_of_nodup hf.distinct]
  refine ⟨fun h hsent hends => ?_, List.Sublist.subperm ?_⟩
  · obtain ⟨hmem, hpass⟩ := List.mem_filter.1 hsent
    have hnot : h.1 ∉ hopByHop := by simpa using hpass
    rw [lower_of_mem_asgi hmem] at hends
    rcases endsHere_iff.1 hends with hstd | hauth | hopt
    · rcases mem_standardHopByHop hstd with hhop | htrailer
      · exact hnot hhop
      · exact hf.trailer h hmem htrailer
    · exact hnot ((by decide : ["authorization", "x-api-key"] ⊆ hopByHop) hauth)
    · exact hnot (hf.options h hmem hopt)
  · refine filter_sublist_filter fun h hmem hkeep => ?_
    obtain ⟨hends, hset⟩ := Bool.and_eq_true_iff.1 hkeep
    rw [Bool.not_eq_true', ← Bool.not_eq_true] at hends hset ⊢
    rw [endsHere_iff, not_or, not_or] at hends
    rw [List.contains_iff_mem] at hset ⊢
    intro hhop
    rcases mem_hopByHop hhop with hstd | htrailers | hauth | hhost
    · exact hends.1 hstd
    · exact hends.2.2 (hf.trailers h hmem htrailers)
    · exact hends.2.1 hauth
    · exact hset hhost

theorem forwarded_iff (lines : HeaderLines) : lines.Forwarded (passedOn lines.asgi.dict) ↔
    lines.Forwardable :=
  ⟨Forwarded.forwardable, Forwardable.forwarded⟩

end HeaderLines

/-! ### The requests that are sent -/

/-- What a step appends to the requests sent upstream satisfies `P`. -/
def SendsOnly (P : UpstreamRequest → Prop) (w w' : World PlatformOutside) : Prop :=
  ∃ new, w'.outside.sent = w.outside.sent ++ new ∧ ∀ r ∈ new, P r

/-- The request that `_forward` makes of an incoming one. -/
def IncomingRequest.sentTo (req : IncomingRequest) (upstreamBaseUrl : String) : UpstreamRequest :=
  ⟨req.method, upstreamUrl upstreamBaseUrl req.upstreamPath req.queryString,
    passedOn req.headers, req.body⟩

/-- `W` allows to do anything but sending and delivering. -/
def KeepsOutside (W : World PlatformOutside → World PlatformOutside → Prop) : Prop :=
  ∀ w w', w'.outside.sent = w.outside.sent → w'.outside.delivered = w.outside.delivered → W w w'

/-- `W` allows to send `r`. -/
def Sends (W : World PlatformOutside → World PlatformOutside → Prop) (r : UpstreamRequest) : Prop :=
  ∀ (w : World PlatformOutside) clock,
    W w { w with clock, outside := { w.outside with sent := w.outside.sent ++ [r] } }

section
variable {P : UpstreamRequest → Prop} {W : World PlatformOutside → World PlatformOutside → Prop}

theorem SendsOnly.of_eq {w w' : World PlatformOutside} (h : w'.outside.sent = w.outside.sent) :
    SendsOnly P w w' :=
  ⟨[], h.trans (List.append_nil _).symm, fun _ hr => absurd hr List.not_mem_nil⟩

theorem SendsOnly.refl (w : World PlatformOutside) : SendsOnly P w w := .of_eq rfl

theorem SendsOnly.trans (a b c : World PlatformOutside) (h : SendsOnly P a b)
    (h' : SendsOnly P b c) : SendsOnly P a c := by
  obtain ⟨new, hnew, hp⟩ := h
  obtain ⟨new', hnew', hp'⟩ := h'
  exact ⟨new ++ new', by rw [hnew', hnew, List.append_assoc], List.forall_mem_append.2 ⟨hp, hp'⟩⟩

theorem sends_ask (hW : KeepsOutside W) {α : Type}
    {f : Env PlatformInput → World PlatformOutside → α × World PlatformOutside}
    (h : ∀ env w, (f env w).2.outside = w.outside) : (Prog.ask f : Platform α).Within W :=
  Prog.within_ask fun env w => hW _ _ (by rw [h env w]) (by rw [h env w])

theorem sends_now (hW : KeepsOutside W) : (now : Platform Time).Within W := sends_ask hW fun _ _ => rfl

theorem sends_uuid4 (hW : KeepsOutside W) : (uuid4 : Platform Uuid).Within W :=
  sends_ask hW fun _ _ => rfl

theorem sends_perfCounterNs (hW : KeepsOutside W) : perfCounterNs.Within W :=
  sends_ask hW fun _ _ => rfl

theorem sends_inSomeOrder (hW : KeepsOutside W) {α : Type} (rows : List α) :
    (inSomeOrder rows).Within W :=
  sends_ask hW fun _ _ => rfl

theorem sends_redisEval (hW : KeepsOutside W) {α : Type}
    (script : Millis → LimiterStore → Except Failure (α × LimiterStore)) :
    (redisEval script).Within W := by
  unfold redisEval
  refine Prog.Within.bind ⟨fun env w => ?_, fun x => trivial⟩ fun r => ?_
  · dsimp only
    split
    · exact hW _ _ rfl rfl
    · exact hW _ _ rfl rfl
  · cases r <;> trivial

theorem sends_checkLimit (hW : KeepsOutside W) (algorithm : RateLimitAlgorithm) (keys : RedisKey)
    (spec : RateLimitSpec) :
    (checkLimit algorithm keys spec).Within W := by
  unfold checkLimit
  cases algorithm with
  | fixedWindow => exact sends_redisEval hW _
  | slidingWindow => exact (sends_now hW).bind fun _ => (sends_perfCounterNs hW).bind fun _ => sends_redisEval hW _
  | tokenBucket => exact (sends_now hW).bind fun _ => sends_redisEval hW _

theorem sends_rollbackQuota (hW : KeepsOutside W) (k : Uuid) (periods : List QuotaPeriod) :
    (rollbackQuota k periods).Within W := by
  induction periods with
  | nil => trivial
  | cons p periods ih =>
    refine Prog.Within.bind ?_ fun _ => ih
    exact (sends_now hW).bind fun _ => (sends_ask hW fun _ _ => rfl).bind fun _ => trivial

theorem sends_consumeEach (hW : KeepsOutside W) (k : Uuid) (quotas : List Quota)
    (consumed : List QuotaPeriod) :
    (consumeEach k quotas consumed).Within W := by
  induction quotas generalizing consumed with
  | nil => trivial
  | cons q quotas ih =>
    unfold consumeEach
    refine Prog.Within.bind ?_ fun check => ?_
    · unfold QuotaEnforcer.consume
      refine (sends_now hW).bind fun time => (sends_ask hW fun _ _ => rfl).bind fun used => ?_
      split
      · exact (sends_ask hW fun _ _ => rfl).bind fun _ => trivial
      · trivial
    · split
      · exact (sends_rollbackQuota hW _ _).bind fun _ => trivial
      · exact ih _

theorem sends_forward (hW : KeepsOutside W) (cfg : GatewayConfig) (url : String) (req : IncomingRequest)
    (hsend : Sends W (req.sentTo url)) : (forward cfg url req).Within W := by
  unfold forward
  refine (sends_perfCounterNs hW).bind fun start => Prog.Within.bind ?_ fun upstream => ?_
  · exact Prog.within_ask fun _ w => hsend w _
  · cases upstream with
    | error e => trivial
    | ok upstream => exact (sends_perfCounterNs hW).bind fun _ => trivial

theorem sends_handle (hW : KeepsOutside W) (cfg : GatewayConfig) (req : IncomingRequest)
    (presentedKey : Option String)
    (hsend : ∀ url, Sends W (req.sentTo url)) : (handle cfg req presentedKey).Within W := by
  simp only [handle, resolve, authenticate, enforceRateLimit, enforceQuota, ApiKeyRepository.getByHash,
    ApiVersionRepository.getActive, RateLimitRuleRepository.getForApi, QuotaRepository.listForApi]
  repeat' first
    | exact sends_now hW
    | exact sends_inSomeOrder hW _
    | exact sends_checkLimit hW _ _ _
    | exact sends_consumeEach hW _ _ _
    | exact sends_rollbackQuota hW _ _
    | exact sends_forward hW _ _ _ (hsend _)
    | refine Prog.Within.bind ?_ fun _ => ?_
    | split
    | simp

theorem sends_proxy (hW : KeepsOutside W) (cfg : GatewayConfig) (request : HttpRequest)
    (hsend : ∀ url, Sends W ((incomingRequest request).sentTo url)) : (proxy cfg request).Within W := by
  unfold proxy
  refine (sends_now hW).bind
    fun createdAt => (sends_handle hW cfg _ _ hsend).bind
      fun outcome => Prog.Within.bind ?_ fun _ => ?_
  · rw [record_eq]
    refine (sends_uuid4 hW).bind
      fun id => Prog.Within.bind (by simp) fun _ => (sends_uuid4 hW).bind fun usageId => ?_
    refine Prog.Within.bind (fun b => by cases b; trivial)
      fun _ => (sends_uuid4 hW).bind fun eventId => ?_
    exact (sends_uuid4 hW).bind fun outboxId => by simp
  · split <;> simp

theorem scope_proxy_sent (cfg : GatewayConfig) (request : HttpRequest) (envs : Nat → Env PlatformInput)
    (s : State platformTables.backend) (hp : ∀ url, P ((incomingRequest request).sentTo url)) :
    SendsOnly P s.world (scope (proxy cfg request) envs s).2.world :=
  scope_world SendsOnly.refl SendsOnly.trans
      (sends_proxy (fun _ _ h _ => .of_eq h) cfg request fun url _ _ =>
    ⟨[(incomingRequest request).sentTo url], rfl, fun _ hr => List.mem_singleton.1 hr ▸ hp url⟩) envs s

end

/-- Forwarded request headers: what the upstream gets of a request is right exactly if its
`Connection` header lists no name that would be passed on, it has no `Trailer` line and no
`Trailers` line, and no name that is passed on is repeated. -/
theorem forwarded_headers_iff (cfg : GatewayConfig) (lines : HeaderLines) (request : HttpRequest)
    (envs : Nat → Env PlatformInput) (s : State platformTables.backend) :
    ∃ new, (scope (proxy cfg { request with headers := lines.asgi }) envs s).2.world.outside.sent =
      s.world.outside.sent ++ new ∧
      ∀ r ∈ new, lines.Forwarded r.headers ↔ lines.Forwardable := by
  obtain ⟨new, hnew, hp⟩ := scope_proxy_sent (P := fun r => r.headers = passedOn lines.asgi.dict) cfg
    { request with headers := lines.asgi } envs s fun _ => rfl
  refine ⟨new, hnew, fun r hr => ?_⟩
  rw [hp r hr]
  exact lines.forwarded_iff

/-- A request with a header that is for the gateway alone. -/
def sampleLines : HeaderLines :=
  [("X-API-Key", "secret"), ("Connection", "close, X-Trace"), ("X-Trace", "1")]

theorem connection_option_forwarded : ¬ ∀ (cfg : GatewayConfig) (lines : HeaderLines)
    (request : HttpRequest)
    (envs : Nat → Env PlatformInput) (s : State platformTables.backend) (new : List UpstreamRequest),
    (scope (proxy cfg { request with headers := lines.asgi }) envs s).2.world.outside.sent =
      s.world.outside.sent ++ new →
      ∀ r ∈ new, lines.Forwarded r.headers := by
  intro h
  have hsent : (scope (proxy sampleGatewayConfig { sampleRequest with headers := sampleLines.asgi })
      (fun _ => sampleGatewayEnv 1)
      (⟨sampleDailyDb, sampleGatewayWorld⟩ : State platformTables.backend)).2.world.outside.sent =
        sampleGatewayWorld.outside.sent ++
          [⟨"GET", "https://weather.test", [("x-trace", "1")], []⟩] := by decide +kernel
  have hf := h sampleGatewayConfig sampleLines sampleRequest (fun _ => sampleGatewayEnv 1)
    (⟨sampleDailyDb, sampleGatewayWorld⟩ : State platformTables.backend)
      [⟨"GET", "https://weather.test", [("x-trace", "1")], []⟩] hsent
    ⟨"GET", "https://weather.test", [("x-trace", "1")], []⟩ List.mem_cons_self
  have hlower : asciiLower "x-trace" = "x-trace" := by decide +kernel
  have hends : sampleLines.endsHere "x-trace" = true := by decide +kernel
  exact hf.stopped ("x-trace", "1") List.mem_cons_self (hlower.symm ▸ hends)

end TrafficPlatform
