import TrafficPlatform.Auth.Throttle
import TrafficPlatform.Gateway
import Mathlib.Data.List.TakeWhile

/-!
# The identity of a login attempt

`client_ip` takes the first element of `X-Forwarded-For`, and the login throttle counts by it. A
trusted proxy appends the peer's address to what the client sent. `login_throttle_iff` says when the
first element is the peer's address, and that the throttle then bounds the attempts of a window.
-/

namespace TrafficPlatform
open Kit

/-! ### `client_ip` behind a proxy -/

/-- The header that the proxy sends: the peer's address, after what the client sent. -/
def proxied (forwarded : Option String) (peer : String) : String :=
  match forwarded with
  | some h => h ++ ", " ++ peer
  | none => peer

/-- The address of a peer: not empty, without commas and blanks. -/
structure IsAddress (peer : String) : Prop where
  ne_empty : peer ≠ ""
  plain : ∀ c ∈ peer.toList, c ≠ ',' ∧ isSpace c = false

/-- The client sent no value, or one that begins with the peer's address. -/
def Unspoofed (forwarded : Option String) (peer : String) : Prop := ∀ h, forwarded = some h →
    strip (beforeComma h) = peer

theorem dropRightWhile_eq {p : Char → Bool} {s : List Char} (h : ∀ c ∈ s, p c = false) :
    dropRightWhile p s = s := by
  unfold dropRightWhile
  have hkeep : s.reverse.dropWhile p = s.reverse := by
    cases hs : s.reverse with
    | nil => rfl
    | cons c cs =>
      have hc : p c = false := h c (List.mem_reverse.1 (hs ▸ List.mem_cons_self))
      rw [List.dropWhile_cons, if_neg (by rw [hc]; decide)]
  rw [hkeep, List.reverse_reverse]

theorem strip_eq {s : String} (h : ∀ c ∈ s.toList, isSpace c = false) : strip s = s := by
  unfold strip
  have hkeep : s.toList.dropWhile isSpace = s.toList := by
    cases hs : s.toList with
    | nil => rfl
    | cons c cs =>
      have hc : isSpace c = false := h c (hs ▸ List.mem_cons_self)
      rw [List.dropWhile_cons, if_neg (by rw [hc]; decide)]
  rw [hkeep, dropRightWhile_eq h, String.ofList_toList]

theorem beforeComma_eq {s : String} (h : ∀ c ∈ s.toList, c ≠ ',') : beforeComma s = s := by
  unfold beforeComma
  rw [List.takeWhile_eq_self_iff.2 fun c hc => bne_iff_ne.2 (h c hc), String.ofList_toList]

theorem beforeComma_append (h rest : String) : beforeComma (h ++ ", " ++ rest) = beforeComma h := by
  have hcomma : ∀ l : List Char, (l ++ ',' :: ' ' :: rest.toList).takeWhile (· != ',') =
      l.takeWhile (· != ',') := by
    intro l
    induction l with
    | nil => rfl
    | cons c l ih => rw [List.cons_append, List.takeWhile_cons, List.takeWhile_cons, ih]
  unfold beforeComma
  rw [String.toList_append, String.toList_append, List.append_assoc]
  exact congrArg String.ofList (hcomma h.toList)

/-- A request as the proxy passes it on. -/
def behindProxy (forwarded : Option String) (peer : String) (http : HttpRequest) : HttpRequest :=
  { http with headers := ("x-forwarded-for", proxied forwarded peer) :: http.headers }

theorem proxied_ne_empty {peer : String} (hpeer : IsAddress peer) (forwarded : Option String) :
    proxied forwarded peer ≠ "" := by
  cases forwarded with
  | none => exact hpeer.ne_empty
  | some h =>
    intro he
    have hlen := congrArg String.length he
    simp [proxied, String.length_append] at hlen

theorem clientIp_behindProxy {peer : String} (hpeer : IsAddress peer) (forwarded : Option String)
    (http : HttpRequest) :
    Gateway.clientIp (behindProxy forwarded peer http) =
        strip (beforeComma (proxied forwarded peer)) := by
  have hget : (behindProxy forwarded peer http).headers.get "x-forwarded-for" =
    some (proxied forwarded peer) := rfl
  unfold Gateway.clientIp
  rw [hget, Option.filter_some, if_pos (bne_iff_ne.2 (proxied_ne_empty hpeer forwarded))]

theorem clientIp_eq_iff {peer : String} (hpeer : IsAddress peer) (forwarded : Option String)
    (http : HttpRequest) :
    Gateway.clientIp (behindProxy forwarded peer http) = peer ↔ Unspoofed forwarded peer := by
  rw [clientIp_behindProxy hpeer]
  cases forwarded with
  | none =>
    refine iff_of_true ?_ fun h he => by cases he
    show strip (beforeComma peer) = peer
    rw [beforeComma_eq fun c hc => (hpeer.plain c hc).1, strip_eq fun c hc => (hpeer.plain c hc).2]
  | some h =>
    rw [proxied, beforeComma_append]
    constructor
    · intro he h' heq
      obtain rfl := Option.some.inj heq
      exact he
    · exact fun he => he h rfl

/-! ### Attempts -/

/-- A login attempt of a peer, with what its client sent. -/
structure LoginAttempt where
  peer : String
  forwarded : Option String
  http : HttpRequest
  email : String
  password : String
  envs : Nat → Env Unit

namespace LoginAttempt

variable (cfg : Config) (a : LoginAttempt)

def clientIp : String := Gateway.clientIp (behindProxy a.forwarded a.peer a.http)

/-- What the throttle counts by. -/
def identity : String := a.clientIp ++ ":" ++ cfg.lower a.email

/-- The state after the attempt. -/
def next (s : State authTables.backend) : State authTables.backend :=
  (scope (AuthRequest.prog cfg (.login a.clientIp a.email a.password)) a.envs s).2

/-- The attempt gets through the throttle to `AuthService.authenticate`. -/
def reaches (s : State authTables.backend) : Bool :=
  match ((AuthThrottle.check cfg (a.identity cfg)).eval ⟨s.db, [], s.world, a.envs⟩).1 with
  | .ok _ => true
  | .error _ => false

/-- The attempt finds the counter of the identity. -/
def Finds (identity : String) (s : State authTables.backend) : Prop :=
  (s.world.redis.live (max s.world.clock (a.envs 0).time) (AuthThrottle.key identity)).isSome = true

/-- The counter after the attempt's `INCR`. -/
def count (s : State authTables.backend) : Int :=
  (World.incr (AuthThrottle.key (a.identity cfg)) (a.envs 0) s.world).1

/-- An attempt of the peer for the account. -/
def IsFor (peer email : String) : Prop := a.peer = peer ∧ cfg.lower a.email = cfg.lower email

instance (peer email : String) : Decidable (a.IsFor cfg peer email) :=
  inferInstanceAs (Decidable (_ ∧ _))

/-- The number of attempts in a run that are for the account and reach `AuthService.authenticate`. -/
def reached (peer email : String) : State authTables.backend → List LoginAttempt → Nat
  | _, [] => 0
  | s, a :: attempts =>
    (if a.IsFor cfg peer email ∧ a.reaches cfg s = true then 1 else 0) +
      reached peer email (a.next cfg s) attempts

/-- The first attempt starts a counter for the identity, and the others with that identity still
find it. -/
structure IsWindow (identity : String) (s : State authTables.backend) (first : LoginAttempt)
    (rest : List LoginAttempt) : Prop where
  starts : first.identity cfg = identity ∧ ¬ first.Finds identity s
  continues : Meets (fun s a => a.next cfg s)
    (fun s a => a.identity cfg = identity → a.Finds identity s) (first.next cfg s) rest

variable {cfg a} {s : State authTables.backend} {peer email identity : String}

theorem identity_of_unspoofed (hpeer : IsAddress peer) (h : a.IsFor cfg peer email)
    (hu : Unspoofed a.forwarded peer) :
    a.identity cfg = peer ++ ":" ++ cfg.lower email := by
  obtain ⟨rfl, hemail⟩ := h
  unfold identity clientIp
  rw [(clientIp_eq_iff hpeer _ _).2 hu, hemail]

/-! ### What an attempt does to the counters -/

theorem reaches_iff : a.reaches cfg s = true ↔ a.count cfg s ≤ cfg.authRateLimitPerMinute := by
  unfold reaches count
  rw [AuthThrottle.check_eq]
  show (match ((AuthThrottle.counted cfg (a.identity cfg)
      (World.incr (AuthThrottle.key (a.identity cfg)) (a.envs 0) s.world).1).eval _).1 with
    | .ok _ => true
    | .error _ => false) = true ↔ _
  generalize (World.incr (AuthThrottle.key (a.identity cfg)) (a.envs 0) s.world).1 = n
  have hrefuse : ∀ s' : Session authTables.backend,
      (match ((AuthThrottle.refuse cfg (a.identity cfg) n).eval s').1 with
      | .ok _ => true
      | .error _ => false) = true ↔ n ≤ cfg.authRateLimitPerMinute := by
    intro s'
    rcases Int.lt_or_le cfg.authRateLimitPerMinute n with hgt | hle
    · rw [AuthThrottle.refuse_of_gt hgt]
      exact iff_of_false Bool.false_ne_true (Int.not_le.2 hgt)
    · rw [AuthThrottle.refuse_of_le hle]
      exact iff_of_true rfl hle
  by_cases hone : n = 1
  · subst hone
    rw [AuthThrottle.counted_one]
    exact hrefuse _
  · rw [AuthThrottle.counted_of_ne hone]
    exact hrefuse _

/-- The other counters are as they were, and this one keeps its value as long as it lives. -/
structure Keeps (key : RedisKey) (n : Int) (w w' : World (List EmailMessage)) : Prop where
  others : ∀ k, k ≠ key → w'.redis k = w.redis k
  value : (∀ e, w.redis key = some e → e.value = n) → ∀ e, w'.redis key = some e → e.value = n

variable {key : RedisKey} {n : Int}

theorem Keeps.of_eq {w w' : World (List EmailMessage)} (h : w'.redis = w.redis) : Keeps key n w w' :=
  ⟨fun k _ => by rw [h], fun hv => by rwa [h]⟩

theorem Keeps.refl (w : World (List EmailMessage)) : Keeps key n w w := .of_eq rfl

theorem Keeps.trans (w₁ w₂ w₃ : World (List EmailMessage)) (h : Keeps key n w₁ w₂)
    (h' : Keeps key n w₂ w₃) : Keeps key n w₁ w₃ :=
  ⟨fun k hk => (h'.others k hk).trans (h.others k hk), fun hv => h'.value (h.value hv)⟩

theorem within_ask_redis {β : Type} {f : Env Unit → World (List EmailMessage) → β × World (List EmailMessage)}
    (h : ∀ env w, (f env w).2.redis = w.redis) : (Prog.ask f : Auth β).Within (Keeps key n) :=
  Prog.within_ask fun env w => .of_eq (h env w)

theorem counted_within (identity : String) (m : Int) :
    (AuthThrottle.counted cfg identity m).Within (Keeps (AuthThrottle.key identity) n) := by
  have hrefuse : (AuthThrottle.refuse cfg identity m).Within (Keeps (AuthThrottle.key identity) n) := by
    rcases Int.lt_or_le cfg.authRateLimitPerMinute m with hgt | hle
    · rw [AuthThrottle.refuse_of_gt hgt]
      exact (within_ask_redis fun _ _ => rfl).bind fun _ => trivial
    · rw [AuthThrottle.refuse_of_le hle]
      trivial
  by_cases hone : m = 1
  · subst hone
    rw [AuthThrottle.counted_one]
    refine Prog.Within.bind
      (Prog.within_ask fun env w => ⟨fun k hk => Store.expire_of_ne hk _, fun hv e he => ?_⟩)
        fun _ => hrefuse
    have hmap : (World.expire (AuthThrottle.key identity) AuthThrottle.windowSeconds env w).2.redis
        (AuthThrottle.key identity) =
        (w.redis.live (max w.clock env.time) (AuthThrottle.key identity)).map
          fun e => { e with
            expiry := some (max w.clock env.time + AuthThrottle.windowSeconds * second) } :=
      Store.expire_self _
    obtain ⟨old, hold, rfl⟩ := Option.map_eq_some_iff.1 (hmap.symm.trans he)
    exact hv old (Store.eq_of_live hold)
  · rw [AuthThrottle.counted_of_ne hone]
    exact hrefuse

theorem hashPassword_within (password : String) : (AuthService.hashPassword cfg password).Within
    (Keeps key n) :=
  (within_ask_redis fun _ _ => rfl).bind fun _ => trivial

theorem authenticate_within (email password : String) :
    (AuthService.authenticate cfg email password).Within (Keeps key n) := by
  unfold AuthService.authenticate UserRepository.getByEmail
  refine Prog.Within.bind (Prog.within_query _) fun user => ?_
  cases user with
  | none => exact (hashPassword_within password).bind fun _ => trivial
  | some user =>
    dsimp only
    split
    · trivial
    · split
      · trivial
      · split
        · exact (hashPassword_within password).bind fun _ => trivial
        · trivial

theorem issueTokens_within (user : User) : (AuthService.issueTokens cfg user none).Within
    (Keeps key n) := by
  unfold AuthService.issueTokens RefreshTokenRepository.add MembershipRepository.listOrgRolesForUser
  refine (within_ask_redis fun _ _ => rfl).bind fun _ => (within_ask_redis fun _ _ => rfl).bind fun _ =>
    (within_ask_redis fun _ _ => rfl).bind fun _ => (within_ask_redis fun _ _ => rfl).bind fun _ => ?_
  refine Prog.Within.bind trivial fun _ => Prog.Within.bind (Prog.within_query _) fun _ => ?_
  exact (within_ask_redis fun _ _ => rfl).bind
    fun _ => (within_ask_redis fun _ _ => rfl).bind fun _ => trivial

/-- The attempt counts under its identity, and the other counters are as they were. -/
theorem next_redis (a : LoginAttempt) (s : State authTables.backend) :
    (∀ k, k ≠ AuthThrottle.key (a.identity cfg) → (a.next cfg s).world.redis k = s.world.redis k) ∧
    ∀ e, (a.next cfg s).world.redis (AuthThrottle.key (a.identity cfg)) = some e →
        e.value = a.count cfg s := by
  let s₁ : Session authTables.backend :=
    ⟨s.db, [], (World.incr (AuthThrottle.key (a.identity cfg)) (a.envs 0) s.world).2,
      fun n => a.envs (n + 1)⟩
  let p : Auth AuthAnswer := AuthThrottle.counted cfg (a.identity cfg) (a.count cfg s) >>= fun _ =>
    AuthService.authenticate cfg a.email a.password >>= fun user =>
      AuthService.issueTokens cfg user none >>= fun tokens => .ret (.tokens tokens)
  have hp : p.commit.Within (Keeps (AuthThrottle.key (a.identity cfg)) (a.count cfg s)) := by
    refine Prog.Within.bind ?_ fun _ => trivial
    exact (counted_within _ _).bind
      fun _ => (authenticate_within _ _).bind
        fun user => (issueTokens_within user).bind fun _ => trivial
  have hworld : (a.next cfg s).world = (p.commit.eval s₁).2.world := by
    have heval : (AuthRequest.prog cfg (.login a.clientIp a.email a.password)).commit.eval
        ⟨s.db, [], s.world, a.envs⟩ =
        p.commit.eval s₁ := rfl
    unfold next scope
    rw [heval]
    split <;> rename_i heq <;> rw [heq]
  have hkeeps := hp.eval Keeps.refl Keeps.trans s₁
  rw [hworld]
  constructor
  · intro k hk
    exact (hkeeps.others k hk).trans (Store.set_of_ne hk _)
  · refine hkeeps.value fun e he => ?_
    have hset : s₁.world.redis (AuthThrottle.key (a.identity cfg)) = some ⟨a.count cfg s, _⟩ :=
      Store.set_self _
    rw [Option.some.inj (he.symm.trans hset)]

theorem count_of_finds (hfinds : a.Finds (a.identity cfg) s)
    (hvalue : ∀ e, s.world.redis (AuthThrottle.key (a.identity cfg)) = some e → e.value = n) :
        a.count cfg s = n + 1 := by
  obtain ⟨e, he⟩ := Option.isSome_iff_exists.1 hfinds
  unfold count World.incr Store.get
  dsimp only
  rw [he, Option.map_some, Option.getD_some, hvalue e (Store.eq_of_live he)]

theorem count_of_not_finds (h : ¬ a.Finds (a.identity cfg) s) : a.count cfg s = 1 := by
  have hnone : s.world.redis.live (max s.world.clock (a.envs 0).time)
      (AuthThrottle.key (a.identity cfg)) = none :=
    Option.not_isSome_iff_eq_none.1 h
  unfold count World.incr Store.get
  dsimp only
  rw [hnone]
  rfl

/-! ### The attempts of a window -/

/-- While a counter of value `n` lives, the limit less `n` attempts get through. -/
theorem reached_le {attempts : List LoginAttempt}
    (hvalue : ∀ e, s.world.redis (AuthThrottle.key identity) = some e → e.value = n)
    (hlive : Meets (fun s a => a.next cfg s)
      (fun s a => a.identity cfg = identity → a.Finds identity s) s attempts)
    (hid : ∀ a ∈ attempts, a.IsFor cfg peer email → a.identity cfg = identity) :
    (reached cfg peer email s attempts : Int) ≤ max 0 (cfg.authRateLimitPerMinute - n) := by
  induction attempts generalizing s n with
  | nil => exact Int.le_max_left _ _
  | cons a attempts ih =>
    obtain ⟨hothers, hself⟩ := @next_redis cfg a s
    have hid' := fun b hb => hid b (List.mem_cons_of_mem _ hb)
    unfold reached
    by_cases hsame : a.identity cfg = identity
    · subst hsame
      have hcount := count_of_finds (hlive.1 rfl) hvalue
      have hrest := ih (n := n + 1) (fun e he => (hself e he).trans hcount) hlive.2 hid'
      have hreaches := @reaches_iff cfg a s
      rw [hcount] at hreaches
      split
      · rename_i h
        have hle := hreaches.1 h.2
        omega
      · omega
    · have hno : ¬ (a.IsFor cfg peer email ∧ a.reaches cfg s = true) :=
        fun h => hsame (hid a List.mem_cons_self h.1)
      have hkey : AuthThrottle.key identity ≠ AuthThrottle.key (a.identity cfg) :=
        AuthThrottle.key_ne (Ne.symm hsame)
      rw [if_neg hno, Nat.zero_add]
      exact ih (fun e he => hvalue e ((hothers _ hkey).symm.trans he)) hlive.2 hid'

end LoginAttempt

/-- The throttle cannot be evaded through headers exactly by clients that send no value or one that
begins with the peer's address. The attempts of a window of such clients that reach
`AuthService.authenticate` are no more than the limit, whatever other peers and accounts do. -/
theorem login_throttle_iff (cfg : Config) (peer : String) (hpeer : IsAddress peer) :
    (∀ forwarded http, Gateway.clientIp (behindProxy forwarded peer http) = peer ↔
      Unspoofed forwarded peer) ∧
    ∀ email s first rest, LoginAttempt.IsWindow cfg (peer ++ ":" ++ cfg.lower email) s first rest →
      (∀ a ∈ first :: rest, a.IsFor cfg peer email → Unspoofed a.forwarded peer) →
      LoginAttempt.reached cfg peer email s (first :: rest) ≤ cfg.authRateLimitPerMinute.toNat := by
  refine ⟨clientIp_eq_iff hpeer, fun email s first rest hwindow hu => ?_⟩
  have hid : ∀ a ∈ first :: rest, a.IsFor cfg peer email → a.identity cfg = peer ++ ":" ++
      cfg.lower email :=
    fun a ha hfor => LoginAttempt.identity_of_unspoofed hpeer hfor (hu a ha hfor)
  obtain ⟨hfirst, hdead⟩ := hwindow.starts
  rw [← hfirst] at hdead
  have hone := LoginAttempt.count_of_not_finds hdead
  obtain ⟨-, hself⟩ := @LoginAttempt.next_redis cfg first s
  rw [hfirst] at hself
  have hrest := LoginAttempt.reached_le (n := 1) (fun e he => (hself e he).trans hone) hwindow.continues
    fun a ha => hid a (List.mem_cons_of_mem _ ha)
  have hreaches := @LoginAttempt.reaches_iff cfg first s
  rw [hone] at hreaches
  unfold LoginAttempt.reached
  split
  · rename_i h
    have hle := hreaches.1 h.2
    omega
  · omega

def sampleLoginRequest : HttpRequest := ⟨"POST", "", "", "", "", [], [], some "172.16.0.1"⟩

/-- An attempt at second `n` from `10.0.0.1`. -/
def sampleAttempt (forwarded : Option String) (n : Nat) : LoginAttempt :=
  ⟨"10.0.0.1", forwarded, sampleLoginRequest, "ada@example.com", "pw", fun _ => AuthThrottle.at_ n⟩

/-- Of two attempts in one second one gets through. -/
theorem login_throttle_iff_pair :
    (∀ forwarded http, Gateway.clientIp (behindProxy forwarded "10.0.0.1" http) = "10.0.0.1" ↔
      Unspoofed forwarded "10.0.0.1") ∧
    LoginAttempt.reached AuthThrottle.sampleStrict "10.0.0.1" "ada@example.com" ⟨sampleDb, sampleWorld⟩
      [sampleAttempt none 0, sampleAttempt none 0] ≤ 1 := by
  have hpeer : IsAddress "10.0.0.1" := ⟨by decide, forall_mem_of_all (by decide +kernel)⟩
  obtain ⟨hip, hbound⟩ := login_throttle_iff AuthThrottle.sampleStrict "10.0.0.1" hpeer
  refine ⟨hip, hbound "ada@example.com" ⟨sampleDb, sampleWorld⟩ (sampleAttempt none 0)
    [sampleAttempt none 0] ⟨⟨?_, ?_⟩, ?_⟩ ?_⟩
  · decide +kernel
  · unfold LoginAttempt.Finds
    decide +kernel
  · unfold LoginAttempt.Finds
    decide +kernel
  · intro a ha _ h hforwarded
    rcases List.mem_cons.1 ha with rfl | ha
    · cases hforwarded
    · obtain rfl := List.mem_singleton.1 ha
      cases hforwarded

/-- A client that writes an address of its own into the header is taken for that address. -/
theorem client_ip_spoofed : ¬ ∀ (peer : String), IsAddress peer →
    ∀ (forwarded : Option String) (http : HttpRequest),
    Gateway.clientIp (behindProxy forwarded peer http) = peer := by
  intro h
  have hip := h "10.0.0.1" ⟨by decide, forall_mem_of_all (by decide +kernel)⟩
    (some "203.0.113.7") sampleLoginRequest
  revert hip
  decide +kernel

end TrafficPlatform
