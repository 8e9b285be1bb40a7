import TrafficPlatform.Auth.Refinement

/-!
# Passwords

What the directory says about one account holds of the service: the password of a registration opens
the account until a reset replaces it, and no other password does (`password_until_reset`).
-/

namespace TrafficPlatform
open Kit

/-- The account is active and has the email and the password. -/
def Directory.Holds (σ : Directory) (id : Uuid) (email password : String) : Prop :=
  ∃ a, σ.Opens email password id a ∧ a.isActive = true

/-- A reset of the user's password succeeds. -/
def Observation.Resets (o : Observation) (id : Uuid) : Prop :=
  ∃ token newPassword a, o.request = .confirmPasswordReset token newPassword ∧ token.sub = some id ∧
    o.answer = .ok a

/-- A login that may be throttled or cut off, but for the password has the outcome `right`. -/
structure AuthState.LogsIn (cfg : Config) (s : AuthState) (c : AuthCall) (id : Uuid)
    (right : Prop) : Prop where
  answered : ∀ a, s.answer cfg c = .ok a → right ∧ ∃ t, a = .tokens t ∧
    t.accessToken.Made cfg .access id
  refused : ∀ e, s.answer cfg c = .error e → e.IsRateLimited ∨ e.Internal ∨
    ¬ right ∧ e = ErrorClass.authenticationError.error "Invalid email or password."

section
variable {cfg : Config} {σ σ' : Directory} {o : Observation} {id : Uuid} {email password : String}

theorem Directory.Holds.setAccount (h : σ.Holds id email password) {id' : Uuid} {a : Account}
    (hfree : σ.accounts id' = none) :
    (σ.setAccount id' a).Holds id email password := by
  obtain ⟨a₀, ⟨ha, he, hp⟩, hactive⟩ := h
  have hne : id ≠ id' := fun heq => by simp [heq, hfree] at ha
  refine ⟨a₀, ⟨?_, he, hp⟩, hactive⟩
  rw [accounts_setAccount, if_neg hne]
  exact ha

theorem Directory.Holds.change (h : σ.Holds id email password) {id' : Uuid} {f : Account → Account}
    (hf : ∀ a, (f a).email = a.email ∧ (f a).isActive = a.isActive ∧
      (id' = id → (f a).password = a.password)) :
    (σ.change id' f).Holds id email password := by
  obtain ⟨a, ⟨ha, he, hp⟩, hactive⟩ := h
  unfold Holds Opens
  rw [accounts_change, ha]
  refine ⟨_, ⟨rfl, ?_, ?_⟩, ?_⟩
  · split
    · exact (hf a).1.trans he
    · exact he
  · split
    · rename_i heq
      exact ((hf a).2.2 heq.symm).trans hp
    · exact hp
  · split
    · exact (hf a).2.1.trans hactive
    · exact hactive

/-- A call that does not reset the password of the user leaves it. -/
theorem Directory.Holds.step (h : σ.Holds id email password) (hr : ¬ o.Resets id)
    (hstep : σ.Step cfg o σ') :
    σ'.Holds id email password := by
  obtain ⟨request, answer, before, after⟩ := o
  cases answer with
  | error e => exact hstep.1 ▸ h
  | ok a =>
    have hanswers : σ.Answers cfg σ' _ request a := hstep
    cases request with
    | register email' password' fullName =>
      obtain ⟨-, -, id', hfree, -, rfl⟩ := hanswers
      exact h.setAccount hfree
    | login ip email' password' =>
      obtain ⟨id', account, t, time, -, -, -, -, -, rfl⟩ := hanswers
      exact h
    | refresh payload cookie =>
      obtain ⟨raw, g, t, time, time', -, -, -, -, -, rfl⟩ := hanswers
      exact h
    | logout payload cookie =>
      obtain ⟨-, rfl⟩ := hanswers
      unfold takePresented
      split <;> exact h
    | verifyEmail token =>
      obtain ⟨id', time, -, -, -, -, rfl⟩ := hanswers
      exact h.change fun a => ⟨rfl, rfl, fun _ => rfl⟩
    | requestPasswordReset ip email' =>
      obtain ⟨-, rfl⟩ := hanswers
      exact h
    | confirmPasswordReset token newPassword =>
      obtain ⟨id', time, -, hvalid, -, -, rfl⟩ := hanswers
      refine Holds.change h fun a => ⟨rfl, rfl, fun heq => ?_⟩
      exact absurd ⟨token, newPassword, _, rfl, heq ▸ sub_of_claim hvalid.sub, rfl⟩ hr

theorem Directory.Of.email_unique {db : AuthDb} (h : Directory.Of cfg σ db) {id' : Uuid}
    {a a' : Account} (ha : σ.accounts id = some a) (ha' : σ.accounts id' = some a')
    (he : a.email = a'.email) :
        id = id' := by
  obtain ⟨u, hu, rfl, hof⟩ := h.user_of ha
  obtain ⟨u', hu', rfl, hof'⟩ := h.user_of ha'
  exact congrArg (·.id)
    (Table.eq_of_clash hu hu'
      (User.clash_iff.2 (.inr (hof.email.trans (he.trans hof'.email.symm)))))

/-- What a login gets where the account has the password. -/
theorem Directory.Of.logsIn (hverify : cfg.Verifies) {s : AuthState} (h : Directory.Of cfg σ s.db)
    {c : AuthCall} {ip email' password' : String} (hc : c.req = .login ip email' password')
    (hemail : cfg.lower (cfg.lower email') = email)
    (hholds : σ.Holds id email password) : s.LogsIn cfg c id (password' = password) := by
  obtain ⟨σ', hstep, -⟩ := directory_simulates hverify s c σ h
  unfold Directory.Step AuthState.observe at hstep
  obtain ⟨a₀, ⟨ha₀, he₀, hp₀⟩, hactive₀⟩ := hholds
  have hopens : ∀ id' a, σ.Opens (cfg.lower (cfg.lower email')) password' id' a → id' = id ∧
      a = a₀ := by
    rintro id' a ⟨ha, he, -⟩
    obtain rfl := h.email_unique ha ha₀ (he.trans (hemail.trans he₀.symm))
    exact ⟨rfl, Option.some.inj (ha.symm.trans ha₀)⟩
  constructor
  · intro a hok
    rw [hok, hc] at hstep
    obtain ⟨id', a', t, time, ho, -, -, hissues, rfl, -⟩ := hstep
    obtain ⟨rfl, rfl⟩ := hopens id' a' ho
    exact ⟨ho.2.2.symm.trans hp₀, t, rfl, hissues.accessToken⟩
  · intro e herr
    rw [herr, hc] at hstep
    obtain ⟨-, (hlimited | ⟨rfl, hnone⟩ | ⟨rfl, id', a', ho, hinactive⟩) | ⟨-, hinternal⟩⟩ := hstep
    · exact .inl hlimited
    · refine .inr (.inr ⟨fun heq => hnone id a₀ ⟨ha₀, he₀.trans hemail.symm, hp₀.trans heq.symm⟩, rfl⟩)
    · obtain ⟨rfl, rfl⟩ := hopens id' a' ho
      rw [hactive₀] at hinactive
      cases hinactive
    · exact .inr (.inl hinternal)

/-- After a registration, and until a reset of the password succeeds, a login under the email gets
tokens for the account with the password of the registration only, and with this password it is not
refused but for the throttle or an internal error. -/
theorem password_until_reset (cfg : Config) (hverify : cfg.Verifies) (s : AuthState) (σ : Directory)
    (h : Directory.Of cfg σ s.db) (before between : List AuthCall) (register login : AuthCall)
    {email password : String} {fullName : Option String} {id : Uuid} {email₀ : String}
    {name₀ : Option String} {active verified : Bool}
    (hregister : register.req = .register email password fullName)
    (hanswer : (run (AuthState.call cfg) s before).answer cfg register =
      .ok (.user id email₀ name₀ active verified))
    (hkept : Meets (AuthState.call cfg) (fun s c => ¬ (s.observe cfg c).Resets id)
      (run (AuthState.call cfg) s (before ++ [register])) between)
    {ip email' password' : String} (hlogin : login.req = .login ip email' password')
    (hemail : cfg.lower (cfg.lower email') = cfg.lower email) :
    (run (AuthState.call cfg) s (before ++ register :: between)).LogsIn cfg login id
        (password' = password) := by
  obtain ⟨σ₁, -, h₁⟩ := (directory_simulates hverify).run h before
  obtain ⟨σ₂, hstep, h₂⟩ := directory_simulates hverify _ register σ₁ h₁
  have hholds : σ₂.Holds id (cfg.lower email) password := by
    unfold Directory.Step AuthState.observe at hstep
    rw [hanswer, hregister] at hstep
    obtain ⟨-, -, id', -, heq, rfl⟩ := hstep
    cases heq
    exact ⟨_, ⟨Directory.accounts_setAccount.trans (if_pos rfl), rfl, rfl⟩, rfl⟩
  have hrun : run (AuthState.call cfg) s (before ++ [register]) =
      (run (AuthState.call cfg) s before).call cfg register := by
    rw [run_append]
    rfl
  rw [hrun] at hkept
  obtain ⟨σ₃, hexplains, h₃⟩ := (directory_simulates hverify).run h₂ between
  have hlater : σ₃.Holds id (cfg.lower email) password :=
    hexplains.keeps (I := fun σ => σ.Holds id (cfg.lower email) password) (C := fun o => ¬ o.Resets id)
      (fun _ _ _ hI hC hs => hI.step hC hs) (forall_observed.2 hkept) hholds
  have hlast : run (AuthState.call cfg) s (before ++ register :: between) =
      run (AuthState.call cfg) ((run (AuthState.call cfg) s before).call cfg register) between := by
    rw [run_append]
    rfl
  rw [hlast]
  exact h₃.logsIn hverify hlogin hemail hlater

theorem password_until_reset_sample :
    (run (AuthState.call plainConfig) emptyState ([] ++ registerAda :: [loginAda])).LogsIn
        plainConfig loginAda 2 ("pw" = "pw") := by
  refine password_until_reset plainConfig plainConfig_verifies emptyState .empty
    (Directory.empty_of plainConfig) [] [loginAda]
    registerAda loginAda rfl rfl ?_ rfl rfl
  refine ⟨?_, trivial⟩
  rintro ⟨token, newPassword, a, hreq, -⟩
  cases hreq

end

end TrafficPlatform
