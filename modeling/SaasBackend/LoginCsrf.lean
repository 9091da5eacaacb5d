import SaasBackend.HandlerHistory
import SaasBackend.AuthService
import SaasBackend.StatementEffects
import SaasBackend.OAuthState

set_option autoImplicit false

namespace SaasBackend
open Handler

def Env.withStates (env : Env) (tokens : TokenEnv) : Env :=
  { env with verifyOAuthState := tokens.verifyOAuthState }

/-- google.js; the URL itself is made by google-auth-library. -/
def buildGoogleAuthUrl (env : Env) (generateAuthUrl : String → String) (state : String) :
    Option String :=
  if env.googleConfigured then some (generateAuthUrl state) else none

def getGoogleAuthUrl (env : Env) (tokens : TokenEnv) (generateAuthUrl : String → String) :
    Req (String × String) := do
  if !env.googleConfigured then throw (httpError "errors.googleNotConfigured" 503)
  else do
    let nonce ← randomBytes
    let now ← date
    let state := tokens.createOAuthState nonce now
    match buildGoogleAuthUrl env generateAuthUrl state with
    | none => throw (httpError "errors.googleNotConfigured" 503)
    | some url => return (url, state)

inductive OAuthRequest (Client : Type) where
  | authUrl (sender : Client)
  | googleLogin (sender : Client) (code state : String) (info : ClientInfo)
  | pass (d : Time)

inductive OAuthReply where
  | authUrl (url state : String)
  | login (reply : Reply)
  | passed

section Requests

variable {Client : Type} (env : Env) (tokens : TokenEnv) (generateAuthUrl : String → String)

def OAuthRequest.prog : OAuthRequest Client → Req OAuthReply
  | .authUrl _ =>
    (getGoogleAuthUrl env tokens generateAuthUrl).bind fun (url, state) =>
      .ret (.authUrl url state)
  | .googleLogin _ code state info =>
    (SaasBackend.googleLogin (env.withStates tokens) code state info).bind fun reply =>
      .ret (.login reply)
  | .pass d => (execute (.tick d)).bind fun _ => .ret .passed

abbrev OAuthEntry (Client : Type) := Entry (OAuthRequest Client) World Err OAuthReply

abbrev CsrfRun : World → List (OAuthEntry Client) → World → Prop :=
  Steps (Served Stmt.exec (OAuthRequest.prog env tokens generateAuthUrl) fun _ _ => True)

def pastStateCheck (state : String) (w : World) : Prop :=
  env.googleConfigured = true ∧ tokens.verifyOAuthState state w.now = true

def IssuedTo (h : List (OAuthEntry Client)) (client : Client) (s : String) (issued : Time) : Prop :=
  ∃ e ∈ h, e.req = .authUrl client ∧ (∃ url, e.res = .ok (.authUrl url s)) ∧ e.pre.now = issued

def SignedStates (h : List (OAuthEntry Client)) (input : List Char) : Prop :=
  ∃ client nonce issued, IssuedTo h client (tokens.createOAuthState nonce issued) issued ∧
    input = TokenEnv.statePayload nonce issued

def Submits (h before : List (OAuthEntry Client)) (e : OAuthEntry Client) (client : Client)
    (s : String) : Prop :=
  (∃ after, h = after ++ e :: before) ∧ ∃ code info, e.req = .googleLogin client code s info

def Foreign (before : List (OAuthEntry Client)) (e : OAuthEntry Client) (client : Client)
    (s : String) : Prop :=
  (∃ other issued, IssuedTo before other s issued ∧ e.pre.now ≤ issued + STATE_TTL_MS) ∧
    ∀ issued, ¬ IssuedTo before client s issued

end Requests

section Runs

variable {Client : Type} {env : Env} {tokens : TokenEnv} {generateAuthUrl : String → String}
  {w₀ w : World} {h before : List (OAuthEntry Client)} {e : OAuthEntry Client} {client : Client}
  {s : String} {issued : Time}

theorem googleLogin_stops {code : String} {info : ClientInfo}
    (hstops : ¬ pastStateCheck env tokens s w) :
    (googleLogin (env.withStates tokens) code s info).Ends Stmt.exec (fun r w' => w' = w ∧
      (r = .error (httpError "errors.googleNotConfigured" 503) ∨
        r = .error (httpError "errors.invalidOrExpiredOAuthState" 401))) w := by
  have hwith : (env.withStates tokens).googleConfigured = env.googleConfigured := rfl
  unfold googleLogin
  cases hconfigured : env.googleConfigured with
  | false =>
    rw [hwith, hconfigured]
    exact ⟨rfl, .inl rfl⟩
  | true =>
    have hverify : tokens.verifyOAuthState s w.now = false := by
      simpa [pastStateCheck, hconfigured] using hstops
    rw [hwith, hconfigured, if_neg (by simp), Prog.bind_eq, ends_date_bind,
      if_pos (by simp [Env.withStates, hverify])]
    exact ⟨rfl, .inr rfl⟩

theorem getGoogleAuthUrl_ends :
    (getGoogleAuthUrl env tokens generateAuthUrl).Ends Stmt.exec (fun r _ =>
    ∀ url state, r = .ok (url, state) →
      env.googleConfigured = true ∧ state = tokens.createOAuthState w.nonce w.now) w := by
  unfold getGoogleAuthUrl buildGoogleAuthUrl
  cases hconfigured : env.googleConfigured with
  | false => exact fun _ _ h => by cases h
  | true =>
    rw [if_neg (by simp), Prog.bind_eq, ends_randomBytes_bind, Prog.bind_eq, ends_date_bind]
    intro url state h
    cases h
    exact ⟨rfl, rfl⟩

theorem IssuedTo.created (hissued : IssuedTo h client s issued)
    (hrun : CsrfRun env tokens generateAuthUrl w₀ h w) :
    env.googleConfigured = true ∧ ∃ nonce, s = tokens.createOAuthState nonce issued := by
  obtain ⟨e, he, hreq, ⟨url, hres⟩, rfl⟩ := hissued
  obtain ⟨hserve, _⟩ := Served.mem hrun he
  rw [hserve] at hres
  have hends : (OAuthRequest.prog env tokens generateAuthUrl e.req).Ends Stmt.exec (fun r _ =>
      ∀ url state, r = .ok (.authUrl url state) →
        env.googleConfigured = true ∧ state = tokens.createOAuthState e.pre.nonce e.pre.now)
        e.pre := by
    rw [hreq, OAuthRequest.prog]
    refine Prog.ends_bind.mpr (getGoogleAuthUrl_ends.weaken fun r w' hr => ?_)
    cases r with
    | error err => exact fun _ _ h => by cases h
    | ok made =>
      intro url state h
      cases h
      exact hr _ _ rfl
  obtain ⟨hconfigured, hs⟩ := hends url s hres
  exact ⟨hconfigured, e.pre.nonce, hs⟩

theorem IssuedTo.passes (hissued : IssuedTo h client s issued)
    (hrun : CsrfRun env tokens generateAuthUrl w₀ h w) {w' : World}
    (hnow : w'.now ≤ issued + STATE_TTL_MS) : pastStateCheck env tokens s w' := by
  obtain ⟨hconfigured, nonce, rfl⟩ := hissued.created hrun
  exact ⟨hconfigured, by simpa [TokenEnv.verify_createOAuthState] using hnow⟩

theorem issued_of_past {w' : World} (hs : tokens.StateBuildable (SignedStates tokens h) s)
    (hpast : pastStateCheck env tokens s w') :
    ∃ other issued, IssuedTo h other s issued ∧ w'.now ≤ issued + STATE_TTL_MS := by
  obtain ⟨nonce, expiresAtRaw, htext, _, _, ⟨other, n, issued, hissued, hpayload⟩, _⟩ :=
    TokenEnv.verifyOAuthState_signed hs hpast.2
  obtain rfl := TokenEnv.eq_createOAuthState htext hpayload
  exact ⟨other, issued, hissued, by simpa [TokenEnv.verify_createOAuthState] using hpast.2⟩

/-- A login that does not get past the state check is refused and leaves the store alone. -/
theorem Submits.stops (hsubmits : Submits h before e client s)
    (hrun : CsrfRun env tokens generateAuthUrl w₀ h w)
    (hstops : ¬ pastStateCheck env tokens s e.pre) :
    e.post = e.pre ∧ (e.res = .error (httpError "errors.googleNotConfigured" 503) ∨
      e.res = .error (httpError "errors.invalidOrExpiredOAuthState" 401)) := by
  obtain ⟨⟨after, rfl⟩, code, info, hreq⟩ := hsubmits
  obtain ⟨hserve, _⟩ := Served.mem hrun (List.mem_append_right after List.mem_cons_self)
  have hends : (OAuthRequest.prog env tokens generateAuthUrl e.req).Ends Stmt.exec (fun r w' =>
      w' = e.pre ∧ (r = .error (httpError "errors.googleNotConfigured" 503) ∨
        r = .error (httpError "errors.invalidOrExpiredOAuthState" 401))) e.pre := by
    rw [hreq, OAuthRequest.prog]
    refine Prog.ends_bind.mpr ((googleLogin_stops hstops).weaken fun r w' hr => ?_)
    cases r with
    | error err => exact hr.imp_right fun hr => by simpa using hr
    | ok reply => rcases hr.2 with heq | heq <;> cases heq
  rw [hserve]
  exact hends

/-- Only states of the sender pass, over a whole run, iff no login of the run carries a state that
was issued to somebody else, and not to its sender, in the last ten minutes; the others are
refused. -/
theorem states_of_senders_iff (hrun : CsrfRun env tokens generateAuthUrl w₀ h w)
    (hunforged : ∀ before e (client : Client) s, Submits h before e client s →
      tokens.StateBuildable (SignedStates tokens before) s) :
    ((∀ before e client s, Submits h before e client s → pastStateCheck env tokens s e.pre →
      ∃ issued, IssuedTo before client s issued) ↔
      ∀ before e client s, Submits h before e client s → ¬ Foreign before e client s) ∧
    ∀ before e client s, Submits h before e client s → ¬ pastStateCheck env tokens s e.pre →
      e.post = e.pre ∧ (e.res = .error (httpError "errors.googleNotConfigured" 503) ∨
        e.res = .error (httpError "errors.invalidOrExpiredOAuthState" 401)) := by
  refine ⟨⟨?_, ?_⟩, fun before e client s hsubmits => hsubmits.stops hrun⟩
  · rintro hprop before e client s hsubmits ⟨⟨other, issued, hissued, hnow⟩, hnot⟩
    obtain ⟨after, rfl⟩ := hsubmits.1
    obtain ⟨hbefore, _⟩ := Served.around hrun
    obtain ⟨issued', hown⟩ := hprop before e client s hsubmits (hissued.passes hbefore hnow)
    exact hnot issued' hown
  · intro hnone before e client s hsubmits hpast
    by_contra hnot
    refine hnone before e client s hsubmits
      ⟨issued_of_past (hunforged before e client s hsubmits) hpast, ?_⟩
    exact fun issued hissued => hnot ⟨issued, hissued⟩

end Runs

inductive Browser where
  | attacker
  | victim
  deriving DecidableEq, Repr

def firstMac : List UInt8 :=
  [99, 173, 114, 163, 52, 115, 145, 207, 160, 21, 65, 155, 151, 96, 158, 69, 229, 58, 137, 21, 17,
    193, 90, 37, 115, 48, 112, 245, 52, 102, 99, 36]

def sampleTokens : TokenEnv where
  hmac key input := if key = "change-me" ∧ input = TokenEnv.statePayload 0 0 then firstMac else []
  jwtSecret := "change-me"
  jwtRefreshSecret := "change-me-too"

def csrfRequests (receiver : Browser) : List (OAuthRequest Browser) :=
  [.authUrl receiver, .googleLogin .victim "code" (sampleTokens.createOAuthState 0 0) {}]

def csrfServed (receiver : Browser) : List (OAuthEntry Browser) × World :=
  serveAll Stmt.exec (OAuthRequest.prog sampleEnv sampleTokens id) (csrfRequests receiver) ([], {})

theorem csrfServed_run (receiver : Browser) :
    CsrfRun sampleEnv sampleTokens id {} (csrfServed receiver).1 (csrfServed receiver).2 :=
  serveAll_steps _ (fun _ _ _ => trivial) [] .refl

theorem csrf_submission {receiver client : Browser} {before : List (OAuthEntry Browser)}
    {e : OAuthEntry Browser} {s : String} (h : Submits (csrfServed receiver).1 before e client s) :
    (client = .victim ∧ s = sampleTokens.createOAuthState 0 0 ∧ e.pre.now = 0) ∧
      IssuedTo before receiver s 0 ∧ ∀ other issued, IssuedTo before other s issued →
        other = receiver := by
  obtain ⟨⟨after, hsplit⟩, code, info, hreq⟩ := h
  simp only [csrfServed, csrfRequests, serveAll] at hsplit
  rcases after with _ | ⟨first, _ | ⟨second, after⟩⟩
  · simp only [List.nil_append, List.cons.injEq] at hsplit
    obtain ⟨rfl, rfl⟩ := hsplit
    obtain ⟨rfl, _, rfl, _⟩ : Browser.victim = client ∧ _ ∧ sampleTokens.createOAuthState 0 0 =
        s ∧ _ :=
      OAuthRequest.googleLogin.inj hreq
    refine ⟨⟨rfl, rfl, rfl⟩, ⟨_, .head _, rfl, ⟨_, rfl⟩, rfl⟩, ?_⟩
    rintro other issued ⟨e', he', hreq', _⟩
    rw [List.mem_singleton.mp he'] at hreq'
    exact (OAuthRequest.authUrl.inj hreq').symm
  · simp only [List.cons_append, List.nil_append, List.cons.injEq] at hsplit
    obtain ⟨_, rfl, _⟩ := hsplit
    cases hreq
  · simp at hsplit

theorem csrf_unforged {receiver : Browser} {before : List (OAuthEntry Browser)}
    {e : OAuthEntry Browser} {client : Browser} {s : String}
    (h : Submits (csrfServed receiver).1 before e client s) :
    sampleTokens.StateBuildable (SignedStates sampleTokens before) s := by
  obtain ⟨⟨_, rfl, _⟩, hissued, _⟩ := csrf_submission h
  have hbuildable : sampleTokens.Buildable (fun _ => SignedStates sampleTokens before)
      (sampleTokens.createOAuthState 0 0) :=
    TokenEnv.buildable_of_one (fun _ _ hother => if_neg hother) (by decide +kernel)
      ⟨receiver, 0, 0, hissued, rfl⟩
  exact hbuildable.state

/-- The attacker's state opens the check for the victim's browser. -/
theorem states_of_senders_csrf : ¬ ∀ (h : List (OAuthEntry Browser)) (w : World),
    CsrfRun sampleEnv sampleTokens id {} h w →
    (∀ before e (client : Browser) s, Submits h before e client s →
      sampleTokens.StateBuildable (SignedStates sampleTokens before) s) →
    ∀ before e client s, Submits h before e client s →
      pastStateCheck sampleEnv sampleTokens s e.pre →
        ∃ issued, IssuedTo before client s issued := by
  intro h
  let first := serve Stmt.exec (OAuthRequest.prog sampleEnv sampleTokens id) {}
    (.authUrl Browser.attacker)
  have hfirst : CsrfRun sampleEnv sampleTokens id {} [first] first.post := .snoc .refl (.mk trivial)
  have hsubmits : Submits (csrfServed .attacker).1 [first] _ .victim
      (sampleTokens.createOAuthState 0 0) :=
    ⟨⟨[], rfl⟩, _, _, rfl⟩
  obtain ⟨⟨_, _, hnow⟩, hissued, honly⟩ := csrf_submission hsubmits
  obtain ⟨issued, hvictim⟩ :=
    h _ _ (csrfServed_run .attacker) (fun _ _ _ _ => csrf_unforged) _ _ _ _ hsubmits
    (hissued.passes hfirst (by rw [hnow]; decide))
  cases honly _ _ hvictim

/-- A victim who sends his own state back is let through, and it was his. -/
theorem states_of_senders_honest :
    ∃ issued, IssuedTo (csrfServed .victim).1.tail Browser.victim
      (sampleTokens.createOAuthState 0 0) issued := by
  let first := serve Stmt.exec (OAuthRequest.prog sampleEnv sampleTokens id) {}
    (.authUrl Browser.victim)
  have hfirst : CsrfRun sampleEnv sampleTokens id {} [first] first.post := .snoc .refl (.mk trivial)
  have hsubmits : Submits (csrfServed .victim).1 [first] _ .victim
      (sampleTokens.createOAuthState 0 0) :=
    ⟨⟨[], rfl⟩, _, _, rfl⟩
  obtain ⟨⟨_, _, hnow⟩, hissued, _⟩ := csrf_submission hsubmits
  refine (states_of_senders_iff (csrfServed_run .victim) fun _ _ _ _ => csrf_unforged).1.mpr ?_
    _ _ _ _ hsubmits
    (hissued.passes hfirst (by rw [hnow]; decide))
  rintro before e client s hsent ⟨_, hnot⟩
  obtain ⟨⟨rfl, _⟩, hown, _⟩ := csrf_submission hsent
  exact hnot 0 hown

end SaasBackend
