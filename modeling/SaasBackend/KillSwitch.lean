import SaasBackend.AuthService
import SaasBackend.RefreshRotation
import SaasBackend.RequestGuards
import SaasBackend.TwoFactorService

/-! What a session-killing transaction leaves of the requests that were under way. Every
request that signs a user in reads the token version before it stores its refresh token,
so a kill that comes after the store catches both, and one that comes before it neither. -/

set_option autoImplicit false

namespace SaasBackend
open Keyed Handler

def Reply.accessToken : Reply → Option AccessToken
  | .session _ token _ _ _ => some token
  | _ => none

/-- The requests that sign a user in, those that kill sessions, and any other handler that
signs no one in. -/
inductive SessionRequest where
  | register (name email password : String) (client : ClientInfo)
  | login (email password : String) (client : ClientInfo)
  | googleLogin (code state : String) (client : ClientInfo)
  | refresh (token : RefreshJwt) (client : ClientInfo)
  | verifyChallenge (challengeToken code : Nat) (client : ClientInfo)
  | resetPassword (token : Nat) (newPassword : String)
  | changePassword (userId : Id) (currentPassword newPassword : String)
  | enable (userId : Id) (code : Nat)
  | disable (userId : Id) (password : String)
  | revokeAllSessions (userId : Id)
  | other (p : Req Reply) (signsNoOneIn : p.Returns (fun a => a.accessToken = none))

def SessionRequest.prog (env : Env) : SessionRequest → Req Reply
  | .register name email password client => SaasBackend.register env name email password client
  | .login email password client => SaasBackend.login env email password client
  | .googleLogin code state client => SaasBackend.googleLogin env code state client
  | .refresh token client => SaasBackend.refresh env token client
  | .verifyChallenge challengeToken code client =>
    SaasBackend.verifyChallenge env challengeToken code client
  | .resetPassword token newPassword => SaasBackend.resetPassword env token newPassword
  | .changePassword userId currentPassword newPassword =>
    SaasBackend.changePassword env userId currentPassword newPassword
  | .enable userId code => SaasBackend.enable env userId code
  | .disable userId password => SaasBackend.disable env userId password
  | .revokeAllSessions userId => SaasBackend.revokeAllSessions userId
  | .other p _ => p

/-- The transactions that revoke a user's sessions and bump the token version. -/
def Stmt.kills (u : Id) : Stmt → Bool
  | .killSessions id _ => id == u
  | .reuseDetected id => id == u
  | _ => false

def Accepts (w : World) (token : AccessToken) : Prop :=
  ∃ caller, ((authenticate (.bearer token)).runs w).1 = .ok caller

theorem Accepts.version {w : World} {token : AccessToken} (h : Accepts w token) :
    ∃ x, w.users.get? token.id = some x ∧ x.tokenVersion = token.tokenVersion := by
  obtain ⟨caller, hcaller⟩ := h
  have hends : (authenticate (.bearer token)).Ends Stmt.exec (fun r _ => ∀ caller, r = .ok caller →
      ∃ x, w.users.get? token.id = some x ∧ x.tokenVersion = token.tokenVersion) w := by
    simp only [authenticate, findUserById, Prog.bind_eq, ends_date_bind]
    split
    · exact fun _ h => nomatch h
    · simp only [ends_query_bind]
      split
      · exact fun _ h => nomatch h
      · rename_i user hfound
        split
        · exact fun _ h => nomatch h
        · rename_i hversion
          have huser := (Option.filter_eq_some_iff.mp hfound).1
          have hfact : ∃ x, w.users.get? token.id = some x ∧ x.tokenVersion = token.tokenVersion :=
            ⟨user, huser, (not_not.mp hversion).symm⟩
          split
          · exact fun _ h => nomatch h
          · simp only [ends_date_bind]
            split
            · exact fun _ h => nomatch h
            · exact fun _ _ => hfact
  exact hends caller hcaller

/-- A row that was there, or could have been, has only grown: versions rise, and refresh
tokens keep their user and stay revoked. -/
structure Since (w w' : World) : Prop where
  nonce : w.nonce ≤ w'.nonce
  users : ∀ k x', k < w.nonce → w'.users.get? k = some x' →
    ∃ x, w.users.get? k = some x ∧ x.tokenVersion ≤ x'.tokenVersion
  tokens : ∀ k t', k < w.nonce → w'.refreshTokens.get? k = some t' →
    ∃ t, w.refreshTokens.get? k = some t ∧ TokenStep t t'

theorem Since.refl (w : World) : Since w w :=
  ⟨Nat.le_refl _, fun _ x _ hx => ⟨x, hx, Nat.le_refl _⟩, fun _ t _ ht => ⟨t, ht, .refl t⟩⟩

theorem Since.trans {w₁ w₂ w₃ : World} (h₁ : Since w₁ w₂) (h₂ : Since w₂ w₃) : Since w₁ w₃ := by
  refine ⟨Nat.le_trans h₁.nonce h₂.nonce, fun k x hk hx => ?_, fun k t hk ht => ?_⟩
  · obtain ⟨x₂, hx₂, hle₂⟩ := h₂.users k x (Nat.lt_of_lt_of_le hk h₁.nonce) hx
    obtain ⟨x₁, hx₁, hle₁⟩ := h₁.users k x₂ hk hx₂
    exact ⟨x₁, hx₁, Nat.le_trans hle₁ hle₂⟩
  · obtain ⟨t₂, ht₂, hstep₂⟩ := h₂.tokens k t (Nat.lt_of_lt_of_le hk h₁.nonce) ht
    obtain ⟨t₁, ht₁, hstep₁⟩ := h₁.tokens k t₂ hk ht₂
    exact ⟨t₁, ht₁, hstep₁.trans hstep₂⟩

theorem UserStep.version_le {k : Id} {l : Stmt} {x x' : User} (h : UserStep k l x x') :
    x.tokenVersion ≤ x'.tokenVersion := by
  cases h with
  | same => exact Nat.le_refl _
  | update => exact Nat.le_refl _
  | kill => exact Nat.le_succ _
  | reuse => exact Nat.le_succ _

theorem Since.exec {l : Stmt} {w w' : World} (h : l.exec w = .ok w') : Since w w' := by
  have heff := exec_effect h
  refine ⟨heff.nonce_le, fun k x hk hx => ?_, fun k t hk ht => ?_⟩
  · rcases heff.user_back hx with ⟨x₀, hx₀, hstep⟩ | ⟨_, _, rfl, _⟩
    · exact ⟨x₀, hx₀, hstep.version_le⟩
    · exact absurd hk (Nat.lt_irrefl _)
  · rcases heff.token_back ht with hold | ⟨_, _, rfl, _⟩
    · exact hold
    · exact absurd hk (Nat.lt_irrefl _)

theorem Since.version_ge {w w' : World} (h : Since w w') (hw : w.Fresh) {k : Id} {x x' : User}
    (hx : w.users.get? k = some x) (hx' : w'.users.get? k = some x') :
    x.tokenVersion ≤ x'.tokenVersion := by
  obtain ⟨y, hy, hle⟩ := h.users k x' (hw.users k x hx) hx'
  rw [hx] at hy
  cases hy
  exact hle

/-- An access token of `u` in the reply is no newer than `u` is at `w`. -/
def Capped (u : Id) (w : World) (a : Reply) : Prop :=
  ∀ token, a.accessToken = some token → token.id = u →
    ∀ x, w.users.get? u = some x → token.tokenVersion ≤ x.tokenVersion

def issuing (u : Id) : Turnstile World Err Stmt Reply where
  exec := Stmt.exec
  allowed _ := True
  inv := World.Fresh
  rely := Since
  pass _ l := ∃ t, l = .refreshTokenCreate t ∧ t.userId = u
  barred _ := False
  good a := ∃ token, a.accessToken = some token ∧ token.id = u
  after w p := p.Returns (Capped u w)
  rely_refl := .refl
  rely_trans _ _ _ := .trans
  inv_step _ _ _ _ hw h := hw.exec h
  rely_step _ _ _ _ _ h := .exec h
  after_next _ _ _ _ _ h := h.1 _
  after_fail _ _ _ _ _ h := h.2 _

section Held

variable {α : Type} {env : Env} {u : Id} {w : World}

theorem issuing_bind {Q : α → Prop} {p : Req α} {k : α → Req Reply} (hret : p.Returns Q)
    (hw : w.Fresh) (hk : ∀ a w', Q a → Since w w' → w'.Fresh → (issuing u).Held (k a) w') :
    (issuing u).Held (p.bind k) w :=
  .bind (.of_forall (fun _ => ⟨trivial, not_false⟩) p) hret hw hk

theorem issuing_query_bind {view : World → α} {k : α → Req Reply}
    (h : ∀ w', Since w w' → w'.Fresh → (issuing u).Held (k (view w')) w') :
    (issuing u).Held ((query view).bind k) w := held_query_bind rfl not_false h

theorem issuing_noOne {p : Req Reply} (h : p.Returns (fun a => a.accessToken = none)) (w : World) :
    (issuing u).Held p w := by
  refine .of_returns (h.mono fun a ha => ?_) (.of_forall (fun _ => not_false) p) w
  rintro ⟨token, htoken, _⟩
  rw [ha] at htoken
  cases htoken

theorem issuing_bind_noOne {p : Req α} {k : α → Req Reply}
    (hk : ∀ a, (k a).Returns (fun a => a.accessToken = none)) (w : World) :
    (issuing u).Held (p.bind k) w := issuing_noOne (.bind hk) w

theorem issue_held {id : Id} {v : Nat} (client : ClientInfo) {k : RefreshJwt → Req Reply}
    (hk : ∀ refreshToken, (k refreshToken).Returns (fun a => ∀ token, a.accessToken = some token →
      token.id = id ∧ token.tokenVersion = v))
    (hv : ∀ w', Since w w' → ∀ x, w'.users.get? id = some x → v ≤ x.tokenVersion) :
    (issuing u).Held ((createRefreshTokenRecord env id client).bind k) w := by
  simp only [createRefreshTokenRecord, randomBytes, Prog.bind_eq, Prog.bind_assoc]
  refine Turnstile.held_send_bind.mpr fun w₁ hr₁ _ => ⟨not_false, fun w₂ hok => .inr ?_⟩
  have hr₂ : Since w w₂ := hr₁.trans (.exec (show Stmt.random.exec w₁ = .ok w₂ from hok))
  refine issuing_query_bind fun w₃ hr₃ _ => ?_
  refine held_execute_bind not_false fun w₄ _ hr₄ _ _ => ?_
  by_cases hid : id = u
  · subst hid
    refine .inl ⟨⟨_, rfl, rfl⟩, (hk _).mono fun a ha token htoken _ x hx => ?_⟩
    rw [(ha token htoken).2]
    exact hv w₄ (hr₂.trans (hr₃.trans hr₄)) x hx
  · refine .inr (.of_returns ((hk _).mono fun a ha => ?_) (.of_forall (fun _ => not_false) _) _)
    rintro ⟨token, htoken, heq⟩
    exact hid ((ha token htoken).1.symm.trans heq)

theorem signToken_returns {id : Id} {email : String} {role : Role} {v : Nat}
    {k : AccessToken → Req Reply} {Q : Reply → Prop}
    (h : ∀ token : AccessToken, token.id = id → token.tokenVersion = v → (k token).Returns Q) :
    ((signToken env id email role v).bind k).Returns Q := by
  simp only [signToken, Prog.bind_eq, Prog.bind_assoc]
  exact ⟨fun w => h _ rfl rfl, fun _ => trivial⟩

theorem login_held (w : World) (email password : String) (client : ClientInfo) :
    (issuing u).Held (SaasBackend.login env email password client) w := by
  simp only [SaasBackend.login, findUserByEmail, Prog.bind_eq]
  refine issuing_query_bind fun w₁ _ hw₁ => ?_
  split
  · exact issuing_bind_noOne (by exact fun _ => trivial) w₁
  · rename_i id user hfound
    have huser := (Table.find?_some hfound).1
    refine issuing_query_bind fun w₂ hr₂ hw₂ => ?_
    refine issuing_query_bind fun w₃ hr₃ hw₃ => ?_
    refine issuing_bind (Prog.returns_true _) hw₃ fun _ w₄ _ hr₄ hw₄ => ?_
    refine issuing_bind (Prog.returns_true _) hw₄ fun valid w₅ _ hr₅ hw₅ => ?_
    split
    · exact issuing_bind_noOne (by exact fun _ => trivial) w₅
    · split
      · trivial
      · refine issuing_query_bind fun w₆ hr₆ hw₆ => ?_
        split
        · trivial
        · split
          · exact issuing_bind_noOne (by exact fun _ => rfl) w₆
          · refine issue_held (v := user.tokenVersion) client (fun _ => ?_) fun w' hr' x hx => ?_
            · refine .bind fun _ => .bind fun _ => signToken_returns fun token hid hv => ?_
              rintro _ ⟨⟩
              exact ⟨hid, hv⟩
            · exact (hr₂.trans (hr₃.trans (hr₄.trans (hr₅.trans (hr₆.trans hr'))))).version_ge hw₁
                huser hx

theorem register_held (w : World) (name email password : String) (client : ClientInfo) :
    (issuing u).Held (SaasBackend.register env name email password client) w := by
  simp only [SaasBackend.register, findUserByEmail, Prog.bind_eq, Prog.tryCatch_eq]
  refine issuing_query_bind fun w₁ _ hw₁ => ?_
  split
  · trivial
  · refine issuing_bind (Prog.returns_true _) hw₁ fun emailVerificationToken w₂ _ _ hw₂ => ?_
    refine issuing_query_bind fun w₃ _ hw₃ => ?_
    -- a new account starts at version 0
    refine issuing_bind (Q := fun r => r.2.tokenVersion = 0) ?_ hw₃ fun r w₄ hr _ _ => ?_
    · refine .tryCatch (.send fun _ => rfl) fun err => ?_
      split <;> trivial
    · refine issue_held (v := 0) client (fun _ => ?_) fun _ _ _ _ => Nat.zero_le _
      refine .bind fun _ => signToken_returns fun token hid hv => ?_
      rintro _ ⟨⟩
      exact ⟨hid, hv.trans hr⟩

theorem googleLogin_held (w : World) (code state : String) (client : ClientInfo) :
    (issuing u).Held (SaasBackend.googleLogin env code state client) w := by
  simp only [SaasBackend.googleLogin, Prog.bind_eq]
  split
  · trivial
  · refine issuing_query_bind fun w₁ _ hw₁ => ?_
    split
    · trivial
    · split
      · trivial
      · split
        · split
          · trivial
          · refine issuing_bind (Prog.returns_true _) hw₁ fun r w₂ _ _ hw₂ => ?_
            obtain ⟨id, user⟩ := r
            simp only []
            split
            · trivial
            · refine issuing_query_bind fun w₃ _ hw₃ => ?_
              split
              · trivial
              · split
                · exact issuing_bind_noOne (by exact fun _ => rfl) w₃
                · refine issuing_query_bind fun w₄ _ hw₄ => ?_
                  refine Turnstile.held_send_bind.mpr fun w₅ hr₅ hw₅ =>
                    ⟨not_false, fun w₆ hok => .inr ?_⟩
                  obtain ⟨hw₆, x, hx, _⟩ := setUser_ok (show w₅.setUser id _ = .ok w₆ from hok)
                  have hr₆ : Since w₅ w₆ :=
                    .exec (show (Stmt.userUpdate id _).exec w₅ = .ok w₆ from hok)
                  refine issue_held (v := x.tokenVersion) client (fun _ => ?_) fun w' hr' y hy => ?_
                  · refine signToken_returns fun token hid hv => ?_
                    rintro _ ⟨⟩
                    refine ⟨hid, hv.trans ?_⟩
                    simp [hx, UserPatch.apply]
                  · exact (hr₆.trans hr').version_ge hw₅ hx hy
        · trivial

theorem refresh_issues (w : World) (token : RefreshJwt) (client : ClientInfo) :
    (issuing u).Held (SaasBackend.refresh env token client) w := by
  simp only [SaasBackend.refresh, Prog.bind_eq]
  refine issuing_query_bind fun w₁ _ hw₁ => ?_
  split
  · trivial
  · refine issuing_query_bind fun w₂ _ hw₂ => ?_
    split
    · trivial
    · rename_i tokenId storedToken user hstored
      obtain ⟨_, _, huser⟩ := stored_found hstored
      split
      · exact issuing_bind_noOne (by exact fun _ => trivial) w₂
      · refine issuing_query_bind fun w₃ hr₃ hw₃ => ?_
        split
        · exact issuing_bind_noOne (by exact fun _ => trivial) w₃
        · split
          · trivial
          · split
            · trivial
            · refine issuing_query_bind fun w₄ hr₄ hw₄ => ?_
              split
              · trivial
              · refine issuing_bind (Prog.returns_true _) hw₄ fun _ w₅ _ hr₅ _ => ?_
                refine issue_held (v := user.tokenVersion) client (fun _ => ?_) fun w' hr' x hx =>
                  ?_
                · refine signToken_returns fun token hid hv => ?_
                  rintro _ ⟨⟩
                  exact ⟨hid, hv⟩
                · exact (hr₃.trans (hr₄.trans (hr₅.trans hr'))).version_ge hw₂ huser hx

theorem verifyChallenge_held (w : World) (challengeToken code : Nat) (client : ClientInfo) :
    (issuing u).Held (SaasBackend.verifyChallenge env challengeToken code client) w := by
  rw [verifyChallenge_eq]
  refine issuing_query_bind fun w₁ _ hw₁ => ?_
  split
  · trivial
  rename_i challengeId stored user hfound
  obtain ⟨-, -, huser⟩ := challenge_found hfound
  refine whenAnswerable_rule (T := fun _ => True)
    (Q := fun p => ∀ w', (issuing u).rely w₁ w' → (issuing u).inv w' → (issuing u).Held p w')
    (fun _ _ _ _ => trivial) (fun _ w₂ _ _ => issuing_bind_noOne (by exact fun _ => trivial) w₂)
    (fun _ hk _ hr _ => issuing_query_bind fun w₃ hr₃ hw₃ =>
      hk w₃.now trivial w₃ (hr.trans hr₃) hw₃)
    (fun _ w₃ hr₃ hw₃ => ?_) w₁ ((issuing u).rely_refl w₁) hw₁
  refine issuing_bind (Prog.returns_true _) hw₃ fun matched w₄ _ hr₄ hw₄ => ?_
  split
  · exact issuing_bind_noOne (fun _ => by split <;> trivial) w₄
  · refine issuing_bind (Prog.returns_true _) hw₄ fun claimed w₅ _ hr₅ hw₅ => ?_
    split
    · trivial
    · simp only [completeChallenge, Prog.bind_eq]
      refine issuing_bind (Prog.returns_true _) hw₅ fun _ w₆ _ hr₆ hw₆ => ?_
      refine issuing_query_bind fun w₇ hr₇ hw₇ => ?_
      refine issuing_bind (Prog.returns_true _) hw₇ fun updated w₈ _ hr₈ _ => ?_
      refine issue_held (v := user.tokenVersion) client (fun _ => ?_) fun w' hr' x hx => ?_
      · refine signToken_returns fun token hid hv => ?_
        rintro _ ⟨⟩
        exact ⟨hid, hv⟩
      · exact (hr₃.trans (hr₄.trans (hr₅.trans (hr₆.trans (hr₇.trans (hr₈.trans hr')))))).version_ge
          hw₁ huser hx

end Held

section NoOne

theorem resetPassword_noOne (env : Env) (token : Nat) (newPassword : String) :
    (SaasBackend.resetPassword env token newPassword).Returns (fun a => a.accessToken = none) := by
  simp only [SaasBackend.resetPassword, Prog.bind_eq]
  refine .bind fun _ => ?_
  split
  · trivial
  · refine .bind fun _ => ?_
    split
    · exact .bind fun _ => trivial
    · exact .bind fun _ => rfl

theorem changePassword_noOne (env : Env) (userId : Id) (currentPassword newPassword : String) :
    (SaasBackend.changePassword env userId currentPassword newPassword).Returns
      (fun a => a.accessToken = none) := by
  simp only [SaasBackend.changePassword, Prog.bind_eq]
  refine .bind fun _ => ?_
  split
  · trivial
  · split
    · trivial
    · refine .bind fun _ => ?_
      split
      · trivial
      · refine .bind fun _ => ?_
        split
        · trivial
        · exact .bind fun _ => rfl

theorem enable_noOne (env : Env) (userId : Id) (code : Nat) :
    (SaasBackend.enable env userId code).Returns (fun a => a.accessToken = none) := by
  simp only [SaasBackend.enable, Prog.bind_eq]
  refine .bind fun _ => ?_
  split
  · trivial
  · split
    · trivial
    · split
      · trivial
      · refine .bind fun _ => ?_
        split
        · trivial
        · exact .bind fun _ => .bind fun _ => rfl

theorem disable_noOne (env : Env) (userId : Id) (password : String) :
    (SaasBackend.disable env userId password).Returns (fun a => a.accessToken = none) := by
  simp only [SaasBackend.disable, Prog.bind_eq]
  refine .bind fun _ => ?_
  split
  · trivial
  · split
    · trivial
    · split
      · trivial
      · refine .bind fun _ => ?_
        split
        · trivial
        · exact .bind fun _ => rfl

theorem SessionRequest.held (env : Env) {u : Id} (r : SessionRequest) (w : World) :
    (issuing u).Held (r.prog env) w := by
  cases r with
  | register name email password client => exact register_held w name email password client
  | login email password client => exact login_held w email password client
  | googleLogin code state client => exact googleLogin_held w code state client
  | refresh token client => exact refresh_issues w token client
  | verifyChallenge challengeToken code client =>
    exact verifyChallenge_held w challengeToken code client
  | resetPassword token newPassword =>
    exact issuing_noOne (resetPassword_noOne env token newPassword) w
  | changePassword userId currentPassword newPassword =>
    exact issuing_noOne (changePassword_noOne env userId currentPassword newPassword) w
  | enable userId code => exact issuing_noOne (enable_noOne env userId code) w
  | disable userId password => exact issuing_noOne (disable_noOne env userId password) w
  | revokeAllSessions userId => exact issuing_bind_noOne (by exact fun _ => rfl) w
  | other p signsNoOneIn => exact issuing_noOne signsNoOneIn w

end NoOne

section Kill

variable {u : Id} {l : Stmt} {w w' : World}

theorem kill_version (hl : l.kills u = true) (h : l.exec w = .ok w') {x' : User}
    (hx' : w'.users.get? u = some x') :
    ∃ x, w.users.get? u = some x ∧ x.tokenVersion < x'.tokenVersion := by
  rw [(exec_effect h).users] at hx'
  unfold Stmt.kills at hl
  split at hl
  · rename_i id d
    rw [beq_iff_eq] at hl
    subst hl
    simp only [Stmt.usersAfter, Table.get?_update, if_pos] at hx'
    obtain ⟨x, hx, rfl⟩ := Option.map_eq_some_iff.mp hx'
    exact ⟨x, hx, Nat.lt_succ_self _⟩
  · rename_i id
    rw [beq_iff_eq] at hl
    subst hl
    simp only [Stmt.usersAfter, Table.get?_update, if_pos] at hx'
    obtain ⟨x, hx, rfl⟩ := Option.map_eq_some_iff.mp hx'
    exact ⟨x, hx, Nat.lt_succ_self _⟩
  · cases hl

theorem kill_tokens (hl : l.kills u = true) (h : l.exec w = .ok w') {k : Id} {t : RefreshToken}
    (ht : w'.refreshTokens.get? k = some t) (hu : t.userId = u) : t.revoked = true := by
  rw [(exec_effect h).refreshTokens] at ht
  unfold Stmt.kills at hl
  split at hl
  · rename_i id d
    rw [beq_iff_eq] at hl
    subst hl
    simp only [Stmt.refreshTokensAfter, Table.get?_updateWhere] at ht
    obtain ⟨t₀, _, rfl⟩ := Option.map_eq_some_iff.mp ht
    by_cases hmatch : (t₀.userId == id && !t₀.revoked) = true
    · rw [if_pos hmatch]
    · rw [if_neg hmatch] at hu ⊢
      simpa [hu] using hmatch
  · rename_i id
    rw [beq_iff_eq] at hl
    subst hl
    simp only [Stmt.refreshTokensAfter, Table.get?_updateWhere] at ht
    obtain ⟨t₀, _, rfl⟩ := Option.map_eq_some_iff.mp ht
    by_cases hmatch : (t₀.userId == id) = true
    · rw [if_pos hmatch]
    · rw [if_neg hmatch] at hu
      simp [hu] at hmatch
  · cases hl

/-- What a refresh-token row that was stored before a kill of its user is afterwards. -/
theorem stored_revoked {t : RefreshToken} {s s' w₃ : World} (hs : s.Fresh)
    (hcreate : (Stmt.refreshTokenCreate t).exec s = .ok s') (ht : t.userId = u)
    (hbefore : Since s' w) (hl : l.kills u = true) (hkill : l.exec w = .ok w')
    (hafter : Since w' w₃) {row : RefreshToken} (hrow : w₃.refreshTokens.get? s.nonce = some row) :
    row.revoked = true := by
  have hlt : s.nonce < s'.nonce := by rw [(exec_effect hcreate).nonce]; exact Nat.lt_succ_self _
  have hkill' : Since w w' := .exec hkill
  have hfree : s.refreshTokens.get? s.nonce = none := by
    cases hget : s.refreshTokens.get? s.nonce with
    | none => rfl
    | some t' => exact absurd (hs.refreshTokens _ t' hget) (Nat.lt_irrefl _)
  obtain ⟨t₂, ht₂, hstep₂⟩ :=
    hafter.tokens _ row (Nat.lt_of_lt_of_le hlt (Nat.le_trans hbefore.nonce hkill'.nonce)) hrow
  obtain ⟨t₁, ht₁, hstep₁⟩ := (hbefore.trans hkill').tokens _ t₂ hlt ht₂
  rw [(exec_effect hcreate).refreshTokens] at ht₁
  have hnew := Table.get?_insert_self { t with createdAt := s.now, updatedAt := s.now } hfree
  rw [show Stmt.refreshTokensAfter (.refreshTokenCreate t) s = s.refreshTokens.insert s.nonce
    { t with createdAt := s.now, updatedAt := s.now } from rfl, hnew] at ht₁
  cases ht₁
  exact hstep₂.revoked (kill_tokens hl hkill ht₂ (hstep₁.userId.trans ht))

theorem capped_rejected {s w₃ : World} {a : Reply} {token : AccessToken} (hs : s.Fresh)
    (hcap : Capped u s a) (htoken : a.accessToken = some token) (hid : token.id = u)
    (huser : s.hasUser u = true) (hbefore : Since s w) (hl : l.kills u = true)
    (hkill : l.exec w = .ok w') (hafter : Since w' w₃) : ¬ Accepts w₃ token := by
  intro haccepts
  obtain ⟨y, hy, hversion⟩ := haccepts.version
  rw [hid] at hy
  obtain ⟨x, hx⟩ := Option.isSome_iff_exists.mp huser
  have hkill' : Since w w' := .exec hkill
  have hlt : u < w'.nonce :=
    Nat.lt_of_lt_of_le (hs.users u x hx) (Nat.le_trans hbefore.nonce hkill'.nonce)
  obtain ⟨z, hz, hzy⟩ := hafter.users u y hlt hy
  obtain ⟨x₁, hx₁, hlt₁⟩ := kill_version hl hkill hz
  have hle := hbefore.version_ge hs hx hx₁
  have hcapped := hcap token htoken hid x hx
  omega

end Kill

abbrev SessionStep (env : Env) : Config SessionRequest World Err Stmt Reply →
    Event SessionRequest World Stmt → Config SessionRequest World Err Stmt Reply → Prop :=
  Step Stmt.exec (SessionRequest.prog env) (fun _ => True) (fun _ _ => True)

/-- After a kill that no refresh token of a request begun earlier follows, whatever those
requests stored is revoked and whatever they returned is rejected. -/
theorem kill_switch_complete (env : Env) (u : Id) {w₀ w w' : World} {l : Stmt} {i : Nat}
    {tr₁ tr₃ : List (Event SessionRequest World Stmt)}
    {c₁ c₂ c₃ : Config SessionRequest World Err Stmt Reply} (hw₀ : w₀.Fresh)
    (hbefore : Steps (SessionStep env) ⟨w₀, []⟩ tr₁ c₁)
    (hfire : SessionStep env c₁ (.fire i l w w') c₂) (hl : l.kills u = true)
    (hkill : l.exec w = .ok w') (hafter : Steps (SessionStep env) c₂ tr₃ c₃)
    (hlate : ∀ j t s s', j < c₁.pool.length → .fire j (.refreshTokenCreate t) s s' ∈ tr₃ →
      t.userId ≠ u) :
    (∀ j t s s', j < c₁.pool.length →
      .fire j (.refreshTokenCreate t) s s' ∈ tr₃ ++ .fire i l w w' :: tr₁ → t.userId = u →
      (Stmt.refreshTokenCreate t).exec s = .ok s' →
      ∀ row, c₃.store.refreshTokens.get? s.nonce = some row → row.revoked = true) ∧
    ∀ (j : Nat) (r : SessionRequest) (a : Reply) (token : AccessToken), j < c₁.pool.length →
      c₃.pool[j]? = some (r, .ret a) → a.accessToken = some token → token.id = u →
      ¬ Accepts c₃.store token := by
  have hall : Steps (SessionStep env) ⟨w₀, []⟩ (tr₃ ++ .fire i l w w' :: tr₁) c₃ :=
    Steps.trans (.snoc hbefore hfire) hafter
  have hsends : ∀ r : SessionRequest, True → (r.prog env).Sends (issuing u).allowed :=
    fun r _ => .of_forall (fun _ => trivial) _
  have hheld : ∀ (r : SessionRequest) (w : World), True → True → w.Fresh →
      (issuing u).Held (r.prog env) w :=
    fun r w _ _ _ => r.held env w
  have hruns₁ : (issuing u).Runs (fun _ => True) tr₁ c₁ := .steps hsends hheld hw₀ hbefore
  have hruns₃ : (issuing u).Runs (fun _ => True) (tr₃ ++ .fire i l w w' :: tr₁) c₃ :=
    .steps hsends hheld hw₀ hall
  have hsince : Since w' c₃.store := (hruns₃.since i l w w' (by simp)).2.2.2
  have hw : w = c₁.store := by cases hfire; rfl
  -- a row for `u` stored by a request begun before the kill was stored before the kill
  have hwhen : ∀ j t s s', j < c₁.pool.length →
      .fire j (.refreshTokenCreate t) s s' ∈ tr₃ ++ .fire i l w w' :: tr₁ → t.userId = u →
      .fire j (.refreshTokenCreate t) s s' ∈ tr₁ := by
    intro j t s s' hj hmem ht
    rcases List.mem_append.mp hmem with h₃ | h₁
    · exact absurd ht (hlate j t s s' hj h₃)
    · rcases List.mem_cons.mp h₁ with heq | h₁
      · cases heq
        cases hl
      · exact h₁
  refine ⟨fun j t s s' hj hmem ht hcreate row hrow => ?_, fun j r a token hj hpool htoken hid => ?_⟩
  · obtain ⟨_, hs, _, hsince₁⟩ := hruns₁.since _ _ _ _ (hwhen j t s s' hj hmem ht)
    exact stored_revoked hs hcreate ht (hw ▸ hsince₁) hl hkill hsince hrow
  · rcases hruns₃.threads j _ hpool trivial with
      hno | ⟨s, ⟨_, s', hmem, ⟨t, rfl, ht⟩, hcreate⟩, hcap⟩
    · exact absurd ⟨token, htoken, hid⟩ hno
    · obtain ⟨_, hs, hss', hsince₁⟩ := hruns₁.since _ _ _ _ (hwhen j t s s' hj hmem ht)
      have huser : s.hasUser u = true := ht ▸ (refreshTokenCreate_ok hcreate).1
      exact capped_rejected hs hcap htoken hid huser (hw ▸ Since.trans hss' hsince₁) hl hkill hsince

section Sample

def signedUpWorld : World where
  users := (∅ : Table User).insert 1 { email := "a@x.io", password := some "pw" }
  nonce := 10

theorem signedUpWorld_fresh : signedUpWorld.Fresh := by
  refine ⟨fun k u hk => ?_, fun k t hk => by cases hk⟩
  rcases Table.get?_insert_cases hk with h | ⟨rfl, _⟩
  · cases h
  · decide

def duringLogin (n : Nat) : Config SessionRequest World Err Stmt Reply :=
  Config.play Stmt.exec (SessionRequest.prog sampleEnv) ⟨signedUpWorld, []⟩
    ([.inl (.login "a@x.io" "pw" {}), .inl (.revokeAllSessions 1)] ++ List.replicate n (.inr 0))

theorem revocation_fires (n : Nat)
    (h : (duringLogin n).pool[1]? = some (.revokeAllSessions 1, SaasBackend.revokeAllSessions 1)) :
    SessionStep sampleEnv (duringLogin n)
      (.fire 1 (.killSessions 1 {}) (duringLogin n).store
        ((duringLogin n).advance Stmt.exec 1).store)
      ((duringLogin n).advance Stmt.exec 1) := .fire h trivial

def killedDuringLogin (n m : Nat) : Config SessionRequest World Err Stmt Reply :=
  Config.play Stmt.exec (SessionRequest.prog sampleEnv) ((duringLogin n).advance Stmt.exec 1)
    (List.replicate m (.inr 0))

theorem duringLogin_steps (n : Nat) :
    ∃ tr, Steps (SessionStep sampleEnv) ⟨signedUpWorld, []⟩ tr (duringLogin n) :=
  Config.play_steps_free _ _ _ (fun _ _ => trivial) _

theorem kill_switch_complete_login_done :
    ∃ a token, (killedDuringLogin 11 0).pool[0]? = some (.login "a@x.io" "pw" {}, .ret a) ∧
      a.accessToken = some token ∧ ¬ Accepts (killedDuringLogin 11 0).store token := by
  obtain ⟨tr, hbefore⟩ := duringLogin_steps 11
  refine ⟨_, _, rfl, rfl, ?_⟩
  exact (kill_switch_complete sampleEnv 1 signedUpWorld_fresh hbefore
    (revocation_fires 11 rfl) rfl rfl
    .refl (by simp)).2 0 _ _ _ (by decide) rfl rfl rfl

/-- The password has been checked, the revocation commits, and the login stores a refresh
token that nothing revokes. -/
theorem login_outlives_kill :
    (∃ tr, Steps (SessionStep sampleEnv) ⟨signedUpWorld, []⟩ tr (duringLogin 7)) ∧
      (∃ w', SessionStep sampleEnv (duringLogin 7)
        (.fire 1 (.killSessions 1 {}) (duringLogin 7).store w')
        (killedDuringLogin 7 0) ∧ (Stmt.killSessions 1 {}).exec (duringLogin 7).store = .ok w') ∧
      (∃ tr, Steps (SessionStep sampleEnv) (killedDuringLogin 7 0) tr (killedDuringLogin 7 4)) ∧
      (∃ a b, (killedDuringLogin 7 4).pool =
        [(.login "a@x.io" "pw" {}, .ret a), (.revokeAllSessions 1, .ret b)]) ∧
      (killedDuringLogin 7 0).store.refreshTokens.rows.length = 0 ∧
      (killedDuringLogin 7 4).store.refreshTokens.rows.map (fun r => (r.2.userId, r.2.revoked)) =
        [(1, false)] :=
  ⟨duringLogin_steps 7,
    ⟨_, revocation_fires 7 rfl, rfl⟩,
    Config.play_steps_free _ _ _ (fun _ _ => trivial) _, ⟨_, _, rfl⟩, by decide, by decide⟩

end Sample

end SaasBackend
