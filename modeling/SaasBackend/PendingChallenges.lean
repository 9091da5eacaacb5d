import SaasBackend.SecondFactor

set_option autoImplicit false

namespace SaasBackend
open Keyed Handler

structure World.ChallengesSound (w : World) : Prop where
  keys : ∀ k c, w.twoFactorChallenges.get? k = some c → k < w.nonce
  tokens : ∀ k c, w.twoFactorChallenges.get? k = some c → c.token.preimage < w.nonce
  unique : ∀ k k' c c', w.twoFactorChallenges.get? k = some c →
    w.twoFactorChallenges.get? k' = some c' → c.token = c'.token → k = k'

/-- A challenge keeps its token, its user and its expiry, and is never unused again. -/
structure ChallengeStep (c c' : TwoFactorChallenge) : Prop where
  token : c'.token = c.token
  userId : c'.userId = c.userId
  expiresAt : c'.expiresAt = c.expiresAt
  used : c.used = true → c'.used = true

theorem ChallengeStep.refl (c : TwoFactorChallenge) : ChallengeStep c c := ⟨rfl, rfl, rfl, id⟩

theorem ChallengeStep.trans {c₁ c₂ c₃ : TwoFactorChallenge} (h₁ : ChallengeStep c₁ c₂)
    (h₂ : ChallengeStep c₂ c₃) : ChallengeStep c₁ c₃ :=
  ⟨h₂.token.trans h₁.token, h₂.userId.trans h₁.userId, h₂.expiresAt.trans h₁.expiresAt,
    fun h => h₂.used (h₁.used h)⟩

structure ChallengesKept (w w' : World) : Prop where
  sound : w.ChallengesSound → w'.ChallengesSound
  nonce : w.nonce ≤ w'.nonce
  now : w.now ≤ w'.now
  rows : ∀ k c', w'.twoFactorChallenges.get? k = some c' → c'.token.preimage < w.nonce →
    ∃ c, w.twoFactorChallenges.get? k = some c ∧ ChallengeStep c c'

theorem ChallengesKept.refl (w : World) : ChallengesKept w w :=
  ⟨id, Nat.le_refl _, Nat.le_refl _, fun _ c hk _ => ⟨c, hk, .refl c⟩⟩

theorem ChallengesKept.trans {w₁ w₂ w₃ : World} (h₁ : ChallengesKept w₁ w₂)
    (h₂ : ChallengesKept w₂ w₃) :
    ChallengesKept w₁ w₃ := by
  refine ⟨h₂.sound ∘ h₁.sound, Nat.le_trans h₁.nonce h₂.nonce, Nat.le_trans h₁.now h₂.now,
    fun k c₃ hk hdrawn => ?_⟩
  obtain ⟨c₂, hk₂, hstep₂⟩ := h₂.rows k c₃ hk (Nat.lt_of_lt_of_le hdrawn h₁.nonce)
  obtain ⟨c₁, hk₁, hstep₁⟩ := h₁.rows k c₂ hk₂ (hstep₂.token ▸ hdrawn)
  exact ⟨c₁, hk₁, hstep₁.trans hstep₂⟩

/-- Everything a handler may do short of opening a challenge. -/
abbrev opensNone : List Area := [.routine, .kill, .signIn, .tenant, .membership]

section Statements

variable {l : Stmt} {w w' : World}

theorem challenge_back (hl : opensNone.contains l.area = true) (h : l.Effect w w') {k : Id}
    {c' : TwoFactorChallenge} (hk : w'.twoFactorChallenges.get? k = some c') :
    ∃ c, w.twoFactorChallenges.get? k = some c ∧ ChallengeStep c c' := by
  rw [h.twoFactorChallenges] at hk
  cases l with
  | challengeCreate c => cases hl
  | userDelete id => exact ⟨c', (Table.get?_eraseWhere_eq_some.mp hk).1, .refl c'⟩
  | challengeCleanup before => exact ⟨c', (Table.get?_eraseWhere_eq_some.mp hk).1, .refl c'⟩
  | challengeDelete id =>
    simp only [Stmt.twoFactorChallengesAfter, Table.get?_erase] at hk
    split at hk
    · cases hk
    · exact ⟨c', hk, .refl c'⟩
  | challengeAttempt challengeId =>
    simp only [Stmt.twoFactorChallengesAfter, Table.get?_update] at hk
    split at hk
    · obtain ⟨c, hc, rfl⟩ := Option.map_eq_some_iff.mp hk
      exact ⟨c, hc, rfl, rfl, rfl, id⟩
    · exact ⟨c', hk, .refl c'⟩
  | challengeClaim challengeId =>
    simp only [Stmt.twoFactorChallengesAfter, Table.get?_updateWhere] at hk
    obtain ⟨c, hc, rfl⟩ := Option.map_eq_some_iff.mp hk
    refine ⟨c, hc, ?_⟩
    split
    · exact ⟨rfl, rfl, rfl, fun _ => rfl⟩
    · exact .refl c
  | _ => exact ⟨c', hk, .refl c'⟩

theorem ChallengesKept.exec (hl : opensNone.contains l.area = true) (hexec : l.exec w = .ok w') :
    ChallengesKept w w' := by
  have heff := exec_effect hexec
  refine ⟨fun hs => ⟨fun k c hk => ?_, fun k c hk => ?_, fun k k' c c' hk hk' htoken => ?_⟩,
    heff.nonce_le, heff.now_le, fun k c hk _ => challenge_back hl heff hk⟩
  · obtain ⟨c₀, hk₀, _⟩ := challenge_back hl heff hk
    exact Nat.lt_of_lt_of_le (hs.keys k c₀ hk₀) heff.nonce_le
  · obtain ⟨c₀, hk₀, hstep⟩ := challenge_back hl heff hk
    rw [hstep.token]
    exact Nat.lt_of_lt_of_le (hs.tokens k c₀ hk₀) heff.nonce_le
  · obtain ⟨c₀, hk₀, hstep⟩ := challenge_back hl heff hk
    obtain ⟨c₁, hk₁, hstep'⟩ := challenge_back hl heff hk'
    exact hs.unique k k' c₀ c₁ hk₀ hk₁ (by rw [← hstep.token, ← hstep'.token, htoken])

end Statements

/-- Every row of the challenge expires within the five minutes that start now. -/
def Pending (t : Nat) (w : World) : Prop :=
  ∀ k c, w.twoFactorChallenges.get? k = some c → c.token = hashToken t →
    c.expiresAt ≤ w.now + challengeTtlMs

def UsedUp (t : Nat) (w : World) : Prop :=
  ∀ k c, w.twoFactorChallenges.get? k = some c → c.token = hashToken t → c.used = true

theorem UsedUp.kept {t : Nat} {w w' : World} (h : UsedUp t w) (hkept : ChallengesKept w w')
    (ht : t < w.nonce) :
    UsedUp t w' := by
  intro k c hk htoken
  obtain ⟨c₀, hk₀, hstep⟩ := hkept.rows k c hk (by rw [htoken]; exact ht)
  exact hstep.used (h k c₀ hk₀ (hstep.token ▸ htoken))

structure VettedBy (env : Env) (w : World) (t code : Nat) (token : AccessToken)
    (c : TwoFactorChallenge) (x : User) : Prop where
  stored : ∃ k, w.twoFactorChallenges.get? k = some c
  presented : c.token = hashToken t
  unused : c.used = false
  attempts : c.attempts < maxChallengeAttempts
  unexpired : w.now ≤ c.expiresAt
  user : w.users.get? c.userId = some x
  live : x.live = true
  notBanned : x.banned = false
  notSuspended : x.suspendedAt w.now = false
  matched : matchCode env x code w.now ≠ .invalid
  id : token.id = c.userId
  version : token.tokenVersion = x.tokenVersion

section Requests

variable {α β : Type} {env : Env} {w₀ w : World}

theorem ChallengesKept.run {p : Req α} (hp : Within opensNone p) (w : World) :
    ChallengesKept w (p.run Stmt.exec w).2 :=
  hp.run (R := ChallengesKept) .refl (fun _ _ _ => .trans) (fun _ _ _ hl hexec => .exec hl hexec) w

theorem kept_bind {p : Req α} {k : α → Req β} {post : Except Err β → World → Prop}
    (hp : Within opensNone p) (hw : ChallengesKept w₀ w)
    (hok : ∀ a w', ChallengesKept w₀ w' → (k a).Ends Stmt.exec post w')
    (herr : ∀ e w', ChallengesKept w₀ w' → post (.error e) w') :
    (p.bind k).Ends Stmt.exec post w := by
  have hpart : p.Ends Stmt.exec (fun _ w' => ChallengesKept w₀ w') w := hw.trans (.run hp w)
  exact Ends.bind hpart hok herr

theorem createChallenge_ends (hs : w.ChallengesSound) {id : Id} {k : Nat → Req β}
    {post : Except Err β → World → Prop}
    (hok : ∀ t w', ChallengesKept w w' → Pending t w' → (k t).Ends Stmt.exec post w')
    (herr : ∀ e w', ChallengesKept w w' → post (.error e) w') :
    ((createChallenge id).bind k).Ends Stmt.exec post w := by
  have hdrawn : ChallengesKept w { w with nonce := w.nonce + 1 } := .exec (l := .random) rfl rfl
  simp only [createChallenge, Prog.bind_eq, Prog.bind_assoc, ends_randomBytes_bind, ends_date_bind,
    ends_execute_bind]
  split
  · rename_i w' hexec
    have heff := exec_effect hexec
    have hrow : ∀ k c, w'.twoFactorChallenges.get? k = some c →
      w.twoFactorChallenges.get? k = some c ∨
        k = w.nonce + 1 ∧ c = ⟨hashToken w.nonce, id, w.now + challengeTtlMs, false, 0, w.now⟩ := by
      intro k c hk
      rw [heff.twoFactorChallenges] at hk
      exact Table.get?_insert_cases hk
    have hnonce : w'.nonce = w.nonce + 2 := heff.nonce
    have hnow : w'.now = w.now := heff.now
    have hnew : ∀ k c, w.twoFactorChallenges.get? k = some c → c.token ≠ hashToken w.nonce := by
      intro k c hk htoken
      exact absurd (hs.tokens k c hk) (by rw [htoken]; exact Nat.lt_irrefl _)
    refine hok _ w'
      ⟨fun _ => ⟨fun k c hk => ?_, fun k c hk => ?_, fun k k' c c' hk hk' htoken => ?_⟩, ?_, ?_,
      fun k c hk hdrawn => ?_⟩ fun k c hk htoken => ?_
    · rcases hrow k c hk with hold | ⟨rfl, _⟩
      · have hlt := hs.keys k c hold
        omega
      · omega
    · rcases hrow k c hk with hold | ⟨_, rfl⟩
      · have hlt := hs.tokens k c hold
        omega
      · rw [hnonce]
        exact Nat.lt_add_of_pos_right (by decide)
    · rcases hrow k c hk with hold | ⟨rfl, rfl⟩
      · rcases hrow k' c' hk' with hold' | ⟨rfl, rfl⟩
        · exact hs.unique k k' c c' hold hold' htoken
        · exact absurd htoken (hnew k c hold)
      · rcases hrow k' c' hk' with hold' | ⟨rfl, rfl⟩
        · exact absurd htoken.symm (hnew k' c' hold')
        · rfl
    · omega
    · exact Nat.le_of_eq hnow.symm
    · rcases hrow k c hk with hold | ⟨_, rfl⟩
      · exact ⟨c, hold, .refl c⟩
      · exact absurd hdrawn (Nat.lt_irrefl _)
    · rcases hrow k c hk with hold | ⟨_, rfl⟩
      · exact absurd htoken (hnew k c hold)
      · exact Nat.le_of_eq (by rw [hnow])
  · exact herr _ _ hdrawn

def Opened (w : World) (r : Except Err Reply) (w' : World) : Prop :=
  ChallengesKept w w' ∧ ∀ t, r = .ok (.twoFactorRequired t) → Pending t w'

theorem Opened.error {err : Err} (h : ChallengesKept w₀ w) : Opened w₀ (.error err) w :=
  ⟨h, fun _ hres => (by cases hres)⟩

theorem Opened.session {user : Option SafeUser} {token : AccessToken} {refreshToken : RefreshJwt}
    {dev : Option Nat} {backup : Bool} (h : ChallengesKept w₀ w) :
    Opened w₀ (.ok (.session user token refreshToken dev backup)) w :=
  ⟨h, fun _ hres => (by cases hres)⟩

theorem opened_bind {p : Req α} {k : α → Req Reply} (hp : Within opensNone p)
    (hw : ChallengesKept w₀ w)
    (hok : ∀ a w', ChallengesKept w₀ w' → (k a).Ends Stmt.exec (Opened w₀) w') :
    (p.bind k).Ends Stmt.exec (Opened w₀) w :=
  kept_bind hp hw hok fun _ _ => .error

theorem createChallenge_opens (hs : w₀.ChallengesSound) (hw : ChallengesKept w₀ w) (id : Id) :
    ((createChallenge id).bind fun t => .ret (.twoFactorRequired t)).Ends Stmt.exec
      (Opened w₀) w := by
  refine createChallenge_ends (hw.sound hs) (fun t w' hkept hpending => ?_) fun _ _ hkept =>
    .error (hw.trans hkept)
  refine ⟨hw.trans hkept, fun t' hres => ?_⟩
  cases hres
  exact hpending

theorem login_opens (hs : w.ChallengesSound) (email password : String) (client : ClientInfo) :
    (login env email password client).Ends Stmt.exec (Opened w) w := by
  have hw := ChallengesKept.refl w
  simp only [login, findUserByEmail, Prog.bind_eq, ends_query_bind]
  split
  · exact opened_bind (.send rfl) hw fun _ _ hw' => .error hw'
  · simp only [ends_date_bind]
    refine opened_bind (sends_when (.send rfl)) hw fun _ w₁ hw₁ => ?_
    refine opened_bind ?_ hw₁ fun valid w₂ hw₂ => ?_
    · unfold checkPassword
      split
      · exact .send rfl
      · exact .bind (.send rfl) fun _ => .ret
    · split
      · refine opened_bind (sends_when ?_) hw₂ fun _ _ hw' => .error hw'
        exact .bind (.send rfl) fun _ => sends_when (.bind (.send rfl) fun _ => .send rfl)
      · split
        · exact .error hw₂
        · simp only [ends_date_bind]
          split
          · exact .error hw₂
          · split
            · exact createChallenge_opens hs hw₂ _
            · refine opened_bind ((createRefreshTokenRecord_within ..).mono (by decide)) hw₂
                fun _ w₃ hw₃ => ?_
              simp only [ends_date_bind]
              refine opened_bind (.send rfl) hw₃ fun _ w₄ hw₄ => ?_
              exact opened_bind ((signToken_within ..).mono (by decide)) hw₄ fun _ _ hw₅ =>
                .session hw₅

theorem googleLogin_opens (hs : w.ChallengesSound) (code state : String) (client : ClientInfo) :
    (googleLogin env code state client).Ends Stmt.exec (Opened w) w := by
  have hw := ChallengesKept.refl w
  simp only [googleLogin, Prog.bind_eq]
  split
  · exact .error hw
  · simp only [ends_date_bind]
    split
    · exact .error hw
    · split
      · exact .error hw
      · split
        · split
          · exact .error hw
          · refine opened_bind ((googleAccount_within ..).mono (by decide)) hw fun account w₁ hw₁ =>
              ?_
            obtain ⟨id, user⟩ := account
            simp only []
            split
            · exact .error hw₁
            · simp only [ends_date_bind]
              split
              · exact .error hw₁
              · split
                · exact createChallenge_opens hs hw₁ id
                · simp only [ends_date_bind]
                  refine opened_bind (.send rfl) hw₁ fun _ w₂ hw₂ => ?_
                  refine opened_bind ((createRefreshTokenRecord_within ..).mono (by decide)) hw₂
                    fun _ w₃ hw₃ => ?_
                  exact opened_bind ((signToken_within ..).mono (by decide)) hw₃ fun _ _ hw₄ =>
                    .session hw₄
        · exact .error hw

def Verified (env : Env) (t code : Nat) (w : World) (r : Except Err Reply) (w' : World) : Prop :=
  ChallengesKept w w' ∧ ∀ a token, r = .ok a → a.accessToken = some token →
    (∃ c x, VettedBy env w t code token c x) ∧ UsedUp t w'

theorem Verified.error {t code : Nat} {err : Err} (h : ChallengesKept w₀ w) :
    Verified env t code w₀ (.error err) w :=
  ⟨h, fun _ _ hres => (by cases hres)⟩

theorem verified_bind {t code : Nat} {p : Req α} {k : α → Req Reply} (hp : Within opensNone p)
    (hw : ChallengesKept w₀ w)
    (hok : ∀ a w', ChallengesKept w₀ w' → (k a).Ends Stmt.exec (Verified env t code w₀) w') :
    (p.bind k).Ends Stmt.exec (Verified env t code w₀) w :=
  kept_bind hp hw hok fun _ _ => .error

theorem completeChallenge_verified {t code : Nat} {id : Id} {user : User} {matched : CodeMatch}
    {client : ClientInfo} {c : TwoFactorChallenge} (ht : t < w.nonce) (hw : ChallengesKept w₀ w)
    (hused : UsedUp t w)
    (hvetted : ∀ token, token.id = id → token.tokenVersion = user.tokenVersion →
      VettedBy env w₀ t code token c user) :
    (completeChallenge env id user matched client).Ends Stmt.exec (Verified env t code w₀) w := by
  have hrest : Within opensNone (completeChallenge env id user matched client) := by
    refine .bind ?_ fun _ => .bind (.send rfl) fun _ => .bind (.send rfl) fun _ =>
      .bind ((createRefreshTokenRecord_within ..).mono (by decide)) fun _ =>
        .bind ((signToken_within ..).mono (by decide)) fun _ => .ret
    cases matched with
    | backup hashed => exact .send rfl
    | totp timeStep => exact .ret
    | invalid => exact .ret
  have hreturns : (completeChallenge env id user matched client).Returns (fun a => ∀ token,
      a.accessToken = some token → token.id = id ∧ token.tokenVersion = user.tokenVersion) := by
    refine .bind fun _ => .bind fun _ => .bind fun _ => .bind fun _ =>
      signToken_returns fun token hid hv => ?_
    rintro _ ⟨⟩
    exact ⟨hid, hv⟩
  have hkept := ChallengesKept.run hrest w
  refine ⟨hw.trans hkept, fun a token hres htoken => ⟨⟨c, user, ?_⟩, hused.kept hkept ht⟩⟩
  obtain ⟨hid, hv⟩ := hreturns.run hres token htoken
  exact hvetted token hid hv

theorem verifyChallenge_verified (hs : w.ChallengesSound) (t code : Nat) (client : ClientInfo) :
    (verifyChallenge env t code client).Ends Stmt.exec (Verified env t code w) w := by
  have hw := ChallengesKept.refl w
  rw [verifyChallenge_eq, ends_query_bind]
  split
  · exact .error hw
  rename_i challengeId stored user hfound
  obtain ⟨hstored, hpresented, huser⟩ := challenge_found hfound
  refine whenAnswerable_rule (T := (· = w.now))
    (Q := fun p => p.Ends Stmt.exec (Verified env t code w) w)
    (fun _ => .error hw) (fun _ => verified_bind (.send rfl) hw fun _ _ hw' => .error hw')
    (fun _ hk => ends_date_bind.mpr (hk w.now rfl)) fun h => ?_
  obtain ⟨_, rfl, hexpiry⟩ := h.notExpired
  obtain ⟨_, rfl, hsuspended⟩ := h.notSuspended
  simp only [answerChallenge, Prog.bind_eq, ends_send_bind, Stmt.exec]
  split
  · exact kept_bind (.send rfl) hw (fun attempts _ hw' => by split <;> exact .error hw')
      fun _ _ => .error
  · rename_i hmatched
    simp only [ends_send_bind, Stmt.exec]
    split
    · refine .error (.exec (l := .challengeClaim challengeId) rfl rfl)
    · refine completeChallenge_verified (c := stored) ?_
        (.exec (l := .challengeClaim challengeId) rfl rfl) ?_ ?_
      · have hlt := hs.tokens _ _ hstored
        rw [hpresented] at hlt
        exact hlt
      · intro k c hk htoken
        simp only [Table.get?_updateWhere] at hk
        obtain ⟨c₀, hk₀, rfl⟩ := Option.map_eq_some_iff.mp hk
        split
        · rfl
        · rename_i hother
          rw [if_neg hother] at htoken
          have hkey := hs.unique _ _ _ _ hk₀ hstored (htoken.trans hpresented.symm)
          simpa [hkey] using hother
      · intro token hid hv
        exact ⟨⟨_, hstored⟩, hpresented, h.unused, h.attempts, Nat.not_lt.mp hexpiry, huser, h.live,
          h.notBanned, hsuspended, hmatched, hid, hv⟩

end Requests

def SessionRequest.opensNone : World → SessionRequest → Prop
  | _, .other p _ => Within SaasBackend.opensNone p
  | _, _ => True

theorem SessionRequest.kept (env : Env) {w : World} (hs : w.ChallengesSound) (r : SessionRequest)
    (hr : r.opensNone w) : ChallengesKept w ((r.prog env).run Stmt.exec w).2 := by
  cases r with
  | register name email password client =>
    exact .run ((register_within name email password client).mono (by decide)) w
  | login email password client => exact (login_opens hs email password client).1
  | googleLogin code state client => exact (googleLogin_opens hs code state client).1
  | refresh token client => exact .run ((refresh_within token client).mono (by decide)) w
  | verifyChallenge challengeToken code client =>
    exact (verifyChallenge_verified hs challengeToken code client).1
  | resetPassword token newPassword =>
    exact .run ((resetPassword_within token newPassword).mono (by decide)) w
  | changePassword userId currentPassword newPassword =>
    exact .run ((changePassword_within userId currentPassword newPassword).mono (by decide)) w
  | enable userId code => exact .run ((enable_within userId code).mono (by decide)) w
  | disable userId password => exact .run ((disable_within userId password).mono (by decide)) w
  | revokeAllSessions userId => exact .run ((revokeAllSessions_within userId).mono (by decide)) w
  | other p signsNoOneIn => exact .run hr w

abbrev ChallengeRun (env : Env) : World → List SessionEntry → World → Prop :=
  Steps (Served Stmt.exec (SessionRequest.prog env) SessionRequest.opensNone)

def SessionEntry.opens (e : SessionEntry) : Option Nat :=
  match e.req, e.res with
  | .login .., .ok (.twoFactorRequired t) => some t
  | .googleLogin .., .ok (.twoFactorRequired t) => some t
  | _, _ => none

def SessionEntry.yields (t : Nat) (e : SessionEntry) : Bool :=
  match e.req, e.res with
  | .verifyChallenge t' _ _, .ok (.session ..) => t' == t
  | _, _ => false

def SessionEntry.Kills (env : Env) (u : Id) (e : SessionEntry) : Prop :=
  ∃ l ∈ (e.req.prog env).sent Stmt.exec e.pre, l.kills u = true

/-- When the request succeeds, it has executed a statement of which `P` holds. -/
def ExecutesIfOk (P : Stmt → Prop) (r : Except Err Reply) (ls : List Stmt) (_ : World) : Prop :=
  ∀ a, r = .ok a → ∃ l ∈ ls, P l

section Kills

variable {env : Env}

theorem revokeAllSessions_kills (u : Id) (w : World) :
    (revokeAllSessions u).Traces Stmt.exec (ExecutesIfOk (·.kills u = true)) w := by
  simp only [revokeAllSessions, Prog.bind_eq, Prog.traces_bind, send, Prog.traces_send]
  split
  · exact fun _ _ => ⟨_, .head _, by simp [Stmt.kills]⟩
  · exact fun _ h => (by cases h)

theorem changePassword_kills (u : Id) (currentPassword newPassword : String) (w : World) :
    (changePassword env u currentPassword newPassword).Traces Stmt.exec
      (ExecutesIfOk (·.kills u = true)) w := by
  simp only [changePassword, findUserById, Prog.bind_eq, traces_query_bind]
  split
  · exact fun _ h => (by cases h)
  · split
    · exact fun _ h => (by cases h)
    · simp only [comparePassword, send, Prog.traces_bind, Prog.traces_send, Stmt.exec]
      split
      · exact fun _ h => (by cases h)
      · simp only [Prog.traces_bind, Prog.traces_send, Stmt.exec]
        split
        · exact fun _ h => (by cases h)
        · rw [traces_execute_bind]
          split
          · exact fun _ _ => ⟨_, .tail _ (.tail _ (.tail _ (.head _))), by simp [Stmt.kills]⟩
          · exact fun _ h => (by cases h)

theorem resetPassword_kills (token : Nat) (newPassword : String) (w : World) :
    (resetPassword env token newPassword).Traces Stmt.exec (fun r ls _ => ∀ a, r = .ok a →
      ∃ u, (∃ x, w.users.get? u = some x ∧ x.passwordResetToken = some (hashToken token)) ∧
        ∃ l ∈ ls, l.kills u = true) w := by
  simp only [resetPassword, Prog.bind_eq, traces_query_bind]
  split
  · exact fun _ h => (by cases h)
  · rename_i id user hfound
    obtain ⟨huser, hmatch⟩ := Table.find?_some hfound
    simp only [Bool.and_eq_true, beq_iff_eq] at hmatch
    simp only [traces_date_bind]
    split
    · rw [traces_execute_bind]
      split <;> exact fun _ h => (by cases h)
    · rw [traces_execute_bind]
      split
      · exact fun _ _ => ⟨id, ⟨user, huser, hmatch.1⟩, _, .tail _ (.tail _ (.head _)),
          by simp [Stmt.kills]⟩
      · exact fun _ h => (by cases h)

end Kills

section Entries

variable {env : Env} {w₀ w : World} {h : List SessionEntry} {e : SessionEntry} {t : Nat}

theorem ChallengeRun.kept (hs : w₀.ChallengesSound) (hrun : ChallengeRun env w₀ h w) :
    ChallengesKept w₀ w := by
  induction hrun with
  | refl => exact .refl w₀
  | snoc _ hserved ih =>
    cases hserved with
    | mk hallowed => exact ih.trans (SessionRequest.kept env (ih.sound hs) _ hallowed)

theorem ChallengeRun.since (hrun : ChallengeRun env w₀ h w) : Since w₀ w :=
  Served.related .refl (fun _ _ _ => .trans) (fun s r _ =>
    (Prog.Sends.of_forall (P := fun _ => True) (fun _ => trivial) (r.prog env)).run .refl
    (fun _ _ _ => .trans)
      (fun _ _ _ _ => .exec) s) hrun

theorem opens_pending (hs : e.pre.ChallengesSound)
    (he : e = serve Stmt.exec (SessionRequest.prog env) e.pre e.req) (hopens : e.opens = some t) :
    Pending t e.post := by
  obtain ⟨r, pre, res, post⟩ := e
  simp only [serve, Entry.mk.injEq, true_and] at he
  obtain ⟨hres, hpost⟩ := he
  unfold SessionEntry.opens at hopens
  split at hopens
  · rename_i email password client t' hreq hres'
    cases hopens
    subst hreq hpost
    exact (login_opens hs email password client).2 t (hres.symm.trans hres')
  · rename_i code state client t' hreq hres'
    cases hopens
    subst hreq hpost
    exact (googleLogin_opens hs code state client).2 t (hres.symm.trans hres')
  · cases hopens

theorem yields_vetted (hs : e.pre.ChallengesSound)
    (he : e = serve Stmt.exec (SessionRequest.prog env) e.pre e.req) (hyields : e.yields t = true) :
    UsedUp t e.post ∧ ∃ code client, e.req = .verifyChallenge t code client ∧
      ∃ token refreshToken, e.hands = some (token, refreshToken) ∧ ∃ c x,
        VettedBy env e.pre t code token c x := by
  obtain ⟨r, pre, res, post⟩ := e
  simp only [serve, Entry.mk.injEq, true_and] at he
  obtain ⟨hres, hpost⟩ := he
  unfold SessionEntry.yields at hyields
  split at hyields
  · rename_i t' code client user token refreshToken dev backup hreq hres'
    obtain rfl : t' = t := by simpa using hyields
    subst hreq hpost
    obtain ⟨hvetted, hused⟩ :=
      (verifyChallenge_verified hs t' code client).2 _ token (hres.symm.trans hres') rfl
    exact ⟨hused, code, client, rfl, token, refreshToken,
      by rw [SessionEntry.hands, hres'], hvetted⟩
  · cases hyields

theorem kill_requests (he : e = serve Stmt.exec (SessionRequest.prog env) e.pre e.req) {a : Reply}
    (hok : e.res = .ok a) :
    match e.req with
    | .revokeAllSessions u => e.Kills env u
    | .changePassword u _ _ => e.Kills env u
    | .resetPassword token _ => ∃ u x, e.pre.users.get? u = some x ∧
        x.passwordResetToken = some (hashToken token) ∧ e.Kills env u
    | _ => True := by
  obtain ⟨r, pre, res, post⟩ := e
  simp only [serve, Entry.mk.injEq, true_and] at he
  obtain ⟨rfl, rfl⟩ := he
  cases r with
  | revokeAllSessions u => exact revokeAllSessions_kills u pre a hok
  | changePassword u currentPassword newPassword =>
    exact changePassword_kills u currentPassword newPassword pre a hok
  | resetPassword token newPassword =>
    obtain ⟨u, ⟨x, hx, htoken⟩, hkills⟩ := resetPassword_kills token newPassword pre a hok
    exact ⟨u, x, hx, htoken, hkills⟩
  | _ => trivial

theorem Kills.version {u : Id} (hw : e.pre.Fresh)
    (he : e = serve Stmt.exec (SessionRequest.prog env) e.pre e.req) (hkills : e.Kills env u)
    {x x' : User} (hx : e.pre.users.get? u = some x) (hx' : e.post.users.get? u = some x') :
    x.tokenVersion < x'.tokenVersion := by
  obtain ⟨l, hmem, hl⟩ := hkills
  have hR := Prog.mem_sent (R := fun w w' => (w.Fresh → w'.Fresh) ∧ Since w w')
    (fun w => ⟨id, .refl w⟩)
    (fun _ _ _ h₁ h₂ => ⟨h₂.1 ∘ h₁.1, h₁.2.trans h₂.2⟩)
    (fun _ _ _ hexec => ⟨fun hw => hw.exec hexec, .exec hexec⟩) hmem
  obtain ⟨w₁, w₂, hexec, ⟨hfresh₁, hbefore⟩, ⟨_, hafter⟩⟩ := hR
  have hpost : ((e.req.prog env).run Stmt.exec e.pre).2 = e.post := by rw [he]; rfl
  rw [hpost] at hafter
  have hu : u < e.pre.nonce := hw.users u x hx
  have hu₂ : u < w₂.nonce := Nat.lt_of_lt_of_le hu (hbefore.trans (.exec hexec)).nonce
  obtain ⟨x₂, hx₂, hle₂⟩ := hafter.users u x' hu₂ hx'
  obtain ⟨x₁, hx₁, hversion⟩ := kill_version hl hexec hx₂
  have hle₁ := hbefore.version_ge hw hx hx₁
  omega

theorem ChallengeRun.fresh (hw : w₀.Fresh) (hrun : ChallengeRun env w₀ h w) : w.Fresh :=
  Served.related (R := fun w w' => w.Fresh → w'.Fresh) (fun _ => id) (fun _ _ _ h₁ h₂ => h₂ ∘ h₁)
    (fun s r _ =>
    (Prog.Sends.of_forall (P := fun _ => True) (fun _ => trivial) (r.prog env)).run
      (R := fun w w' => w.Fresh → w'.Fresh) (fun _ => id) (fun _ _ _ h₁ h₂ => h₂ ∘ h₁)
      (fun _ _ _ _ hexec hw => hw.exec hexec) s) hrun hw

theorem verified_once (hs : w₀.ChallengesSound) (ht : t < w₀.nonce)
    (hrun : ChallengeRun env w₀ h w) :
    (h.filter (·.yields t)).length ≤ 1 ∧ ((∃ e ∈ h, e.yields t = true) → UsedUp t w) := by
  induction hrun with
  | refl => exact ⟨Nat.zero_le _, fun ⟨_, hmem, _⟩ => (by cases hmem)⟩
  | @snoc tr s s' e hbefore hserved ih =>
    obtain ⟨hcount, hused⟩ := ih
    have hkept := ChallengeRun.kept hs hbefore
    have hsound := hkept.sound hs
    cases hserved with
    | @mk r hallowed =>
      cases hyields : SessionEntry.yields t (serve Stmt.exec (SessionRequest.prog env) s r) with
      | false =>
        refine ⟨by simpa [List.filter_cons, hyields] using hcount, fun ⟨e, hmem, he⟩ => ?_⟩
        rcases List.mem_cons.mp hmem with rfl | hold
        · rw [hyields] at he
          cases he
        · exact (hused ⟨e, hold, he⟩).kept (SessionRequest.kept env hsound r hallowed)
            (Nat.lt_of_lt_of_le ht hkept.nonce)
      | true =>
        obtain ⟨hnow, _, _, _, _, _, _, c, _, hvetted⟩ := yields_vetted hsound rfl hyields
        -- the row it claimed was unused, so nothing was handed out for it before
        have hnone : tr.filter (·.yields t) = [] := by
          refine List.filter_eq_nil_iff.mpr fun e hmem he => ?_
          obtain ⟨k, hstored⟩ := hvetted.stored
          have hused := hused ⟨e, hmem, he⟩ k c hstored hvetted.presented
          rw [hvetted.unused] at hused
          cases hused
        exact ⟨by simp [hyields, hnone], fun _ => hnow⟩

end Entries

/-- A challenge from before a kill yields at most one pair: within five minutes of its
opening, against the second factor its user has by then, and newer than the kill. -/
theorem killed_challenge_bounded (env : Env) {w₀ w : World}
    {before between later : List SessionEntry}
    {opening kill : SessionEntry} {t : Nat} {u : Id} (hw₀ : w₀.Fresh) (hs₀ : w₀.ChallengesSound)
    (hrun : ChallengeRun env w₀ (later ++ kill :: (between ++ opening :: before)) w)
    (hopens : opening.opens = some t)
    (huser : ∃ k c, opening.post.twoFactorChallenges.get? k = some c ∧ c.token = hashToken t ∧
      c.userId = u)
    (hkills : kill.Kills env u) :
    ((later ++ kill :: between).filter (·.yields t)).length ≤ 1 ∧
      ∀ v ∈ later, v.yields t = true →
        ∃ code client token refreshToken c x, v.req = .verifyChallenge t code client ∧
          v.hands = some (token, refreshToken) ∧ VettedBy env v.pre t code token c x ∧
          c.userId = u ∧ v.pre.now ≤ opening.post.now + challengeTtlMs ∧
          ∀ y, kill.pre.users.get? u = some y → y.tokenVersion < token.tokenVersion := by
  obtain ⟨k, c, hk, htoken, hid⟩ := huser
  have hrun' : ChallengeRun env w₀ ((later ++ kill :: between) ++ opening :: before) w := by
    simpa using hrun
  obtain ⟨hbefore, hopening, hafter⟩ := Served.around hrun'
  obtain ⟨hbetween, hkill, hlater⟩ := Served.around hafter
  have hs₁ := (ChallengeRun.kept hs₀ hbefore).sound hs₀
  have hs₂ := (ChallengeRun.kept hs₁ (.snoc .refl hopening)).sound hs₁
  have ht : t < opening.post.nonce := by
    have hlt := hs₂.tokens k c hk
    rw [htoken] at hlt
    exact hlt
  refine ⟨(verified_once hs₂ ht hafter).1, fun v hv hyields => ?_⟩
  obtain ⟨hserve, _, h₁, htov⟩ := Served.mem hlater hv
  have hkept := ChallengeRun.kept hs₂ (Steps.trans (.snoc hbetween hkill) htov)
  obtain ⟨_, code, client, hreq, token, refreshToken, hhands, c', x, hvetted⟩ :=
    yields_vetted (hkept.sound hs₂) hserve hyields
  -- the row that was claimed is the one the sign-in stored
  obtain ⟨k', hk'⟩ := hvetted.stored
  obtain ⟨c₂, hk₂, hstep⟩ := hkept.rows k' c' hk' (by rw [hvetted.presented]; exact ht)
  have htoken₂ : c₂.token = hashToken t := hstep.token ▸ hvetted.presented
  obtain rfl : k' = k := hs₂.unique k' k c₂ c hk₂ hk (htoken₂.trans htoken.symm)
  rw [hk] at hk₂
  cases hk₂
  have huser : c'.userId = u := hstep.userId.trans hid
  have hunexpired := hvetted.unexpired
  rw [hstep.expiresAt] at hunexpired
  refine ⟨code, client, token, refreshToken, c', x, hreq, hhands, hvetted, huser,
    Nat.le_trans hunexpired (opens_pending hs₁ hopening.eq_serve hopens k' c hk htoken),
    fun y hy => ?_⟩
  have hfresh : kill.pre.Fresh :=
    ChallengeRun.fresh hw₀ (Steps.trans (.snoc hbefore hopening) hbetween)
  have hgrown : Since kill.pre kill.post := ChallengeRun.since (.snoc .refl hkill)
  have hu : u < kill.post.nonce := Nat.lt_of_lt_of_le (hfresh.users u y hy) hgrown.nonce
  obtain ⟨x', hx', hle⟩ := (ChallengeRun.since htov).users u x hu (huser ▸ hvetted.user)
  have hlt := Kills.version hfresh hkill.eq_serve hkills hy hx'
  rw [hvetted.version]
  exact Nat.lt_of_lt_of_le hlt hle

section Sample

def verifiedAfterKill : List SessionRequest :=
  [.register "A" "a@x.io" "pw" {}, .also (setup 1), .enable 1 5, .login "a@x.io" "pw" {},
    .revokeAllSessions 1, .verifyChallenge 15 5 {}]

def killedRun : List SessionEntry × World :=
  serveAll Stmt.exec (SessionRequest.prog sampleEnv) verifiedAfterKill ([], {})

theorem killedRun_steps : ChallengeRun sampleEnv {} killedRun.1 killedRun.2 := by
  refine serveAll_steps verifiedAfterKill (fun r hr w => ?_) [] .refl
  simp only [verifiedAfterKill, List.mem_cons, List.not_mem_nil, or_false] at hr
  rcases hr with rfl | rfl | rfl | rfl | rfl | rfl
  · trivial
  · exact .bind ((setup_within 1).mono (by decide)) fun _ => .ret
  · trivial
  · trivial
  · trivial
  · trivial

/-- The challenge that user 1 opened before `revokeAllSessions` yields a pair after it. -/
theorem challenge_survives_kill :
    ∃ before between later opening kill w,
      ChallengeRun sampleEnv {} (later ++ kill :: (between ++ opening :: before)) w ∧
        opening.req = .login "a@x.io" "pw" {} ∧ opening.res = .ok (.twoFactorRequired 15) ∧
        (∃ k c, opening.post.twoFactorChallenges.get? k = some c ∧ c.token = hashToken 15 ∧
          c.userId = 1) ∧
        kill.req = .revokeAllSessions 1 ∧ kill.res = .ok (.revokedCount 0) ∧
        ∃ v ∈ later, v.yields 15 = true :=
  ⟨_, [], [_], _, _, _, killedRun_steps, rfl, rfl, ⟨16, _, rfl, rfl, rfl⟩, rfl, rfl, _,
    .head _, rfl⟩

theorem killed_challenge_bounded_once :
    ∃ v ∈ killedRun.1, v.yields 15 = true ∧ v.pre.now ≤ 300000 ∧
      ∃ token refreshToken, v.hands = some (token, refreshToken) ∧ token.id = 1 ∧
      1 < token.tokenVersion := by
  have hfresh : ({} : World).Fresh := ⟨fun _ _ hk => (by cases hk), fun _ _ hk => (by cases hk)⟩
  have hsound : ({} : World).ChallengesSound :=
    ⟨fun _ _ hk => (by cases hk), fun _ _ hk => (by cases hk), fun _ _ _ _ hk => (by cases hk)⟩
  obtain ⟨_, hall⟩ :=
    @killed_challenge_bounded sampleEnv {} _ _ [] [_] _ _ 15 1 hfresh hsound killedRun_steps rfl
    ⟨16, _, rfl, rfl, rfl⟩ ⟨_, .head _, rfl⟩
  obtain ⟨_, _, token, refreshToken, c, x, _, hhands, hvetted, huser, hnow, hversion⟩ :=
    hall _ (.head _) rfl
  exact ⟨_, .head _, rfl, hnow, token, refreshToken, hhands, hvetted.id.trans huser, hversion _ rfl⟩

end Sample

end SaasBackend
