import SaasBackend.GoogleLinking
import SaasBackend.SecondFactor

set_option autoImplicit false

namespace SaasBackend
open Keyed Handler

structure User.Clear (x : User) (now : Time) : Prop where
  notDeleted : x.deletedAt = none
  notBanned : x.banned = false
  notSuspended : ∀ t, x.suspendedUntil = some t → t ≤ now

theorem User.clear_iff {x : User} {now : Time} :
    x.Clear now ↔ x.live = true ∧ x.banned = false ∧ x.suspendedAt now = false := by
  have hsuspended : x.suspendedAt now = false ↔ ∀ t, x.suspendedUntil = some t → t ≤ now := by
    unfold User.suspendedAt
    cases x.suspendedUntil <;> simp
  rw [hsuspended]
  exact ⟨fun h => ⟨by simp [User.live, h.notDeleted], h.notBanned, h.notSuspended⟩,
    fun ⟨hlive, hbanned, hs⟩ => ⟨by simpa [User.live] using hlive, hbanned, hs⟩⟩

def Stmt.opensFor (u : Id) : Stmt → Bool
  | .refreshTokenCreate t => t.userId == u
  | .challengeCreate c => c.userId == u
  | _ => false

def Ignores (u : Id) (p : Req Reply) (w : World) : Prop :=
  p.Traces Stmt.exec (fun r ls _ => (∀ l ∈ ls, l.opensFor u = false) ∧
    ∀ a token, r = .ok a → a.accessToken = some token → token.id ≠ u) w

theorem Ignores.not_serves {u : Id} {p : Req Reply} {w : World} (h : Ignores u p w) :
    ¬ Serves u p w := by
  rintro ⟨a, ha, hserves⟩
  cases a with
  | session _ token => exact h.2 _ token ha rfl hserves
  | twoFactorRequired t =>
    obtain ⟨c, hmem, _, huser⟩ := hserves
    simpa [Stmt.opensFor, huser] using h.1 _ hmem
  | _ => cases hserves

section Rules

variable {α : Type} {u : Id} {w : World} {p : Req α} {k : α → Req Reply}

theorem Ignores.throw {e : Err} :
    Ignores u (.throw e) w := ⟨fun _ hl => (by cases hl), fun _ _ h => (by cases h)⟩

theorem Ignores.past {Q : Except Err α → World → Prop}
    (hquiet : p.Sends (fun l => l.opensFor u = false)) (hp : p.Ends Stmt.exec Q w)
    (hk : ∀ a w', Q (.ok a) w' → Ignores u (k a) w') : Ignores u (p.bind k) w := by
  have htraces : p.Traces Stmt.exec (fun r ls w' => (∀ l ∈ ls, l.opensFor u = false) ∧ Q r w') w :=
    ⟨hquiet.sent w, hp⟩
  refine Prog.traces_bind.mpr (htraces.weaken fun r ls w' ⟨hls, hmid⟩ => ?_)
  cases r with
  | error e => exact ⟨hls, fun _ _ h => (by cases h)⟩
  | ok a =>
    exact (hk a w' hmid).weaken fun r ls' _ ⟨hls', hr⟩ =>
      ⟨fun l hl => (List.mem_append.mp hl).elim (hls l) (hls' l), hr⟩

def Stmt.passes (u : Id) : Stmt → Bool
  | .tick _ => false
  | l => !l.opensFor u

theorem Ignores.query_bind {view : World → α} (h : Ignores u (k (view w)) w) :
    Ignores u ((query view).bind k) w :=
  .past (Q := fun r w' => r = .ok (view w) ∧ w' = w) (.send rfl) ⟨rfl, rfl⟩ fun _ _ ⟨hr, hw⟩ => by
    cases hr
    exact hw ▸ h

theorem Ignores.wait (hpasses : p.Sends (fun l => l.passes u = true))
    (hk : ∀ a w', w'.now = w.now → Ignores u (k a) w') :
    Ignores u (p.bind k) w := by
  have hnow : (p.run Stmt.exec w).2.now = w.now :=
    Prog.Sends.run (R := fun w w' : World => w'.now = w.now) (fun _ => rfl)
      (fun _ _ _ h₁ h₂ => Eq.trans h₂ h₁)
      (fun l w w' hl hexec => by
        rw [(exec_effect hexec).now]
        cases l <;> first | rfl | cases hl) hpasses w
  refine .past (Q := fun _ w' => w'.now = w.now) (hpasses.mono fun l hl => ?_) hnow hk
  unfold Stmt.passes at hl
  split at hl
  · cases hl
  · simpa using hl

/-- A request that opens nothing for `u` and whose access tokens are for someone else. -/
theorem Ignores.of_sends {p : Req Reply} (hquiet : p.Sends (fun l => l.opensFor u = false))
    (hreturns : p.Returns (fun a => ∀ token, a.accessToken = some token → token.id ≠ u)) :
    Ignores u p w :=
  ⟨hquiet.sent w, fun _ token ha => hreturns.run ha token⟩

end Rules

section Blocked

variable {env : Env} {u id : Id} {w : World} {x : User}

theorem createChallenge_opens_other (hne : id ≠ u) :
    (createChallenge id).Sends (fun l => l.opensFor u = false) :=
  .bind (.send rfl) fun _ => .bind (.send rfl) fun _ => .bind (.send (by simp [Stmt.opensFor, hne]))
    fun _ => .ret

theorem createRefreshTokenRecord_opens_other (hne : id ≠ u) (client : ClientInfo) :
    (createRefreshTokenRecord env id client).Sends (fun l => l.opensFor u = false) :=
  .bind (.send rfl) fun _ => .bind (.send rfl) fun _ => .bind (.send (by simp [Stmt.opensFor, hne]))
    fun _ => .ret

theorem suspended_of_blocked {now : Time} (hblocked : ¬ x.Clear now) (hlive : x.live = true)
    (hbanned : ¬ x.banned = true) :
    x.suspendedAt now = true := by
  by_contra hsuspended
  exact hblocked (User.clear_iff.mpr ⟨hlive, by simpa using hbanned, by simpa using hsuspended⟩)

theorem session_returns {su : Option SafeUser} {email : String} {role : Role} {v : Nat}
    {t : RefreshJwt} {used : Bool} (hne : id ≠ u) :
    Prog.Returns (fun a : Reply => ∀ token, a.accessToken = some token → token.id ≠ u)
      ((signToken env id email role v).bind fun token => .ret (.session su token t none used)) :=
  signToken_returns fun token hid _ => by
    rintro _ ⟨⟩
    exact hid ▸ hne

theorem login_ignores (hx : w.users.get? u = some x) (hblocked : ¬ x.Clear w.now)
    (email password : String) (client : ClientInfo) :
    Ignores u (login env email password client) w := by
  unfold login
  refine .query_bind ?_
  split
  · exact .of_sends (.bind (.send rfl) fun _ => .throw) (.bind fun _ => trivial)
  rename_i id user hfound
  obtain ⟨hid, hmatch⟩ := Table.find?_some hfound
  have hlive : user.live = true := (Bool.and_eq_true_iff.mp hmatch).2
  refine .query_bind
    (.query_bind (.wait (when_sends (.send rfl)) fun _ w₁ h₁ => .wait ?_ fun valid w₂ h₂ => ?_))
  · unfold checkPassword
    split
    · exact .send rfl
    · exact .bind (.send rfl) fun _ => .ret
  split
  · refine .of_sends (.bind (when_sends (.bind (.send rfl) fun _ => when_sends ?_)) fun _ => .throw)
      (.bind fun _ => trivial)
    exact .bind (.send rfl) fun _ => .send rfl
  split
  · exact .throw
  rename_i hbanned
  refine .query_bind ?_
  split
  · exact .throw
  rename_i hsuspended
  have hne : id ≠ u := by
    rintro rfl
    cases hx.symm.trans hid
    rw [h₂, h₁] at hsuspended
    exact hsuspended (suspended_of_blocked hblocked hlive hbanned)
  split
  · exact .of_sends (.bind (createChallenge_opens_other hne) fun _ => .ret)
      (.bind fun _ => fun _ h => (by cases h))
  · refine .of_sends (.bind (createRefreshTokenRecord_opens_other hne client) fun _ =>
      .bind (.send rfl) fun _ =>
      .bind (.send rfl) fun _ => .bind (.bind (.send rfl) fun _ => .ret) fun _ => .ret) ?_
    exact .bind fun _ => .bind fun _ => .bind fun _ => session_returns hne

theorem refresh_ignores (hx : w.users.get? u = some x) (hblocked : ¬ x.Clear w.now)
    (token : RefreshJwt) (client : ClientInfo) : Ignores u (refresh env token client) w := by
  unfold refresh
  refine .query_bind ?_
  split
  · exact .throw
  refine .query_bind ?_
  split
  · exact .throw
  rename_i tokenId storedToken user hstored
  obtain ⟨_, _, hid⟩ := stored_found hstored
  split
  · exact .of_sends (.bind (.send rfl) fun _ => .throw) (.bind fun _ => trivial)
  refine .query_bind ?_
  split
  · exact .of_sends (.bind (.send rfl) fun _ => .throw) (.bind fun _ => trivial)
  split
  · exact .throw
  rename_i hlive
  split
  · exact .throw
  rename_i hbanned
  refine .query_bind ?_
  split
  · exact .throw
  rename_i hsuspended
  have hne : storedToken.userId ≠ u := by
    rintro rfl
    cases hx.symm.trans hid
    exact hsuspended (suspended_of_blocked hblocked (by simpa using hlive) hbanned)
  refine .of_sends (.bind (.send rfl) fun _ =>
    .bind (createRefreshTokenRecord_opens_other hne client) fun _ =>
    .bind (.bind (.send rfl) fun _ => .ret) fun _ => .ret) ?_
  exact .bind fun _ => .bind fun _ => session_returns hne

theorem verifyChallenge_ignores (hx : w.users.get? u = some x) (hblocked : ¬ x.Clear w.now)
    (challengeToken code : Nat) (client : ClientInfo) :
    Ignores u (verifyChallenge env challengeToken code client) w := by
  rw [verifyChallenge_eq]
  refine .query_bind ?_
  split
  · exact .throw
  rename_i challengeId stored user hfound
  obtain ⟨_, _, hid⟩ := challenge_found hfound
  refine whenAnswerable_rule (Q := fun p => Ignores u p w) (T := (· = w.now)) (fun _ => .throw)
    (fun _ => .of_sends (.bind (.send rfl) fun _ => .throw) (.bind fun _ => trivial))
    (fun k hk => .query_bind (hk w.now rfl)) fun h => ?_
  have hne : stored.userId ≠ u := by
    intro heq
    rw [heq] at hid
    cases hx.symm.trans hid
    obtain ⟨_, rfl, hsuspended⟩ := h.notSuspended
    have hblocked' := suspended_of_blocked hblocked h.live (by simp [h.notBanned])
    cases hsuspended.symm.trans hblocked'
  refine .of_sends (.bind (.send rfl) fun matched => ?_) (.bind fun matched => ?_)
  · split
    · exact .bind (.send rfl) fun _ => by split <;> exact .throw
    · refine .bind (.send rfl) fun claimed => ?_
      split
      · exact .throw
      · refine .bind ?_ fun _ => .bind (.send rfl) fun _ => .bind (.send rfl) fun _ =>
          .bind (createRefreshTokenRecord_opens_other hne client) fun _ =>
            .bind (.bind (.send rfl) fun _ => .ret) fun _ => .ret
        cases matched with
        | backup => exact .send rfl
        | _ => exact .ret
  · split
    · exact .bind fun _ => by split <;> trivial
    · refine .bind fun claimed => ?_
      split
      · trivial
      · exact .bind fun _ => .bind fun _ => .bind fun _ => .bind fun _ => session_returns hne

/-- The account an identity signs in to: `u` only as `u` stands, unless it is deleted. -/
theorem googleAccount_ends_blocked (hfresh : w.Fresh) (hx : w.users.get? u = some x) (s e : String)
    (name : Option String) :
    (googleAccount s e name).Ends Stmt.exec (fun r w' => w'.now = w.now ∧ ∀ user,
      r = .ok (u, user) →
      x.live = true ∧ user.banned = x.banned ∧ ∀ now,
      user.suspendedAt now = x.suspendedAt now) w := by
  have hread : ∀ {p : Id → User → Bool} {user : User}, (∀ k v, p k v = true → v.live = true) →
      w.users.find? p = some (u, user) → user = x ∧ x.live = true := by
    intro p user hp hfound
    obtain ⟨hu, hmatch⟩ := Table.find?_some hfound
    cases hx.symm.trans hu
    exact ⟨rfl, hp _ _ hmatch⟩
  simp only [googleAccount, findUserByEmail, Prog.bind_eq, ends_query_bind]
  split
  · rename_i r hlinked
    refine ⟨rfl, fun user heq => ?_⟩
    cases heq
    obtain ⟨rfl, hlive⟩ := hread (fun _ _ h => (Bool.and_eq_true_iff.mp h).2) hlinked
    exact ⟨hlive, rfl, fun _ => rfl⟩
  · rw [ends_query_bind]
    split
    · rename_i id user hemail
      split
      · exact ⟨rfl, fun _ heq => (by cases heq)⟩
      · simp only [saveUser, ends_send_bind]
        split
        · rename_i w₁ hexec
          refine ⟨(exec_effect hexec).now, fun user' heq => ?_⟩
          obtain ⟨hid, huser⟩ := Prod.mk.inj (Except.ok.inj heq)
          subst hid
          obtain ⟨rfl, hlive⟩ := hread (fun _ _ h => (Bool.and_eq_true_iff.mp h).2) hemail
          rw [← huser, hx]
          exact ⟨hlive, rfl, fun _ => rfl⟩
        · exact ⟨trivial, fun _ heq => (by cases heq)⟩
    · rw [Prog.tryCatch_eq, Prog.ends_tryCatch, send, Prog.ends_send]
      split
      · rename_i w₁ hexec
        refine ⟨(exec_effect hexec).now, fun user heq => ?_⟩
        -- a new account is not the one that was there
        cases heq
        exact absurd (hfresh.users _ _ hx) (Nat.lt_irrefl _)
      · rename_i err _
        show Prog.Ends Stmt.exec _ (if err = Err.prisma .P2002 then _ else _) w
        split
        · rw [ends_query_bind]
          split
          · rename_i r hfound
            refine ⟨rfl, fun user heq => ?_⟩
            cases heq
            obtain ⟨rfl, hlive⟩ := hread (fun _ _ h => (Bool.and_eq_true_iff.mp h).2) hfound
            exact ⟨hlive, rfl, fun _ => rfl⟩
          · exact ⟨rfl, fun _ heq => (by cases heq)⟩
        · exact ⟨rfl, fun _ heq => (by cases heq)⟩

theorem googleAccount_opens_none (s e : String) (name : Option String) :
    (googleAccount s e name).Sends (fun l => l.opensFor u = false) := by
  refine .bind (.send rfl) fun linked => ?_
  split
  · exact .ret
  · refine .bind (.send rfl) fun byEmail => ?_
    split
    · split
      · exact .throw
      · exact .bind (.send rfl) fun _ => .ret
    · refine .tryCatch (.send rfl) fun err => ?_
      split
      · refine .bind (.send rfl) fun found => ?_
        split
        · exact .ret
        · exact .throw
      · exact .throw

theorem googleLogin_ignores (hfresh : w.Fresh) (hx : w.users.get? u = some x)
    (hblocked : ¬ x.Clear w.now) (code state : String) (client : ClientInfo) :
    Ignores u (googleLogin env code state client) w := by
  unfold googleLogin
  split
  · exact .throw
  refine .query_bind ?_
  split
  · exact .throw
  split
  · exact .throw
  split
  · split
    · exact .throw
    refine .past (googleAccount_opens_none _ _ _) (googleAccount_ends_blocked hfresh hx _ _ _)
      fun account w₁ ⟨hnow, haccount⟩ => ?_
    obtain ⟨id, user⟩ := account
    dsimp only
    split
    · exact .throw
    rename_i hbanned
    refine .query_bind ?_
    split
    · exact .throw
    rename_i hsuspended
    have hne : id ≠ u := by
      rintro rfl
      obtain ⟨hlive, hsame, hsus⟩ := haccount user rfl
      rw [hsus, hnow] at hsuspended
      exact hsuspended (suspended_of_blocked hblocked hlive (hsame ▸ hbanned))
    split
    · exact .of_sends (.bind (createChallenge_opens_other hne) fun _ => .ret)
        (.bind fun _ => fun _ h => (by cases h))
    · refine .of_sends (.bind (.send rfl) fun _ => .bind (.send rfl) fun _ =>
        .bind (createRefreshTokenRecord_opens_other hne client) fun _ =>
        .bind (.bind (.send rfl) fun _ => .ret) fun _ => .ret) ?_
      exact .bind fun _ => .bind fun _ => .bind fun _ => session_returns hne
  · exact .throw

end Blocked

section Clear

variable {env : Env} {u : Id} {w : World} {x : User}

/-- The challenge of a login that waits for its second factor, and a code that is right. -/
structure ChallengeStands (env : Env) (w : World) (t code : Nat) (k : Id) (c : TwoFactorChallenge)
    (x : User) : Prop where
  stored : w.twoFactorChallenges.get? k = some c
  presented : c.token = hashToken t
  unused : c.used = false
  attempts : c.attempts < maxChallengeAttempts
  notExpired : w.now ≤ c.expiresAt
  matched : matchCode env x code w.now ≠ .invalid
  user : w.users.get? c.userId = some x
  clear : x.Clear w.now

theorem verifyChallenge_serves (hs : w.CredentialsSound) {t code : Nat} {k : Id}
    {c : TwoFactorChallenge} (h : ChallengeStands env w t code k c x) (client : ClientInfo) :
    Serves c.userId (verifyChallenge env t code client) w := by
  obtain ⟨hlive, hbanned, hsuspended⟩ := User.clear_iff.mp h.clear
  have hfound : w.twoFactorChallenges.find? (fun _ c => c.token == hashToken t) = some (k, c) :=
    Table.find?_unique h.stored (by simp [h.presented]) fun k' c' hk' hc' =>
      hs.challenges.unique k' k c' c hk' h.stored (by simpa [h.presented] using hc')
  unfold verifyChallenge
  refine .query_bind ?_
  simp only [hfound, Option.bind_some, h.user, Option.map_some, h.unused,
    Bool.false_eq_true, if_false, Nat.not_le.mpr h.attempts]
  refine .query_bind ?_
  simp only [Nat.not_lt.mpr h.notExpired, if_false, hlive, Bool.not_true,
    Bool.false_eq_true, hbanned]
  refine .query_bind ?_
  rw [if_neg (by simp [hsuspended])]
  have hready := World.Ready.of_row hs h.user
  refine .past (Q := fun matched w' => matched = matchCode env x code w.now ∧ w' = w)
    ⟨_, rfl, rfl, rfl⟩
    fun matched w₁ hchecked => ?_
  obtain ⟨rfl, rfl⟩ := hchecked
  rw [if_neg h.matched]
  refine .past (Q := fun claimed w₂ => claimed = true ∧ w₂.Ready c.userId w₁.now) ⟨_, rfl, ?_, ?_⟩
    fun claimed w₂ hclaimed => ?_
  · simp [h.stored, h.unused]
  · exact hready.exec (l := .challengeClaim k) rfl rfl rfl Stmt.noConfusion rfl
  obtain ⟨rfl, h₂⟩ := hclaimed
  rw [if_neg (by simp)]
  unfold completeChallenge
  refine .past (Q := fun _ w' => w'.Ready c.userId w₁.now) ?_ fun _ w₃ h₃ => .query_bind ?_
  · unfold consumeBackupCode
    split
    · exact touch_ready h₂ (fun _ _ => rfl) rfl
    · exact ⟨_, rfl, h₂⟩
  refine .past (touch_ready h₃ (fun _ _ => rfl) rfl) fun _ w₄ h₄ => ?_
  exact record_serves h₄ client fun _ _ _ _ => session_serves _ _ _ _ _ _

theorem googleLogin_serves (hs : w.CredentialsSound) {code state : String} {payload : GooglePayload}
    {s e : String} (hconfigured : env.googleConfigured = true)
    (hstate : env.verifyOAuthState state w.now = true)
    (hexchange : env.googleExchange code = some payload) (hsub : payload.sub = some s)
    (hemail : payload.email = some e) (hverified : payload.emailVerified = true)
    (hx : w.users.get? u = some x) (hlinked : x.googleId = some s) (hclear : x.Clear w.now)
    (client : ClientInfo) : Serves u (googleLogin env code state client) w := by
  obtain ⟨hlive, hbanned, hsuspended⟩ := User.clear_iff.mp hclear
  have hfound : w.users.find? (fun _ u => u.googleId == some s && u.live) = some (u, x) := by
    refine Table.find?_unique hx (by simp [hlinked, hlive]) fun k v hk hv => ?_
    simp only [Bool.and_eq_true, beq_iff_eq] at hv
    by_contra hne
    have hclash := hs.unclashed k u v x hk hx hne
    simp [User.clash, hv.1, hv.2, hlinked, hlive] at hclash
  unfold googleLogin
  rw [if_neg (by simp [hconfigured])]
  refine .query_bind ?_
  rw [if_neg (by simp [hstate])]
  simp only [hexchange, hsub, hemail, hverified, Bool.not_true, Bool.false_eq_true, if_false]
  refine .past (Q := fun account w' => account = (u, x) ∧ w' = w) ?_ fun account w₁ haccount => ?_
  · simp only [googleAccount, Prog.bind_eq, ends_query_bind, hfound]
    exact ⟨_, rfl, rfl, rfl⟩
  obtain ⟨rfl, rfl⟩ := haccount
  dsimp only
  rw [if_neg (by simp [hbanned])]
  refine .query_bind ?_
  rw [if_neg (by simp [hsuspended])]
  have hready := World.Ready.of_row hs hx
  split
  · exact challenge_serves hready
  · refine .query_bind (.past (touch_ready hready (fun _ _ => rfl) rfl) fun _ w₂ h₂ => ?_)
    exact record_serves h₂ client fun _ _ _ _ => session_serves _ _ _ _ _ _

end Clear

def World.KeysUnique (w : World) : Prop :=
  ∀ k k' a a', w.apiKeys.get? k = some a → w.apiKeys.get? k' = some a' →
    a.keyHash = a'.keyHash → k = k'

section Guards

variable {u : Id} {w : World} {x : User}

def Authenticates (u : Id) (token : AccessToken) (w : World) : Prop :=
  (authenticate (.bearer token)).Ends Stmt.exec
    (fun r _ => ∃ caller, r = .ok caller ∧ caller.id = u) w

theorem authenticates_iff {token : AccessToken} :
    Authenticates u token w ↔ token.id = u ∧ ∃ x, AccessStands w token x := by
  rw [← accepts_iff]
  have hid : (authenticate (.bearer token)).Returns (fun caller => caller.id = token.id) := by
    refine .bind fun now => ?_
    split
    · trivial
    refine .bind fun found => ?_
    split
    · trivial
    split
    · trivial
    split
    · trivial
    refine .bind fun now => ?_
    split
    · trivial
    · rfl
  constructor
  · rintro ⟨caller, hr, rfl⟩
    exact ⟨(hid.run hr).symm, caller, hr⟩
  · rintro ⟨rfl, caller, hr⟩
    exact ⟨caller, hr, hid.run hr⟩

def Verifies (u : Id) (rawKey : Nat) (w : World) : Prop :=
  (verifyApiKey rawKey).Ends Stmt.exec
    (fun r _ => ∃ key caller, r = .ok (some (key, caller)) ∧ caller.id = u) w

structure KeyStands (u : Id) (w : World) (rawKey : Nat) (k : Id) (a : ApiKey) : Prop where
  stored : w.apiKeys.get? k = some a
  presented : a.keyHash = hashToken rawKey
  user : a.userId = u
  notDeleted : a.deletedAt = none
  notRevoked : a.revokedAt = none
  notExpired : ∀ t, a.expiresAt = some t → w.now < t

theorem touchApiKey_ends (id : Id) (lastUsedAt : Option Time) :
    (touchApiKey id lastUsedAt).Ends Stmt.exec (fun r _ => r = .ok ()) w := by
  simp only [touchApiKey, Prog.bind_eq, ends_date_bind]
  unfold when
  split <;> rfl

theorem keyHolder_found {rawKey : Nat} {k : Id} {a : ApiKey} {user : User}
    (h : w.keyHolder rawKey = some (k, a, user)) :
    w.apiKeys.get? k = some a ∧ a.keyHash = hashToken rawKey ∧ a.deletedAt = none ∧
      w.users.get? a.userId = some user := by
  obtain ⟨⟨k', a'⟩, hfound, hjoin⟩ := Option.bind_eq_some_iff.mp h
  obtain ⟨user', huser, heq⟩ := Option.map_eq_some_iff.mp hjoin
  cases heq
  obtain ⟨hk, hmatch⟩ := Table.find?_some hfound
  simp only [Bool.and_eq_true, beq_iff_eq, Option.isNone_iff_eq_none] at hmatch
  exact ⟨hk, hmatch.1, hmatch.2, huser⟩

structure KeyGood (a : ApiKey) (x : User) (now : Time) : Prop where
  notRevoked : a.revokedAt = none
  notExpired : ∀ t, a.expiresAt = some t → now < t
  clear : x.Clear now

theorem verifyApiKey_ends (rawKey : Nat) :
    (verifyApiKey rawKey).Ends Stmt.exec (fun r _ => ∃ found, r = .ok found ∧ ∀ key caller,
      found = some (key, caller) ↔
      ∃ k a user, w.keyHolder rawKey = some (k, a, user) ∧ KeyGood a user w.now ∧
      key = ⟨k, a.scopes⟩ ∧
        caller = { id := a.userId, email := user.email, role := user.role }) w := by
  unfold verifyApiKey
  rw [Prog.bind_eq, ends_query_bind]
  cases hfound : w.keyHolder rawKey with
  | none =>
    exact ⟨none, rfl, fun _ _ => ⟨fun h => (by cases h), fun ⟨_, _, _, h, _⟩ => (by cases h)⟩⟩
  | some row =>
    obtain ⟨k, a, user⟩ := row
    have hrefused : ∀ {w' : World}, ¬ KeyGood a user w.now →
      (Prog.ret none : Req (Option (KeyContext × Caller))).Ends Stmt.exec
        (fun r _ => ∃ found, r = .ok found ∧ ∀ key caller, found = some (key, caller) ↔
          ∃ k' a' user', some (k, a, user) = some (k', a', user') ∧ KeyGood a' user' w.now ∧
          key = ⟨k', a'.scopes⟩ ∧
            caller = { id := a'.userId, email := user'.email, role := user'.role }) w' := by
      intro w' hbad
      refine ⟨none, rfl, fun _ _ => ⟨fun h => (by cases h), ?_⟩⟩
      rintro ⟨k', a', user', heq, hgood, -⟩
      cases heq
      exact absurd hgood hbad
    dsimp only
    split
    · rename_i hrevoked
      exact hrefused fun h => by simp [h.notRevoked] at hrevoked
    rename_i hrevoked
    rw [Prog.bind_eq, ends_date_bind]
    split
    · rename_i hexpired
      refine hrefused fun h => ?_
      cases ht : a.expiresAt with
      | none => simp [ht] at hexpired
      | some t => exact absurd (h.notExpired t ht) (Nat.not_lt.mpr (by simpa [ht] using hexpired))
    rename_i hexpired
    split
    · rename_i hblocked
      refine hrefused fun h => ?_
      obtain ⟨hlive, hbanned, _⟩ := User.clear_iff.mp h.clear
      simp [hlive, hbanned] at hblocked
    rename_i hopen
    rw [Prog.bind_eq, ends_date_bind]
    split
    · rename_i hsuspended
      refine hrefused fun h => ?_
      rw [(User.clear_iff.mp h.clear).2.2] at hsuspended
      cases hsuspended
    rename_i hsuspended
    have hgood : KeyGood a user w.now := by
      refine ⟨by simpa using hrevoked, fun t ht => ?_, User.clear_iff.mpr ?_⟩
      · simpa [ht] using hexpired
      · simp only [Bool.or_eq_true, Bool.not_eq_true', not_or, Bool.not_eq_true,
          Bool.not_eq_false] at hopen
        exact ⟨hopen.2, hopen.1, by simpa using hsuspended⟩
    refine Ends.bind (touchApiKey_ends k a.lastUsedAt) (fun _ w₁ _ => ?_) fun _ _ h => (by cases h)
    refine ⟨_, rfl, fun key caller => ⟨fun h => ?_, ?_⟩⟩
    · cases h
      exact ⟨k, a, user, rfl, hgood, rfl, rfl⟩
    · rintro ⟨k', a', user', heq, _, rfl, rfl⟩
      cases heq
      rfl

theorem verifies_iff {rawKey : Nat} : Verifies u rawKey w ↔
    ∃ k a user, w.keyHolder rawKey = some (k, a, user) ∧ KeyGood a user w.now ∧ a.userId = u := by
  obtain ⟨found, hr, hiff⟩ : (verifyApiKey rawKey).Ends Stmt.exec _ w := verifyApiKey_ends rawKey
  constructor
  · rintro ⟨key, caller, hr', hid⟩
    rw [hr] at hr'
    obtain ⟨k, a, user, hfound, hgood, _, rfl⟩ := (hiff key caller).mp (Except.ok.inj hr')
    exact ⟨k, a, user, hfound, hgood, hid⟩
  · rintro ⟨k, a, user, hfound, hgood, hid⟩
    exact ⟨_, _, hr.trans (congrArg _ ((hiff _ _).mpr ⟨k, a, user, hfound, hgood, rfl, rfl⟩)), hid⟩

theorem Verifies.clear (hx : w.users.get? u = some x) {rawKey : Nat} (h : Verifies u rawKey w) :
    x.Clear w.now := by
  obtain ⟨k, a, user, hfound, hgood, rfl⟩ := verifies_iff.mp h
  cases hx.symm.trans (keyHolder_found hfound).2.2.2
  exact hgood.clear

theorem keyHolder_unique (hkeys : w.KeysUnique) {rawKey : Nat} {k : Id} {a : ApiKey}
    (hk : w.apiKeys.get? k = some a) (hpresented : a.keyHash = hashToken rawKey)
    (hdeleted : a.deletedAt = none) (hx : w.users.get? a.userId = some x) :
    w.keyHolder rawKey = some (k, a, x) := by
  have hrow : w.apiKeys.find? (fun _ k => k.keyHash == hashToken rawKey && k.deletedAt.isNone) =
      some (k, a) :=
    Table.find?_unique hk (by simp [hpresented, hdeleted]) fun k' a' hk' ha' =>
      hkeys k' k a' a hk' hk (by
        rw [hpresented]
        exact beq_iff_eq.mp (Bool.and_eq_true_iff.mp ha').1)
  simp [World.keyHolder, hrow, hx]

theorem KeyStands.verifies (hkeys : w.KeysUnique) {rawKey : Nat} {k : Id} {a : ApiKey}
    (h : KeyStands u w rawKey k a) (hx : w.users.get? u = some x) (hclear : x.Clear w.now) :
    Verifies u rawKey w :=
  verifies_iff.mpr ⟨k, a, x, keyHolder_unique hkeys h.stored h.presented h.notDeleted (h.user ▸ hx),
    ⟨h.notRevoked, h.notExpired, hclear⟩, h.user⟩

end Guards

inductive Gate where
  | login (email password : String) (client : ClientInfo)
  | googleLogin (code state : String) (client : ClientInfo)
  | refresh (token : RefreshJwt) (client : ClientInfo)
  | verifyChallenge (challengeToken code : Nat) (client : ClientInfo)
  | authenticate (token : AccessToken)
  | verifyApiKey (rawKey : Nat)

/-- The credential is good for the row `x` of user `u`, whatever becomes of the account. -/
def Gate.Valid (env : Env) (w : World) (u : Id) (x : User) : Gate → Prop
  | .login email password _ => x.email = normalizeEmail env email ∧
      x.lockedUntil.any (fun t => decide (w.now < t)) = false ∧
        ∃ hash, x.password = some hash ∧ env.bcryptCompare password hash = true
  | .googleLogin code state _ =>
      env.googleConfigured = true ∧ env.verifyOAuthState state w.now = true ∧
      ∃ payload s e, env.googleExchange code = some payload ∧ payload.sub = some s ∧
      payload.email = some e ∧ payload.emailVerified = true ∧ x.googleId = some s
  | .refresh token _ => token.expired w.now = false ∧ ∃ k t, w.refreshTokens.get? k = some t ∧
      t.token = hashToken token ∧ t.userId = u ∧ t.revoked = false ∧ w.now ≤ t.expiresAt
  | .verifyChallenge t code _ =>
      ∃ k c, w.twoFactorChallenges.get? k = some c ∧ c.token = hashToken t ∧ c.userId = u ∧
      c.used = false ∧ c.attempts < maxChallengeAttempts ∧ w.now ≤ c.expiresAt ∧
      matchCode env x code w.now ≠ .invalid
  | .authenticate token =>
      token.expired w.now = false ∧ token.id = u ∧ token.tokenVersion = x.tokenVersion
  | .verifyApiKey rawKey => ∃ k a, KeyStands u w rawKey k a

def Gate.Admits (env : Env) (w : World) (u : Id) : Gate → Prop
  | .login email password client => Serves u (SaasBackend.login env email password client) w
  | .googleLogin code state client => Serves u (SaasBackend.googleLogin env code state client) w
  | .refresh token client => Serves u (SaasBackend.refresh env token client) w
  | .verifyChallenge challengeToken code client =>
      Serves u (SaasBackend.verifyChallenge env challengeToken code client) w
  | .authenticate token => Authenticates u token w
  | .verifyApiKey rawKey => Verifies u rawKey w

def Gate.AdmitsNothing (env : Env) (w : World) (u : Id) : Gate → Prop
  | .login email password client => Ignores u (SaasBackend.login env email password client) w
  | .googleLogin code state client => Ignores u (SaasBackend.googleLogin env code state client) w
  | .refresh token client => Ignores u (SaasBackend.refresh env token client) w
  | .verifyChallenge challengeToken code client =>
      Ignores u (SaasBackend.verifyChallenge env challengeToken code client) w
  | .authenticate token => ¬ Authenticates u token w
  | .verifyApiKey rawKey => ¬ Verifies u rawKey w

section Agreement

variable {env : Env} {w : World} {u : Id} {x : User}

theorem Gate.admits_of_clear (hs : w.CredentialsSound) (hkeys : w.KeysUnique)
    (hx : w.users.get? u = some x) {g : Gate} (hvalid : g.Valid env w u x)
    (hclear : x.Clear w.now) : g.Admits env w u := by
  obtain ⟨hlive, hbanned, hsuspended⟩ := User.clear_iff.mp hclear
  cases g with
  | login email password client =>
    obtain ⟨hemail, hlocked, hmatched⟩ := hvalid
    exact login_serves hs ⟨hx, hlive, hemail, hmatched, hlocked, hbanned, hsuspended⟩ client
  | googleLogin code state client =>
    obtain ⟨hconfigured, hstate, payload, s, e, hexchange, hsub, hemail, hverified, hlinked⟩ :=
      hvalid
    exact googleLogin_serves hs hconfigured hstate hexchange hsub hemail hverified hx hlinked
      hclear client
  | refresh token client =>
    obtain ⟨hunexpired, k, t, hk, htoken, rfl, hrevoked, hexpires⟩ := hvalid
    exact refresh_serves hs ⟨hunexpired, hk, htoken, hrevoked, hexpires, hx, hlive, hbanned,
      hsuspended⟩ client
  | verifyChallenge t code client =>
    obtain ⟨k, c, hk, htoken, rfl, hused, hattempts, hexpires, hmatched⟩ := hvalid
    exact verifyChallenge_serves hs ⟨hk, htoken, hused, hattempts, hexpires, hmatched, hx,
      hclear⟩ client
  | authenticate token =>
    obtain ⟨hunexpired, rfl, hversion⟩ := hvalid
    exact authenticates_iff.mpr ⟨rfl, x, hunexpired, hx, hlive, hversion, hbanned, hsuspended⟩
  | verifyApiKey rawKey =>
    obtain ⟨k, a, hkey⟩ := hvalid
    exact hkey.verifies hkeys hx hclear

theorem Gate.admits_nothing (hfresh : w.Fresh) (hx : w.users.get? u = some x)
    (hblocked : ¬ x.Clear w.now) (g : Gate) :
    g.AdmitsNothing env w u := by
  cases g with
  | login email password client => exact login_ignores hx hblocked email password client
  | googleLogin code state client => exact googleLogin_ignores hfresh hx hblocked code state client
  | refresh token client => exact refresh_ignores hx hblocked token client
  | verifyChallenge t code client => exact verifyChallenge_ignores hx hblocked t code client
  | authenticate token =>
    intro hadmits
    obtain ⟨rfl, y, hy⟩ := authenticates_iff.mp hadmits
    cases hx.symm.trans hy.user
    exact hblocked (User.clear_iff.mpr ⟨hy.live, hy.notBanned, hy.notSuspended⟩)
  | verifyApiKey rawKey => exact fun hadmits => hblocked (hadmits.clear hx)

theorem Gate.AdmitsNothing.not_admits {g : Gate} (h : g.AdmitsNothing env w u) :
    ¬ g.Admits env w u := by
  cases g with
  | authenticate | verifyApiKey => exact h
  | login | googleLogin | refresh | verifyChallenge => exact Ignores.not_serves h

end Agreement

/-- All six gates decide over an account alike. Whatever is presented, nothing is handed out
for an account that is deleted, banned or suspended beyond now; a credential that is good for
the account is taken in every other case, also at the instant the suspension ends. -/
theorem gates_agree (env : Env) {w : World} (hs : w.CredentialsSound) (hkeys : w.KeysUnique)
    {u : Id} {x : User} (hx : w.users.get? u = some x) (g : Gate) :
    (¬ x.Clear w.now → g.AdmitsNothing env w u) ∧
    (g.Valid env w u x → (g.Admits env w u ↔ x.Clear w.now)) ∧
    (g.Valid env w u x → x.suspendedUntil = some w.now →
      (g.Admits env w u ↔ x.deletedAt = none ∧ x.banned = false)) := by
  have hnothing : ¬ x.Clear w.now → g.AdmitsNothing env w u :=
    fun hblocked => g.admits_nothing hs.fresh hx hblocked
  have hiff : g.Valid env w u x → (g.Admits env w u ↔ x.Clear w.now) := fun hvalid =>
    ⟨fun hadmits => by_contra fun hblocked => (hnothing hblocked).not_admits hadmits,
      Gate.admits_of_clear hs hkeys hx hvalid⟩
  refine ⟨hnothing, hiff, fun hvalid hsuspended =>
    (hiff hvalid).trans ⟨fun h => ⟨h.notDeleted, h.notBanned⟩, ?_⟩⟩
  rintro ⟨hdeleted, hbanned⟩
  refine ⟨hdeleted, hbanned, fun t ht => ?_⟩
  rw [hsuspended] at ht
  exact Nat.le_of_eq (Option.some.inj ht).symm

section Sample

def suspendedNow : World :=
  { users := Table.insert ∅ 1
      { email := "a@x.io", password := some "pw", suspendedUntil := some 30 }
    now := 30
    nonce := 2 }

theorem suspendedNow_sound : suspendedNow.CredentialsSound := by
  have hrow : ∀ {k x}, suspendedNow.users.get? k = some x → k = 1 := fun hk =>
    (Table.get?_insert_cases hk).elim (fun h => (by cases h)) fun h => h.1
  refine ⟨⟨fun k x hk => ?_, fun _ _ hk => (by cases hk)⟩, fun i j _ _ hi hj hne => ?_,
    fun _ _ _ _ hk => (by cases hk), fun _ _ hk => (by cases hk),
    ⟨fun _ _ hk => (by cases hk), fun _ _ hk => (by cases hk), fun _ _ _ _ hk => (by cases hk)⟩⟩
  · rw [hrow hk]
    exact Nat.lt_succ_self 1
  · exact absurd ((hrow hi).trans (hrow hj).symm) hne

theorem gates_agree_suspended : Gate.Admits sampleEnv suspendedNow 1 (.login "a@x.io" "pw" {}) :=
  ((gates_agree sampleEnv suspendedNow_sound (fun _ _ _ _ hk => (by cases hk)) (u := 1) rfl
    (.login "a@x.io" "pw" {})).2.2 ⟨rfl, rfl, "pw", rfl, rfl⟩ rfl).mpr ⟨rfl, rfl⟩

end Sample

end SaasBackend
