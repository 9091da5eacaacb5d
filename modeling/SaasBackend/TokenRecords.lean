import SaasBackend.Footprints
import SaasBackend.HandlerPairs
import SaasBackend.KillSwitch

set_option autoImplicit false

namespace SaasBackend
open Keyed Handler

def SessionRequest.createsNone : World → SessionRequest → Prop
  | _, .other p _ => Within [.routine, .kill, .tenant, .membership] p
  | _, _ => True

def Stmt.storesToken : Stmt → Bool
  | .refreshTokenCreate _ => true
  | _ => false

/-- Kept by every statement that stores no refresh token, and by the one helper that does. -/
structure RecordRule (env : Env) (Inv : World → Prop) : Prop where
  exec : ∀ (l : Stmt) (w w' : World), l.storesToken = false → l.exec w = .ok w' → Inv w → Inv w'
  record : ∀ userId client, (createRefreshTokenRecord env userId client).Maintains Stmt.exec Inv

def World.newToken (env : Env) (w : World) (userId : Id) : RefreshJwt :=
  { sub := userId, jti := w.nonce, exp := w.now / 1000 + env.jwtRefreshExpiresInMs / 1000 }

/-- The rows after `createRefreshTokenRecord`: those of before, and at most the one it stores. -/
structure Recorded (env : Env) (userId : Id) (w w' : World) : Prop where
  nonce : w.nonce < w'.nonce
  now : w'.now = w.now
  users : w'.users = w.users
  rows : ∀ k t, w'.refreshTokens.get? k = some t → w.refreshTokens.get? k = some t ∨
    (t.token = hashToken (w.newToken env userId) ∧ t.userId = userId ∧ t.revoked = false ∧
      t.expiresAt = w.now + env.refreshTokenTtlMs ∧ t.createdAt = w.now ∧ t.updatedAt = w.now)

theorem createRefreshTokenRecord_recorded (env : Env) (userId : Id) (client : ClientInfo)
    (w : World) :
    (createRefreshTokenRecord env userId client).Ends Stmt.exec
      (fun _ w' => Recorded env userId w w') w := by
  simp only [createRefreshTokenRecord, Prog.bind_eq, ends_randomBytes_bind, ends_date_bind,
    ends_execute_bind]
  split
  · rename_i w' hexec
    have heff := exec_effect hexec
    have hnonce : w'.nonce = w.nonce + 1 + 1 := heff.nonce
    show Recorded env userId w w'
    refine ⟨by omega, heff.now, heff.users, fun k t hk => ?_⟩
    rw [heff.refreshTokens] at hk
    rcases Table.get?_insert_cases hk with hold | ⟨_, rfl⟩
    · exact .inl hold
    · exact .inr ⟨rfl, rfl, rfl, rfl, rfl, rfl⟩
  · exact ⟨Nat.lt_succ_self _, rfl, rfl, fun _ _ hk => .inl hk⟩

theorem RecordRule.of_recorded {env : Env} {Inv : World → Prop}
    (hexec : ∀ (l : Stmt) (w w' : World), l.storesToken = false → l.exec w = .ok w' →
      Inv w → Inv w')
    (hrecorded : ∀ userId w w', Recorded env userId w w' → Inv w → Inv w') : RecordRule env Inv :=
  ⟨hexec, fun userId client w hw =>
    (createRefreshTokenRecord_recorded env userId client w).weaken fun _ _ h =>
    hrecorded userId w _ h hw⟩

/-- Statements that go through or fail whatever the refresh tokens are. -/
def Stmt.tokenBlind : Stmt → Bool
  | .read | .random | .bcryptCompare _ | .codeCheck _ | .userCreate _ | .userUpdate ..
  | .killSessions ..
  | .reuseDetected _ | .refreshTokenRevokeByToken .. | .refreshTokenRevokeAll _ | .challengeCreate _
  | .challengeDelete _ | .challengeAttempt _ | .challengeClaim _ | .enqueue _ | .tick _ => true
  | _ => false

/-- Two stores that differ in their refresh tokens at most; a relation that such statements
keep, and the one helper that stores a token. -/
structure PairRule (env : Env) (R : World → World → Prop) : Prop where
  rest : ∀ w w', R w w' → ∃ tokens, w' = { w with refreshTokens := tokens }
  exec : ∀ l : Stmt, l.tokenBlind = true → ∀ w w', R w w' →
    (∃ e, l.exec w = .error e ∧ l.exec w' = .error e) ∨
    ∃ t t', l.exec w = .ok t ∧ l.exec w' = .ok t' ∧ R t t'
  record : ∀ userId client, (createRefreshTokenRecord env userId client).Paired Stmt.exec R

section Pairs

variable {α : Type} {env : Env} {R : World → World → Prop}

theorem paired_when {c : Bool} {p : Req Unit} (hp : p.Paired Stmt.exec R) :
    (when c p).Paired Stmt.exec R := by
  cases c
  · exact .ret
  · exact hp

variable (hR : PairRule env R)
include hR

theorem PairRule.send {l : Stmt} {view : World → α} (hl : l.tokenBlind = true)
    (hview : ∀ w tokens, view { w with refreshTokens := tokens } = view w := by intros; rfl) :
    (Prog.send l view : Req α).Paired Stmt.exec R := by
  refine .send (fun w w' h => ?_) (hR.exec l hl)
  obtain ⟨tokens, rfl⟩ := hR.rest w w' h
  exact (hview w tokens).symm

theorem PairRule.signToken_pairs (id : Id) (email : String) (role : Role) (v : Nat) :
    (signToken env id email role v).Paired Stmt.exec R := .bind (hR.send rfl) fun _ => .ret

theorem PairRule.createChallenge_pairs (id : Id) : (createChallenge id).Paired Stmt.exec R :=
  .bind (hR.send rfl) fun _ => .bind (hR.send rfl) fun _ => .bind (hR.send rfl) fun _ => .ret

theorem PairRule.register_pairs (name email password : String) (client : ClientInfo) :
    (register env name email password client).Paired Stmt.exec R := by
  refine .bind (hR.send rfl) fun existing => ?_
  split
  · exact .throw
  · refine .bind (hR.send rfl) fun emailVerificationToken => .bind (hR.send rfl) fun now => ?_
    refine .bind (.tryCatch (hR.send rfl) fun err => ?_) fun created => ?_
    · split <;> exact .throw
    · exact .bind (hR.record _ _) fun _ => .bind (hR.send rfl) fun _ =>
        .bind (hR.signToken_pairs _ _ _ _) fun _ => .ret

theorem PairRule.login_pairs (email password : String) (client : ClientInfo) :
    (login env email password client).Paired Stmt.exec R := by
  refine .bind (hR.send rfl) fun found => ?_
  split
  · exact .bind (hR.send rfl) fun _ => .throw
  · refine .bind (hR.send rfl) fun _ => .bind (hR.send rfl) fun _ => ?_
    refine .bind (paired_when (hR.send rfl)) fun _ => .bind ?_ fun valid => ?_
    · unfold checkPassword
      split
      · exact hR.send rfl
      · exact .bind (hR.send rfl) fun _ => .ret
    · split
      · refine .bind (paired_when ?_) fun _ => .throw
        exact .bind (hR.send rfl) fun _ => paired_when (.bind (hR.send rfl) fun _ => hR.send rfl)
      · split
        · exact .throw
        · refine .bind (hR.send rfl) fun now => ?_
          split
          · exact .throw
          · split
            · exact .bind (hR.createChallenge_pairs _) fun _ => .ret
            · refine .bind (hR.record _ _) fun _ => .bind (hR.send rfl) fun _ => ?_
              exact .bind (hR.send rfl) fun _ => .bind (hR.signToken_pairs _ _ _ _) fun _ => .ret

theorem PairRule.googleAccount_pairs (googleId normalizedEmail : String) (name : Option String) :
    (googleAccount googleId normalizedEmail name).Paired Stmt.exec R := by
  refine .bind (hR.send rfl) fun linked => ?_
  split
  · exact .ret
  · refine .bind (hR.send rfl) fun byEmail => ?_
    split
    · split
      · exact .throw
      · exact .bind (hR.send rfl) fun _ => .ret
    · refine .tryCatch (hR.send rfl) fun err => ?_
      split
      · refine .bind (hR.send rfl) fun found => ?_
        split
        · exact .ret
        · exact .throw
      · exact .throw

theorem PairRule.googleLogin_pairs (code state : String) (client : ClientInfo) :
    (googleLogin env code state client).Paired Stmt.exec R := by
  unfold googleLogin
  split
  · exact .throw
  · refine .bind (hR.send rfl) fun now => ?_
    split
    · exact .throw
    · split
      · exact .throw
      · split
        · split
          · exact .throw
          · refine .bind (hR.googleAccount_pairs _ _ _) fun account => ?_
            obtain ⟨id, user⟩ := account
            simp only []
            split
            · exact .throw
            · refine .bind (hR.send rfl) fun now => ?_
              split
              · exact .throw
              · split
                · exact .bind (hR.createChallenge_pairs id) fun _ => .ret
                · refine .bind (hR.send rfl) fun _ => .bind (hR.send rfl) fun _ => ?_
                  refine .bind (hR.record id client) fun _ => ?_
                  exact .bind (hR.signToken_pairs _ _ _ _) fun _ => .ret
        · exact .throw

theorem PairRule.completeChallenge_pairs (id : Id) (user : User) (matched : CodeMatch)
    (client : ClientInfo) :
    (completeChallenge env id user matched client).Paired Stmt.exec R := by
  refine .bind ?_ fun _ => .bind (hR.send rfl) fun _ => .bind (hR.send rfl) fun _ =>
    .bind (hR.record _ _) fun _ => .bind (hR.signToken_pairs _ _ _ _) fun _ => .ret
  cases matched with
  | backup hashed => exact hR.send rfl
  | totp timeStep => exact .ret
  | invalid => exact .ret

theorem PairRule.verifyChallenge_pairs (challengeToken code : Nat) (client : ClientInfo) :
    (verifyChallenge env challengeToken code client).Paired Stmt.exec R := by
  rw [verifyChallenge_eq]
  refine .bind (hR.send rfl) fun found => ?_
  split
  · exact .throw
  refine whenAnswerable_rule (Q := fun p => p.Paired Stmt.exec R) (fun _ => .throw)
    (fun _ => .bind (hR.send rfl) fun _ => .throw) (fun k hk => .bind (hR.send rfl) fun now =>
      hk now trivial) fun _ => ?_
  refine .bind (hR.send rfl) fun matched => ?_
  split
  · refine .bind (hR.send rfl) fun attempts => ?_
    split <;> exact .throw
  · refine .bind (hR.send rfl) fun claimed => ?_
    split
    · exact .throw
    · exact hR.completeChallenge_pairs _ _ _ _

end Pairs

section Rule

variable {α : Type} {env : Env} {Inv : World → Prop} (hI : RecordRule env Inv)
include hI

theorem RecordRule.within {p : Req α} {areas : List Area} (hp : Within areas p)
    (hareas : areas ⊆ [.routine, .kill, .challenge, .tenant, .membership]) :
    p.Maintains Stmt.exec Inv := by
  refine Prog.Maintains.of_sends (hp.mono hareas) fun l w w' hl hexec hw =>
    hI.exec l w w' ?_ hexec hw
  cases l <;> first | rfl | cases hl

theorem RecordRule.send {l : Stmt} {view : World → α} (hl : l.storesToken = false) :
    (Prog.send l view : Req α).Maintains Stmt.exec Inv :=
  Prog.Maintains.of_sends (.send hl) fun l w w' hl hexec hw => hI.exec l w w' hl hexec hw

theorem RecordRule.pairs : PairRule env (fun w w' => w' = w ∧ Inv w) := by
  refine ⟨?_, ?_, fun userId client => (hI.record userId client).paired⟩
  · rintro _ w ⟨rfl, _⟩
    exact ⟨w.refreshTokens, rfl⟩
  · rintro l hl _ w ⟨rfl, hw⟩
    cases hexec : l.exec w with
    | error e => exact .inl ⟨e, rfl, rfl⟩
    | ok w' =>
      exact .inr ⟨w', w', rfl, rfl, rfl,
        hI.exec l w w' (by cases l <;> first | rfl | cases hl) hexec hw⟩

theorem RecordRule.signToken_keeps (id : Id) (email : String) (role : Role) (v : Nat) :
    (signToken env id email role v).Maintains Stmt.exec Inv :=
      (hI.pairs.signToken_pairs id email role v).maintains

theorem RecordRule.refresh_keeps (token : RefreshJwt) (client : ClientInfo) :
    (refresh env token client).Maintains Stmt.exec Inv := by
  refine .bind (hI.send rfl) fun now => ?_
  split
  · exact .throw
  · refine .bind (hI.send rfl) fun stored => ?_
    split
    · exact .throw
    · split
      · exact .bind (hI.send rfl) fun _ => .throw
      · refine .bind (hI.send rfl) fun now => ?_
        split
        · exact .bind (hI.send rfl) fun _ => .throw
        · split
          · exact .throw
          · split
            · exact .throw
            · refine .bind (hI.send rfl) fun now => ?_
              split
              · exact .throw
              · refine .bind (hI.send rfl) fun _ => ?_
                refine .bind (hI.record _ _) fun _ => ?_
                exact .bind (hI.signToken_keeps _ _ _ _) fun _ => .ret

theorem RecordRule.request_keeps (r : SessionRequest) {w : World} (hr : r.createsNone w) :
    (r.prog env).Maintains Stmt.exec Inv := by
  cases r with
  | register name email password client =>
    exact (hI.pairs.register_pairs name email password client).maintains
  | login email password client => exact (hI.pairs.login_pairs email password client).maintains
  | googleLogin code state client => exact (hI.pairs.googleLogin_pairs code state client).maintains
  | refresh token client => exact hI.refresh_keeps token client
  | verifyChallenge challengeToken code client =>
    exact (hI.pairs.verifyChallenge_pairs challengeToken code client).maintains
  | resetPassword token newPassword =>
    exact hI.within (resetPassword_within token newPassword) (by decide)
  | changePassword userId currentPassword newPassword =>
    exact hI.within (changePassword_within userId currentPassword newPassword) (by decide)
  | enable userId code => exact hI.within (enable_within userId code) (by decide)
  | disable userId password => exact hI.within (disable_within userId password) (by decide)
  | revokeAllSessions userId => exact hI.within (revokeAllSessions_within userId) (by decide)
  | other p signsNoOneIn => exact hI.within hr (by decide)

end Rule

end SaasBackend
