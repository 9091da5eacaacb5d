import SaasBackend.AuthTokens

/-! src/modules/auth/twofa.service.js and src/modules/session/session.service.js. The
one-time codes typed by users are numbers, like the secrets and backup codes. -/

set_option autoImplicit false

namespace SaasBackend
open Keyed Handler

def compareBackupCode (env : Env) (code : Nat) : BackupHash → Bool
  | .sha256 digest => hashToken code == digest
  | .bcrypt hashed => env.bcryptCompare (toString code) hashed

def setup (userId : Id) : Req Reply := do
  let found ← findUserById userId
  match found with
  | none => throw userNotFound
  | some user =>
    if user.twoFactorEnabled then throw (httpError "errors.twoFactorAlreadyEnabled" 400)
    else do
      let secret ← randomBytes
      execute (.userUpdate userId { twoFactorSecret := some (some (encryptSecret secret)) })
      return .twoFactorSetup secret

def drawBackupCodes : Nat → Req (List Nat)
  | 0 => return []
  | n + 1 => do
    let raw ← randomBytes
    let rest ← drawBackupCodes n
    return raw :: rest

def enable (env : Env) (userId : Id) (code : Nat) : Req Reply := do
  let found ← findUserById userId
  match found with
  | none => throw userNotFound
  | some user =>
    if user.twoFactorEnabled then throw (httpError "errors.twoFactorAlreadyEnabled" 400)
    else
      match user.twoFactorSecret with
      | none => throw (httpError "errors.twoFactorSetupFirst" 400)
      | some secret => do
        let now ← date
        if (env.otpVerify (decryptSecret secret) code now none).isNone then
          throw (httpError "errors.invalidVerificationCode" 400)
        else do
          let backupCodes ← drawBackupCodes backupCodeCount
          execute (.killSessions userId
            { twoFactorEnabled := some true
              twoFactorBackupCodes := some (backupCodes.map (fun raw => .sha256 (hashToken raw))) })
          return .backupCodes "messages.twoFactorEnabled" backupCodes

def disable (env : Env) (userId : Id) (password : String) : Req Reply := do
  let found ← findUserById userId
  match found with
  | none => throw userNotFound
  | some user =>
    if !user.twoFactorEnabled then throw (httpError "errors.twoFactorNotEnabled" 400)
    else
      match user.password with
      | none => throw (httpError "errors.accountNoPassword" 400)
      | some hash => do
        let valid ← comparePassword env password hash
        if !valid then throw (httpError "errors.passwordIncorrect" 401)
        else do
          execute (.killSessions userId
            { twoFactorEnabled := some false, twoFactorSecret := some none
              twoFactorBackupCodes := some [], lastTotpTimeStep := some none })
          return .message "messages.twoFactorDisabled" none

/-- What a code turned out to be: a TOTP with its time step, a stored backup code, or
neither. -/
inductive CodeMatch where
  | totp (timeStep : Nat)
  | backup (hashed : BackupHash)
  | invalid
  deriving DecidableEq, Repr

def matchCode (env : Env) (user : User) (code : Nat) (now : Time) : CodeMatch :=
  match user.twoFactorSecret.bind
    (fun secret => env.otpVerify (decryptSecret secret) code now user.lastTotpTimeStep) with
  | some timeStep => .totp timeStep
  | none =>
    match user.twoFactorBackupCodes.find? (compareBackupCode env code) with
    | some hashed => .backup hashed
    | none => .invalid

def consumeBackupCode (id : Id) (user : User) : CodeMatch → Req Unit
  | .backup hashed =>
    execute (.userUpdate id
      { twoFactorBackupCodes := some (user.twoFactorBackupCodes.filter (· != hashed)) })
  | _ => return ()

def completeChallenge (env : Env) (id : Id) (user : User) (matched : CodeMatch)
    (client : ClientInfo) : Req Reply := do
  consumeBackupCode id user matched
  let now ← date
  let updated ← saveUser id
    { failedLoginAttempts := some 0, lockedUntil := some none, lastLoginAt := some now
      lastTotpTimeStep :=
        match matched with
        | .totp timeStep => some (some timeStep)
        | _ => none }
  let refreshToken ← createRefreshTokenRecord env id client
  let token ← signToken env id user.email user.role user.tokenVersion
  return .session (some (safeUser id updated)) token refreshToken none
    (match matched with
      | .backup _ => true
      | _ => false)

def verifyChallenge (env : Env) (challengeToken code : Nat) (client : ClientInfo) : Req Reply := do
  let found ← query (fun w =>
    (w.twoFactorChallenges.find? (fun _ c => c.token == hashToken challengeToken)).bind
      (fun r => (w.users.get? r.2.userId).map (fun u => (r.1, r.2, u))))
  match found with
  | none => throw (httpError "errors.invalidOrExpiredChallenge" 401)
  | some (challengeId, stored, user) =>
    if stored.used then throw (httpError "errors.challengeAlreadyUsed" 401)
    else if maxChallengeAttempts ≤ stored.attempts then
      throw (httpError "errors.tooManyVerificationAttempts" 401)
    else do
      let now ← date
      if stored.expiresAt < now then do
        execute (.challengeDelete challengeId)
        throw (httpError "errors.challengeExpired" 401)
      else if !user.live then throw (httpError "errors.invalidOrExpiredChallenge" 401)
      else if user.banned then throw (httpError "errors.accountBanned" 403)
      else do
        let now ← date
        if user.suspendedAt now then throw (accountSuspended user)
        else do
          let matched ← send (.codeCheck challengeId) (fun w => matchCode env user code w.now)
          if matched = .invalid then do
            let attempts ← send (.challengeAttempt challengeId) (fun w =>
              ((w.twoFactorChallenges.get? challengeId).map (·.attempts + 1)).getD 0)
            if maxChallengeAttempts ≤ attempts then
              throw (httpError "errors.tooManyVerificationAttempts" 401)
            else throw (httpError "errors.invalidVerificationCode" 401)
          else do
            -- `claimed.count`: whether the row was there, still unused
            let claimed ← send (.challengeClaim challengeId) (fun w =>
              (w.twoFactorChallenges.get? challengeId).any (fun c => !c.used))
            if !claimed then throw (httpError "errors.challengeAlreadyUsed" 401)
            else completeChallenge env stored.userId user matched client

/-- What `verifyChallenge` asks of a challenge and its user before it looks at the code. -/
def whenAnswerable (challengeId : Id) (stored : TwoFactorChallenge) (user : User)
    (answer : Req Reply) : Req Reply :=
  if stored.used then throw (httpError "errors.challengeAlreadyUsed" 401)
  else if maxChallengeAttempts ≤ stored.attempts then
    throw (httpError "errors.tooManyVerificationAttempts" 401)
  else do
    let now ← date
    if stored.expiresAt < now then do
      execute (.challengeDelete challengeId)
      throw (httpError "errors.challengeExpired" 401)
    else if !user.live then throw (httpError "errors.invalidOrExpiredChallenge" 401)
    else if user.banned then throw (httpError "errors.accountBanned" 403)
    else do
      let now ← date
      if user.suspendedAt now then throw (accountSuspended user)
      else answer

def answerChallenge (env : Env) (challengeId : Id) (stored : TwoFactorChallenge) (user : User)
    (code : Nat) (client : ClientInfo) : Req Reply := do
  let matched ← send (.codeCheck challengeId) (fun w => matchCode env user code w.now)
  if matched = .invalid then do
    let attempts ← send (.challengeAttempt challengeId) (fun w =>
      ((w.twoFactorChallenges.get? challengeId).map (·.attempts + 1)).getD 0)
    if maxChallengeAttempts ≤ attempts then
      throw (httpError "errors.tooManyVerificationAttempts" 401)
    else throw (httpError "errors.invalidVerificationCode" 401)
  else do
    let claimed ← send (.challengeClaim challengeId) (fun w =>
      (w.twoFactorChallenges.get? challengeId).any (fun c => !c.used))
    if !claimed then throw (httpError "errors.challengeAlreadyUsed" 401)
    else completeChallenge env stored.userId user matched client

theorem verifyChallenge_eq (env : Env) (challengeToken code : Nat) (client : ClientInfo) :
    verifyChallenge env challengeToken code client =
      (query (fun w =>
        (w.twoFactorChallenges.find? (fun _ c => c.token == hashToken challengeToken)).bind
        (fun r => (w.users.get? r.2.userId).map (fun u => (r.1, r.2, u))))).bind fun found =>
      match found with
      | none => .throw (httpError "errors.invalidOrExpiredChallenge" 401)
      | some (challengeId, stored, user) =>
        whenAnswerable challengeId stored user
          (answerChallenge env challengeId stored user code client) := rfl

/-- An open challenge and a user who may sign in, at times of which `T` holds. -/
structure Answerable (T : Time → Prop) (stored : TwoFactorChallenge) (user : User) : Prop where
  unused : stored.used = false
  attempts : stored.attempts < maxChallengeAttempts
  notExpired : ∃ now, T now ∧ ¬ stored.expiresAt < now
  live : user.live = true
  notBanned : user.banned = false
  notSuspended : ∃ now, T now ∧ user.suspendedAt now = false

/-- Whatever holds of a thrown error and goes through a reading of the clock holds of the guarded
answer, if it holds of the answer. -/
theorem whenAnswerable_rule {Q : Req Reply → Prop} {T : Time → Prop} {challengeId : Id}
    {stored : TwoFactorChallenge} {user : User} {answer : Req Reply} (hthrow : ∀ e, Q (.throw e))
    (hdelete : ∀ e, Q ((execute (.challengeDelete challengeId)).bind fun _ => .throw e))
    (hdate : ∀ k : Time → Req Reply, (∀ now, T now → Q (k now)) → Q (date.bind k))
    (hanswer : Answerable T stored user → Q answer) :
    Q (whenAnswerable challengeId stored user answer) := by
  unfold whenAnswerable
  split
  · exact hthrow _
  rename_i hunused
  split
  · exact hthrow _
  rename_i hattempts
  refine hdate _ fun now hnow => ?_
  split
  · exact hdelete _
  rename_i hexpiry
  split
  · exact hthrow _
  rename_i hlive
  split
  · exact hthrow _
  rename_i hbanned
  refine hdate _ fun now' hnow' => ?_
  split
  · exact hthrow _
  rename_i hsuspended
  exact hanswer ⟨by simpa using hunused, Nat.not_le.mp hattempts, ⟨now, hnow, hexpiry⟩,
    by simpa using hlive, by simpa using hbanned, ⟨now', hnow', by simpa using hsuspended⟩⟩

theorem challenge_found {w : World} {t : Nat} {challengeId : Id} {stored : TwoFactorChallenge}
    {user : User} (h : (w.twoFactorChallenges.find? (fun _ c => c.token == hashToken t)).bind
      (fun r => (w.users.get? r.2.userId).map (fun u => (r.1, r.2, u))) =
      some (challengeId, stored, user)) :
    w.twoFactorChallenges.get? challengeId = some stored ∧ stored.token = hashToken t ∧
      w.users.get? stored.userId = some user := by
  obtain ⟨r, hrow, hmap⟩ := Option.bind_eq_some_iff.mp h
  obtain ⟨x, hx, heq⟩ := Option.map_eq_some_iff.mp hmap
  cases heq
  obtain ⟨hstored, hpresented⟩ := Table.find?_some hrow
  exact ⟨hstored, beq_iff_eq.mp hpresented, hx⟩

def revokeSession (userId sessionId : Id) : Req Reply := do
  let found ← query (fun w => (w.refreshTokens.get? sessionId).filter (fun t => t.userId == userId))
  match found with
  | none => throw (httpError "errors.sessionNotFound" 404)
  | some session =>
    if session.revoked then throw (httpError "errors.sessionAlreadyRevoked" 400)
    else do
      execute (.refreshTokenRevoke sessionId)
      return .sessionRevoked sessionId

def revokeAllSessions (userId : Id) : Req Reply := do
  let count ← send (.killSessions userId {})
    (fun w => (w.refreshTokens.filter (fun _ t => t.userId == userId && !t.revoked)).length)
  return .revokedCount count

end SaasBackend
