import SaasBackend.AuthTokens

/-! src/modules/auth/auth.service.js, statement by statement. -/

set_option autoImplicit false

namespace SaasBackend
open Keyed Handler

def register (env : Env) (name email password : String) (client : ClientInfo) : Req Reply := do
  let normalizedEmail := normalizeEmail env email
  let existing ← findUserByEmail normalizedEmail
  if existing.isSome then throw (httpError "errors.emailAlreadyRegistered" 409)
  else do
    let emailVerificationToken ← randomBytes
    let now ← date
    let user : User :=
      { name := some (trim name), email := normalizedEmail
        password := some (env.bcryptHash password)
        emailVerificationToken := some (hashToken emailVerificationToken)
        emailVerificationExpires := some (now + verificationTokenTtlMs) }
    let (id, created) ← tryCatch
      (send (.userCreate user) (fun w => (w.nonce, { user with createdAt := w.now })))
      (fun err =>
        if err = .prisma .P2002 then throw (httpError "errors.emailAlreadyRegistered" 409)
        else throw err)
    let refreshToken ← createRefreshTokenRecord env id client
    queueVerificationEmail normalizedEmail emailVerificationToken
    let token ← signToken env id created.email created.role created.tokenVersion
    return .session (some (safeUser id created)) token refreshToken
      (if env.exposeDevTokens then some emailVerificationToken else none) false

/-- The password check of `login`; a missing password or a lock costs the same time. -/
def checkPassword (env : Env) (password : String) (user : User) (isLocked : Bool) : Req Bool :=
  match user.password, isLocked with
  | some hash, false => comparePassword env password hash
  | _, _ => do
    dummyCompare
    return false

def login (env : Env) (email password : String) (client : ClientInfo) : Req Reply := do
  let found ← findUserByEmail (normalizeEmail env email)
  match found with
  | none => do
    dummyCompare
    throw (httpError "errors.invalidCredentials" 401)
  | some (id, user) => do
    let now ← date
    let isLocked := user.lockedUntil.any (fun t => decide (now < t))
    -- the clock is read again for the expiry test
    let now ← date
    when (user.lockedUntil.any (fun t => decide (t ≤ now)))
      (execute (.userUpdate id { failedLoginAttempts := some 0, lockedUntil := some none }))
    let valid ← checkPassword env password user isLocked
    if !valid then do
      when (!isLocked) (do
        let updated ← saveUser id { failedLoginIncrement := true }
        when (decide (maxFailedAttempts ≤ updated.failedLoginAttempts)) (do
          let now ← date
          execute (.userUpdate id { lockedUntil := some (some (now + lockDurationMs)) })))
      throw (httpError "errors.invalidCredentials" 401)
    else if user.banned then throw (httpError "errors.accountBanned" 403)
    else do
      let now ← date
      if user.suspendedAt now then throw (accountSuspended user)
      else if user.twoFactorEnabled then do
        let challengeToken ← createChallenge id
        return .twoFactorRequired challengeToken
      else do
        let refreshToken ← createRefreshTokenRecord env id client
        let now ← date
        let updated ← saveUser id
          { failedLoginAttempts := some 0, lockedUntil := some none, lastLoginAt := some now }
        let token ← signToken env id user.email user.role user.tokenVersion
        return .session (some (safeUser id updated)) token refreshToken none false

def refresh (env : Env) (refreshToken : RefreshJwt) (client : ClientInfo) : Req Reply := do
  let now ← date
  if refreshToken.expired now then throw (httpError "errors.invalidOrExpiredRefreshToken" 401)
  else do
    let stored ← query (fun w =>
      (w.refreshTokens.find? (fun _ t => t.token == hashToken refreshToken)).bind
        (fun r => (w.users.get? r.2.userId).map (fun u => (r.1, r.2, u))))
    match stored with
    | none => throw (httpError "errors.invalidRefreshToken" 401)
    | some (tokenId, storedToken, user) =>
      if storedToken.revoked then do
        execute (.reuseDetected storedToken.userId)
        throw (httpError "errors.invalidRefreshToken" 401)
      else do
        let now ← date
        if storedToken.expiresAt < now then do
          execute (.refreshTokenExpire tokenId)
          throw (httpError "errors.invalidRefreshToken" 401)
        else if !user.live then throw (httpError "errors.invalidRefreshToken" 401)
        else if user.banned then throw (httpError "errors.accountBanned" 403)
        else do
          let now ← date
          if user.suspendedAt now then throw (accountSuspended user)
          else do
            execute (.refreshTokenRotate tokenId)
            let newRefreshToken ← createRefreshTokenRecord env storedToken.userId client
            let token ← signToken env storedToken.userId user.email user.role user.tokenVersion
            return .session none token newRefreshToken none false

def verifyEmail (token : Nat) : Req Reply := do
  let found ← query (fun w =>
    w.users.find? (fun _ u => u.emailVerificationToken == some (hashToken token) && u.live))
  match found with
  | none => throw (httpError "errors.invalidOrExpiredVerificationToken" 400)
  | some (id, user) =>
    if user.emailVerified && user.pendingEmail.isNone then
      return .message "messages.emailAlreadyVerified" none
    else do
      let now ← date
      if user.emailVerificationExpires.any (fun t => decide (t < now)) then do
        execute (.userUpdate id
          { emailVerificationToken := some none, emailVerificationExpires := some none })
        throw (httpError "errors.verificationTokenExpired" 400)
      else do
        let updateData : UserPatch :=
          { emailVerified := some true, emailVerificationToken := some none
            emailVerificationExpires := some none, email := user.pendingEmail
            pendingEmail := user.pendingEmail.map (fun _ => none) }
        tryCatch (execute (.userUpdate id updateData))
          (fun err =>
            if err = .prisma .P2002 then throw (httpError "errors.emailAlreadyInUseChangeEmail" 409)
            else throw err)
        return .message "messages.emailVerifiedSuccessfully" none

def resendVerification (env : Env) (email : String) : Req Reply := do
  let normalizedEmail := normalizeEmail env email
  let found ← findUserByEmail normalizedEmail
  match found with
  | none => return .message "messages.verificationEmailSent" none
  | some (id, user) =>
    if user.emailVerified then return .message "messages.verificationEmailSent" none
    else do
      let emailVerificationToken ← randomBytes
      let now ← date
      execute (.userUpdate id
        { emailVerificationToken := some (some (hashToken emailVerificationToken))
          emailVerificationExpires := some (some (now + verificationTokenTtlMs)) })
      queueVerificationEmail normalizedEmail emailVerificationToken
      return .message "messages.verificationEmailSent"
        (if env.exposeDevTokens then some emailVerificationToken else none)

def forgotPassword (env : Env) (email : String) : Req Reply := do
  let normalizedEmail := normalizeEmail env email
  let found ← findUserByEmail normalizedEmail
  match found with
  | none => return .message "messages.passwordResetTokenSent" none
  | some (id, _) => do
    let resetToken ← randomBytes
    let now ← date
    execute (.userUpdate id
      { passwordResetToken := some (some (hashToken resetToken))
        passwordResetExpires := some (some (now + resetTokenTtlMs)) })
    queuePasswordResetEmail normalizedEmail resetToken
    return .message "messages.passwordResetTokenSent"
      (if env.exposeDevTokens then some resetToken else none)

def resetPassword (env : Env) (token : Nat) (newPassword : String) : Req Reply := do
  let found ← query (fun w =>
    w.users.find? (fun _ u => u.passwordResetToken == some (hashToken token) && u.live))
  match found with
  | none => throw (httpError "errors.invalidOrExpiredResetToken" 400)
  | some (id, user) => do
    let now ← date
    if user.passwordResetExpires.all (fun t => decide (t < now)) then do
      execute (.userUpdate id
        { passwordResetToken := some none, passwordResetExpires := some none })
      throw (httpError "errors.invalidOrExpiredResetToken" 400)
    else do
      execute (.killSessions id
        { password := some (env.bcryptHash newPassword), passwordResetToken := some none
          passwordResetExpires := some none })
      return .message "messages.passwordResetSuccess" none

def changePassword (env : Env) (userId : Id) (currentPassword newPassword : String) :
    Req Reply := do
  let found ← findUserById userId
  match found with
  | none => throw userNotFound
  | some user =>
    match user.password with
    | none => throw (httpError "errors.accountNoPassword" 400)
    | some hash => do
      let valid ← comparePassword env currentPassword hash
      if !valid then throw (httpError "errors.currentPasswordIncorrect" 401)
      else do
        let samePassword ← comparePassword env newPassword hash
        if samePassword then throw (httpError "errors.newPasswordMustDiffer" 400)
        else do
          execute (.killSessions userId { password := some (env.bcryptHash newPassword) })
          return .message "messages.passwordChangedSuccess" none

def changeEmail (env : Env) (userId : Id) (newEmail password : String) : Req Reply := do
  let found ← findUserById userId
  match found with
  | none => throw userNotFound
  | some user =>
    match user.password with
    | none => throw (httpError "errors.accountNoPassword" 400)
    | some hash => do
      let valid ← comparePassword env password hash
      if !valid then throw (httpError "errors.passwordIncorrect" 401)
      else do
        let normalizedNewEmail := normalizeEmail env newEmail
        let taken ← findUserByEmail normalizedNewEmail
        if taken.isSome then throw (httpError "errors.emailAlreadyInUse" 409)
        else do
          let pendingTaken ← query (fun w => w.users.find? (fun k u =>
            u.pendingEmail == some normalizedNewEmail && u.live && k != userId))
          if pendingTaken.isSome then throw (httpError "errors.emailAlreadyInUse" 409)
          else do
            let emailVerificationToken ← randomBytes
            let now ← date
            execute (.userUpdate userId
              { pendingEmail := some (some normalizedNewEmail)
                emailVerificationToken := some (some (hashToken emailVerificationToken))
                emailVerificationExpires := some (some (now + verificationTokenTtlMs)) })
            queueVerificationEmail normalizedNewEmail emailVerificationToken
            return .message "messages.verificationEmailSentToNewAddress"
              (if env.exposeDevTokens then some emailVerificationToken else none)

def logout (userId : Id) (refreshToken : Option RefreshJwt) : Req Reply := do
  match refreshToken with
  | some token => execute (.refreshTokenRevokeByToken (hashToken token) userId)
  | none => execute (.refreshTokenRevokeAll userId)
  return .message "messages.loggedOutSuccessfully" none

/-- Steps 1 to 3 of `googleLogin`: the account an identity signs in to, linked or
created on the way. -/
def googleAccount (googleId normalizedEmail : String) (name : Option String) :
    Req (Id × User) := do
  let linked ← query (fun w => w.users.find? (fun _ u => u.googleId == some googleId && u.live))
  match linked with
  | some r => return r
  | none => do
    let byEmail ← findUserByEmail normalizedEmail
    match byEmail with
    | some (id, user) =>
      if user.googleId.any (· != googleId) then
        throw (httpError "errors.emailLinkedToAnotherGoogle" 409)
      else do
        let updated ← saveUser id { googleId := some googleId, emailVerified := some true }
        return (id, updated)
    | none =>
      let user : User :=
        { email := normalizedEmail, name, googleId := some googleId, emailVerified := true }
      tryCatch (send (.userCreate user) (fun w => (w.nonce, { user with createdAt := w.now })))
        (fun err =>
          if err = .prisma .P2002 then do
            let found ← query (fun w => w.users.find? (fun _ u =>
              (u.googleId == some googleId || u.email == normalizedEmail) && u.live))
            match found with
            | some r => return r
            | none => throw err
          else throw err)

def googleLogin (env : Env) (code state : String) (client : ClientInfo) : Req Reply := do
  if !env.googleConfigured then throw (httpError "errors.googleNotConfigured" 503)
  else do
    let now ← date
    if !env.verifyOAuthState state now then
      throw (httpError "errors.invalidOrExpiredOAuthState" 401)
    else
      match env.googleExchange code with
      | none => throw (httpError "errors.googleAuthFailed" 401)
      | some payload =>
        match payload.sub, payload.email with
        | some googleId, some email =>
          if !payload.emailVerified then throw (httpError "errors.googleEmailNotVerified" 401)
          else do
            let (id, user) ← googleAccount googleId (normalizeEmail env email) payload.name
            if user.banned then throw (httpError "errors.accountBanned" 403)
            else do
              let now ← date
              if user.suspendedAt now then throw (accountSuspended user)
              else if user.twoFactorEnabled then do
                let challengeToken ← createChallenge id
                return .twoFactorRequired challengeToken
              else do
                let now ← date
                let updated ← saveUser id { lastLoginAt := some now }
                let refreshToken ← createRefreshTokenRecord env id client
                let token ← signToken env id user.email user.role updated.tokenVersion
                return .session (some (safeUser id updated)) token refreshToken none false
        | _, _ => throw (httpError "errors.googleNoProfileInfo" 400)

end SaasBackend
