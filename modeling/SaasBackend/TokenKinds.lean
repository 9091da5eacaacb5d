import Mathlib.Logic.Equiv.List
import SaasBackend.GoogleLinking
import SaasBackend.OAuthState

/-! The three kinds of tokens that the server signs, as texts: access tokens, refresh tokens and
OAuth states, with src/utils/jwt.js and the two requests that read JWTs. -/

set_option autoImplicit false

namespace SaasBackend
open Keyed Handler TextCodes

/-- The payload of a JWT; what is missing is undefined. -/
structure Claims where
  id : Option Id := none
  email : Option String := none
  role : Option Role := none
  tokenVersion : Option Nat := none
  sub : Option Id := none
  jti : Option Nat := none
  iat : Nat
  exp : Nat
  deriving DecidableEq, Repr

/-- The package jsonwebtoken: `JSON.stringify(payload)` in bytes, and `verify(token, key,
{ algorithms: ['HS256'] })` at a time. -/
structure JsonWebToken where
  payloadText : Claims → List UInt8
  verify : String → String → Time → Option Claims

def jwtHeader : List UInt8 :=
  "\x7b\x22alg\x22:\x22HS256\x22,\x22typ\x22:\x22JWT\x22\x7d".toUTF8.data.toList

namespace JsonWebToken

variable (jwt : JsonWebToken) (tokens : TokenEnv)

def signingInput (c : Claims) : List Char :=
  base64url jwtHeader ++ '.' :: base64url (jwt.payloadText c)

/-- `jwt.sign` with HS256. -/
def sign (key : String) (c : Claims) : String :=
  String.ofList (jwt.signingInput c ++ '.' :: base64url (tokens.hmac key (jwt.signingInput c)))

def isJsonSpace (b : UInt8) : Bool := b == 0x20 || b == 0x09 || b == 0x0A || b == 0x0D

/-- How the JSON text of an object with a member begins. -/
def NamesMember (text : List UInt8) : Prop :=
  ∃ blank blank' rest, text = blank ++ 0x7B :: (blank' ++ 0x22 :: rest) ∧
    blank.all isJsonSpace = true ∧ blank'.all isJsonSpace = true

/-- What is relied on: payloads are objects, an accepted token has a header that names its algorithm
and the MAC of its first two parts, and a token that was signed with the key is accepted until it
expires, if there is a key at all. -/
structure Lawful : Prop where
  payload_object : ∀ c, ∃ rest, jwt.payloadText c = 0x7B :: rest
  verify_signed : ∀ key s now c, jwt.verify key s now = some c → ∃ header payload,
    s.toList = header ++ '.' ::
      (payload ++ '.' :: base64url (tokens.hmac key (header ++ '.' :: payload))) ∧
      '.' ∉ header ∧ '.' ∉ payload ∧ NamesMember (decodeBase64url header)
  verify_sign : ∀ key c now, jwt.verify key (jwt.sign tokens key c) now =
    if key ≠ "" ∧ now / 1000 < c.exp then some c else none

end JsonWebToken

section Tokens

variable (env : Env) (tokens : TokenEnv) (jwt : JsonWebToken)

def AccessToken.claims (a : AccessToken) : Claims :=
  { id := some a.id, email := some a.email, role := some a.role, tokenVersion := some a.tokenVersion
    iat := a.exp - env.jwtExpiresInMs / 1000, exp := a.exp }

def RefreshJwt.claims (j : RefreshJwt) : Claims :=
  { sub := some j.sub, jti := some j.jti, iat := j.exp - env.jwtRefreshExpiresInMs / 1000,
    exp := j.exp }

/-- The output of `signToken`. -/
def AccessToken.text (a : AccessToken) : String := jwt.sign tokens tokens.jwtSecret (a.claims env)

/-- The output of `signRefreshToken`. -/
def RefreshJwt.text (j : RefreshJwt) : String :=
  jwt.sign tokens tokens.jwtRefreshSecret (j.claims env)

/-- `authHeader.split(' ')[1]` of a bearer header. -/
def bearerToken (authorization : Option String) : Option String :=
  authorization.bind fun header =>
    if "Bearer ".toList.isPrefixOf header.toList then
      ((header.toList.splitOn ' ')[1]?).map String.ofList else none

/-- auth.middleware.js on the header as it comes; a lookup with an undefined id finds whoever comes
first. -/
def authenticateText (authorization : Option String) : Req Caller :=
  match bearerToken authorization with
  | none => throw (httpError "errors.noTokenProvided" 401)
  | some token => do
    let now ← date
    match jwt.verify tokens.jwtSecret token now with
    | none => throw (httpError "errors.invalidOrExpiredToken" 401)
    | some decoded => do
      let found ← query (fun w =>
        match decoded.id with
        | some id => ((w.users.get? id).filter User.live).map fun user => (id, user)
        | none => w.users.find? (fun _ u => u.live))
      match found with
      | none => throw (httpError "errors.userNoLongerExists" 401)
      | some (id, user) =>
        if decoded.tokenVersion ≠ some user.tokenVersion then
          throw (httpError "errors.tokenInvalidated" 401)
        else if user.banned then throw (httpError "errors.accountBanned" 403)
        else do
          let now ← date
          if user.suspendedAt now then throw (accountSuspended user)
          else
            return { id, name := user.name, email := user.email, role := user.role
                     tokenVersion := some user.tokenVersion, emailVerified :=
                       some user.emailVerified }

def refreshStored (client : ClientInfo) (stored : Option (Id × RefreshToken × User)) : Req Reply :=
  match stored with
  | none => throw (httpError "errors.invalidRefreshToken" 401)
  | some (tokenId, storedToken, user) =>
    if storedToken.revoked then do
      execute (.reuseDetected storedToken.userId)
      throw (httpError "errors.invalidRefreshToken" 401)
    else do
      let now ← date
      if storedToken.expiresAt < now then do
        execute (.refreshTokenExpire tokenId)
        throw (httpError "errors.invalidRefreshToken" 401)
      else if !user.live then throw (httpError "errors.invalidRefreshToken" 401)
      else if user.banned then throw (httpError "errors.accountBanned" 403)
      else do
        let now ← date
        if user.suspendedAt now then throw (accountSuspended user)
        else do
          execute (.refreshTokenRotate tokenId)
          let newRefreshToken ← createRefreshTokenRecord env storedToken.userId client
          let token ← signToken env storedToken.userId user.email user.role user.tokenVersion
          return .session none token newRefreshToken none false

/-- `refresh` on the token as it comes; the rows hold the digests of texts. -/
def refreshText (refreshToken : String) (client : ClientInfo) : Req Reply := do
  let now ← date
  match jwt.verify tokens.jwtRefreshSecret refreshToken now with
  | none => throw (httpError "errors.invalidOrExpiredRefreshToken" 401)
  | some _ => do
    let stored ← query (fun w =>
      (w.refreshTokens.find? (fun _ t => t.token.preimage.text env tokens jwt == refreshToken)).bind
        (fun r => (w.users.get? r.2.userId).map (fun u => (r.1, r.2, u))))
    refreshStored env client stored

inductive IssuedToken where
  | state (nonce : Nat) (now : Time)
  | access (token : AccessToken)
  | refresh (token : RefreshJwt)

def IssuedToken.signs (key : String) (input : List Char) : IssuedToken → Prop
  | .state nonce now => key = tokens.jwtSecret ∧ input = TokenEnv.statePayload nonce now
  | .access a => key = tokens.jwtSecret ∧ input = jwt.signingInput (a.claims env)
  | .refresh j => key = tokens.jwtRefreshSecret ∧ input = jwt.signingInput (j.claims env)

def SignedBy (issued : List IssuedToken) (key : String) (input : List Char) : Prop :=
  ∃ i ∈ issued, i.signs env tokens jwt key input

end Tokens

theorem refresh_eq (env : Env) (j : RefreshJwt) (client : ClientInfo) : refresh env j client = (do
    let now ← date
    if j.expired now then throw (httpError "errors.invalidOrExpiredRefreshToken" 401)
    else do
      let stored ← query (fun w => (w.refreshTokens.find? (fun _ t => t.token == hashToken j)).bind
        (fun r => (w.users.get? r.2.userId).map (fun u => (r.1, r.2, u))))
      refreshStored env client stored) := rfl

section Kinds

variable {env : Env} {tokens : TokenEnv} {jwt : JsonWebToken} {issued : List IssuedToken}
    {s key : String} {now : Time}
  {c : Claims}

theorem isJsonSpace_toNat {b : UInt8} (h : JsonWebToken.isJsonSpace b = true) : b.toNat ≤ 32 := by
  simp only [JsonWebToken.isJsonSpace, Bool.or_eq_true, beq_iff_eq] at h
  rcases h with ((rfl | rfl) | rfl) | rfl <;> decide

/-- Hexadecimal digits, read as base64url, begin no object with a member: after the brace comes a
byte above the white space and the quotation mark. -/
theorem hex_names_none (a b : UInt8) (bytes : List UInt8) :
    ¬ JsonWebToken.NamesMember (decodeBase64url (hex (a :: b :: bytes))) := by
  have ha := byte_lt a
  have hb := byte_lt b
  obtain ⟨v₁, h₁, hv₁⟩ := idxOf_digitChar (n := a.toNat / 16) (by omega)
  obtain ⟨v₂, h₂, hv₂⟩ := idxOf_digitChar (n := a.toNat % 16) (by omega)
  obtain ⟨v₃, h₃, hv₃⟩ := idxOf_digitChar (n := b.toNat / 16) (by omega)
  obtain ⟨v₄, h₄, hv₄⟩ := idxOf_digitChar (n := b.toNat % 16) (by omega)
  simp only [hex, hexByte, List.flatMap_cons, List.cons_append, List.nil_append, decodeBase64url,
    List.filterMap_cons, h₁, h₂, h₃, h₄, joinSextets]
  rintro ⟨blank, blank', rest, htext, hblank, hblank'⟩
  have hfirst : (UInt8.ofNat (v₁ * 4 + v₂ / 16)).toNat = v₁ * 4 + v₂ / 16 := by
    rw [UInt8.toNat_ofNat']
    omega
  have hsecond : (UInt8.ofNat (v₂ % 16 * 16 + v₃ / 4)).toNat = v₂ % 16 * 16 + v₃ / 4 := by
    rw [UInt8.toNat_ofNat']
    omega
  cases blank with
  | nil =>
    simp only [List.nil_append, List.cons.injEq] at htext
    rw [htext.1] at hfirst
    have hbrace : v₁ * 4 + v₂ / 16 = 123 := hfirst.symm
    cases blank' with
    | nil =>
      simp only [List.nil_append, List.cons.injEq] at htext
      rw [htext.2.1] at hsecond
      have hquote : v₂ % 16 * 16 + v₃ / 4 = 34 := hsecond.symm
      omega
    | cons blank₂ _ =>
      simp only [List.cons_append, List.cons.injEq, List.all_cons,
        Bool.and_eq_true] at htext hblank'
      rw [htext.2.1] at hsecond
      have hle := isJsonSpace_toNat hblank'.1
      omega
  | cons blank₁ _ =>
    simp only [List.cons_append, List.cons.injEq, List.all_cons, Bool.and_eq_true] at htext hblank
    rw [htext.1] at hfirst
    have hle := isJsonSpace_toNat hblank.1
    omega

theorem sign_toList (key : String) (c : Claims) : (jwt.sign tokens key c).toList =
    base64url jwtHeader ++ '.' :: (base64url (jwt.payloadText c) ++ '.' ::
      base64url (tokens.hmac key (jwt.signingInput c))) := by
  rw [JsonWebToken.sign, String.toList_ofList, JsonWebToken.signingInput, List.append_assoc,
    List.cons_append]

theorem eq_sign {header payload : List Char}
    (hs : s.toList = header ++
      '.' :: (payload ++ '.' :: base64url (tokens.hmac key (header ++ '.' :: payload))))
    (hinput : header ++ '.' :: payload = jwt.signingInput c) : s = jwt.sign tokens key c := by
  rw [← String.toList_inj, JsonWebToken.sign, String.toList_ofList, hs, ← hinput, List.append_assoc,
    List.cons_append]

/-- A JWT that is accepted was issued, with the claims that it is accepted for. -/
theorem verified_kind (hjwt : jwt.Lawful tokens)
    (hs : tokens.Buildable (SignedBy env tokens jwt issued) s)
    (hverify : jwt.verify key s now = some c) :
    (∃ a, .access a ∈ issued ∧ s = a.text env tokens jwt ∧ c = a.claims env) ∨
      ∃ j, .refresh j ∈ issued ∧ s = j.text env tokens jwt ∧ c = j.claims env := by
  obtain ⟨header, payload, htext, hheader, _, hnames⟩ := hjwt.verify_signed key s now c hverify
  have hclaims : ∀ c', header ++ '.' :: payload = jwt.signingInput c' → s = jwt.sign tokens key c' ∧
      c = c' := by
    intro c' hinput
    have hsigned := eq_sign htext hinput
    rw [hsigned, hjwt.verify_sign] at hverify
    split at hverify
    · exact ⟨hsigned, (Option.some.inj hverify).symm⟩
    · cases hverify
  obtain ⟨i, hi, hsigns⟩ :=
    hs key (header ++ '.' :: payload) ⟨header ++ '.' :: payload, .inr (by simpa using htext)⟩
  cases i with
  | state nonce issuedAt =>
    -- the header would be a nonce
    obtain ⟨_, hpayload⟩ := hsigns
    rw [TokenEnv.statePayload] at hpayload
    obtain ⟨rfl, _⟩ := append_cons_inj hheader (dot_notMem_hex _) hpayload
    exact absurd hnames (hex_names_none _ _ _)
  | access a =>
    obtain ⟨rfl, hinput⟩ := hsigns
    exact .inl ⟨a, hi, hclaims _ hinput⟩
  | refresh j =>
    obtain ⟨rfl, hinput⟩ := hsigns
    exact .inr ⟨j, hi, hclaims _ hinput⟩

theorem payload_nan (hjwt : jwt.Lawful tokens) (c : Claims) :
    toNumber (String.ofList (base64url (jwt.payloadText c))) = .nan := by
  obtain ⟨rest, hrest⟩ := hjwt.payload_object c
  obtain ⟨more, hmore⟩ := base64url_head 0x7B rest
  rw [hrest, hmore]
  exact toNumber_e more

theorem verifyOAuthState_issued (hjwt : jwt.Lawful tokens)
    (hs : tokens.Buildable (SignedBy env tokens jwt issued) s) :
    tokens.verifyOAuthState s now = true ↔
      ∃ nonce issuedAt, .state nonce issuedAt ∈ issued ∧
        s = tokens.createOAuthState nonce issuedAt ∧
        now ≤ issuedAt + STATE_TTL_MS := by
  constructor
  · intro hverify
    obtain ⟨nonce, expiresAtRaw, htext, hnonce, hexpires, ⟨i, hi, hsigns⟩, hnumber⟩ :=
      TokenEnv.verifyOAuthState_signed hs.state hverify
    have hjwtInput : ∀ c, nonce ++ '.' :: expiresAtRaw ≠ jwt.signingInput c := by
      intro c hinput
      obtain ⟨_, rfl⟩ := append_cons_inj hnonce (dot_notMem_base64url _) hinput
      exact hnumber (payload_nan hjwt c)
    cases i with
    | state n issuedAt =>
      obtain rfl := TokenEnv.eq_createOAuthState htext hsigns.2
      exact ⟨n, issuedAt, hi, rfl, by simpa [TokenEnv.verify_createOAuthState] using hverify⟩
    | access a => exact absurd hsigns.2 (hjwtInput _)
    | refresh j => exact absurd hsigns.2 (hjwtInput _)
  · rintro ⟨nonce, issuedAt, _, rfl, hnow⟩
    simpa [TokenEnv.verify_createOAuthState] using hnow

theorem authenticateText_issued (hjwt : jwt.Lawful tokens)
    (hs : tokens.Buildable (SignedBy env tokens jwt issued) s) {authorization : Option String}
    (htoken : bearerToken authorization = some s) (w : World) :
    (authenticateText tokens jwt authorization).Ends Stmt.exec (fun r _ => ∀ caller,
      r = .ok caller →
      ∃ a, .access a ∈ issued ∧ s = a.text env tokens jwt) w := by
  simp only [authenticateText, htoken, Prog.bind_eq, ends_date_bind]
  cases hverify : jwt.verify tokens.jwtSecret s w.now with
  | none => exact fun _ h => by cases h
  | some decoded =>
    rcases verified_kind hjwt hs hverify with ⟨a, ha, htext, _⟩ | ⟨j, _, _, rfl⟩
    · exact fun _ _ => ⟨a, ha, htext⟩
    · show ((query _).bind _).Ends Stmt.exec _ w
      rw [ends_query_bind]
      split
      · exact fun _ h => by cases h
      · rw [if_pos (by simp [RefreshJwt.claims])]
        exact fun _ h => by cases h

theorem RefreshJwt.claims_inj {j j' : RefreshJwt} (h : j.claims env = j'.claims env) : j = j' := by
  cases j
  cases j'
  simp_all [RefreshJwt.claims]

theorem refreshText_issued (hjwt : jwt.Lawful tokens)
    (hs : tokens.Buildable (SignedBy env tokens jwt issued) s) (client : ClientInfo) (w : World) :
    (refreshText env tokens jwt s client).Ends Stmt.exec (fun r _ => ∀ a, r = .ok a →
      ∃ j k t, .refresh j ∈ issued ∧ s = j.text env tokens jwt ∧ w.refreshTokens.get? k = some t ∧
        t.token = hashToken j) w := by
  simp only [refreshText, Prog.bind_eq, ends_date_bind]
  cases hverify : jwt.verify tokens.jwtRefreshSecret s w.now with
  | none => exact fun _ h => by cases h
  | some c =>
    simp only [ends_query_bind]
    cases hfound : w.refreshTokens.find? (fun _ t => t.token.preimage.text env tokens jwt == s) with
    | none => exact fun _ h => by cases h
    | some row =>
      obtain ⟨k, t⟩ := row
      obtain ⟨hrow, hmatch⟩ := Table.find?_some hfound
      have htext : t.token.preimage.text env tokens jwt = s := by simpa using hmatch
      have hclaims : c = t.token.preimage.claims env := by
        rw [← htext, RefreshJwt.text, hjwt.verify_sign] at hverify
        split at hverify
        · exact (Option.some.inj hverify).symm
        · cases hverify
      rcases verified_kind hjwt hs hverify with ⟨a, _, _, hc⟩ | ⟨j, hj, hs', hc⟩
      · have hid := congrArg Claims.id (hc.symm.trans hclaims)
        cases hid
      · obtain rfl := RefreshJwt.claims_inj (hc.symm.trans hclaims)
        exact fun _ _ => ⟨_, k, t, hj, hs', hrow, rfl⟩

/-- The kinds of tokens stay apart, whether the two secrets differ or not: for a text that can be
put together from issued tokens, each of the three checks accepts tokens of its own kind only. -/
theorem token_kinds_apart (hjwt : jwt.Lawful tokens)
    (hs : tokens.Buildable (SignedBy env tokens jwt issued) s) :
    (∀ now, tokens.verifyOAuthState s now = true ↔ ∃ nonce issuedAt,
      .state nonce issuedAt ∈ issued ∧
      s = tokens.createOAuthState nonce issuedAt ∧ now ≤ issuedAt + STATE_TTL_MS) ∧
    (∀ w authorization caller, bearerToken authorization = some s →
      ((authenticateText tokens jwt authorization).runs w).1 = .ok caller →
        ∃ a, .access a ∈ issued ∧ s = a.text env tokens jwt) ∧
    ∀ w client a, ((refreshText env tokens jwt s client).runs w).1 = .ok a →
      ∃ j k t, .refresh j ∈ issued ∧ s = j.text env tokens jwt ∧ w.refreshTokens.get? k = some t ∧
        t.token = hashToken j := by
  refine ⟨fun now => verifyOAuthState_issued hjwt hs, fun w authorization caller htoken hok => ?_,
    fun w client a hok => ?_⟩
  · exact authenticateText_issued hjwt hs htoken w caller hok
  · exact refreshText_issued hjwt hs client w a hok

end Kinds

section Signed

variable {env : Env} {tokens : TokenEnv} {jwt : JsonWebToken}

theorem bearerToken_text {token : String} (h : ' ' ∉ token.toList) :
    bearerToken (some ("Bearer " ++ token)) = some token := by
  have hheader : ("Bearer " ++ token).toList = "Bearer".toList ++ ' ' :: token.toList := by
    rw [String.toList_append, show "Bearer ".toList = "Bearer".toList ++ [' '] from by decide,
      List.append_assoc]
    rfl
  have hprefix : "Bearer ".toList.isPrefixOf ("Bearer " ++ token).toList = true := by
    simp [String.toList_append]
  have hsplit : ("Bearer " ++ token).toList.splitOn ' ' = ["Bearer".toList, token.toList] := by
    rw [hheader, List.splitOn_append_cons_self_of_not_mem (by decide), List.splitOn_eq_singleton h]
  rw [bearerToken, Option.bind_some, if_pos hprefix, hsplit]
  simp

theorem blank_notMem_sign (key : String) (c : Claims) : ' ' ∉ (jwt.sign tokens key c).toList := by
  have hblank : ∀ bytes, ' ' ∉ base64url bytes := notMem_base64url (by decide +kernel)
  rw [sign_toList]
  simp [hblank]

theorem authenticateText_signed (hjwt : jwt.Lawful tokens) (hsecret : tokens.jwtSecret ≠ "")
    (a : AccessToken) (w : World) :
    (authenticateText tokens jwt (some ("Bearer " ++ a.text env tokens jwt))).runs w =
      (authenticate (.bearer a)).runs w := by
  have htoken : bearerToken (some ("Bearer " ++ a.text env tokens jwt)) =
      some (a.text env tokens jwt) :=
    bearerToken_text (blank_notMem_sign _ _)
  have hverify : jwt.verify tokens.jwtSecret (a.text env tokens jwt) w.now =
      if a.expired w.now then none else some (a.claims env) := by
    rw [AccessToken.text, hjwt.verify_sign]
    by_cases hexp : w.now / 1000 < a.exp
    · simp [AccessToken.claims, AccessToken.expired, hexp, hsecret]
    · simp [AccessToken.claims, AccessToken.expired, hexp, hsecret]
  simp only [authenticateText, htoken, authenticate, Prog.bind_eq, runs_date_bind, hverify]
  cases a.expired w.now with
  | true => rfl
  | false =>
    simp only [Bool.false_eq_true, if_false, findUserById, runs_query_bind, AccessToken.claims]
    cases (w.users.get? a.id).filter User.live with
    | none => rfl
    | some user => simp

theorem refreshText_signed (hjwt : jwt.Lawful tokens) (hsecret : tokens.jwtRefreshSecret ≠ "")
    (j : RefreshJwt) (client : ClientInfo) (w : World) :
    (refreshText env tokens jwt (j.text env tokens jwt) client).runs w =
      (refresh env j client).runs w := by
  have hverify : ∀ j' : RefreshJwt,
    jwt.verify tokens.jwtRefreshSecret (j'.text env tokens jwt) w.now =
      if j'.expired w.now then none else some (j'.claims env) := by
    intro j'
    rw [RefreshJwt.text, hjwt.verify_sign]
    by_cases hexp : w.now / 1000 < j'.exp
    · simp [RefreshJwt.claims, RefreshJwt.expired, hexp, hsecret]
    · simp [RefreshJwt.claims, RefreshJwt.expired, hexp, hsecret]
  rw [refresh_eq]
  simp only [refreshText, Prog.bind_eq, runs_date_bind, hverify]
  cases hexpired : j.expired w.now with
  | true => rfl
  | false =>
    have hdigest : ∀ t : RefreshToken,
        (t.token.preimage.text env tokens jwt == j.text env tokens jwt) =
          (t.token == hashToken j) := by
      intro t
      rw [Bool.eq_iff_iff, beq_iff_eq, beq_iff_eq]
      refine ⟨fun htext => ?_, fun h => by rw [h]; rfl⟩
      have hsame := hverify t.token.preimage
      rw [htext, hverify j, hexpired, if_neg (by simp)] at hsame
      split at hsame
      · cases hsame
      · rw [RefreshJwt.claims_inj (Option.some.inj hsame)]
        rfl
    simp only [Bool.false_eq_true, if_false, runs_query_bind, hdigest]

end Signed

/-- A jsonwebtoken over any way to write payloads that can be read back. -/
def referenceJwt (tokens : TokenEnv) (write : Claims → List UInt8)
    (read : List UInt8 → Option Claims) :
    JsonWebToken where
  payloadText := write
  verify key s now :=
    match s.toList.splitOn '.' with
    | [header, payload, signature] =>
      if key ≠ "" ∧ header = base64url jwtHeader ∧
          signature = base64url (tokens.hmac key (header ++ '.' :: payload)) then
        (read (decodeBase64url payload)).filter fun c => decide (now / 1000 < c.exp)
      else none
    | _ => none

theorem referenceJwt_lawful {tokens : TokenEnv} {write : Claims → List UInt8}
    {read : List UInt8 → Option Claims} (hobject : ∀ c, ∃ rest, write c = 0x7B :: rest)
    (hread : ∀ c, read (write c) = some c) :
    (referenceJwt tokens write read).Lawful tokens where
  payload_object := hobject
  verify_signed key s now c h := by
    simp only [referenceJwt] at h
    split at h
    · rename_i header payload signature hparts
      obtain ⟨hs, hheader, hpayload, _⟩ := splitOn_eq_three.mp hparts
      split at h
      · rename_i hsigned
        refine ⟨header, payload, hsigned.2.2 ▸ hs, hheader, hpayload, ?_⟩
        rw [hsigned.2.1, decode_base64url]
        exact ⟨[], [], _, rfl, rfl, rfl⟩
      · cases h
    · cases h
  verify_sign key c now := by
    have hparts : ((referenceJwt tokens write read).sign tokens key c).toList.splitOn '.' =
        [base64url jwtHeader, base64url (write c), base64url (tokens.hmac key
          ((referenceJwt tokens write read).signingInput c))] :=
      splitOn_eq_three.mpr ⟨sign_toList key c, dot_notMem_base64url _, dot_notMem_base64url _,
        dot_notMem_base64url _⟩
    simp only [referenceJwt] at hparts ⊢
    rw [hparts]
    by_cases hkey : key = ""
    · simp [hkey]
    · simp [hkey, JsonWebToken.signingInput, decode_base64url, hread, Option.filter]

abbrev ClaimNumbers :=
  Option Nat × Option (List Nat) × Option Bool × Option Nat × Option Nat × Option Nat × Nat × Nat

def Claims.code (c : Claims) : Nat :=
  Encodable.encode ((c.id, c.email.map fun s => s.toList.map Char.toNat, c.role.map fun r =>
    decide (r = .admin), c.tokenVersion, c.sub, c.jti, c.iat, c.exp) : ClaimNumbers)

def Claims.ofNumbers : ClaimNumbers → Claims
  | (id, email, role, tokenVersion, sub, jti, iat, exp) =>
    { id, email := email.map fun s => String.ofList (s.map Char.ofNat)
      role := role.map fun isAdmin => if isAdmin then .admin else .user
      tokenVersion, sub, jti, iat, exp }

def Claims.ofCode (n : Nat) : Option Claims := (Encodable.decode n).map Claims.ofNumbers

theorem Claims.ofCode_code (c : Claims) : Claims.ofCode c.code = some c := by
  have hemail : ∀ s : String, String.ofList ((s.toList.map Char.toNat).map Char.ofNat) = s := by
    intro s
    simp [Function.comp_def, Char.ofNat_toNat]
  have hrole : ∀ r : Role, (if decide (r = .admin) then Role.admin else .user) = r := by
    intro r
    cases r <;> rfl
  rw [ofCode, code, Encodable.encodek, Option.map_some, ofNumbers]
  simp only [Option.map_map, Function.comp_def, hemail, hrole, Option.map_id']

def annToken : AccessToken := ⟨1, "ann@x.io", .user, 0, 900⟩
def annClaims : Claims := annToken.claims sampleEnv

def annPayload : List UInt8 :=
  ("\x7b\x22id\x22:1,\x22email\x22:\x22ann@x.io\x22,\x22role\x22:\x22USER\x22," ++
    "\x22tokenVersion\x22:0,\x22iat\x22:0,\x22exp\x22:900\x7d").toUTF8.data.toList

def writeSample (c : Claims) : List UInt8 :=
  if c = annClaims then annPayload else 0x7B :: List.replicate c.code 0x30

def readSample (text : List UInt8) : Option Claims :=
  if text = annPayload then some annClaims else Claims.ofCode (text.length - 1)

def annMac : List UInt8 :=
  [234, 198, 69, 181, 178, 55, 98, 73, 162, 166, 7, 163, 45, 219, 42, 91, 111, 95, 93, 178, 156,
    129, 205, 23, 254, 255, 159, 18, 87, 140, 220, 247]

def oneSecret : TokenEnv where
  hmac key input :=
    if key = "change-me" ∧ input = base64url jwtHeader ++ '.' :: base64url annPayload then annMac
    else []
  jwtSecret := "change-me"
  jwtRefreshSecret := "change-me"

def sampleJwt : JsonWebToken := referenceJwt oneSecret writeSample readSample

theorem sampleJwt_lawful : sampleJwt.Lawful oneSecret := by
  refine referenceJwt_lawful (fun c => ?_) (fun c => ?_)
  · unfold writeSample
    split <;> exact ⟨_, rfl⟩
  · unfold writeSample readSample
    split
    · rename_i hann
      rw [if_pos rfl, hann]
    · have hquote : annPayload[1]? = some 0x22 := by decide +kernel
      have hother : 0x7B :: List.replicate c.code 0x30 ≠ annPayload := by
        intro h
        rw [← h, List.getElem?_cons_succ, List.getElem?_replicate] at hquote
        split at hquote <;> cases hquote
      rw [if_neg hother]
      simp [Claims.ofCode_code]

def annText : String := annToken.text sampleEnv oneSecret sampleJwt

def annWorld : World := { users := Table.insert ∅ 1 { email := "ann@x.io" } }

theorem getLast_annText : annText.toList.getLast? ≠ some '.' := by
  -- a text is slow to read back in the kernel, its three parts are not
  rw [annText, AccessToken.text, sign_toList]
  decide +kernel

/-- Ann's access token passes where access tokens do, and as a state it never does. -/
theorem token_kinds_ann : (∀ now, oneSecret.verifyOAuthState annText now = false) ∧
    ∃ a, IssuedToken.access a ∈ [IssuedToken.access annToken] ∧
    annText = a.text sampleEnv oneSecret sampleJwt := by
  have hs : oneSecret.Buildable (SignedBy sampleEnv oneSecret sampleJwt [.access annToken])
      annText :=
    TokenEnv.buildable_of_one (fun _ _ h => if_neg h) getLast_annText ⟨_, .head _, rfl, rfl⟩
  obtain ⟨hstate, haccess, _⟩ := token_kinds_apart sampleJwt_lawful hs
  refine ⟨fun now => ?_, ?_⟩
  · rw [Bool.eq_false_iff, ne_eq, hstate now]
    rintro ⟨_, _, hissued, _⟩
    simp at hissued
  · have hcaller :
      ((authenticateText oneSecret sampleJwt (some ("Bearer " ++ annText))).runs annWorld).1 =
        .ok ⟨1, none, "ann@x.io", .user, some 0, some false⟩ := by
      rw [annText, authenticateText_signed sampleJwt_lawful (by decide)]
      rfl
    exact haccess annWorld _ _ (bearerToken_text (blank_notMem_sign _ _)) hcaller

end SaasBackend
