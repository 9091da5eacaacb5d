import SaasBackend.AuthService
import SaasBackend.StatementEffects
import SaasBackend.HandlerHistory

/-! Which addresses a verified account can have. One token column serves both the first
verification and a pending change of address, so the invariant ties every live token to
the address it was mailed to. -/

set_option autoImplicit false

namespace SaasBackend
open Keyed Handler

inductive MailRequest where
  | register (name email password : String) (client : ClientInfo)
  | changeEmail (userId : Id) (newEmail password : String)
  | resendVerification (email : String)
  | verifyEmail (token : Nat)
  | googleLogin (code state : String) (client : ClientInfo)
  | wait (d : Time)

def MailRequest.prog (env : Env) : MailRequest → Req Reply
  | .register name email password client => SaasBackend.register env name email password client
  | .changeEmail userId newEmail password => SaasBackend.changeEmail env userId newEmail password
  | .resendVerification email => SaasBackend.resendVerification env email
  | .verifyEmail token => SaasBackend.verifyEmail token
  | .googleLogin code state client => SaasBackend.googleLogin env code state client
  | .wait d => do
    execute (.tick d)
    return .message "" none

abbrev MailEntry := Entry MailRequest World Err Reply

def signsIn (id : Id) : Except Err Reply → Bool
  | .ok (.session (some user) _ _ _ _) => user.id == id
  | _ => false

def googleAsserts (env : Env) (code email : String) : Bool :=
  (env.googleExchange code).any (fun payload =>
    payload.emailVerified && payload.email.any (fun e => normalizeEmail env e == email))

/-- A request that proves an address: a token the server had mailed to it is presented,
or Google asserts it in a login of that user. -/
def proves (env : Env) (e : MailEntry) (id : Id) (email : String) : Prop :=
  match e.req with
  | .verifyEmail token => .verification email token ∈ e.pre.outbox
  | .googleLogin code _ _ => googleAsserts env code email = true ∧ signsIn id e.res = true
  | _ => False

def Proven (env : Env) (h : List MailEntry) (id : Id) (email : String) : Prop :=
  ∃ e ∈ h, proves env e id email

instance (env : Env) (e : MailEntry) (id : Id) (email : String) :
    Decidable (proves env e id email) := by
  unfold proves
  cases e.req <;> infer_instance

instance (env : Env) (h : List MailEntry) (id : Id) (email : String) :
    Decidable (Proven env h id email) := by
  unfold Proven
  infer_instance

/-- What holds of an account in every run: its token, if any, went to the address it
would verify, and a verified address is proven. -/
structure AccountSound (env : Env) (h : List MailEntry) (outbox : List Mail) (id : Id) (u : User) :
    Prop where
  notBanned : u.banned = false
  notSuspended : u.suspendedUntil = none
  noSecondFactor : u.twoFactorEnabled = false
  mailed : ∀ t, u.emailVerificationToken = some (hashToken t) →
    .verification (u.pendingEmail.getD u.email) t ∈ outbox
  proven : u.emailVerified = true → Proven env h id u.email

def World.TokensDrawn (w : World) : Prop :=
  ∀ k t, w.refreshTokens.get? k = some t → t.token.preimage.jti < w.nonce

structure MailSound (env : Env) (h : List MailEntry) (w : World) : Prop where
  fresh : w.Fresh
  unclashed : w.Unclashed
  drawn : w.TokensDrawn
  accounts : ∀ id u, w.users.get? id = some u → AccountSound env h w.outbox id u

section Preservation

variable {env : Env} {h : List MailEntry} {w w' : World}

theorem Proven.cons {e : MailEntry} {id : Id} {email : String} (hp : Proven env h id email) :
    Proven env (e :: h) id email := by
  obtain ⟨e', he', hproves⟩ := hp
  exact ⟨e', by simp [he'], hproves⟩

theorem AccountSound.more {out out' : List Mail} {id : Id} {u : User}
    (hu : AccountSound env h out id u) (hout : ∀ m ∈ out, m ∈ out') :
    AccountSound env h out' id u :=
  ⟨hu.notBanned, hu.notSuspended, hu.noSecondFactor, fun t ht => hout _ (hu.mailed t ht), hu.proven⟩

theorem MailSound.cons (hs : MailSound env h w) (e : MailEntry) : MailSound env (e :: h) w :=
  ⟨hs.fresh, hs.unclashed, hs.drawn, fun id u hu =>
    let hrow := hs.accounts id u hu
    ⟨hrow.notBanned, hrow.notSuspended, hrow.noSecondFactor, hrow.mailed,
      fun hv => (hrow.proven hv).cons⟩⟩

structure MailQuiet (w w' : World) : Prop where
  users : w'.users = w.users
  outbox : w'.outbox = w.outbox
  nonce : w.nonce ≤ w'.nonce
  tokens : w'.TokensDrawn
  rows : ∀ k t, w'.refreshTokens.get? k = some t → k < w'.nonce

theorem MailQuiet.sound (hq : MailQuiet w w') (hs : MailSound env h w) : MailSound env h w' where
  fresh := ⟨fun k u hk => Nat.lt_of_lt_of_le (hs.fresh.users k u (hq.users ▸ hk)) hq.nonce, hq.rows⟩
  unclashed := by
    unfold World.Unclashed
    rw [hq.users]
    exact hs.unclashed
  drawn := hq.tokens
  accounts := fun id u hu => by
    rw [hq.users] at hu
    rw [hq.outbox]
    exact hs.accounts id u hu

theorem MailQuiet.enqueue (hq : MailQuiet w w') (out : List Mail) :
    MailQuiet { w with outbox := out } { w' with outbox := out } :=
  ⟨hq.users, rfl, hq.nonce, hq.tokens, hq.rows⟩

theorem MailSound.draw (hs : MailSound env h w) (d : Time) :
    MailSound env h { w with nonce := w.nonce + 1, now := d } := by
  have hq : MailQuiet w { w with nonce := w.nonce + 1, now := d } :=
    ⟨rfl, rfl, Nat.le_succ _, fun k t hk => Nat.lt_succ_of_lt (hs.drawn k t hk),
      fun k t hk => Nat.lt_succ_of_lt (hs.fresh.refreshTokens k t hk)⟩
  exact hq.sound hs

theorem MailSound.enqueue (hs : MailSound env h w) (m : Mail) :
    MailSound env h { w with outbox := w.outbox ++ [m] } :=
  ⟨⟨hs.fresh.users, hs.fresh.refreshTokens⟩, hs.unclashed, hs.drawn,
    fun id u hu => (hs.accounts id u hu).more (by simp +contextual)⟩

theorem MailSound.update (hs : MailSound env h w) {id : Id} {f : User → User} {u : User}
    (hu : w.users.get? id = some u)
    (hclash : ∀ k v, w.users.get? k = some v → k ≠ id → (f u).clash v = false)
    (hrow : AccountSound env h w.outbox id (f u)) :
    MailSound env h { w with users := w.users.update id f } where
  fresh := by
    refine ⟨fun k v hk => ?_, hs.fresh.refreshTokens⟩
    simp only [Table.get?_update] at hk
    split at hk
    · rename_i heq
      exact heq ▸ hs.fresh.users id u hu
    · exact hs.fresh.users k v hk
  unclashed := hs.unclashed.update hu hclash
  drawn := hs.drawn
  accounts := fun k v hk => by
    simp only [Table.get?_update] at hk
    split at hk
    · rename_i heq
      subst heq
      rw [hu] at hk
      cases hk
      exact hrow
    · exact hs.accounts k v hk

theorem MailSound.userUpdate (hs : MailSound env h w) {id : Id} {d : UserPatch} {u : User}
    (hu : w.users.get? id = some u) (hset : w.setUser id d.apply = .ok w')
    (hrow : AccountSound env h w.outbox id (d.apply u)) : MailSound env h w' := by
  obtain ⟨rfl, u', hu', hclash⟩ := setUser_ok hset
  rw [hu] at hu'
  cases hu'
  exact hs.update hu hclash hrow

theorem MailSound.noUser (hs : MailSound env h w) {k : Id} (hk : w.nonce ≤ k) :
    w.users.get? k = none := Table.get?_of_bound hs.fresh.users hk

theorem MailSound.create (hs : MailSound env h w) {x : User}
    (hclash : ∀ k v, w.users.get? k = some v → x.clash v = false)
    (hrow : AccountSound env h w.outbox w.nonce x) :
    MailSound env h { w with users := w.users.insert w.nonce x, nonce := w.nonce + 1 } := by
  refine ⟨⟨fun i v hi => ?_, fun i t hi => Nat.lt_succ_of_lt (hs.fresh.refreshTokens i t hi)⟩, ?_,
    fun i t hi => Nat.lt_succ_of_lt (hs.drawn i t hi), fun i v hi => ?_⟩
  · rcases Table.get?_insert_cases hi with hold | ⟨rfl, _⟩
    · exact Nat.lt_succ_of_lt (hs.fresh.users i v hold)
    · exact Nat.lt_succ_self _
  · intro i j a b ha hb hij
    rcases Table.get?_insert_cases ha with hai | ⟨rfl, rfl⟩
    · rcases Table.get?_insert_cases hb with hbj | ⟨rfl, rfl⟩
      · exact hs.unclashed i j a b hai hbj hij
      · rw [User.clash_comm]
        exact hclash i a hai
    · rcases Table.get?_insert_cases hb with hbj | ⟨rfl, _⟩
      · exact hclash j b hbj
      · exact absurd rfl hij
  · rcases Table.get?_insert_cases hi with hold | ⟨rfl, rfl⟩
    · exact hs.accounts i v hold
    · exact hrow

theorem createRefreshTokenRecord_ends {id : Id} {u : User} (client : ClientInfo)
    (hu : w.users.get? id = some u) (hd : w.TokensDrawn)
    (hrows : ∀ k t, w.refreshTokens.get? k = some t → k < w.nonce) :
    (createRefreshTokenRecord env id client).Ends Stmt.exec
      (fun r w' => (∃ t, r = .ok t) ∧ MailQuiet w w') w := by
  have hnew : ∀ exp, w.refreshTokens.any
      (fun _ t' => hashToken ({ sub := id, jti := w.nonce, exp } : RefreshJwt) == t'.token) =
        false := by
    refine fun exp => Table.any_eq_false.mpr fun k t' hk => ?_
    have hlt := hd k t' hk
    simp only [beq_eq_false_iff_ne]
    intro heq
    rw [← heq] at hlt
    exact absurd hlt (Nat.lt_irrefl w.nonce)
  unfold createRefreshTokenRecord
  simp only [Prog.bind_eq, ends_randomBytes_bind, ends_date_bind, ends_execute_bind, Stmt.exec,
    World.hasUser, hu, Option.isSome_some, Bool.not_true, Bool.false_eq_true, if_false, hnew]
  refine ⟨⟨_, rfl⟩, rfl, rfl, by show w.nonce ≤ w.nonce + 1 + 1; omega, fun k t hk => ?_,
    fun k t hk => ?_⟩
  · show _ < w.nonce + 1 + 1
    rcases Table.get?_insert_cases hk with hold | ⟨_, rfl⟩
    · have := hd k t hold
      omega
    · show w.nonce < w.nonce + 1 + 1
      omega
  · show k < w.nonce + 1 + 1
    rcases Table.get?_insert_cases hk with hold | ⟨rfl, _⟩
    · have := hrows k t hold
      omega
    · show w.nonce + 1 < w.nonce + 1 + 1
      omega

end Preservation

section Requests

variable {env : Env} {h : List MailEntry} {w w' : World}

def KeepsMail (env : Env) (h : List MailEntry) (w : World) (r : MailRequest) : Prop :=
  (r.prog env).Ends Stmt.exec (fun res w' => MailSound env (⟨r, w, res, w'⟩ :: h) w') w

theorem verifyEmail_keeps (hs : MailSound env h w) (token : Nat) :
    KeepsMail env h w (.verifyEmail token) := by
  unfold KeepsMail MailRequest.prog SaasBackend.verifyEmail
  simp only [Prog.bind_eq, ends_query_bind]
  split
  · exact hs.cons _
  · rename_i id u hfound
    obtain ⟨hu, htoken⟩ := Table.find?_some hfound
    simp only [Bool.and_eq_true, beq_iff_eq] at htoken
    have hrow := hs.accounts id u hu
    split
    · exact hs.cons _
    · simp only [ends_date_bind]
      split
      · simp only [ends_execute_bind, Stmt.exec]
        split
        · rename_i w' hset
          refine (hs.cons _).userUpdate hu hset ?_
          exact ⟨hrow.notBanned, hrow.notSuspended, hrow.noSecondFactor, by simp [UserPatch.apply],
            fun hv => (hrow.proven hv).cons⟩
        · exact hs.cons _
      · simp only [Prog.tryCatch_eq, ends_tryCatch_execute_bind, Stmt.exec]
        split
        · rename_i w' hset
          refine (hs.cons _).userUpdate hu hset ?_
          -- the token found was mailed to the address that becomes the current one
          have hmail := hrow.mailed token htoken.1
          exact ⟨hrow.notBanned, hrow.notSuspended, hrow.noSecondFactor, by simp [UserPatch.apply],
            fun _ => ⟨_, List.mem_cons_self, hmail⟩⟩
        · split
          · exact hs.cons _
          · exact hs.cons _

theorem MailSound.issue (hs : MailSound env h w) {id : Id} {d : UserPatch} {u : User} {t : Nat}
    {recipient : String} (hu : w.users.get? id = some u) (hset : w.setUser id d.apply = .ok w')
    (htoken : (d.apply u).emailVerificationToken = some (hashToken t))
    (hrecipient : recipient = ((d.apply u).pendingEmail).getD (d.apply u).email)
    (hkeeps : (d.apply u).email = u.email ∧ (d.apply u).emailVerified = u.emailVerified ∧
      (d.apply u).banned = u.banned ∧ (d.apply u).suspendedUntil = u.suspendedUntil ∧
      (d.apply u).twoFactorEnabled = u.twoFactorEnabled) :
    MailSound env h { w' with outbox := w'.outbox ++ [.verification recipient t] } := by
  have hrow := hs.accounts id u hu
  obtain ⟨rfl, u', hu', hclash⟩ := setUser_ok hset
  rw [hu] at hu'
  cases hu'
  obtain ⟨hemail, hverified, hbanned, hsuspended, hfactor⟩ := hkeeps
  refine (hs.enqueue (.verification recipient t)).update hu hclash ⟨?_, ?_, ?_,
    fun t' ht' => ?_, ?_⟩
  · rw [hbanned, hrow.notBanned]
  · rw [hsuspended, hrow.notSuspended]
  · rw [hfactor, hrow.noSecondFactor]
  · have heq : t = t' := by simpa [htoken] using ht'
    simp [← heq, hrecipient]
  · rw [hemail, hverified]
    exact hrow.proven

theorem resendVerification_keeps (hs : MailSound env h w) (email : String)
    (hcond : ∀ id u, w.users.get? id = some u → u.live = true → u.email = normalizeEmail env email →
      u.emailVerified = false → u.pendingEmail = none) :
    KeepsMail env h w (.resendVerification email) := by
  unfold KeepsMail MailRequest.prog SaasBackend.resendVerification findUserByEmail
  simp only [Prog.bind_eq, ends_query_bind]
  split
  · exact hs.cons _
  · rename_i id u hfound
    obtain ⟨hu, hmatch⟩ := Table.find?_some hfound
    simp only [Bool.and_eq_true, beq_iff_eq] at hmatch
    split
    · exact hs.cons _
    · rename_i hunverified
      have hpending := hcond id u hu hmatch.2 hmatch.1 (by simpa using hunverified)
      simp only [ends_randomBytes_bind, ends_date_bind, ends_execute_bind, queueVerificationEmail,
        Stmt.exec]
      split
      · rename_i w' hset
        refine ((hs.draw w.now).cons _).issue hu hset rfl ?_ ⟨rfl, rfl, rfl, rfl, rfl⟩
        simp [UserPatch.apply, hpending, hmatch.1]
      · exact (hs.draw w.now).cons _

theorem changeEmail_keeps (hs : MailSound env h w) (userId : Id) (newEmail password : String) :
    KeepsMail env h w (.changeEmail userId newEmail password) := by
  unfold KeepsMail MailRequest.prog SaasBackend.changeEmail findUserById findUserByEmail
    comparePassword
  simp only [Prog.bind_eq, ends_query_bind]
  split
  · exact hs.cons _
  · rename_i u hfound
    obtain ⟨hu, _⟩ := Option.filter_eq_some_iff.mp hfound
    split
    · exact hs.cons _
    · simp only [ends_send_bind, Stmt.exec]
      split
      · exact hs.cons _
      · simp only [ends_query_bind]
        split
        · exact hs.cons _
        · simp only [ends_query_bind]
          split
          · exact hs.cons _
          · simp only [ends_randomBytes_bind, ends_date_bind, ends_execute_bind,
              queueVerificationEmail, Stmt.exec]
            split
            · rename_i w' hset
              refine ((hs.draw w.now).cons _).issue hu hset rfl ?_ ⟨rfl, rfl, rfl, rfl, rfl⟩
              simp [UserPatch.apply]
            · exact (hs.draw w.now).cons _

theorem register_keeps (hs : MailSound env h w) (name email password : String)
    (client : ClientInfo) :
    KeepsMail env h w (.register name email password client) := by
  unfold KeepsMail MailRequest.prog SaasBackend.register findUserByEmail
  simp only [Prog.bind_eq, ends_query_bind]
  split
  · exact hs.cons _
  · simp only [ends_randomBytes_bind, ends_date_bind, Prog.tryCatch_eq, ends_tryCatch_bind]
    split
    · rename_i w₁ hcreate
      obtain ⟨hw₁, hclash⟩ := userCreate_ok hcreate
      have hu₁ := Table.get?_insert_self (t := w.users) (k := w.nonce + 1)
        { email := normalizeEmail env email, password := some (env.bcryptHash password)
          name := some (trim name), emailVerificationToken := some (hashToken w.nonce)
          emailVerificationExpires := some (w.now + verificationTokenTtlMs), createdAt := w.now }
        (hs.noUser (Nat.le_succ _))
      have hs₁ : MailSound env h
          { w₁ with outbox := w₁.outbox ++ [.verification (normalizeEmail env email) w.nonce]
            } := by
        rw [hw₁]
        refine ((hs.draw w.now).enqueue _).create hclash ⟨rfl, rfl, rfl, fun t ht => ?_, by simp⟩
        have heq : w.nonce = t := by simpa using ht
        simp [← heq]
      refine Ends.bind (createRefreshTokenRecord_ends client (by rw [hw₁]; exact hu₁) hs₁.drawn
        hs₁.fresh.refreshTokens) (fun t w₂ hq => ?_) (fun e w₂ hq => ?_)
      · simp only [queueVerificationEmail, signToken, Prog.bind_eq, ends_execute_bind, Stmt.exec,
          hq.2.outbox, Prog.bind_assoc, ends_date_bind]
        exact ((hq.2.enqueue _).sound hs₁).cons _
      · obtain ⟨⟨_, ht⟩, _⟩ := hq
        cases ht
    · split
      · exact (hs.draw w.now).cons _
      · exact (hs.draw w.now).cons _

/-- Some request proves any address, so the invariant can be read off a store that is
sound up to one. -/
theorem exists_proves (env : Env) (id : Id) (email : String) : ∃ e, proves env e id email :=
  ⟨⟨.verifyEmail 0, { outbox := [.verification email 0] }, .error (.outage ""), {}⟩,
    by simp [proves]⟩

/-- `googleAccount` leaves the store sound, once the login it belongs to is on record. -/
theorem googleAccount_ends (hs : MailSound env h w) (googleId email : String)
    (name : Option String) :
    (googleAccount googleId email name).Ends Stmt.exec (fun r w' =>
      match r with
      | .error _ => MailSound env h w'
      | .ok (id, user) => w'.users.get? id = some user ∧
          ∀ e, proves env e id email → MailSound env (e :: h) w') w := by
  unfold googleAccount findUserByEmail
  simp only [Prog.bind_eq, ends_query_bind]
  split
  · rename_i r hfound
    exact ⟨(Table.find?_some hfound).1, fun e _ => hs.cons e⟩
  · simp only [ends_query_bind]
    split
    · rename_i id u hfound
      obtain ⟨hu, hmatch⟩ := Table.find?_some hfound
      simp only [Bool.and_eq_true, beq_iff_eq] at hmatch
      have hrow := hs.accounts id u hu
      split
      · exact hs
      · simp only [saveUser, ends_send_bind, Stmt.exec]
        split
        · rename_i w' hset
          refine ⟨?_, fun e he => (hs.cons e).userUpdate hu hset ⟨hrow.notBanned, hrow.notSuspended,
            hrow.noSecondFactor, hrow.mailed, fun _ => ⟨e, List.mem_cons_self, ?_⟩⟩⟩
          · obtain ⟨rfl, _⟩ := setUser_ok hset
            simp [hu]
          · exact hmatch.1 ▸ he
        · exact hs
    · rw [Prog.tryCatch_eq, Prog.ends_tryCatch, send, Prog.ends_send]
      split
      · rename_i w' hcreate
        obtain ⟨rfl, hclash⟩ := userCreate_ok hcreate
        exact ⟨Table.get?_insert_self _ (hs.noUser (Nat.le_refl _)),
          fun e he => (hs.cons e).create hclash
          ⟨rfl, rfl, rfl, by simp, fun _ => ⟨e, List.mem_cons_self, he⟩⟩⟩
      · simp only []
        split
        · simp only [ends_query_bind]
          split
          · rename_i r hfound
            exact ⟨(Table.find?_some hfound).1, fun e _ => hs.cons e⟩
          · exact hs
        · exact hs

theorem proves_of_login {code email : String} {id : Id} {e : MailEntry} (state : String)
    (client : ClientInfo) (hreq : e.req = .googleLogin code state client)
    (hasserts : googleAsserts env code email = true) (hres : signsIn id e.res = true) :
    proves env e id email := by
  unfold proves
  rw [hreq]
  exact ⟨hasserts, hres⟩

theorem googleLogin_keeps (hs : MailSound env h w) (code state : String) (client : ClientInfo) :
    KeepsMail env h w (.googleLogin code state client) := by
  simp only [KeepsMail, MailRequest.prog, SaasBackend.googleLogin, Prog.bind_eq]
  split
  · exact hs.cons _
  · simp only [ends_date_bind]
    split
    · exact hs.cons _
    · split
      · exact hs.cons _
      · rename_i payload hexchange
        split
        · rename_i googleId email hsub hemail
          split
          · exact hs.cons _
          · rename_i hverified
            refine Ends.bind
              (googleAccount_ends hs googleId (normalizeEmail env email) payload.name)
              ?_ (fun _ w' hw' => hw'.cons _)
            rintro ⟨id, user⟩ w₁ ⟨hu₁, hsound⟩
            have hasserts : googleAsserts env code (normalizeEmail env email) = true := by
              simp only [Bool.not_eq_true, Bool.not_eq_false'] at hverified
              simp [googleAsserts, hexchange, hemail, hverified]
            obtain ⟨e₀, he₀⟩ := exists_proves env id (normalizeEmail env email)
            have hs₀ := hsound e₀ he₀
            have hrow₀ := hs₀.accounts id user hu₁
            have hclash : ∀ k v, w₁.users.get? k = some v → k ≠ id →
                (UserPatch.apply { lastLoginAt := some w₁.now } user).clash v = false :=
              fun k v hk hne => hs₀.unclashed id k user v hu₁ hk (Ne.symm hne)
            have hupdate := setUser_eq_ok hu₁ hclash
            have hstamped := fun e he =>
              let hrow := (hsound e he).accounts id user hu₁
              (hsound e he).update hu₁ hclash
                ⟨hrow.notBanned, hrow.notSuspended, hrow.noSecondFactor, hrow.mailed, hrow.proven⟩
            simp only [hrow₀.notBanned, User.suspendedAt, hrow₀.notSuspended, hrow₀.noSecondFactor,
              Option.any_none, Bool.false_eq_true, if_false, ends_date_bind, saveUser,
              ends_send_bind, Stmt.exec, hupdate]
            have hu₂ : (w₁.users.update id (UserPatch.apply { lastLoginAt := some w₁.now })).get?
              id =
                some (UserPatch.apply { lastLoginAt := some w₁.now } user) := by
              simp [hu₁]
            refine Ends.bind (createRefreshTokenRecord_ends client hu₂ hs₀.drawn
              hs₀.fresh.refreshTokens) (fun t w₂ hq => ?_) (fun e w₂ hq => ?_)
            · simp only [signToken, Prog.bind_eq, Prog.bind_assoc, ends_date_bind]
              exact hq.2.sound (hstamped _ (proves_of_login state client rfl hasserts
                (by simp [signsIn, safeUser])))
            · obtain ⟨⟨_, ht⟩, _⟩ := hq
              cases ht
        · exact hs.cons _

theorem wait_keeps (hs : MailSound env h w) (d : Time) : KeepsMail env h w (.wait d) :=
  ⟨⟨hs.fresh.users, hs.fresh.refreshTokens⟩, hs.unclashed, hs.drawn, (hs.cons _).accounts⟩

/-- No verification is resent to an account that is still unverified and has a change of
address pending. -/
def ResendsUndisturbed (env : Env) (w : World) : MailRequest → Prop
  | .resendVerification email => ∀ id u, w.users.get? id = some u → u.live = true →
      u.email = normalizeEmail env email → u.emailVerified = false → u.pendingEmail = none
  | _ => True

theorem MailSound.serve (hs : MailSound env h w) (r : MailRequest)
    (hr : ResendsUndisturbed env w r) :
    KeepsMail env h w r := by
  cases r with
  | register name email password client => exact register_keeps hs name email password client
  | changeEmail userId newEmail password => exact changeEmail_keeps hs userId newEmail password
  | resendVerification email => exact resendVerification_keeps hs email hr
  | verifyEmail token => exact verifyEmail_keeps hs token
  | googleLogin code state client => exact googleLogin_keeps hs code state client
  | wait d => exact wait_keeps hs d

end Requests

/-- In a run without such resends a verified account's address is proven. -/
theorem verified_email_proven (env : Env) {w₀ w : World} {h : List MailEntry}
    (hrun : Steps (Served Stmt.exec (MailRequest.prog env) (ResendsUndisturbed env)) w₀ h w)
    (husers : w₀.users = ∅) (htokens : w₀.refreshTokens = ∅) {id : Id} {u : User}
    (hu : w.users.get? id = some u) (hv : u.emailVerified = true) : Proven env h id u.email := by
  have hnone : ∀ k, w₀.users.get? k = none := by rw [husers]; exact fun _ => rfl
  have hnone' : ∀ k, w₀.refreshTokens.get? k = none := by rw [htokens]; exact fun _ => rfl
  have h₀ : MailSound env [] w₀ :=
    ⟨⟨by simp [hnone], by simp [hnone']⟩, by simp [World.Unclashed, hnone],
      by simp [World.TokensDrawn, hnone'], by simp [hnone]⟩
  have hs := Served.invariant (MailSound env) h₀ (fun h s r hs hr => hs.serve r hr) hrun
  exact (hs.accounts id u hu).proven hv

def verifiedRun : List MailEntry × World :=
  serveAll Stmt.exec (MailRequest.prog sampleEnv)
    [.register "A" "a@x.io" "pw" {}, .verifyEmail 0] ([], {})

theorem verified_email_proven_registered :
    Proven sampleEnv verifiedRun.1 1 ((verifiedRun.2.users.get? 1).get (by decide)).email :=
  verified_email_proven sampleEnv
    (serveAll_steps _ (by simp [ResendsUndisturbed]) _ .refl) rfl rfl
    (Option.some_get _).symm (by decide)

/-- A token resent to the current address while a change is pending verifies the new
address, to which it was never mailed. -/
def resentRun : List MailEntry × World :=
  serveAll Stmt.exec (MailRequest.prog sampleEnv)
    [.register "A" "a@x.io" "pw" {}, .changeEmail 1 "b@x.io" "pw", .resendVerification "a@x.io",
      .verifyEmail 5] ([], {})

theorem resent_token_verifies_unproven :
    Steps (Served Stmt.exec (MailRequest.prog sampleEnv) (fun _ _ => True))
    {} resentRun.1 resentRun.2 ∧ ∃ u, resentRun.2.users.get? 1 = some u ∧ u.emailVerified = true ∧
        ¬ Proven sampleEnv resentRun.1 1 u.email :=
  ⟨serveAll_steps _ (by simp) _ .refl, (resentRun.2.users.get? 1).get (by decide),
    (Option.some_get _).symm, by decide, by decide⟩

end SaasBackend
