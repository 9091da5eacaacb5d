import SaasBackend.AuthSchemas
import SaasBackend.GoogleLinking

set_option autoImplicit false

namespace SaasBackend
open Handler Keyed

/-- What zod takes for an e-mail address, and the number a reset token spells. -/
structure InputEnv where
  isEmail : String → Bool
  readToken : String → Nat

inductive PasswordRequest where
  | register (body : Json) (client : ClientInfo)
  | resetPassword (body : Json)
  | changePassword (userId : Id) (body : Json)

def PasswordRequest.password : PasswordRequest → Option Json
  | .register body _ => body.field "password"
  | .resetPassword body => body.field "newPassword"
  | .changePassword _ body => body.field "newPassword"

def PasswordRequest.handle (env : Env) (inputs : InputEnv) :
    PasswordRequest → Except (List (String × List IssueMessage)) (Req Reply)
  | .register body client =>
    (validate (registerSchema inputs.isEmail) (sanitizeRequest body)).map
      fun (name, email, password) => SaasBackend.register env name email password client
  | .resetPassword body =>
    (validate resetPasswordSchema (sanitizeRequest body)).map fun (token, newPassword) =>
      SaasBackend.resetPassword env (inputs.readToken token) newPassword
  | .changePassword userId body =>
    (validate changePasswordSchema (sanitizeRequest body)).map fun (currentPassword, newPassword) =>
      SaasBackend.changePassword env userId currentPassword newPassword

def handleLogin (env : Env) (inputs : InputEnv) (body : Json) (client : ClientInfo) :
    Except (List (String × List IssueMessage)) (Req Reply) :=
  (validate (loginSchema inputs.isEmail) (sanitizeRequest body)).map fun (email, password) =>
    login env email password client

def Stmt.storedPassword : Stmt → Option PasswordHash
  | .userCreate u => u.password
  | .userUpdate _ d | .killSessions _ d => d.password
  | _ => none

def Stmt.setsPassword (w₀ : World) (id : Id) : Stmt → Prop
  | .userCreate u => w₀.users.get? id = none ∧ u.password.isSome
  | .userUpdate k d | .killSessions k d => k = id ∧ d.password.isSome
  | _ => False

def Stmt.storesOnly (h : PasswordHash) (l : Stmt) : Prop :=
  ∀ h', l.storedPassword = some h' → h' = h

def PasswordsFrom (h : PasswordHash) (w w' : World) : Prop :=
  ∀ id x', w'.users.get? id = some x' →
    (∃ x, w.users.get? id = some x ∧ x'.password = x.password) ∨ ∀ h',
    x'.password = some h' → h' = h

section Storing

variable {env : Env} {inputs : InputEnv} {h : PasswordHash} {w w' : World} {l : Stmt}

theorem PasswordsFrom.refl (w : World) : PasswordsFrom h w w := fun _ x hx => .inl ⟨x, hx, rfl⟩

theorem PasswordsFrom.trans (w₁ w₂ w₃ : World) (h₁ : PasswordsFrom h w₁ w₂)
    (h₂ : PasswordsFrom h w₂ w₃) :
    PasswordsFrom h w₁ w₃ := by
  intro id x₃ hx₃
  rcases h₂ id x₃ hx₃ with ⟨x₂, hx₂, hsame⟩ | hnew
  · rw [hsame]
    exact (h₁ id x₂ hx₂).imp_left fun ⟨x₁, hx₁, hsame'⟩ => ⟨x₁, hx₁, hsame'⟩
  · exact .inr hnew

theorem patched_password {d : UserPatch} (hd : ∀ h', d.password = some h' → h' = h) (x : User) :
    (d.apply x).password = x.password ∨ ∀ h', (d.apply x).password = some h' → h' = h := by
  cases hpassword : d.password with
  | none => simp [UserPatch.apply, hpassword]
  | some h' => simp [UserPatch.apply, hpassword, hd h' hpassword]

theorem passwords_step (l : Stmt) (w w' : World) (hl : l.storesOnly h) (hexec : l.exec w = .ok w') :
    PasswordsFrom h w w' := by
  intro id x' hx'
  rcases (exec_effect hexec).user_back hx' with ⟨x, hx, hstep⟩ | ⟨u, rfl, rfl, rfl⟩
  · cases hstep with
    | same => exact .inl ⟨_, hx, rfl⟩
    | update d => exact (patched_password hl _).imp_left fun hsame => ⟨_, hx, hsame⟩
    | kill d => exact (patched_password hl _).imp_left fun hsame => ⟨_, hx, hsame⟩
    | reuse => exact .inl ⟨_, hx, rfl⟩
  · exact .inr hl

theorem set_password {id : Id} {d : UserPatch} (hl : l = .userUpdate id d ∨ l = .killSessions id d)
    (hd : d.password.isSome) (hstores : l.storesOnly h) (hexec : l.exec w = .ok w') {x' : User}
    (hx' : w'.users.get? id = some x') : x'.password = some h := by
  obtain ⟨h', hpassword⟩ := Option.isSome_iff_exists.mp hd
  rw [(exec_effect hexec).users] at hx'
  rcases hl with rfl | rfl
  · obtain rfl := hstores h' hpassword
    simp only [Stmt.usersAfter, Table.get?_update, if_true, Option.map_eq_some_iff] at hx'
    obtain ⟨x, _, rfl⟩ := hx'
    simp [UserPatch.apply, hpassword]
  · obtain rfl := hstores h' hpassword
    simp only [Stmt.usersAfter, Table.get?_update, if_true, Option.map_eq_some_iff] at hx'
    obtain ⟨x, _, rfl⟩ := hx'
    simp [UserPatch.apply, hpassword]

theorem createRefreshTokenRecord_stores (userId : Id) (client : ClientInfo) :
    (createRefreshTokenRecord env userId client).Sends (·.storesOnly h) :=
  .bind (.send nofun) fun _ => .bind (.send nofun) fun _ => .bind (.send nofun) fun _ => .ret

theorem register_stores (name email password : String) (client : ClientInfo) :
    (register env name email password client).Sends (·.storesOnly (env.bcryptHash password)) := by
  refine .bind (.send nofun) fun existing => ?_
  split
  · exact .throw
  · refine .bind (.send nofun) fun emailVerificationToken => .bind (.send nofun) fun now => ?_
    refine .bind (.tryCatch (.send fun h' hstored => (Option.some.inj hstored).symm) fun err => ?_)
      fun created => ?_
    · split <;> exact .throw
    · exact .bind (createRefreshTokenRecord_stores ..) fun _ => .bind (.send nofun) fun _ =>
        .bind (.bind (.send nofun) fun _ => .ret) fun _ => .ret

theorem resetPassword_stores (token : Nat) (newPassword : String) :
    (resetPassword env token newPassword).Sends (·.storesOnly (env.bcryptHash newPassword)) := by
  refine .bind (.send nofun) fun found => ?_
  split
  · exact .throw
  · refine .bind (.send nofun) fun now => ?_
    split
    · exact .bind (.send nofun) fun _ => .throw
    · exact .bind (.send fun h' hstored => (Option.some.inj hstored).symm) fun _ => .ret

theorem changePassword_stores (userId : Id) (currentPassword newPassword : String) :
    (changePassword env userId currentPassword newPassword).Sends
      (·.storesOnly (env.bcryptHash newPassword)) := by
  refine .bind (.send nofun) fun found => ?_
  split
  · exact .throw
  · split
    · exact .throw
    · refine .bind (.send nofun) fun valid => ?_
      split
      · exact .throw
      · refine .bind (.send nofun) fun samePassword => ?_
        split
        · exact .throw
        · exact .bind (.send fun h' hstored => (Option.some.inj hstored).symm) fun _ => .ret

theorem password_sanitized {f : StringField} {body : Json} {p s : String}
    (hkey : strippedKey f.key = false) (hsent : body.field f.key = some (.str p))
    (hparse : f.parse (sanitizeRequest body) = .ok s) :
    s = sanitizeString p := by
  obtain ⟨raw, hraw, hs⟩ := (field_sanitizeRequest hkey).mp (StringField.parse_eq_ok.mp hparse).1
  rw [hsent] at hraw
  cases hraw
  exact hs

theorem PasswordRequest.handle_stores {r : PasswordRequest} {prog : Req Reply} {p : String}
    (hsent : r.password = some (.str p)) (hr : r.handle env inputs = .ok prog) :
    prog.Sends (·.storesOnly (env.bcryptHash (sanitizeString p))) := by
  cases r with
  | register body client =>
    obtain ⟨⟨name, email, password⟩, hvalid, rfl⟩ := validated hr
    obtain ⟨_, hrest⟩ := both_eq_ok.mp (parseObject_ok hvalid)
    obtain rfl := password_sanitized (f := newPasswordField "password") (by decide) hsent
      (both_eq_ok.mp hrest).2
    exact register_stores name email _ client
  | resetPassword body =>
    obtain ⟨⟨token, newPassword⟩, hvalid, rfl⟩ := validated hr
    obtain rfl := password_sanitized (f := newPasswordField "newPassword") (by decide) hsent
      (both_eq_ok.mp (parseObject_ok hvalid)).2
    exact resetPassword_stores (inputs.readToken token) _
  | changePassword userId body =>
    obtain ⟨⟨currentPassword, newPassword⟩, hvalid, rfl⟩ := validated hr
    obtain rfl := password_sanitized (f := newPasswordField "newPassword") (by decide) hsent
      (both_eq_ok.mp (parseObject_ok hvalid)).2
    exact changePassword_stores userId currentPassword _

end Storing

def Env.ComparesPrefixes (env : Env) : Prop :=
  ∀ p q, env.bcryptCompare q (env.bcryptHash p) = true ↔
    p.toUTF8.data.toList.take 72 = q.toUTF8.data.toList.take 72

/-- `r` set the password of the account `id` to the text `p` when it ran from `w₀`, and in `w` it is
still set so. -/
structure SetWith (env : Env) (inputs : InputEnv) (r : PasswordRequest) (p : String) (id : Id)
    (w₀ w : World) :
    Prop where
  sent : r.password = some (.str p)
  accepted : ∃ prog, r.handle env inputs = .ok prog ∧
    (∃ l ∈ prog.sent Stmt.exec w₀, l.setsPassword w₀ id) ∧
    (w.users.get? id).bind User.password = ((prog.runs w₀).2.users.get? id).bind User.password

def SignsIn (env : Env) (inputs : InputEnv) (w : World) (id : Id) (body : Json) : Prop :=
  ∃ email password, loginSchema inputs.isEmail (sanitizeRequest body) = .ok (email, password) ∧
    LogsIn env w id email password

section Distinct

variable {env : Env} {inputs : InputEnv} {r : PasswordRequest} {p q : String} {id : Id}
    {w₀ w : World}

theorem SetWith.stored (hset : SetWith env inputs r p id w₀ w) {x : User}
    (hx : w.users.get? id = some x) {hash : PasswordHash} (hhash : x.password = some hash) :
    hash = env.bcryptHash (sanitizeString p) := by
  obtain ⟨prog, hr, ⟨l, hl, hsets⟩, hkept⟩ := hset.accepted
  have hstores := PasswordRequest.handle_stores hset.sent hr
  rw [hx, Option.bind_some, hhash, eq_comm, Option.bind_eq_some_iff] at hkept
  obtain ⟨x₁, hx₁, hhash₁⟩ := hkept
  have hset : ∀ d, (l = .userUpdate id d ∨ l = .killSessions id d) → d.password.isSome →
      hash = env.bcryptHash (sanitizeString p) := by
    intro d hl' hd
    obtain ⟨s₁, s₂, hexec, _, hafter⟩ :=
      hstores.mem_sent PasswordsFrom.refl PasswordsFrom.trans passwords_step hl
    rcases hafter id x₁ hx₁ with ⟨x₂, hx₂, hsame⟩ | hnew
    · rw [hsame, set_password hl' hd (hstores.sent w₀ l hl) hexec hx₂] at hhash₁
      exact (Option.some.inj hhash₁).symm
    · exact hnew hash hhash₁
  cases l with
  | userCreate u =>
    -- a row that was not there when the request began
    rcases hstores.run PasswordsFrom.refl PasswordsFrom.trans passwords_step w₀ id x₁ hx₁ with
      ⟨x₀, hx₀, _⟩ | hnew
    · rw [hsets.1] at hx₀
      cases hx₀
    · exact hnew hash hhash₁
  | userUpdate k d =>
    obtain ⟨rfl, hd⟩ := hsets
    exact hset d (.inl rfl) hd
  | killSessions k d =>
    obtain ⟨rfl, hd⟩ := hsets
    exact hset d (.inr rfl) hd
  | _ => cases hsets

theorem SignsIn.matched {body : Json} (hq : body.field "password" = some (.str q))
    (hin : SignsIn env inputs w id body) :
    ∃ x hash, w.users.get? id = some x ∧ x.password = some hash ∧
      env.bcryptCompare (sanitizeString q) hash = true := by
  obtain ⟨email, password, hvalid, hlogs⟩ := hin
  obtain rfl := password_sanitized (f := passwordField "password" "validation.passwordRequired")
    (by decide) hq
    (both_eq_ok.mp (parseObject_ok hvalid)).2
  obtain ⟨x, hx⟩ := hlogs.stands
  obtain ⟨hash, hhash, hcompare⟩ := hx.matched
  exact ⟨x, hash, hx.user, hhash, hcompare⟩

theorem bytes_take_inj {s t : String} (hs : s.utf8ByteSize ≤ 72) (ht : t.utf8ByteSize ≤ 72)
    (h : s.toUTF8.data.toList.take 72 = t.toUTF8.data.toList.take 72) : s = t := by
  have hlength : ∀ u : String, u.toUTF8.data.toList.length = u.utf8ByteSize := fun _ => rfl
  rw [List.take_of_length_le (by rw [hlength]; exact hs),
    List.take_of_length_le (by rw [hlength]; exact ht)] at h
  exact String.toByteArray_inj.mp (ByteArray.ext (Array.ext' h))

theorem handleLogin_password (before after : List (String × Json)) (client : ClientInfo)
    (hsame : sanitizeString p = sanitizeString q) :
    handleLogin env inputs (.obj (before ++ ("password", .str q) :: after)) client =
      handleLogin env inputs (.obj (before ++ ("password", .str p) :: after)) client := by
  have hfields : sanitizeFields (before ++ ("password", .str q) :: after) 0 =
      sanitizeFields (before ++ ("password", .str p) :: after) 0 := by
    induction before with
    | nil => simp [sanitizeFields, sanitizeField, hsame]
    | cons field before ih => simp [sanitizeFields, ih]
  simp [handleLogin, sanitizeRequest, sanitizeInPlace, hfields]

/-- Passwords stay distinct when their sanitized texts are: two of them of at most 72 bytes that
differ never open the same account, while texts that are sanitized to the same one are the same
password. A text without tags, `javascript:` and event handlers is taken as it was sent. -/
theorem distinct_passwords (hbcrypt : env.ComparesPrefixes)
    (hset : SetWith env inputs r p id w₀ w) :
    (∀ body, body.field "password" = some (.str q) → sanitizeString p ≠ sanitizeString q →
      (sanitizeString p).utf8ByteSize ≤ 72 → (sanitizeString q).utf8ByteSize ≤ 72 →
        ¬ SignsIn env inputs w id body) ∧
    (sanitizeString p = sanitizeString q → ∀ before after client,
      handleLogin env inputs (.obj (before ++ ("password", .str q) :: after)) client =
        handleLogin env inputs (.obj (before ++ ("password", .str p) :: after)) client) ∧
    ∀ s, sanitizeString s = s ↔ Clean s.toList := by
  refine ⟨fun body hq hne hp hq' hin => ?_, fun hsame before after client =>
    handleLogin_password before after client hsame, fun s => sanitizeString_eq_self_iff⟩
  obtain ⟨x, hash, hx, hhash, hcompare⟩ := hin.matched hq
  rw [hset.stored hx hhash, hbcrypt] at hcompare
  exact hne (bytes_take_inj hp hq' hcompare)

end Distinct

def prefixEnv : Env where
  __ := sampleEnv
  bcryptCompare password hash :=
    decide (hash.toUTF8.data.toList.take 72 = password.toUTF8.data.toList.take 72)

theorem prefixEnv_compares : prefixEnv.ComparesPrefixes := fun p q =>
  decide_eq_true_iff (p := p.toUTF8.data.toList.take 72 = q.toUTF8.data.toList.take 72)

def sampleInputs : InputEnv := ⟨fun s => s.toList.contains '@', String.length⟩

def registerBody (password : String) : Json :=
  .obj [("name", .str "Ann"), ("email", .str "ann@x.io"), ("password", .str password)]

def loginBody (password : String) : Json :=
  .obj [("email", .str "ann@x.io"), ("password", .str password)]

def registered (password : String) : World :=
  ((register prefixEnv (sanitizeString "Ann") (sanitizeString "ann@x.io")
    (sanitizeString password) {}).runs {}).2

theorem registered_setWith :
    SetWith prefixEnv sampleInputs (.register (registerBody "Passw0rd") {}) "Passw0rd" 1 {}
      (registered "Passw0rd") :=
  ⟨rfl, _, rfl, ⟨_, .tail _ (.tail _ (.tail _ (.head _))), rfl, rfl⟩, rfl⟩

theorem tagged_signsIn :
    SignsIn prefixEnv sampleInputs (registered "Passw0rd") 1 (loginBody "Passw0rd<b>") :=
  ⟨_, _, rfl, {}, _, rfl, _, rfl⟩

theorem distinct_passwords_merged : prefixEnv.ComparesPrefixes ∧
    ¬ ∀ (r : PasswordRequest) (p q : String) (id : Id) (w₀ w : World) (body : Json),
      SetWith prefixEnv sampleInputs r p id w₀ w → body.field "password" = some (.str q) → p ≠ q →
        ¬ SignsIn prefixEnv sampleInputs w id body := by
  refine ⟨prefixEnv_compares, fun h => ?_⟩
  exact h _ "Passw0rd" "Passw0rd<b>" 1 {} _ (loginBody "Passw0rd<b>") registered_setWith rfl
    (by decide) tagged_signsIn

/-- `Passw0rt` does not open Ann's account. -/
theorem distinct_passwords_ann :
    ¬ SignsIn prefixEnv sampleInputs (registered "Passw0rd") 1 (loginBody "Passw0rt") :=
  (distinct_passwords prefixEnv_compares registered_setWith).1 (loginBody "Passw0rt") rfl
    (by decide) (by decide)
    (by decide)

end SaasBackend
