import SaasBackend.GoogleLinking
import SaasBackend.ResetTokens
import SaasBackend.SecondFactor

set_option autoImplicit false

namespace SaasBackend
open Keyed Handler

def Stmt.compares : Stmt → Bool
  | .bcryptCompare _ => true
  | _ => false

/-- `p`, run alone from `w`, ends with `post` after `n` bcrypt comparisons. -/
def Compares {α : Type} (n : Nat) (post : Except Err α → World → Prop) (p : Req α) (w : World) :
    Prop :=
  p.Traces Stmt.exec (fun r ls w' => ls.countP Stmt.compares = n ∧ post r w') w

section Rules

variable {α β : Type} {m n : Nat} {w : World}

theorem Compares.throw {post : Except Err α → World → Prop} {e : Err} (h : post (.error e) w) :
    Compares 0 post (.throw e) w := ⟨rfl, h⟩

theorem Compares.bind {Q : Except Err α → World → Prop}
    {post : Except Err β → World → Prop} {p : Req α} {k : α → Req β} (hp : Compares m Q p w)
    (hok : ∀ a w', Q (.ok a) w' → Compares n post (k a) w') (herr : ∀ e w', ¬ Q (.error e) w') :
    Compares (m + n) post (p.bind k) w := by
  refine Prog.traces_bind.mpr (Prog.Traces.weaken hp fun r ls w' hr => ?_)
  cases r with
  | ok a =>
    refine Prog.Traces.weaken (hok a w' hr.2) fun r' ls' w'' hr' => ⟨?_, hr'.2⟩
    rw [List.countP_append, hr.1, hr'.1]
  | error e => exact absurd hr.2 (herr e w')

theorem Compares.of_sends {post : Except Err α → World → Prop} {p : Req α}
    (hp : p.Sends (fun l => l.compares = false)) (h : p.Ends Stmt.exec post w) :
    Compares 0 post p w :=
  ⟨List.countP_eq_zero.mpr fun l hl => Bool.eq_false_iff.mp (hp.sent w l hl), h⟩

theorem Compares.quietly {Q : Except Err α → World → Prop}
    {post : Except Err β → World → Prop} {p : Req α} {k : α → Req β}
    (hquiet : p.Sends (fun l => l.compares = false)) (hp : p.Ends Stmt.exec Q w)
    (hok : ∀ a w', Q (.ok a) w' → Compares n post (k a) w') (herr : ∀ e w', ¬ Q (.error e) w') :
    Compares n post (p.bind k) w := by
  have h := (show Compares 0 Q p w from .of_sends hquiet hp).bind hok herr
  rwa [Nat.zero_add] at h

theorem compares_query_bind {post : Except Err β → World → Prop} {view : World → α} {k : α → Req β}
    (h : Compares n post (k (view w)) w) : Compares n post ((query view).bind k) w := by
  refine traces_query_bind.mpr (Prog.Traces.weaken h fun r ls w' hr => ⟨?_, hr.2⟩)
  rw [List.countP_cons_of_neg (by decide), hr.1]

theorem dummyCompare_compares : Compares 1 (fun r w' => r = .ok () ∧ w' = w) dummyCompare w :=
    ⟨rfl, rfl, rfl⟩

end Rules

structure World.Indexed (w : World) : Prop where
  unclashed : w.Unclashed
  verifications : ∀ k x t, w.users.get? k = some x → x.emailVerificationToken = some (hashToken t) →
    t < w.nonce
  resets : w.ResetsDrawn

/-- The address is a live account's that has this password and is not locked. -/
def World.Authentic (env : Env) (w : World) (email password : String) : Prop :=
  ∃ id x hash, w.users.get? id = some x ∧ x.email = normalizeEmail env email ∧ x.live = true ∧
    x.lockedUntil.all (fun t => decide (t ≤ w.now)) = true ∧ x.password = some hash ∧
    env.bcryptCompare password hash = true

def invalidCredentials : Err := httpError "errors.invalidCredentials" 401

section Login

variable {env : Env} {w : World} {email password : String} {client : ClientInfo}

theorem checkPassword_compares (x : User) (isLocked : Bool) :
    Compares 1 (fun r w' => w' = w ∧ ∃ valid, r = .ok valid ∧ (valid = true ↔
      isLocked = false ∧ ∃ hash, x.password = some hash ∧ env.bcryptCompare password hash = true))
      (checkPassword env password x isLocked) w := by
  refine ⟨?_, checkPassword_ends password x isLocked⟩
  unfold checkPassword
  split <;> rfl

/-- The bookkeeping of a login: writes to the row of the account that leave the indexes alone. -/
def Keeps (id : Id) (r : Except Err Unit) (w' : World) : Prop :=
  r = .ok () ∧ w'.Unclashed ∧ ∃ x', w'.users.get? id = some x'

theorem touch_keeps (hw : w.Unclashed) {id : Id} {x : User} (hx : w.users.get? id = some x)
    {d : UserPatch} (hd : ∀ y v, (d.apply y).clash v = User.clash y v) :
    (execute (.userUpdate id d)).Ends Stmt.exec (Keeps id) w := by
  have hexec := touch_exec hw hx hd
  simp only [execute, Prog.ends_send, hexec]
  exact ⟨rfl, hw.exec hexec, d.apply x, by simp [hx]⟩

theorem when_keeps (hw : w.Unclashed) {id : Id} {x : User} (hx : w.users.get? id = some x)
    {c : Bool} {p : Req Unit} (hp : p.Ends Stmt.exec (Keeps id) w) :
    (when c p).Ends Stmt.exec (Keeps id) w := by
  cases c
  · exact ⟨rfl, hw, x, hx⟩
  · exact hp

theorem failedAttempt_keeps (hw : w.Unclashed) {id : Id} {x : User}
    (hx : w.users.get? id = some x) :
    Prog.Ends Stmt.exec (Keeps id) (do
      let updated ← saveUser id { failedLoginIncrement := true }
      when (decide (maxFailedAttempts ≤ updated.failedLoginAttempts)) (do
        let now ← date
        execute (.userUpdate id { lockedUntil := some (some (now + lockDurationMs)) }))) w := by
  have hexec := touch_exec hw hx (d := { failedLoginIncrement := true }) fun _ _ => rfl
  simp only [saveUser, Prog.bind_eq, ends_send_bind, hexec]
  have hx' : ({ w with users := w.users.update id (UserPatch.apply { failedLoginIncrement := true })
    } : World).users.get?
      id = some (UserPatch.apply { failedLoginIncrement := true } x) := by simp [hx]
  exact when_keeps (hw.exec hexec) hx' (touch_keeps (hw.exec hexec) hx' fun _ _ => rfl)

theorem login_compares (hw : w.Unclashed) :
    Compares 1 (fun r _ => ¬ w.Authentic env email password → r = .error invalidCredentials)
      (login env email password client) w := by
  unfold login
  refine compares_query_bind ?_
  split
  · exact dummyCompare_compares.bind (fun _ _ _ => .throw fun _ => rfl) fun _ _ h => (by cases h.1)
  rename_i id x hfound
  obtain ⟨hx, hmatch⟩ := Table.find?_some hfound
  simp only [Bool.and_eq_true, beq_iff_eq] at hmatch
  refine compares_query_bind (compares_query_bind ?_)
  refine .quietly (when_sends (.send rfl)) (when_keeps hw hx (touch_keeps hw hx fun _ _ => rfl))
    (fun _ w₁ ⟨_, hw₁, x₁, hx₁⟩ => ?_) fun _ _ h => (by cases h.1)
  refine (checkPassword_compares x _).bind (n := 0) (fun valid w₂ hchecked => ?_) ?_
  rotate_left
  · rintro _ _ ⟨_, _, h, _⟩
    cases h
  obtain ⟨rfl, _, heq, hvalid⟩ := hchecked
  cases heq
  split
  · refine .quietly (when_sends (.bind (.send rfl) fun _ => when_sends ?_))
      (when_keeps hw₁ hx₁ (failedAttempt_keeps hw₁ hx₁)) (fun _ _ _ => .throw fun _ => rfl)
        fun _ _ h => (by cases h.1)
    exact .bind (.send rfl) fun _ => .send rfl
  · rename_i hcorrect
    obtain ⟨hlocked, hash, hpassword, hmatches⟩ := hvalid.mp (by simpa using hcorrect)
    have hproof : w.Authentic env email password :=
      ⟨id, x, hash, hx, hmatch.1, hmatch.2, by cases h : x.lockedUntil <;> simp_all, hpassword,
        hmatches⟩
    refine .of_sends ?_ fun h => absurd hproof h
    split
    · exact .throw
    refine .bind (.send rfl) fun now => ?_
    split
    · exact .throw
    split
    · exact .bind (.bind (.send rfl) fun _ => .bind (.send rfl) fun _ => .bind (.send rfl) fun _ =>
        .ret) fun _ => .ret
    · refine .bind (.bind (.send rfl) fun _ => .bind (.send rfl) fun _ => .bind (.send rfl) fun _ =>
        .ret) fun _ =>
        .bind (.send rfl) fun _ => .bind (.send rfl) fun _ =>
          .bind (.bind (.send rfl) fun _ => .ret) fun _ => .ret

end Login

section Mail

variable {env : Env} {w : World}

theorem storeToken_exec (hw : w.Indexed) {id : Id} {x : User} (hx : w.users.get? id = some x)
    {d : UserPatch} (hd : ∀ v, (d.apply x).clash v = true → x.clash v = true ∨
      v.emailVerificationToken = some (hashToken w.nonce) ∨
      v.passwordResetToken = some (hashToken w.nonce)) :
    (Stmt.userUpdate id d).exec { w with nonce := w.nonce + 1 } =
      .ok { w with nonce := w.nonce + 1, users := w.users.update id d.apply } := by
  refine setUser_eq_ok hx fun k v hk hne => Bool.eq_false_iff.mpr fun hclash => ?_
  rcases hd v hclash with hold | htoken | htoken
  · exact absurd hold (by simp [hw.unclashed id k x v hx hk (Ne.symm hne)])
  · exact absurd (hw.verifications k v w.nonce hk htoken) (Nat.lt_irrefl _)
  · exact absurd (hw.resets k v w.nonce hk htoken) (Nat.lt_irrefl _)

theorem forgotPassword_ends (hdev : env.exposeDevTokens = false) (hw : w.Indexed) (email : String) :
    (forgotPassword env email).Ends Stmt.exec
      (fun r _ => r = .ok (.message "messages.passwordResetTokenSent" none)) w := by
  simp only [forgotPassword, findUserByEmail, Prog.bind_eq, ends_query_bind]
  split
  · rfl
  rename_i id x hfound
  have hexec := storeToken_exec hw (Table.find?_some hfound).1
    (d := { passwordResetToken := some (some (hashToken w.nonce))
            passwordResetExpires := some (some (w.now + resetTokenTtlMs)) }) fun v hclash => by
      simp only [User.clash, Bool.or_eq_true] at hclash ⊢
      rcases hclash with hclash | hclash
      · exact .inl (.inl hclash)
      · exact .inr (.inr (beq_iff_eq.mp (Bool.and_eq_true_iff.mp hclash).2).symm)
  simp only [ends_randomBytes_bind, ends_date_bind, ends_execute_bind, hexec, hdev]
  rfl

theorem resendVerification_ends (hdev : env.exposeDevTokens = false) (hw : w.Indexed)
    (email : String) :
    (resendVerification env email).Ends Stmt.exec
      (fun r _ => r = .ok (.message "messages.verificationEmailSent" none)) w := by
  simp only [resendVerification, findUserByEmail, Prog.bind_eq, ends_query_bind]
  split
  · rfl
  split
  · rfl
  rename_i id x hfound _
  have hexec := storeToken_exec hw (Table.find?_some hfound).1
    (d := { emailVerificationToken := some (some (hashToken w.nonce))
            emailVerificationExpires := some (some (w.now + verificationTokenTtlMs)) })
            fun v hclash => by
      simp only [User.clash, Bool.or_eq_true] at hclash ⊢
      rcases hclash with (hclash | hclash) | hclash
      · exact .inl (.inl (.inl hclash))
      · exact .inr (.inl (beq_iff_eq.mp (Bool.and_eq_true_iff.mp hclash).2).symm)
      · exact .inl (.inr hclash)
  simp only [ends_randomBytes_bind, ends_date_bind, ends_execute_bind, hexec, hdev]
  rfl

end Mail

/-- The responses of the three endpoints do not depend on the store, as long as login is given
no valid credentials; every login costs one comparison. -/
theorem accounts_not_enumerable (env : Env) (hdev : env.exposeDevTokens = false) {w w' : World}
    (hw : w.Indexed) (hw' : w'.Indexed) (email password : String) (client : ClientInfo) :
    (¬ w.Authentic env email password → ¬ w'.Authentic env email password →
      ((login env email password client).run Stmt.exec w).1 =
        ((login env email password client).run Stmt.exec w').1) ∧
    ((login env email password client).sent Stmt.exec w).countP Stmt.compares = 1 ∧
    ((login env email password client).sent Stmt.exec w').countP Stmt.compares = 1 ∧
    ((forgotPassword env email).run Stmt.exec w).1 =
      ((forgotPassword env email).run Stmt.exec w').1 ∧
    ((resendVerification env email).run Stmt.exec w).1 =
      ((resendVerification env email).run Stmt.exec w').1 := by
  obtain ⟨hcount, hanswer⟩ : Compares 1 _ (login env email password client) w :=
    login_compares hw.unclashed
  obtain ⟨hcount', hanswer'⟩ : Compares 1 _ (login env email password client) w' :=
    login_compares hw'.unclashed
  refine ⟨fun hinvalid hinvalid' => ?_, hcount, hcount', ?_, ?_⟩
  · rw [hanswer hinvalid, hanswer' hinvalid']
  · exact (forgotPassword_ends hdev hw email).trans (forgotPassword_ends hdev hw' email).symm
  · exact (resendVerification_ends hdev hw email).trans
      (resendVerification_ends hdev hw' email).symm

section Sample

def oneAccount : World :=
  { users := Table.insert ∅ 1 { email := "a@x.io", password := some "pw" }, nonce := 2 }

theorem oneAccount_row {k : Id} {x : User} (hk : oneAccount.users.get? k = some x) :
    k = 1 ∧ x = { email := "a@x.io", password := some "pw" } := by
  rcases Table.get?_insert_cases hk with h | h
  · cases h
  · exact h

theorem oneAccount_indexed : oneAccount.Indexed := by
  refine ⟨fun i j u v hi hj hne => ?_, fun k x t hk htoken => ?_, fun k x t hk htoken => ?_⟩
  · exact absurd ((oneAccount_row hi).1.trans (oneAccount_row hj).1.symm) hne
  · rw [(oneAccount_row hk).2] at htoken
    cases htoken
  · rw [(oneAccount_row hk).2] at htoken
    cases htoken

/-- No account beside a wrong password. -/
theorem wrong_password_not_enumerable :
    ((login sampleEnv "a@x.io" "no" {}).run Stmt.exec {}).1 =
      ((login sampleEnv "a@x.io" "no" {}).run Stmt.exec oneAccount).1 := by
  refine (accounts_not_enumerable sampleEnv rfl (w := {}) ⟨fun _ _ _ _ hk => (by cases hk),
    fun _ _ _ hk => (by cases hk), fun _ _ _ hk => (by cases hk)⟩ oneAccount_indexed "a@x.io"
    "no" {}).1 ?_ ?_
  · rintro ⟨id, x, hash, hx, _⟩
    cases hx
  · rintro ⟨id, x, hash, hx, _, _, _, hpassword, hmatches⟩
    rw [(oneAccount_row hx).2] at hpassword
    cases hpassword
    exact absurd hmatches (by decide)

end Sample

end SaasBackend
