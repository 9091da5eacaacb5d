import SaasBackend.GoogleLinking
import SaasBackend.HandlerFailures

set_option autoImplicit false

namespace SaasBackend
open Keyed Handler

def World.newcomer (env : Env) (w : World) (name email password : String) : User where
  name := some (trim name)
  email := normalizeEmail env email
  password := some (env.bcryptHash password)
  emailVerificationToken := some (hashToken w.nonce)
  emailVerificationExpires := some (w.now + verificationTokenTtlMs)

def World.registered (env : Env) (w : World) (name email password : String) : Bool :=
  (w.users.find? (fun _ u => u.email == normalizeEmail env email && u.live)).isSome ||
    w.users.any (fun _ v => (w.newcomer env name email password).clash v)

def Undone (w w' : World) : Prop := w'.users = w.users ∧ w'.refreshTokens = w.refreshTokens

theorem create_rethrows {α β : Type} {k : α → Req β} (e : Err) :
    ∃ e', (if e = .prisma .P2002 then Prog.throw (httpError "errors.emailAlreadyRegistered" 409)
      else Prog.throw e : Req α).bind k = .throw e' := by
  split
  · exact ⟨_, rfl⟩
  · exact ⟨_, rfl⟩

section Runs

variable {env : Env} {w : World} {name email password : String}

theorem register_taken_passes (client : ClientInfo)
    (htaken : w.registered env name email password = true) :
    ∃ stores e, (register env name email password client).Passes Stmt.exec (w :: stores)
      (.error e) ∧
      ∀ w' ∈ w :: stores, Undone w w' := by
  unfold register findUserByEmail
  cases hfound :
    (w.users.find? (fun _ u => u.email == normalizeEmail env email && u.live)).isSome with
  | true =>
    refine ⟨[w], httpError "errors.emailAlreadyRegistered" 409, .send_bind rfl ?_, by simp [Undone]⟩
    rw [if_pos hfound]
    exact .throw
  | false =>
    have hclash : (w.users.any fun _ v => (w.newcomer env name email password).clash v) = true := by
      rw [World.registered, hfound, Bool.false_or] at htaken
      exact htaken
    let w₁ : World := { w with nonce := w.nonce + 1 }
    refine ⟨[w, w₁, w₁, w₁], httpError "errors.emailAlreadyRegistered" 409, .send_bind rfl ?_,
      by simp [Undone, w₁]⟩
    rw [if_neg (by simp [hfound])]
    have hexec : (Stmt.userCreate (w.newcomer env name email password)).exec w₁ =
        .error (.prisma .P2002) := by
      simp only [Stmt.exec]
      rw [if_pos hclash]
    exact .send_bind rfl (.send_bind rfl (.tryCatch_error create_rethrows hexec rfl))

/-- At a free address there are nine statements. The first four leave both tables alone; the
account is there from the fourth on. -/
theorem register_free_passes (client : ClientInfo) (hfresh : w.Fresh) (hdrawn : w.TokensDrawn)
    (hfree : w.registered env name email password = false) :
    ∃ stores a, (register env name email password client).Passes Stmt.exec (w :: stores) (.ok a) ∧
      stores.length = 9 ∧ (∀ w' ∈ (w :: stores).take 4, Undone w w') ∧ ∀ w' ∈ (w :: stores).drop 4,
        w'.users = w.users.insert (w.nonce + 1)
        { w.newcomer env name email password with createdAt := w.now } := by
  obtain ⟨hnew, hclash⟩ := Bool.or_eq_false_iff.mp hfree
  let w₁ : World := { w with nonce := w.nonce + 1 }
  let w₂ : World := { w₁ with
    users :=
      w.users.insert (w.nonce + 1) { w.newcomer env name email password with createdAt := w.now }
    nonce := w.nonce + 2 }
  let w₃ : World := { w₂ with nonce := w.nonce + 3 }
  let token : RefreshToken :=
    { token := hashToken (w₂.newToken env (w.nonce + 1)), userId := w.nonce + 1,
      userAgent := client.userAgent
      ipAddress := client.ipAddress, expiresAt := w.now + env.refreshTokenTtlMs }
  let w₄ : World := { w₃ with
    refreshTokens :=
      w.refreshTokens.insert (w.nonce + 3) { token with createdAt := w.now, updatedAt := w.now }
    nonce := w.nonce + 4 }
  let w₅ : World :=
    { w₄ with outbox := w.outbox ++ [.verification (normalizeEmail env email) w.nonce] }
  have huser : (Stmt.userCreate (w.newcomer env name email password)).exec w₁ = .ok w₂ := by
    simp only [Stmt.exec]
    rw [if_neg (by simpa using hclash)]
  have hrecord : (Stmt.refreshTokenCreate token).exec w₃ = .ok w₄ := by
    have hnew : w.users.get? (w.nonce + 1) = none :=
      Table.get?_of_bound hfresh.users (Nat.le_succ _)
    have hstored : w₃.hasUser (w.nonce + 1) = true := by
      rw [World.hasUser, show w₃.users = _ from rfl, Table.get?_insert_self _ hnew]
      rfl
    have hunseen : w₃.refreshTokens.any (fun _ t => token.token == t.token) = false := by
      refine Table.any_eq_false.mpr fun k t hk => beq_eq_false_iff_ne.mpr fun heq => ?_
      have hlt := hdrawn k t hk
      rw [← heq] at hlt
      exact absurd hlt (Nat.not_lt.mpr (Nat.le_add_right w.nonce 2))
    simp only [Stmt.exec]
    rw [if_neg (by simp [token, hstored]), if_neg (by simp [hunseen])]
  have hpasses : ∃ a, (register env name email password client).Passes Stmt.exec
      [w, w, w₁, w₁, w₂, w₃, w₃, w₄, w₅, w₅] (.ok a) := by
    unfold register findUserByEmail
    refine Exists.imp (fun _ => .send_bind rfl) ?_
    rw [if_neg (by simp [hnew])]
    refine Exists.imp (fun _ h =>
      .send_bind rfl (.send_bind rfl (.tryCatch_bind create_rethrows huser h))) ?_
    simp only [createRefreshTokenRecord, queueVerificationEmail, signToken,
      Prog.bind_eq, Prog.bind_assoc]
    exact ⟨_, .send_bind rfl
      (.send_bind rfl (.send_bind hrecord (.send_bind rfl (.send_bind rfl .ret))))⟩
  obtain ⟨a, hpasses⟩ := hpasses
  exact ⟨_, a, hpasses, rfl, by simp [Undone, w₁], by simp [w₂, w₃, w₄, w₅]⟩

end Runs

def AllOrNothing (w : World) (run : Except Err Reply × World) : Prop :=
  (∃ e, run.1 = .error e) → Undone w run.2

/-- A registration is all or nothing exactly when the address is taken, or a failure hits no
later than the insert of the user, or none hits at all. -/
theorem register_all_or_nothing_iff (env : Env) {w : World} (hfresh : w.Fresh)
    (hdrawn : w.TokensDrawn) (name email password : String) (client : ClientInfo)
    (plan : List (Option Err)) :
    AllOrNothing w ((register env name email password client).runFaulty Stmt.exec plan w) ↔
      w.registered env name email password = true ∨ Prog.failsWithin 4 plan = true ∨
      Prog.failsWithin 9 plan = false := by
  cases htaken : w.registered env name email password with
  | true =>
    obtain ⟨stores, e, hpasses, hundone⟩ := register_taken_passes client htaken
    exact ⟨fun _ => .inl rfl, fun _ _ => hpasses.late (k := 0) rfl (Nat.succ_pos _) hundone rfl⟩
  | false =>
    obtain ⟨stores, a, hpasses, hlength, hbefore, hafter⟩ :=
      register_free_passes client hfresh hdrawn htaken
    have hthrows :
      (∃ e, ((register env name email password client).runFaulty Stmt.exec plan w).1 = .error e) ↔
        Prog.failsWithin _ plan = true := hpasses.throws_iff rfl
    rw [List.length_cons, hlength] at hthrows
    cases hearly : Prog.failsWithin 4 plan with
    | true => exact ⟨fun _ => .inr (.inl rfl), fun _ _ => hpasses.early rfl hbefore hearly⟩
    | false =>
      have husers := hpasses.late rfl (by simp [hlength]) hafter hearly
      have hnew : w.users.get? (w.nonce + 1) = none :=
        Table.get?_of_bound hfresh.users (Nat.le_succ _)
      have hchanged :
          ¬ Undone w ((register env name email password client).runFaulty Stmt.exec plan w).2 := by
        rintro ⟨hsame, _⟩
        rw [hsame] at husers
        rw [husers, Table.get?_insert_self _ (husers ▸ hnew)] at hnew
        cases hnew
      simp only [AllOrNothing, hthrows, Bool.false_eq_true, false_or]
      cases Prog.failsWithin 9 plan with
      | true => exact ⟨fun h => absurd (h rfl) hchanged, fun h => (by cases h)⟩
      | false => exact ⟨fun _ => rfl, fun _ h => (by cases h)⟩

/-- A failure after the insert of the user takes the address: every later registration with it
is refused. -/
theorem register_retry_refused (env : Env) {w : World} (hfresh : w.Fresh) (hdrawn : w.TokensDrawn)
    {name email password : String} {client : ClientInfo} {plan : List (Option Err)}
    (hfree : w.registered env name email password = false) (hlate : Prog.failsWithin 4 plan = false)
    (name' password' : String) (client' : ClientInfo) {w' : World}
    (hw' : ((register env name email password client).runFaulty Stmt.exec plan w).2 = w') :
    (register env name' email password' client').run Stmt.exec w' =
      (.error (httpError "errors.emailAlreadyRegistered" 409), w') := by
  obtain ⟨stores, a, hpasses, hlength, _, hafter⟩ := register_free_passes client hfresh hdrawn hfree
  have husers := hpasses.late rfl (by simp [hlength]) hafter hlate
  rw [hw'] at husers
  have hrow := Table.get?_insert_self (t := w.users) (k := w.nonce + 1)
    { w.newcomer env name email password with createdAt := w.now }
      (Table.get?_of_bound hfresh.users (Nat.le_succ _))
  have hfound : (w'.users.find? (fun _ u => u.email == normalizeEmail env email && u.live)).isSome =
      true := by
    cases hfind : w'.users.find? (fun _ u => u.email == normalizeEmail env email && u.live) with
    | some r => rfl
    | none =>
      have hlive := Table.find?_none hfind (husers ▸ hrow)
      simp [World.newcomer, User.live] at hlive
  unfold register findUserByEmail
  rw [Prog.bind_eq, query, Prog.send_bind, Prog.run_stmt]
  simp only [Stmt.exec, hfound, if_true]
  rfl

section Sample

theorem emptyWorld_drawn : ({} : World).Fresh ∧ ({} : World).TokensDrawn :=
  ⟨World.CredentialsSound.empty.fresh, World.CredentialsSound.empty.drawn⟩

/-- The database is away at the insert of the user. -/
theorem register_all_or_nothing_insert_failed :
    AllOrNothing {} ((register sampleEnv "A" "a@x.io" "pw" {}).runFaulty Stmt.exec
      [none, none, none, some (.outage "database")] {}) :=
  (register_all_or_nothing_iff sampleEnv emptyWorld_drawn.1 emptyWorld_drawn.2 "A" "a@x.io"
    "pw" {} _).mpr
    (.inr (.inl rfl))

/-- The queue is away: the caller gets an error, and has an account. -/
theorem register_queue_failed :
    ∃ w', (register sampleEnv "A" "a@x.io" "pw" {}).runFaulty Stmt.exec
        (List.replicate 7 none ++ [some (.outage "queue")]) {} = (.error (.outage "queue"), w') ∧
      ¬ AllOrNothing {} (.error (.outage "queue"), w') ∧
      (register sampleEnv "A" "a@x.io" "pw" {}).run Stmt.exec w' =
        (.error (httpError "errors.emailAlreadyRegistered" 409), w') := by
  refine ⟨_, rfl, fun h => ?_, rfl⟩
  obtain ⟨husers, _⟩ := h ⟨_, rfl⟩
  have hone := congrArg (fun t : Table User => t.rows.length) husers
  cases hone

end Sample

end SaasBackend
