import SaasBackend.Lockout

set_option autoImplicit false

namespace SaasBackend
open Keyed Handler

def Stmt.keepsLock : Stmt → Bool
  | .userUpdate _ d | .killSessions _ d => d.lockedUntil.isNone
  | _ => true

inductive LockRequest where
  | login (email password : String) (client : ClientInfo)
  | verifyChallenge (challengeToken code : Nat) (client : ClientInfo)
  /-- any other handler, none of which touches a lock -/
  | other (p : Req Reply) (keeps : p.Sends (fun l => l.keepsLock = true))

def LockRequest.prog (env : Env) : LockRequest → Req Reply
  | .login email password client => SaasBackend.login env email password client
  | .verifyChallenge challengeToken code client =>
      SaasBackend.verifyChallenge env challengeToken code client
  | .other p _ => p

abbrev LockEvent := Event LockRequest World Stmt

abbrev LockConfig := Config LockRequest World Err Stmt Reply

abbrev LockRun (env : Env) : LockConfig → List LockEvent → LockConfig → Prop :=
  Steps (Step Stmt.exec (LockRequest.prog env) (fun _ => True) (fun _ _ => True))

inductive FoundCorrect (env : Env) (u : Id) : LockRequest → Own → Prop where
  | password {email password : String} {client : ClientInfo} {own : Own} {w w' : World} {x : User}
      {hash : PasswordHash} : own.getLast? = some (.read, w) → w.users.get? u = some x →
        x.password = some hash →
      (.bcryptCompare (some hash), w') ∈ own → env.bcryptCompare password hash = true →
      FoundCorrect env u (.login email password client) own
  | code {challengeToken code : Nat} {client : ClientInfo} {own : Own} {x : User}
      {matched : CodeMatch} :
      Judged env code own u x matched → matched ≠ .invalid →
      FoundCorrect env u (.verifyChallenge challengeToken code client) own

def LiftsEarly (u : Id) (w : World) (l : Stmt) : Prop :=
  ∃ d x t, (l = .userUpdate u d ∨ l = .killSessions u d) ∧ d.lockedUntil = some none ∧
    w.users.get? u = some x ∧ x.lockedUntil = some t ∧ w.now < t

def lockRead (u : Id) (i : Nat) (tr : List LockEvent) : Option Time :=
  (own Stmt.exec i tr).getLast?.bind (fun e => (e.2.users.get? u).bind (·.lockedUntil))

/-- What the reset of an expired lock meets, after the run before it: no lock, or the one
that its request read. -/
def resetStands (u : Id) (tr : List LockEvent) : LockEvent → Bool
  | .fire i (.userUpdate id d) w _ =>
      id != u || d.lockedUntil != some none || d.lastLoginAt.isSome ||
    ((w.users.get? u).bind (·.lockedUntil)).all (fun t => lockRead u i tr == some t)
  | _ => true

inductive LockRequest.Writes (env : Env) : LockRequest → Own → Stmt → Prop where
  | leaves {r : LockRequest} {own : Own} {l : Stmt} : l.keepsLock = true → Writes env r own l
  | resets {r : LockRequest} {own : Own} {w w' : World} {id : Id} {x : User} {t : Time} :
      own.getLast? = some (.read, w) → w.users.get? id = some x → x.lockedUntil = some t →
      (.read, w') ∈ own → t ≤ w'.now →
      Writes env r own (.userUpdate id { failedLoginAttempts := some 0, lockedUntil := some none })
  | locks {r : LockRequest} {own : Own} {id : Id} {t : Time} :
      Writes env r own (.userUpdate id { lockedUntil := some (some t) })
  | signsIn {r : LockRequest} {own : Own} {id : Id} {d : UserPatch} : FoundCorrect env id r own →
      Writes env r own (.userUpdate id d)

section Requests

variable {env : Env} {α : Type}

theorem checkPassword_along {Q : Own → Stmt → Prop} {password : String} {user : User}
    {isLocked : Bool} {own : Own} (hQ : ∀ hash, Q own (.bcryptCompare hash)) :
    (checkPassword env password user isLocked).Along Stmt.exec Q (fun own' valid => own <:+ own' ∧
      (valid = true → ∃ hash w, user.password = some hash ∧ (.bcryptCompare (some hash), w) ∈ own' ∧
        env.bcryptCompare password hash = true)) own := by
  unfold checkPassword
  split
  · rename_i hash hpassword
    refine ⟨hQ _, fun w _ _ => ?_, fun _ => trivial⟩
    exact ⟨List.suffix_cons _ _, fun hvalid => ⟨hash, w, hpassword, .head _, hvalid⟩⟩
  · exact Prog.along_send_bind.mpr
      ⟨hQ _, fun w _ _ => ⟨List.suffix_cons _ _, fun h => (by cases h)⟩⟩

theorem login_locks (email password : String) (client : ClientInfo) :
    (login env email password client).Along Stmt.exec
      (LockRequest.Writes env (.login email password client)) (fun _ _ => True) [] := by
  refine Prog.along_send_bind.mpr ⟨.leaves rfl, fun w₁ _ _ => ?_⟩
  split
  · exact Prog.along_send_bind.mpr ⟨.leaves rfl, fun _ _ _ => .throw⟩
  · rename_i id user hfound
    obtain ⟨huser, _⟩ := Table.find?_some hfound
    refine Prog.along_send_bind.mpr ⟨.leaves rfl, fun w₂ _ _ => ?_⟩
    refine Prog.along_send_bind.mpr ⟨.leaves rfl, fun w₃ _ _ => ?_⟩
    refine when_bind_along (fun hexpired => ?_) fun own hown => ?_
    · obtain ⟨t, ht, hpast⟩ := (Option.any_eq_true _ _).mp hexpired
      exact .resets rfl huser ht (.head _) (of_decide_eq_true hpast)
    have hlast : own.getLast? = some (.read, w₁) := by rcases hown with rfl | ⟨w, rfl⟩ <;> rfl
    refine (checkPassword_along fun hash => .leaves rfl).andThen fun valid own₁ ⟨hown₁,
      hvalid⟩ => ?_
    split
    · refine .bind ?_ fun _ _ _ => .throw
      unfold SaasBackend.when
      split
      · refine .bind (.send fun _ => .leaves rfl) fun updated => ?_
        split
        · exact .bind (.send fun _ => .leaves rfl) fun now => .send fun _ => .locks
        · exact .ret
      · exact .ret
    · rename_i hchecked
      have hcorrect : ∀ own₂, own₁ <:+ own₂ →
          FoundCorrect env id (.login email password client) own₂ := by
        intro own₂ hown₂
        obtain ⟨hash, w, hpassword, hmem, hcompare⟩ := hvalid (by simpa using hchecked)
        exact .password (getLast?_of_suffix hlast (hown₁.trans hown₂)) huser hpassword
          (hown₂.mem hmem) hcompare
      split
      · exact .throw
      · refine Prog.along_send_bind.mpr ⟨.leaves rfl, fun w₅ _ _ => ?_⟩
        split
        · exact .throw
        · split
          · refine .bind ?_ fun _ _ _ => trivial
            exact .bind (.send fun _ => .leaves rfl) fun _ => .bind (.send fun _ => .leaves rfl)
              fun _ =>
              .bind (.send fun _ => .leaves rfl) fun _ => .ret
          · refine .bind ?_ fun refreshToken own₂ hown₂ => ?_
            · exact .bind (.send fun _ => .leaves rfl) fun _ => .bind (.send fun _ => .leaves rfl)
                fun _ =>
                .bind (.send fun _ => .leaves rfl) fun _ => .ret
            · refine Prog.along_send_bind.mpr ⟨.leaves rfl, fun w₆ _ _ => ?_⟩
              refine Prog.along_send_bind.mpr ⟨.signsIn (hcorrect _ ?_), fun w₇ _ _ => ?_⟩
              · exact ((List.suffix_cons _ _).trans hown₂).trans (List.suffix_cons _ _)
              · exact Prog.along_send_bind.mpr ⟨.leaves rfl, fun _ _ _ => trivial⟩

theorem createRefreshTokenRecord_locks (r : LockRequest) (userId : Id) (client : ClientInfo) :
    (createRefreshTokenRecord env userId client).Sends (fun l => ∀ own, r.Writes env own l) :=
  .bind (.send fun _ => .leaves rfl) fun _ => .bind (.send fun _ => .leaves rfl) fun _ =>
    .bind (.send fun _ => .leaves rfl) fun _ => .ret

theorem completeChallenge_locks {challengeToken code : Nat} {client : ClientInfo}
    {id : Id} {x : User} {matched : CodeMatch} {own : Own}
    (hjudged : Judged env code own id x matched) (hmatched : matched ≠ .invalid) :
    (completeChallenge env id x matched client).Along Stmt.exec
      (LockRequest.Writes env (.verifyChallenge challengeToken code client)) (fun _ _ => True)
        own := by
  refine .bind ?_ fun _ own₁ hown₁ => ?_
  · cases matched with
    | backup hashed => exact .send fun _ => .leaves rfl
    | totp s => exact .ret
    | invalid => exact .ret
  · refine .bind (.send fun _ => .leaves rfl) fun now own₂ hown₂ => ?_
    refine Prog.along_send_bind.mpr ⟨.signsIn (.code (hjudged.suffix (hown₁.trans hown₂)) hmatched),
      fun w _ _ => ?_⟩
    refine .bind (createRefreshTokenRecord_locks ..) fun refreshToken _ _ =>
      .bind ?_ fun _ _ _ => trivial
    exact .bind (.send fun _ => .leaves rfl) fun _ => .ret

theorem verifyChallenge_locks (challengeToken code : Nat) (client : ClientInfo) :
    (verifyChallenge env challengeToken code client).Along Stmt.exec
      (LockRequest.Writes env (.verifyChallenge challengeToken code client)) (fun _ _ => True)
        [] := by
  refine verifyChallenge_along_of (fun _ => .leaves rfl) (fun _ _ => .leaves rfl)
    fun own w challengeId stored user hlast _ _ _ huser _ => ?_
  refine Prog.along_send_bind.mpr ⟨.leaves rfl, fun w₄ _ _ => ?_⟩
  split
  · refine Prog.along_send_bind.mpr ⟨.leaves rfl, fun _ _ _ => ?_⟩
    split <;> exact .throw
  · rename_i hmatched
    refine Prog.along_send_bind.mpr ⟨.leaves rfl, fun w₅ _ _ => ?_⟩
    split
    · exact .throw
    · refine completeChallenge_locks ⟨⟨w, ?_, huser⟩, challengeId, w₄, .tail _ (.head _), rfl⟩
        hmatched
      exact getLast?_of_suffix hlast ((List.suffix_cons _ _).trans (List.suffix_cons _ _))

theorem LockRequest.along (r : LockRequest) :
    (r.prog env).Along Stmt.exec (r.Writes env) (fun _ _ => True) [] := by
  cases r with
  | login email password client => exact login_locks email password client
  | verifyChallenge challengeToken code client =>
    exact verifyChallenge_locks challengeToken code client
  | other p keeps =>
    exact .of_sends (keeps.mono fun _ hl _ => .leaves hl) ((Prog.returns_true p).mono fun _ _ _ =>
      trivial) []

end Requests

/-- A reset that meets the lock its request has read takes off one that has run out. -/
theorem lock_stands_until (env : Env) (u : Id) {w₀ : World} {tr : List LockEvent} {c : LockConfig}
    (hrun : LockRun env ⟨w₀, []⟩ tr c) (hcond : checkEvents (resetStands u) tr = true)
    {tr₁ tr₂ : List LockEvent}
    {i : Nat} {l : Stmt} {w w' : World} (htr : tr = tr₂ ++ .fire i l w w' :: tr₁)
    (hlifts : LiftsEarly u w l) :
    ∃ q, c.pool[i]? = some q ∧ FoundCorrect env u q.1 (own Stmt.exec i tr₁) := by
  subst htr
  obtain ⟨_, q, hq, hwrites⟩ :=
    (Recalled.steps (fun r _ => LockRequest.along r) hrun).events tr₁ tr₂ i l w w' rfl
  refine ⟨q, hq, ?_⟩
  obtain ⟨d, x, t, hl, hlifted, hx, hlock, hearly⟩ := hlifts
  cases hwrites with
  | leaves hkeeps =>
    rcases hl with rfl | rfl <;> simp [Stmt.keepsLock, hlifted] at hkeeps
  | @resets w₁ w₂ _ x₁ t₁ hlast hx₁ hlock₁ hread hpast =>
    rcases hl with hl | hl <;> cases hl
    -- the lock that was read had run out when the request looked at the clock
    have hstands := checkEvents_at hcond
    simp only [resetStands, lockRead, hlast, hx, hx₁, hlock, hlock₁, Option.bind_some,
      bne_self_eq_false, Option.isSome_none, Bool.false_or, Option.all_some, beq_iff_eq,
      Option.some.injEq] at hstands
    obtain ⟨_, hfire, _⟩ := mem_own hread
    obtain ⟨c₁, _, hbefore, rfl, _⟩ := Steps.at_fire hrun
    have hclock :=
      (Steps.since (r := fun w w' => w.now ≤ w'.now) (fun _ => Nat.le_refl _)
      (fun _ _ _ => Nat.le_trans)
      (fun _ _ _ hexec => (exec_effect hexec).now_le) hbefore).2 _ _ _ _ hfire
    exact absurd hearly (Nat.not_lt.mpr (hstands ▸ Nat.le_trans hpast hclock))
  | locks => rcases hl with hl | hl <;> cases hl; cases hlifted
  | signsIn hfound => rcases hl with hl | hl <;> cases hl; exact hfound

section Sample

def lockedWorld : World where
  users := (∅ : Table User).insert 1
    { email := "a@x.io", password := some "pw", failedLoginAttempts := 5, lockedUntil := some 50 }
  nonce := 2
  now := 100

def wrongPassword : LockRequest := .login "a@x.io" "no" {}

def resetLate : List (LockRequest ⊕ Nat) :=
  List.replicate 6 (.inl wrongPassword) ++ List.replicate 3 (.inr 0) ++ List.replicate 6 (.inr 1) ++
    [2, 3, 4].flatMap (fun i => List.replicate 5 (.inr i)) ++ List.replicate 7 (.inr 5) ++ [.inr 0]

def rightPasswordLate : List (LockRequest ⊕ Nat) :=
  List.replicate 5 (.inl wrongPassword) ++ [.inl (.login "a@x.io" "pw" {})] ++ List.replicate 6
    (.inr 0) ++
    List.replicate 3 (.inr 5) ++ [1, 2, 3].flatMap (fun i => List.replicate 5 (.inr i)) ++
      List.replicate 7 (.inr 4) ++ List.replicate 7 (.inr 5)

def locking (sched : List (LockRequest ⊕ Nat)) : LockConfig :=
  Config.play Stmt.exec (LockRequest.prog sampleEnv) ⟨lockedWorld, []⟩ sched

def lockingTrace (sched : List (LockRequest ⊕ Nat)) : List LockEvent :=
  Config.trace Stmt.exec (LockRequest.prog sampleEnv) ⟨lockedWorld, []⟩ sched []

theorem locking_run (sched : List (LockRequest ⊕ Nat)) :
    LockRun sampleEnv ⟨lockedWorld, []⟩ (lockingTrace sched) (locking sched) :=
  Config.trace_steps Stmt.exec _ sched (fun _ _ => trivial) .refl

theorem lock_stands_until_right_password :
    ∃ l w w' tr₁, lockingTrace rightPasswordLate = .fire 5 l w w' :: tr₁ ∧ LiftsEarly 1 w l ∧
      ∃ q, (locking rightPasswordLate).pool[5]? = some q ∧
      FoundCorrect sampleEnv 1 q.1 (own Stmt.exec 5 tr₁) := by
  have hends : ∃ l w w' tr₁, lockingTrace rightPasswordLate = [] ++ .fire 5 l w w' :: tr₁ ∧
      LiftsEarly 1 w l :=
    ⟨_, _, _, _, rfl, _, _, _, .inl rfl, rfl, rfl, rfl, by decide +kernel⟩
  obtain ⟨l, w, w', tr₁, htr, hlifts⟩ := hends
  exact ⟨l, w, w', tr₁, htr, hlifts,
    lock_stands_until sampleEnv 1 (locking_run _) (by decide +kernel) htr hlifts⟩

theorem lock_lifted_early :
    LockRun sampleEnv ⟨lockedWorld, []⟩ (lockingTrace resetLate) (locking resetLate) ∧
      ∃ l w w' tr₁, lockingTrace resetLate = .fire 0 l w w' :: tr₁ ∧ LiftsEarly 1 w l ∧
        ∀ q, (locking resetLate).pool[0]? = some q →
        ¬ FoundCorrect sampleEnv 1 q.1 (own Stmt.exec 0 tr₁) := by
  have hends : ∃ l w w' tr₁, lockingTrace resetLate = .fire 0 l w w' :: tr₁ ∧ LiftsEarly 1 w l :=
    ⟨_, _, _, _, rfl, _, _, _, .inl rfl, rfl, rfl, rfl, by decide +kernel⟩
  have hread : (own Stmt.exec 0 (lockingTrace resetLate).tail).getLast?.bind
      (fun e => (e.2.users.get? 1).bind (·.password)) = some "pw" := by decide +kernel
  obtain ⟨l, w, w', tr₁, htr, hlifts⟩ := hends
  refine ⟨locking_run resetLate, l, w, w', tr₁, htr, hlifts, fun q hq hcorrect => ?_⟩
  have hrequest : q.1 = wrongPassword := by cases hq; rfl
  rw [hrequest] at hcorrect
  cases hcorrect with
  | password hlast hx hhash _ hcompare =>
    rw [htr, List.tail_cons, hlast, Option.bind_some, hx, Option.bind_some, hhash] at hread
    cases hread
    cases hcompare

end Sample

end SaasBackend
