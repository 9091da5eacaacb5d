import SaasBackend.EmailVerification
import SaasBackend.PendingChallenges
import SaasBackend.TokenRecords

set_option autoImplicit false

namespace SaasBackend
open Keyed Handler

structure World.CredentialsSound (w : World) : Prop where
  fresh : w.Fresh
  unclashed : w.Unclashed
  unique : w.TokensUnique
  drawn : w.TokensDrawn
  challenges : w.ChallengesSound

abbrev LinkRun (env : Env) : World → List SessionEntry → World → Prop :=
  Steps (Served Stmt.exec (SessionRequest.prog env) SessionRequest.createsNone)

section Drawn

variable {α : Type} {env : Env}

theorem World.TokensDrawn.exec {l : Stmt} {w w' : World} (hw : w.TokensDrawn)
    (hl : l.storesToken = false) (h : l.exec w = .ok w') : w'.TokensDrawn := by
  have heff := exec_effect h
  intro k t hk
  rcases heff.token_back hk with ⟨t₀, hk₀, hstep⟩ | ⟨x, rfl, _⟩
  · rw [hstep.token]
    exact Nat.lt_of_lt_of_le (hw k t₀ hk₀) heff.nonce_le
  · cases hl

abbrev DrawsTokens (p : Req α) : Prop := p.Maintains Stmt.exec World.TokensDrawn

theorem tokensDrawn_rule : RecordRule env World.TokensDrawn := by
  refine .of_recorded (fun _ _ _ hl hexec hw => hw.exec hl hexec) fun userId w w' h hw k t hk => ?_
  rcases h.rows k t hk with hold | ⟨htoken, _⟩
  · exact Nat.lt_trans (hw k t hold) h.nonce
  · rw [htoken]
    exact h.nonce

theorem SessionRequest.draws (r : SessionRequest) {w : World} (hr : r.createsNone w) :
    DrawsTokens (r.prog env) :=
  tokensDrawn_rule.request_keeps r hr

end Drawn

section Sound

variable {env : Env} {w w' : World}

theorem World.CredentialsSound.empty : ({} : World).CredentialsSound :=
  ⟨⟨fun _ _ hk => (by cases hk), fun _ _ hk => (by cases hk)⟩, fun _ _ _ _ hk => (by cases hk),
    fun _ _ _ _ hk => (by cases hk), fun _ _ hk => (by cases hk),
    ⟨fun _ _ hk => (by cases hk), fun _ _ hk => (by cases hk), fun _ _ _ _ hk => (by cases hk)⟩⟩

theorem World.CredentialsSound.exec {l : Stmt} (hs : w.CredentialsSound)
    (hl : opensNone.contains l.area = true) (hstores : l.storesToken = false)
    (h : l.exec w = .ok w') : w'.CredentialsSound :=
  ⟨hs.fresh.exec h, hs.unclashed.exec h, hs.unique.exec h, hs.drawn.exec hstores h,
    (ChallengesKept.exec hl h).sound hs.challenges⟩

theorem SessionRequest.credentials (hs : w.CredentialsSound) (r : SessionRequest)
    (hr : r.createsNone w) :
    World.CredentialsSound ((r.prog env).run Stmt.exec w).2 := by
  have hall : (r.prog env).Sends (fun _ => True) := .of_forall (fun _ => trivial) _
  have hopens : r.opensNone w := by
    cases r with
    | other p signsNoOneIn => exact Within.mono hr (by decide)
    | _ => trivial
  refine ⟨?_, ?_, ?_, r.draws hr w hs.drawn, (r.kept env hs.challenges hopens).sound hs.challenges⟩
  · exact Prog.Maintains.of_sends hall (fun _ _ _ _ hexec hw => hw.exec hexec) w hs.fresh
  · exact Prog.Maintains.of_sends hall (fun _ _ _ _ hexec hw => hw.exec hexec) w hs.unclashed
  · exact Prog.Maintains.of_sends hall (fun _ _ _ _ hexec hw => hw.exec hexec) w hs.unique

theorem LinkRun.sound {w₀ : World} {h : List SessionEntry} (hs : w₀.CredentialsSound)
    (hrun : LinkRun env w₀ h w) :
    w.CredentialsSound :=
  Served.related (R := fun w w' => w.CredentialsSound → w'.CredentialsSound) (fun _ => id)
    (fun _ _ _ h₁ h₂ => h₂ ∘ h₁) (fun _ r hr hs => r.credentials hs hr) hrun hs

end Sound

/-- The columns of an account that decide over its credentials are no worse than they were. -/
structure Stands (x x' : User) : Prop where
  email : x'.email = x.email
  password : x'.password = x.password
  tokenVersion : x'.tokenVersion = x.tokenVersion
  live : x.live = true → x'.live = true
  banned : x.banned = false → x'.banned = false
  suspended : ∀ now, x.suspendedAt now = false → x'.suspendedAt now = false
  locked : ∀ now : Time, x.lockedUntil.any (fun t => decide (now < t)) = false →
    x'.lockedUntil.any (fun t => decide (now < t)) = false

theorem Stands.refl (x : User) : Stands x x := ⟨rfl, rfl, rfl, id, id, fun _ => id, fun _ => id⟩

theorem Stands.trans {x₁ x₂ x₃ : User} (h₁ : Stands x₁ x₂) (h₂ : Stands x₂ x₃) : Stands x₁ x₃ :=
  ⟨h₂.email.trans h₁.email, h₂.password.trans h₁.password, h₂.tokenVersion.trans h₁.tokenVersion,
    h₂.live ∘ h₁.live, h₂.banned ∘ h₁.banned, fun now => h₂.suspended now ∘ h₁.suspended now,
    fun now => h₂.locked now ∘ h₁.locked now⟩

def UserPatch.evicts (d : UserPatch) : Bool :=
  d.email.isSome || d.password.isSome || d.banned == some true || d.suspendedUntil.any (·.isSome) ||
    d.deletedAt.any (·.isSome) || d.lockedUntil.any (·.isSome)

def Stmt.evicts (u : Id) : Stmt → Bool
  | .userUpdate id d => id == u && d.evicts
  | .userDelete id | .killSessions id _ | .reuseDetected id => id == u
  | _ => false

theorem getD_emptied {α : Type} {o : Option (Option α)} (h : o.any (·.isSome) = false)
    (a : Option α) :
    o.getD a = a ∨ o.getD a = none := by
  match o with
  | none => exact .inl rfl
  | some none => exact .inr rfl
  | some (some _) => simp at h

theorem UserPatch.stands {d : UserPatch} (hd : d.evicts = false) (x : User) :
    Stands x (d.apply x) := by
  simp only [UserPatch.evicts, Bool.or_eq_false_iff, Option.isSome_eq_false_iff,
    Option.isNone_iff_eq_none, beq_eq_false_iff_ne] at hd
  obtain ⟨⟨⟨⟨⟨hemail, hpassword⟩, hbanned⟩, hsuspended⟩, hdeleted⟩, hlocked⟩ := hd
  refine ⟨by simp [UserPatch.apply, hemail], by simp [UserPatch.apply, hpassword], rfl, fun h => ?_,
    fun h => ?_, fun now h => ?_, fun now h => ?_⟩
  · simp only [User.live, UserPatch.apply] at h ⊢
    rcases getD_emptied hdeleted x.deletedAt with hsame | hnone
    · rw [hsame, h]
    · rw [hnone, Option.isNone_none]
  · rcases hflag : d.banned with _ | _ | _
    · simp [UserPatch.apply, hflag, h]
    · simp [UserPatch.apply, hflag]
    · exact absurd hflag hbanned
  · simp only [User.suspendedAt, UserPatch.apply] at h ⊢
    rcases getD_emptied hsuspended x.suspendedUntil with hsame | hnone
    · rw [hsame, h]
    · rw [hnone, Option.any_none]
  · simp only [UserPatch.apply] at h ⊢
    rcases getD_emptied hlocked x.lockedUntil with hsame | hnone
    · rw [hsame, h]
    · rw [hnone, Option.any_none]

structure AccountKept (u : Id) (w w' : World) : Prop where
  now : w.now ≤ w'.now
  row : ∀ x, w.users.get? u = some x → ∃ x', w'.users.get? u = some x' ∧ Stands x x'

theorem AccountKept.refl (u : Id) (w : World) : AccountKept u w w :=
  ⟨Nat.le_refl _, fun x hx => ⟨x, hx, .refl x⟩⟩

theorem AccountKept.trans {u : Id} {w₁ w₂ w₃ : World} (h₁ : AccountKept u w₁ w₂)
    (h₂ : AccountKept u w₂ w₃) :
    AccountKept u w₁ w₃ := by
  refine ⟨Nat.le_trans h₁.now h₂.now, fun x hx => ?_⟩
  obtain ⟨x₂, hx₂, hstands₂⟩ := h₁.row x hx
  obtain ⟨x₃, hx₃, hstands₃⟩ := h₂.row x₂ hx₂
  exact ⟨x₃, hx₃, hstands₂.trans hstands₃⟩

theorem AccountKept.exec {u : Id} {l : Stmt} {w w' : World} (hl : l.evicts u = false)
    (h : l.exec w = .ok w') :
    AccountKept u w w' := by
  have heff := exec_effect h
  refine ⟨heff.now_le, fun x hx => ?_⟩
  have hdelete : l ≠ .userDelete u := by
    rintro rfl
    simp [Stmt.evicts] at hl
  obtain ⟨x', hx', hstep⟩ := heff.user_forth hx hdelete
  refine ⟨x', hx', ?_⟩
  cases hstep with
  | same => exact .refl x
  | update d => exact UserPatch.stands (by simpa [Stmt.evicts] using hl) x
  | kill => simp [Stmt.evicts] at hl
  | reuse => simp [Stmt.evicts] at hl

theorem token_kept {k : Id} {t : RefreshToken} {l : Stmt} {w w' : World}
    (hrevokes : l.revokesToken k t = false) (herases : l.erasesToken t = false)
    (h : l.exec w = .ok w') (hk : w.refreshTokens.get? k = some t) :
    w'.refreshTokens.get? k = some t := by
  have heff := exec_effect h
  by_cases hl : ∃ x, l = .refreshTokenCreate x
  · obtain ⟨x, rfl⟩ := hl
    rw [heff.refreshTokens]
    exact Table.get?_insert_of_some hk
  · rw [heff.tokens (fun x hx => hl ⟨x, hx⟩) k, hk]
    simp [hrevokes, herases]

theorem suspendedAt_later {x : User} {now now' : Time} (h : x.suspendedAt now = false)
    (hle : now ≤ now') :
    x.suspendedAt now' = false := by
  unfold User.suspendedAt at h ⊢
  cases hx : x.suspendedUntil with
  | none => rfl
  | some t =>
    simp only [hx, Option.any_some, decide_eq_false_iff_not, Nat.not_lt] at h ⊢
    exact Nat.le_trans h hle

def Refreshes (env : Env) (w : World) (token : RefreshJwt) : Prop :=
  ∃ client a, ((refresh env token client).runs w).1 = .ok a

def LogsIn (env : Env) (w : World) (u : Id) (email password : String) : Prop :=
  ∃ client a, ((login env email password client).runs w).1 = .ok a ∧
    ∃ x, w.users.find? (fun _ u => u.email == normalizeEmail env email && u.live) = some (u, x)

structure AccessStands (w : World) (token : AccessToken) (x : User) : Prop where
  unexpired : token.expired w.now = false
  user : w.users.get? token.id = some x
  live : x.live = true
  version : token.tokenVersion = x.tokenVersion
  notBanned : x.banned = false
  notSuspended : x.suspendedAt w.now = false

structure RefreshStands (w : World) (token : RefreshJwt) (k : Id) (t : RefreshToken) (x : User) :
    Prop where
  unexpired : token.expired w.now = false
  stored : w.refreshTokens.get? k = some t
  presented : t.token = hashToken token
  notRevoked : t.revoked = false
  notExpired : w.now ≤ t.expiresAt
  user : w.users.get? t.userId = some x
  live : x.live = true
  notBanned : x.banned = false
  notSuspended : x.suspendedAt w.now = false

structure LoginStands (env : Env) (w : World) (u : Id) (email password : String) (x : User) :
    Prop where
  user : w.users.get? u = some x
  live : x.live = true
  named : x.email = normalizeEmail env email
  matched : ∃ hash, x.password = some hash ∧ env.bcryptCompare password hash = true
  notLocked : x.lockedUntil.any (fun t => decide (w.now < t)) = false
  notBanned : x.banned = false
  notSuspended : x.suspendedAt w.now = false

section Acceptance

variable {env : Env} {w : World}

def AccessToken.caller (token : AccessToken) (x : User) : Caller where
  id := token.id
  name := x.name
  email := x.email
  role := x.role
  tokenVersion := some x.tokenVersion
  emailVerified := some x.emailVerified

theorem authenticate_runs (w : World) (token : AccessToken) :
    (∃ x, AccessStands w token x ∧
      (authenticate (.bearer token)).runs w = (.ok (token.caller x), w)) ∨
      (∀ x, ¬ AccessStands w token x) ∧ ∃ e, (authenticate (.bearer token)).runs w =
        (.error e, w) := by
  cases hexpired : token.expired w.now with
  | true =>
    refine .inr ⟨fun x hx => ?_, _,
      by simp only [authenticate, Prog.bind_eq, runs_date_bind, hexpired]; rfl⟩
    rw [hx.unexpired] at hexpired
    cases hexpired
  | false =>
    simp only [authenticate, findUserById, Prog.bind_eq, runs_date_bind, hexpired,
      Bool.false_eq_true, if_false, runs_query_bind]
    cases hfound : (w.users.get? token.id).filter User.live with
    | none =>
      refine .inr ⟨fun x hx => ?_, _, rfl⟩
      simp [hx.user, hx.live] at hfound
    | some user =>
      obtain ⟨huser, hlive⟩ := Option.filter_eq_some_iff.mp hfound
      have heq : ∀ x, AccessStands w token x → x = user := by
        intro x hx
        have hsame := hx.user
        rw [huser] at hsame
        exact (Option.some.inj hsame).symm
      simp only []
      by_cases hversion : token.tokenVersion = user.tokenVersion
      · rw [if_neg (not_not.mpr hversion)]
        cases hbanned : user.banned with
        | true =>
          refine .inr ⟨fun x hx => ?_, _, rfl⟩
          rw [heq x hx] at hx
          rw [hx.notBanned] at hbanned
          cases hbanned
        | false =>
          simp only [Bool.false_eq_true, if_false, runs_date_bind]
          cases hsuspended : user.suspendedAt w.now with
          | true =>
            refine .inr ⟨fun x hx => ?_, _, rfl⟩
            rw [heq x hx] at hx
            rw [hx.notSuspended] at hsuspended
            cases hsuspended
          | false => exact .inl ⟨user, ⟨hexpired, huser, hlive, hversion, hbanned, hsuspended⟩, rfl⟩
      · rw [if_pos hversion]
        refine .inr ⟨fun x hx => ?_, _, rfl⟩
        rw [heq x hx] at hx
        exact hversion hx.version

theorem accepts_iff {token : AccessToken} : Accepts w token ↔ ∃ x, AccessStands w token x := by
  unfold Accepts
  rcases authenticate_runs w token with ⟨x, hx, hrun⟩ | ⟨hnone, e, hrun⟩
  · rw [hrun]
    exact ⟨fun _ => ⟨x, hx⟩, fun _ => ⟨_, rfl⟩⟩
  · rw [hrun]
    exact ⟨fun ⟨_, h⟩ => (by cases h), fun ⟨x, hx⟩ => absurd hx (hnone x)⟩

/-- The rest of a route either never starts or starts with the caller of a token that stands. -/
theorem ends_authenticate_bind {β : Type} {post : Except Err β → World → Prop} {header : AuthHeader}
    {k : Caller → Req β}
    (herr : (∀ token x, header = .bearer token → ¬ AccessStands w token x) → ∀ e, post (.error e) w)
    (hok : ∀ token x, header = .bearer token → AccessStands w token x →
      (k (token.caller x)).Ends Stmt.exec post w) : ((authenticate header).bind k).Ends Stmt.exec
      post w := by
  cases header with
  | missing => exact herr (fun _ _ h => by cases h) _
  | malformed => exact herr (fun _ _ h => by cases h) _
  | bearer token =>
    rw [Prog.ends_bind]
    unfold Prog.Ends
    rcases authenticate_runs w token with ⟨x, hx, hrun⟩ | ⟨hnone, e, hrun⟩
    · rw [Req.runs] at hrun
      rw [hrun]
      exact hok token x rfl hx
    · rw [Req.runs] at hrun
      rw [hrun]
      exact herr (fun _ x h => by cases h; exact hnone x) e

theorem Refreshes.stands {token : RefreshJwt} (h : Refreshes env w token) :
    ∃ k t x, RefreshStands w token k t x := by
  obtain ⟨client, a, hok⟩ := h
  have hends : (refresh env token client).Ends Stmt.exec (fun r _ => ∀ a, r = .ok a →
      ∃ k t x, RefreshStands w token k t x) w := by
    simp only [refresh, Prog.bind_eq, ends_date_bind]
    split
    · exact fun _ h => (by cases h)
    · rename_i hunexpired
      simp only [ends_query_bind]
      split
      · exact fun _ h => (by cases h)
      · rename_i hfound
        obtain ⟨⟨k, t⟩, hstored, hjoin⟩ := Option.bind_eq_some_iff.mp hfound
        obtain ⟨x, hx, htriple⟩ := Option.map_eq_some_iff.mp hjoin
        cases htriple
        obtain ⟨hrow, hpresented⟩ := Table.find?_some hstored
        split
        · simp only [ends_execute_bind]
          split <;> exact fun _ h => (by cases h)
        · rename_i hrevoked
          simp only [ends_date_bind]
          split
          · simp only [ends_execute_bind]
            split <;> exact fun _ h => (by cases h)
          · rename_i hnotExpired
            split
            · exact fun _ h => (by cases h)
            · rename_i hlive
              split
              · exact fun _ h => (by cases h)
              · rename_i hbanned
                simp only [ends_date_bind]
                split
                · exact fun _ h => (by cases h)
                · rename_i hsuspended
                  exact fun _ _ => ⟨k, t, _, by simpa using hunexpired, hrow,
                    by simpa using hpresented, by simpa using hrevoked,
                      Nat.le_of_not_lt hnotExpired, hx,
                    by simpa using hlive, by simpa using hbanned, by simpa using hsuspended⟩
  exact hends a hok

theorem checkPassword_ends (password : String) (user : User) (isLocked : Bool) :
    (checkPassword env password user isLocked).Ends Stmt.exec (fun r w' => w' = w ∧ ∃ valid,
      r = .ok valid ∧
      (valid = true ↔ isLocked = false ∧ ∃ hash, user.password = some hash ∧
        env.bcryptCompare password hash = true))
      w := by
  unfold checkPassword
  split
  · rename_i hash hpassword
    exact ⟨rfl, _, rfl, by simp [hpassword]⟩
  · rename_i hnone
    refine ⟨rfl, false, rfl, ⟨fun h => (by cases h), fun ⟨hlocked, hash, hpassword, _⟩ => ?_⟩⟩
    exact absurd hlocked (hnone hash hpassword)

theorem LogsIn.stands {u : Id} {email password : String} (h : LogsIn env w u email password) :
    ∃ x, LoginStands env w u email password x := by
  obtain ⟨client, a, hok, x, hfound⟩ := h
  obtain ⟨hx, hmatch⟩ := Table.find?_some hfound
  simp only [Bool.and_eq_true, beq_iff_eq] at hmatch
  have hends : (login env email password client).Ends Stmt.exec (fun r _ => ∀ a, r = .ok a →
      LoginStands env w u email password x) w := by
    simp only [login, findUserByEmail, Prog.bind_eq, ends_query_bind, hfound, ends_date_bind]
    refine Ends.bind (show Prog.Ends Stmt.exec (fun _ w' => w'.now = w.now) _ w from ?_)
      (fun _ w₁ hnow => ?_)
      fun _ _ _ => fun _ h => (by cases h)
    · unfold when
      split
      · simp only [execute, Prog.ends_send]
        split
        · rename_i hexec
          exact (exec_effect hexec).now
        · trivial
      · rfl
    · refine Ends.bind (checkPassword_ends password x _) (fun valid w₂ hvalid => ?_)
        fun _ _ _ => fun _ h => (by cases h)
      obtain ⟨rfl, _, heq, hmatched⟩ := hvalid
      cases heq
      split
      · rename_i hinvalid
        exact Ends.bind (show Prog.Ends Stmt.exec (fun _ _ => True) _ _ from trivial)
          (fun _ _ _ => fun _ h => (by cases h)) fun _ _ _ => fun _ h => (by cases h)
      · rename_i hvalid
        obtain ⟨hlocked, hpassword⟩ := hmatched.mp (by simpa using hvalid)
        split
        · exact fun _ h => (by cases h)
        · rename_i hbanned
          simp only [ends_date_bind]
          split
          · exact fun _ h => (by cases h)
          · rename_i hsuspended
            exact fun _ _ => ⟨hx, hmatch.2, hmatch.1, hpassword, hlocked, by simpa using hbanned,
              by simpa [hnow] using hsuspended⟩
  exact ⟨x, hends a hok⟩

theorem touch_exec (hw : w.Unclashed) {id : Id} {x : User} (hx : w.users.get? id = some x)
    {d : UserPatch} (hd : ∀ y v, (d.apply y).clash v = User.clash y v) :
    (Stmt.userUpdate id d).exec w = .ok { w with users := w.users.update id d.apply } :=
  setUser_eq_ok hx fun k v hk hne => by rw [hd]; exact hw id k x v hx hk (Ne.symm hne)

end Acceptance

def Reply.serves (u : Id) (ls : List Stmt) : Reply → Prop
  | .session _ token _ _ _ => token.id = u
  | .twoFactorRequired t => ∃ c, .challengeCreate c ∈ ls ∧ c.token = hashToken t ∧ c.userId = u
  | _ => False

theorem Reply.serves.mono {u : Id} {ls ls' : List Stmt} {a : Reply} (h : a.serves u ls)
    (hsub : ls ⊆ ls') :
    a.serves u ls' := by
  cases a with
  | session => exact h
  | twoFactorRequired t =>
    obtain ⟨c, hmem, hc⟩ := h
    exact ⟨c, hsub hmem, hc⟩
  | _ => cases h

def Serves (u : Id) (p : Req Reply) (w : World) : Prop :=
  p.Traces Stmt.exec (fun r ls _ => ∃ a, r = .ok a ∧ a.serves u ls) w

section Serves

variable {α : Type} {env : Env} {u : Id} {w : World} {x : User}

theorem Serves.past {p : Req α} {k : α → Req Reply} {Q : α → World → Prop}
    (hp : p.Ends Stmt.exec (fun r w' => ∃ a, r = .ok a ∧ Q a w') w)
    (hk : ∀ a w', Q a w' → Serves u (k a) w') :
    Serves u (p.bind k) w := by
  have htraces : p.Traces Stmt.exec (fun r _ w' => ∃ a, r = .ok a ∧ Q a w') w := hp
  refine Prog.traces_bind.mpr (htraces.weaken fun r ls w' hr => ?_)
  obtain ⟨a, rfl, hmid⟩ := hr
  refine (hk a w' hmid).weaken fun r ls' _ hr => ?_
  obtain ⟨a', rfl, hserves⟩ := hr
  exact ⟨a', rfl, hserves.mono (List.subset_append_right _ _)⟩

theorem Serves.query_bind {view : World → α} {k : α → Req Reply} (h : Serves u (k (view w)) w) :
    Serves u ((query view).bind k) w :=
  .past (Q := fun a w' => a = view w ∧ w' = w) ⟨_, rfl, rfl, rfl⟩ fun _ _ ⟨ha, hw⟩ => ha ▸ hw ▸ h

structure World.Ready (u : Id) (now : Time) (w : World) : Prop where
  sound : w.CredentialsSound
  row : ∃ x, w.users.get? u = some x
  now : w.now = now

theorem World.Ready.of_row (hs : w.CredentialsSound) (hx : w.users.get? u = some x) :
    w.Ready u w.now :=
  ⟨hs, ⟨x, hx⟩, rfl⟩

theorem World.Ready.exec {w' : World} {now : Time} {l : Stmt} (h : w.Ready u now)
    (hl : opensNone.contains l.area = true) (hstores : l.storesToken = false)
    (hnow : l.nowAfter w = w.now) (hdelete : l ≠ .userDelete u) (hexec : l.exec w = .ok w') :
    w'.Ready u now := by
  obtain ⟨x, hx⟩ := h.row
  have heff := exec_effect hexec
  obtain ⟨x', hx', _⟩ := heff.user_forth hx hdelete
  exact ⟨h.sound.exec hl hstores hexec, ⟨x', hx'⟩, by rw [heff.now, hnow, h.now]⟩

theorem touch_ready {now : Time} {view : World → α} {d : UserPatch} (h : w.Ready u now)
    (hd : ∀ y v, (d.apply y).clash v = User.clash y v)
    (harea : (Stmt.userUpdate u d).area = .routine) :
    (Prog.send (.userUpdate u d) view : Req α).Ends Stmt.exec (fun r w' => ∃ a, r = .ok a ∧
      w'.Ready u now) w := by
  obtain ⟨x, hx⟩ := h.row
  have hexec := touch_exec h.sound.unclashed hx hd
  rw [Prog.ends_send, hexec]
  exact ⟨_, rfl, h.exec (by rw [harea]; rfl) rfl rfl Stmt.noConfusion hexec⟩

theorem challenge_serves {now : Time} (h : w.Ready u now) :
    Serves u ((createChallenge u).bind fun t => .ret (.twoFactorRequired t)) w := by
  obtain ⟨x, hx⟩ := h.row
  have hnew : w.twoFactorChallenges.any (fun _ c => hashToken w.nonce == c.token) = false := by
    refine Table.any_eq_false.mpr fun k c hk => ?_
    have hlt := h.sound.challenges.tokens k c hk
    simp only [beq_eq_false_iff_ne]
    intro heq
    rw [← heq] at hlt
    exact absurd hlt (Nat.lt_irrefl w.nonce)
  simp only [Serves, createChallenge, Prog.bind_eq, Prog.bind_assoc, traces_randomBytes_bind,
    traces_date_bind, traces_execute_bind, Stmt.exec, World.hasUser, hx, Option.isSome_some,
    Bool.not_true, Bool.false_eq_true, if_false, hnew]
  exact ⟨_, rfl, _, .tail _ (.tail _ (.head _)), rfl, rfl⟩

theorem record_serves {now : Time} (h : w.Ready u now) (client : ClientInfo)
    {k : RefreshJwt → Req Reply}
    (hk : ∀ t w', w'.Unclashed → (∃ x, w'.users.get? u = some x) → Serves u (k t) w') :
    Serves u ((createRefreshTokenRecord env u client).bind k) w := by
  obtain ⟨x, hx⟩ := h.row
  refine .past (Q := fun _ w' => MailQuiet w w')
    ((createRefreshTokenRecord_ends client hx h.sound.drawn h.sound.fresh.refreshTokens).weaken
      fun r w' ⟨⟨t, ht⟩, hquiet⟩ => ⟨t, ht, hquiet⟩) fun t w' hquiet =>
      hk t w' ?_ ⟨x, hquiet.users ▸ hx⟩
  unfold World.Unclashed
  rw [hquiet.users]
  exact h.sound.unclashed

theorem session_serves (su : Option SafeUser) (email : String) (role : Role) (v : Nat)
    (t : RefreshJwt) (used : Bool) :
    Serves u ((signToken env u email role v).bind fun token =>
      .ret (.session su token t none used)) w :=
  .past (Q := fun token _ => token.id = u) ⟨_, rfl, rfl⟩ fun _ _ hid => ⟨_, rfl, hid⟩

theorem LoginStands.found (hs : w.CredentialsSound) {email password : String}
    (h : LoginStands env w u email password x) :
    w.users.find? (fun _ u => u.email == normalizeEmail env email && u.live) = some (u, x) := by
  refine Table.find?_unique h.user (by simp [h.named, h.live]) fun k v hk hv => ?_
  simp only [Bool.and_eq_true, beq_iff_eq] at hv
  by_contra hne
  have hclash := hs.unclashed k u v x hk h.user hne
  simp [User.clash, hv.1, hv.2, h.named, h.live] at hclash

theorem login_serves (hs : w.CredentialsSound) {email password : String}
    (h : LoginStands env w u email password x) (client : ClientInfo) :
    Serves u (login env email password client) w := by
  unfold login
  refine .query_bind ?_
  rw [h.found hs]
  refine .query_bind (.query_bind (.past (Q := fun _ w' => w'.Ready u w.now) ?_ fun _ w₁ h₁ => ?_))
  · unfold when
    split
    · exact (touch_ready (.of_row hs h.user) (fun _ _ => rfl) rfl)
    · exact ⟨_, rfl, .of_row hs h.user⟩
  refine .past (Q := fun valid w₂ => w₂ = w₁ ∧ valid = true)
    ((checkPassword_ends password x _).weaken fun r w₂ ⟨hw₂, valid, hr, hvalid⟩ =>
      ⟨valid, hr, hw₂, hvalid.mpr ⟨h.notLocked, h.matched⟩⟩) fun valid w₂ hchecked => ?_
  obtain ⟨rfl, rfl⟩ := hchecked
  rw [if_neg (by simp), if_neg (by simp [h.notBanned])]
  refine .query_bind ?_
  rw [h₁.now, if_neg (by simp [h.notSuspended])]
  split
  · exact challenge_serves h₁
  · refine record_serves h₁ client fun t w₂ hunclashed ⟨x₂, hx₂⟩ => .query_bind ?_
    have hexec := touch_exec hunclashed hx₂
      (d := { failedLoginAttempts := some 0, lockedUntil := some none, lastLoginAt := some w₂.now })
        fun _ _ => rfl
    refine .past (Q := fun _ _ => True) ?_ fun _ _ _ => session_serves _ _ _ _ _ _
    simp only [saveUser, send, Prog.ends_send, hexec]
    exact ⟨_, rfl, trivial⟩

theorem refresh_serves (hs : w.CredentialsSound) {token : RefreshJwt} {k : Id} {t : RefreshToken}
    (h : RefreshStands w token k t x) (client : ClientInfo) :
    Serves t.userId (refresh env token client) w := by
  have hfound : w.refreshTokens.find? (fun _ t => t.token == hashToken token) = some (k, t) :=
    Table.find?_unique h.stored (by simp [h.presented]) fun k' t' hk' ht' =>
      hs.unique k' k t' t hk' h.stored (by simpa [h.presented] using ht')
  unfold refresh
  refine .query_bind ?_
  rw [if_neg (by simp [h.unexpired])]
  refine .query_bind ?_
  simp only [hfound, Option.bind_some, h.user, Option.map_some, h.notRevoked,
    Bool.false_eq_true, if_false]
  refine .query_bind ?_
  simp only [Nat.not_lt.mpr h.notExpired, if_false, h.live, Bool.not_true, Bool.false_eq_true,
    h.notBanned]
  refine .query_bind ?_
  rw [if_neg (by simp [h.notSuspended])]
  refine .past (Q := fun _ w' => w'.Ready t.userId w.now) ?_ fun _ w₁ h₁ =>
    record_serves h₁ client fun _ _ _ _ => session_serves _ _ _ _ _ _
  have hexec : ∃ w', (Stmt.refreshTokenRotate k).exec w = .ok w' := by
    simp [Stmt.exec, World.require, h.stored]
  obtain ⟨w', hexec⟩ := hexec
  simp only [execute, Prog.ends_send, hexec]
  exact ⟨(), trivial, (World.Ready.of_row hs h.user).exec rfl rfl rfl Stmt.noConfusion hexec⟩

theorem RefreshStands.refreshes (hs : w.CredentialsSound) {token : RefreshJwt} {k : Id}
    {t : RefreshToken} (h : RefreshStands w token k t x) : Refreshes env w token :=
  let ⟨a, ha, _⟩ := (refresh_serves hs h {} : Serves _ (refresh env token {}) w)
  ⟨{}, a, ha⟩

theorem LoginStands.logsIn (hs : w.CredentialsSound) {email password : String}
    (h : LoginStands env w u email password x) : LogsIn env w u email password :=
  let ⟨a, ha, _⟩ := login_serves hs h {}
  ⟨{}, a, ha, x, h.found hs⟩

end Serves

def SessionEntry.Links (env : Env) (u : Id) (e : SessionEntry) : Prop :=
  ∃ code state client googleId x, e.req = .googleLogin code state client ∧
    .userUpdate u { googleId := some googleId, emailVerified := some true } ∈
    (e.req.prog env).sent Stmt.exec e.pre ∧ e.pre.users.get? u = some x ∧ x.emailVerified = false

def SessionEntry.SendsNo (env : Env) (P : Stmt → Bool) (e : SessionEntry) : Prop :=
  ∀ l ∈ (e.req.prog env).sent Stmt.exec e.pre, P l = false

def Stmt.endsToken (k : Id) (t : RefreshToken) (l : Stmt) : Bool :=
  l.revokesToken k t || l.erasesToken t

def Stmt.spares : Stmt → Bool
  | .userUpdate _ d => !d.evicts
  | .userDelete _ | .killSessions .. | .reuseDetected _ | .refreshTokenRotate _
  | .refreshTokenExpire _
  | .refreshTokenRevoke _ | .refreshTokenRevokeByToken .. | .refreshTokenRevokeAll _
  | .refreshTokenCleanup .. => false
  | _ => true

theorem Stmt.spares_evicts {l : Stmt} (h : l.spares = true) (u : Id) : l.evicts u = false := by
  cases l with
  | userUpdate id d =>
    have hd : d.evicts = false := by simpa [Stmt.spares] using h
    simp [Stmt.evicts, hd]
  | _ => first | rfl | cases h

theorem Stmt.spares_endsToken {l : Stmt} (h : l.spares = true) (k : Id) (t : RefreshToken) :
    l.endsToken k t = false := by
  cases l <;> first | rfl | cases h

section Linking

variable {env : Env} {w₀ w : World} {h : List SessionEntry} {e : SessionEntry}

theorem googleAccount_spares (googleId normalizedEmail : String) (name : Option String) :
    (googleAccount googleId normalizedEmail name).Sends (fun l => l.spares = true) := by
  refine .bind (.send rfl) fun linked => ?_
  split
  · exact .ret
  · refine .bind (.send rfl) fun byEmail => ?_
    split
    · split
      · exact .throw
      · exact .bind (.send rfl) fun _ => .ret
    · refine .tryCatch (.send rfl) fun err => ?_
      split
      · refine .bind (.send rfl) fun found => ?_
        split
        · exact .ret
        · exact .throw
      · exact .throw

theorem googleLogin_spares (code state : String) (client : ClientInfo) :
    (googleLogin env code state client).Sends (fun l => l.spares = true) := by
  unfold googleLogin
  split
  · exact .throw
  · refine .bind (.send rfl) fun now => ?_
    split
    · exact .throw
    · split
      · exact .throw
      · split
        · split
          · exact .throw
          · refine .bind ?_ fun account => ?_
            · exact googleAccount_spares _ _ _
            · obtain ⟨id, user⟩ := account
              simp only []
              split
              · exact .throw
              · refine .bind (.send rfl) fun now => ?_
                split
                · exact .throw
                · split
                  · refine .bind ?_ fun _ => .ret
                    exact .bind (.send rfl) fun _ => .bind (.send rfl) fun _ =>
                      .bind (.send rfl) fun _ => .ret
                  · refine .bind (.send rfl) fun _ => .bind (.send rfl) fun _ => ?_
                    refine .bind ?_ fun _ => .bind (.bind (.send rfl) fun _ => .ret) fun _ => .ret
                    exact .bind (.send rfl) fun _ => .bind (.send rfl) fun _ =>
                      .bind (.send rfl) fun _ => .ret
        · exact .throw

theorem AccountKept.entry {u : Id} (he : e = serve Stmt.exec (SessionRequest.prog env) e.pre e.req)
    (hnone : e.SendsNo env (Stmt.evicts u)) : AccountKept u e.pre e.post := by
  rw [he]
  exact Prog.run_of_sent (.refl u) (fun _ _ _ => .trans)
    (fun _ _ _ hl hexec => .exec hl hexec) _ _ hnone

theorem LinkRun.account {u : Id} (hrun : LinkRun env w₀ h w)
    (hnone : ∀ e ∈ h, e.SendsNo env (Stmt.evicts u)) :
    AccountKept u w₀ w := by
  induction hrun with
  | refl => exact .refl u w₀
  | @snoc _ _ _ e _ hserved ih =>
    have hentry := AccountKept.entry (Served.eq_serve hserved) (hnone _ (.head _))
    cases hserved
    exact (ih fun e he => hnone e (.tail _ he)).trans hentry

theorem token_stays {k : Id} {t : RefreshToken} (hrun : LinkRun env w₀ h w)
    (hnone : ∀ e ∈ h, e.SendsNo env (Stmt.endsToken k t)) (hk : w₀.refreshTokens.get? k = some t) :
    w.refreshTokens.get? k = some t := by
  induction hrun with
  | refl => exact hk
  | @snoc _ s _ e _ hserved ih =>
    have hbefore := ih fun e he => hnone e (.tail _ he)
    have hentry := hnone _ (.head _)
    cases hserved
    refine Prog.run_of_sent
      (R := fun w w' : World => w.refreshTokens.get? k = some t → w'.refreshTokens.get? k = some t)
      (fun _ h => h) (fun _ _ _ h₁ h₂ hk => h₂ (h₁ hk)) (fun l _ _ hl hexec hk => ?_)
        _ _ hentry hbefore
    simp only [Stmt.endsToken, Bool.or_eq_false_iff] at hl
    exact token_kept hl.1 hl.2 hexec hk

end Linking

/-- Linking a Google identity takes no credential of the account away: one that was accepted
before the link is accepted at every later point, until it expires or a request after the
link takes it away. -/
theorem google_link_keeps_credentials (env : Env) {w₀ w : World} {before later : List SessionEntry}
    {link : SessionEntry} {u : Id} (hw₀ : w₀.CredentialsSound)
    (hrun : LinkRun env w₀ (later ++ link :: before) w)
    (hlinks : link.Links env u) (hspared : ∀ e ∈ later, e.SendsNo env (Stmt.evicts u)) :
    (∀ token, token.id = u → Accepts link.pre token → token.expired w.now = false →
      Accepts w token) ∧
    (∀ token k t, link.pre.refreshTokens.get? k = some t → t.token = hashToken token →
      t.userId = u → Refreshes env link.pre token →
      (∀ e ∈ later, e.SendsNo env (Stmt.endsToken k t)) →
        token.expired w.now = false → w.now ≤ t.expiresAt → Refreshes env w token) ∧
    ∀ email password, LogsIn env link.pre u email password → LogsIn env w u email password := by
  obtain ⟨code, state, client, googleId, _, hreq, _⟩ := hlinks
  obtain ⟨hbefore, hlink, hafter⟩ := Served.around hrun
  have hsound := LinkRun.sound hw₀ hbefore
  have hsound' := LinkRun.sound hw₀ hrun
  have hspares : ∀ l ∈ (link.req.prog env).sent Stmt.exec link.pre, l.spares = true := by
    rw [hreq]
    exact Prog.Sends.sent (googleLogin_spares code state client) link.pre
  have hall : LinkRun env link.pre (later ++ [link]) w := .trans (.snoc .refl hlink) hafter
  have hkept : AccountKept u link.pre w := by
    refine LinkRun.account hall fun e he => ?_
    rcases List.mem_append.mp he with hlater | hlast
    · exact hspared e hlater
    · rw [List.mem_singleton.mp hlast]
      exact fun l hl => Stmt.spares_evicts (hspares l hl) u
  refine ⟨fun token hid haccepts hunexpired => ?_,
    fun token k t hk htoken hid hrefreshes hnone hunexpired hnow => ?_,
    fun email password hlogsIn => ?_⟩
  · obtain ⟨x, hx⟩ := accepts_iff.mp haccepts
    obtain ⟨x', hx', hstands⟩ := hkept.row x (hid ▸ hx.user)
    refine accepts_iff.mpr ⟨x', hunexpired, hid ▸ hx', hstands.live hx.live,
      hx.version.trans hstands.tokenVersion.symm, hstands.banned hx.notBanned,
      hstands.suspended _ (suspendedAt_later hx.notSuspended hkept.now)⟩
  · obtain ⟨k', t', x, hx⟩ := hrefreshes.stands
    obtain rfl : k' = k := hsound.unique k' k t' t hx.stored hk (hx.presented.trans htoken.symm)
    have hsame : t' = t := by
      have hstored := hx.stored
      rw [hk] at hstored
      exact (Option.some.inj hstored).symm
    subst hsame
    obtain ⟨x', hx', hstands⟩ := hkept.row x (hid ▸ hx.user)
    have hstays := token_stays hall (fun e he => ?_) hk
    · exact RefreshStands.refreshes hsound' (k := k') (t := t') (x := x') ⟨hunexpired, hstays,
        htoken, hx.notRevoked, hnow, hid ▸ hx', hstands.live hx.live, hstands.banned hx.notBanned,
        hstands.suspended _ (suspendedAt_later hx.notSuspended hkept.now)⟩
    · rcases List.mem_append.mp he with hlater | hlast
      · exact hnone e hlater
      · rw [List.mem_singleton.mp hlast]
        exact fun l hl => Stmt.spares_endsToken (hspares l hl) k' t'
  · obtain ⟨x, hx⟩ := hlogsIn.stands
    obtain ⟨x', hx', hstands⟩ := hkept.row x hx.user
    obtain ⟨hash, hpassword, hmatch⟩ := hx.matched
    refine LoginStands.logsIn hsound' (x := x') ⟨hx', hstands.live hx.live,
      hstands.email.trans hx.named, ⟨hash, hstands.password.trans hpassword, hmatch⟩, ?_,
      hstands.banned hx.notBanned,
      hstands.suspended _ (suspendedAt_later hx.notSuspended hkept.now)⟩
    refine hstands.locked _ ?_
    have hnotLocked := hx.notLocked
    cases hlock : x.lockedUntil with
    | none => rfl
    | some t =>
      simp only [hlock, Option.any_some, decide_eq_false_iff_not, Nat.not_lt] at hnotLocked ⊢
      exact Nat.le_trans hnotLocked hkept.now

section Sample

def squattedSignIn : List SessionRequest :=
  [.register "M" "a@x.io" "pw" {}, .googleLogin "a@x.io" "state" {}]

def squattedRun : List SessionEntry × World :=
  serveAll Stmt.exec (SessionRequest.prog sampleEnv) squattedSignIn ([], {})

theorem squattedRun_steps : LinkRun sampleEnv {} squattedRun.1 squattedRun.2 := by
  refine serveAll_steps squattedSignIn (fun r hr w => ?_) [] .refl
  simp only [squattedSignIn, List.mem_cons, List.not_mem_nil, or_false] at hr
  rcases hr with rfl | rfl <;> trivial

theorem google_link_keeps_credentials_squatted :
    Accepts squattedRun.2 ⟨1, "a@x.io", .user, 0, 900⟩ ∧
    Refreshes sampleEnv squattedRun.2 ⟨1, 2, 604800⟩ ∧
      LogsIn sampleEnv squattedRun.2 1 "a@x.io" "pw" := by
  obtain ⟨haccess, hrefresh, hlogin⟩ :=
    @google_link_keeps_credentials sampleEnv {} _ [_] [] _ 1 .empty squattedRun_steps
    ⟨"a@x.io", "state", {}, "a@x.io", _, rfl, .tail _ (.tail _ (.tail _ (.head _))), rfl, rfl⟩
      (fun _ he => by cases he)
  refine ⟨haccess ⟨1, "a@x.io", .user, 0, 900⟩ rfl ⟨_, rfl⟩ rfl, ?_,
    hlogin "a@x.io" "pw" ⟨{}, _, rfl, _, rfl⟩⟩
  exact hrefresh ⟨1, 2, 604800⟩ 3 _ rfl rfl rfl ⟨{}, _, rfl⟩ (fun _ he => by cases he)
    rfl (by decide)

/-- The stranger's password, access token and refresh token are all good after the link. -/
theorem squatter_survives_link :
    ∃ register link w token refreshToken, LinkRun sampleEnv {} [link, register] w ∧
      register.req = .register "M" "a@x.io" "pw" {} ∧ register.hands = some (token, refreshToken) ∧
      link.Links sampleEnv 1 ∧ token.id = 1 ∧ Accepts w token ∧ Refreshes sampleEnv w refreshToken ∧
      LogsIn sampleEnv w 1 "a@x.io" "pw" :=
  ⟨_, _, _, _, _, squattedRun_steps, rfl, rfl,
    ⟨"a@x.io", "state", {}, "a@x.io", _, rfl, .tail _ (.tail _ (.tail _ (.head _))), rfl, rfl⟩,
    rfl, ⟨_, rfl⟩, ⟨{}, _, rfl⟩, {}, _, rfl, _, rfl⟩

end Sample

end SaasBackend
