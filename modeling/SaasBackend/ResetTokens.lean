import SaasBackend.Footprints
import SaasBackend.HandlerHistory
import SaasBackend.StatementEffects

/-! How long a password reset token is good. It lives in one column of its account, which
`forgotPassword` writes over and `resetPassword` empties; a change of the password or of the
address leaves it where it is. -/

set_option autoImplicit false

namespace SaasBackend
open Keyed Handler

/-- The patch stores a reset token, or a new expiry for the one there is. -/
def UserPatch.issuesReset (d : UserPatch) : Bool :=
  d.passwordResetToken.any (·.isSome) ||
    (d.passwordResetToken.isNone && d.passwordResetExpires.isSome)

def Stmt.issuesReset : Stmt → Bool
  | .userCreate u => u.passwordResetToken.isSome
  | .userUpdate _ d | .killSessions _ d => d.issuesReset
  | _ => false

/-- The requests that touch passwords, reset tokens or addresses; no other handler stores
a reset token. -/
inductive ResetRequest where
  | forgotPassword (email : String)
  | resetPassword (token : Nat) (newPassword : String)
  | changePassword (userId : Id) (currentPassword newPassword : String)
  | changeEmail (userId : Id) (newEmail password : String)
  | verifyEmail (token : Nat)
  | other (p : Req Reply) (issuesNone : p.Sends (fun l => l.issuesReset = false))

def ResetRequest.prog (env : Env) : ResetRequest → Req Reply
  | .forgotPassword email => SaasBackend.forgotPassword env email
  | .resetPassword token newPassword => SaasBackend.resetPassword env token newPassword
  | .changePassword userId currentPassword newPassword =>
    SaasBackend.changePassword env userId currentPassword newPassword
  | .changeEmail userId newEmail password => SaasBackend.changeEmail env userId newEmail password
  | .verifyEmail token => SaasBackend.verifyEmail token
  | .other p _ => p

abbrev ResetEntry := Entry ResetRequest World Err Reply

abbrev ResetRun (env : Env) : World → List ResetEntry → World → Prop :=
  Steps (Served Stmt.exec (ResetRequest.prog env) (fun _ _ => True))

def World.resetHolder (w : World) (token : Nat) : Option (Id × User) :=
  w.users.find? (fun _ u => u.passwordResetToken == some (hashToken token) && u.live)

def ResetEntry.Mails (env : Env) (u : Id) (t : Nat) (e : ResetEntry) : Prop :=
  ∃ email, e.req = .forgotPassword email ∧
    (∃ x, e.pre.users.find? (fun _ u => u.email == normalizeEmail env email && u.live) =
      some (u, x)) ∧
    .enqueue (.passwordReset (normalizeEmail env email) t) ∈ (e.req.prog env).sent Stmt.exec e.pre

def ResetEntry.Resets (u : Id) (t : Nat) (e : ResetEntry) : Prop :=
  ∃ newPassword a x, e.req = .resetPassword t newPassword ∧ e.res = .ok a ∧
    e.pre.resetHolder t = some (u, x)

def World.ResetsDrawn (w : World) : Prop :=
  ∀ k x t, w.users.get? k = some x → x.passwordResetToken = some (hashToken t) → t < w.nonce

structure ResetsKept (w w' : World) : Prop where
  drawn : w.ResetsDrawn → w'.ResetsDrawn
  nonce : w.nonce ≤ w'.nonce
  now : w.now ≤ w'.now
  rows : ∀ k x' t, w'.users.get? k = some x' → x'.passwordResetToken = some (hashToken t) →
    t < w.nonce → ∃ x, w.users.get? k = some x ∧ x.passwordResetToken = some (hashToken t) ∧
      x'.passwordResetExpires = x.passwordResetExpires

theorem ResetsKept.refl (w : World) : ResetsKept w w :=
  ⟨id, Nat.le_refl _, Nat.le_refl _, fun _ x _ hk ht _ => ⟨x, hk, ht, rfl⟩⟩

theorem ResetsKept.trans {w₁ w₂ w₃ : World} (h₁ : ResetsKept w₁ w₂) (h₂ : ResetsKept w₂ w₃) :
    ResetsKept w₁ w₃ := by
  refine ⟨h₂.drawn ∘ h₁.drawn, Nat.le_trans h₁.nonce h₂.nonce, Nat.le_trans h₁.now h₂.now,
    fun k x₃ t hk ht hdrawn => ?_⟩
  obtain ⟨x₂, hk₂, ht₂, hexpires₂⟩ := h₂.rows k x₃ t hk ht (Nat.lt_of_lt_of_le hdrawn h₁.nonce)
  obtain ⟨x₁, hk₁, ht₁, hexpires₁⟩ := h₁.rows k x₂ t hk₂ ht₂ hdrawn
  exact ⟨x₁, hk₁, ht₁, hexpires₂.trans hexpires₁⟩

section Statements

variable {l : Stmt} {w w' : World}

theorem UserPatch.reset_back {d : UserPatch} (hd : d.issuesReset = false) {x : User} {t : Nat}
    (ht : (d.apply x).passwordResetToken = some (hashToken t)) :
    x.passwordResetToken = some (hashToken t) ∧ (d.apply x).passwordResetExpires =
      x.passwordResetExpires := by
  cases htoken : d.passwordResetToken with
  | none =>
    have hexpires : d.passwordResetExpires = none := by
      simpa [UserPatch.issuesReset, htoken] using hd
    simp only [UserPatch.apply, htoken, hexpires, Option.getD_none] at ht ⊢
    exact ⟨ht, trivial⟩
  | some stored =>
    cases stored with
    | none => simp [UserPatch.apply, htoken] at ht
    | some _ => simp [UserPatch.issuesReset, htoken] at hd

theorem reset_back (hl : l.issuesReset = false) (h : l.Effect w w') {k : Id} {x' : User} {t : Nat}
    (hk : w'.users.get? k = some x') (ht : x'.passwordResetToken = some (hashToken t)) :
    ∃ x, w.users.get? k = some x ∧ x.passwordResetToken = some (hashToken t) ∧
      x'.passwordResetExpires = x.passwordResetExpires := by
  rcases h.user_back hk with ⟨x, hx, hstep⟩ | ⟨x, rfl, _, rfl⟩
  · cases hstep with
    | same => exact ⟨x', hx, ht, rfl⟩
    | update d => exact ⟨x, hx, UserPatch.reset_back hl ht⟩
    | kill d => exact ⟨x, hx, UserPatch.reset_back hl ht⟩
    | reuse => exact ⟨x, hx, ht, rfl⟩
  · simp only at ht
    simp [Stmt.issuesReset, ht] at hl

theorem ResetsKept.exec (hl : l.issuesReset = false) (hexec : l.exec w = .ok w') :
    ResetsKept w w' := by
  have heff := exec_effect hexec
  refine ⟨fun hdrawn k x' t hk ht => ?_, heff.nonce_le, heff.now_le, fun k x' t hk ht _ =>
    reset_back hl heff hk ht⟩
  obtain ⟨x, hx, htoken, _⟩ := reset_back hl heff hk ht
  exact Nat.lt_of_lt_of_le (hdrawn k x t hx htoken) heff.nonce_le

end Statements

section Handlers

variable {env : Env} {w : World}

theorem resetPassword_issuesNone (token : Nat) (newPassword : String) :
    (resetPassword env token newPassword).Sends (fun l => l.issuesReset = false) := by
  refine .bind (.send rfl) fun found => ?_
  split
  · exact .throw
  · refine .bind (.send rfl) fun now => ?_
    split
    · exact .bind (.send rfl) fun _ => .throw
    · exact .bind (.send rfl) fun _ => .ret

theorem changePassword_issuesNone (userId : Id) (currentPassword newPassword : String) :
    (changePassword env userId currentPassword newPassword).Sends
      (fun l => l.issuesReset = false) := by
  refine .bind (.send rfl) fun found => ?_
  split
  · exact .throw
  · split
    · exact .throw
    · refine .bind (.send rfl) fun valid => ?_
      split
      · exact .throw
      · refine .bind (.send rfl) fun samePassword => ?_
        split
        · exact .throw
        · exact .bind (.send rfl) fun _ => .ret

theorem changeEmail_issuesNone (userId : Id) (newEmail password : String) :
    (changeEmail env userId newEmail password).Sends (fun l => l.issuesReset = false) := by
  refine .bind (.send rfl) fun found => ?_
  split
  · exact .throw
  · split
    · exact .throw
    · refine .bind (.send rfl) fun valid => ?_
      split
      · exact .throw
      · refine .bind (.send rfl) fun taken => ?_
        split
        · exact .throw
        · refine .bind (.send rfl) fun pendingTaken => ?_
          split
          · exact .throw
          · exact .bind (.send rfl) fun _ => .bind (.send rfl) fun _ => .bind (.send rfl) fun _ =>
              .bind (.send rfl) fun _ => .ret

theorem verifyEmail_issuesNone (token : Nat) :
    (verifyEmail token).Sends (fun l => l.issuesReset = false) := by
  refine .bind (.send rfl) fun found => ?_
  split
  · exact .throw
  · split
    · exact .ret
    · refine .bind (.send rfl) fun now => ?_
      split
      · exact .bind (.send rfl) fun _ => .throw
      · refine .bind (.tryCatch (.send rfl) fun err => ?_) fun _ => .ret
        split <;> exact .throw

/-- What the account of a mailed token looks like, and no other account. -/
structure HeldBy (u : Id) (t : Nat) (mailed : Time) (w : World) : Prop where
  drawn : t < w.nonce
  holder : ∀ k x, w.users.get? k = some x → x.passwordResetToken = some (hashToken t) →
    k = u ∧ x.passwordResetExpires = some (mailed + resetTokenTtlMs)

theorem HeldBy.kept {u : Id} {t : Nat} {mailed : Time} {w w' : World} (h : HeldBy u t mailed w)
    (hkept : ResetsKept w w') : HeldBy u t mailed w' := by
  refine ⟨Nat.lt_of_lt_of_le h.drawn hkept.nonce, fun k x' hk ht => ?_⟩
  obtain ⟨x, hx, htoken, hexpires⟩ := hkept.rows k x' t hk ht h.drawn
  obtain ⟨rfl, hold⟩ := h.holder k x hx htoken
  exact ⟨rfl, hexpires.trans hold⟩

def Spent (t : Nat) (w : World) : Prop :=
  ∀ k x, w.users.get? k = some x → x.passwordResetToken ≠ some (hashToken t)

theorem Spent.kept {t : Nat} {w w' : World} (h : Spent t w) (ht : t < w.nonce)
    (hkept : ResetsKept w w') :
    Spent t w' := by
  intro k x' hk htoken
  obtain ⟨x, hx, hold, _⟩ := hkept.rows k x' t hk htoken ht
  exact h k x hx hold

def Forgotten (env : Env) (email : String) (w : World) (ls : List Stmt) (w' : World) : Prop :=
  ResetsKept w w' ∧ ∀ recipient t, .enqueue (.passwordReset recipient t) ∈ ls →
    ∀ u x, w.users.find? (fun _ u => u.email == normalizeEmail env email && u.live) = some (u, x) →
      t = w.nonce ∧ (w.ResetsDrawn → HeldBy u t w.now w') ∧
        ∀ x', w'.users.get? u = some x' → x'.passwordResetToken = some (hashToken t)

structure Issued (u : Id) (w w' : World) : Prop where
  nonce : w'.nonce = w.nonce + 1
  now : w'.now = w.now
  rows : ∀ k x', w'.users.get? k = some x' → k ≠ u ∧ w.users.get? k = some x' ∨
    k = u ∧ x'.passwordResetToken = some (hashToken w.nonce) ∧
      x'.passwordResetExpires = some (w.now + resetTokenTtlMs)

theorem Issued.of_exec {w' : World} {u : Id}
    (hexec : (Stmt.userUpdate u
      { passwordResetToken := some (some (hashToken w.nonce))
        passwordResetExpires := some (some (w.now + resetTokenTtlMs)) }).exec { w with nonce :=
        w.nonce + 1 } =
        .ok w') : Issued u w w' := by
  have heff := exec_effect hexec
  refine ⟨heff.nonce, heff.now, fun k x' hk => ?_⟩
  rw [heff.users] at hk
  simp only [Stmt.usersAfter, Table.get?_update] at hk
  split at hk
  · rename_i hid
    obtain ⟨y, _, rfl⟩ := Option.map_eq_some_iff.mp hk
    exact .inr ⟨hid, rfl, rfl⟩
  · rename_i hid
    exact .inl ⟨hid, hk⟩

theorem Issued.kept {w' : World} {u : Id} (h : Issued u w w') : ResetsKept w w' := by
  have hnonce := h.nonce
  refine ⟨fun hdrawn k x' t hk ht => ?_, by omega, Nat.le_of_eq h.now.symm,
    fun k x' t hk ht hdrawn => ?_⟩
  · rcases h.rows k x' hk with ⟨_, hold⟩ | ⟨_, htoken, _⟩
    · have hlt := hdrawn k x' t hold ht
      omega
    · obtain rfl : w.nonce = t := by simpa [htoken] using ht
      omega
  · rcases h.rows k x' hk with ⟨_, hold⟩ | ⟨_, htoken, _⟩
    · exact ⟨x', hold, ht, rfl⟩
    · obtain rfl : w.nonce = t := by simpa [htoken] using ht
      exact absurd hdrawn (Nat.lt_irrefl _)

theorem Issued.held {w' : World} {u : Id} (h : Issued u w w') (hdrawn : w.ResetsDrawn) :
    HeldBy u w.nonce w.now w' := by
  refine ⟨by rw [h.nonce]; exact Nat.lt_succ_self _, fun k x' hk ht => ?_⟩
  rcases h.rows k x' hk with ⟨_, hold⟩ | ⟨hid, _, hexpires⟩
  · exact absurd (hdrawn k x' _ hold ht) (Nat.lt_irrefl _)
  · exact ⟨hid, hexpires⟩

theorem Issued.stored {w' : World} {u : Id} (h : Issued u w w') {x' : User}
    (hk : w'.users.get? u = some x') :
    x'.passwordResetToken = some (hashToken w.nonce) := by
  rcases h.rows u x' hk with ⟨hne, _⟩ | ⟨_, htoken, _⟩
  · exact absurd rfl hne
  · exact htoken

theorem forgotPassword_forgets (email : String) :
    (forgotPassword env email).Traces Stmt.exec (fun _ ls w' => Forgotten env email w ls w') w := by
  simp only [forgotPassword, findUserByEmail, Prog.bind_eq, traces_query_bind]
  split
  · show Forgotten env email w [.read] w
    exact ⟨.refl w, fun _ _ hmem => (by simp at hmem)⟩
  · rename_i _ id x hfound
    simp only [traces_randomBytes_bind, traces_date_bind, traces_execute_bind,
      queuePasswordResetEmail]
    cases hexec : (Stmt.userUpdate id
        { passwordResetToken := some (some (hashToken w.nonce))
          passwordResetExpires := some (some (w.now + resetTokenTtlMs)) }).exec { w with nonce :=
          w.nonce + 1 } with
    | error e =>
      show Forgotten env email w [.read, .random, .read] { w with nonce := w.nonce + 1 }
      exact ⟨.exec (l := .random) rfl rfl, fun _ _ hmem => (by simp at hmem)⟩
    | ok w₁ =>
      -- the queue does not show in what is kept
      have hissued : Issued id w { w₁ with
          outbox := w₁.outbox ++ [.passwordReset (normalizeEmail env email) w.nonce] } :=
        ⟨(Issued.of_exec hexec).nonce, (Issued.of_exec hexec).now, (Issued.of_exec hexec).rows⟩
      simp only [Stmt.exec]
      show Forgotten env email w [.read, .random, .read, _, .enqueue _] { w₁ with outbox := _ }
      refine ⟨hissued.kept, fun recipient t hmem u y hfound' => ?_⟩
      rw [hfound] at hfound'
      cases hfound'
      obtain rfl : t = w.nonce := by
        simp only [List.mem_cons, reduceCtorEq, List.not_mem_nil, or_false, false_or,
          Stmt.enqueue.injEq, Mail.passwordReset.injEq] at hmem
        exact hmem.2
      exact ⟨rfl, hissued.held, fun _ => hissued.stored⟩

/-- A password that was reset belongs to the account that held the token, in time, and
leaves it without one. -/
theorem resetPassword_consumes (token : Nat) (newPassword : String) :
    (resetPassword env token newPassword).Ends Stmt.exec (fun r w' => ∀ a, r = .ok a →
      ∃ u x, w.resetHolder token = some (u, x) ∧
      (∀ t, x.passwordResetExpires = some t → w.now ≤ t) ∧
        ∀ x', w'.users.get? u = some x' → x'.passwordResetToken = none) w := by
  simp only [resetPassword, Prog.bind_eq, ends_query_bind]
  split
  · exact fun _ h => (by cases h)
  · rename_i _ u x hfound
    simp only [ends_date_bind]
    split
    · simp only [ends_execute_bind]
      split
      · exact fun _ h => (by cases h)
      · exact fun _ h => (by cases h)
    · rename_i hunexpired
      simp only [ends_execute_bind]
      split
      · rename_i w' hexec
        refine fun _ _ => ⟨u, x, hfound, fun t ht => ?_, fun x' hx' => ?_⟩
        · rw [ht] at hunexpired
          simpa using hunexpired
        · have hx' : w'.users.get? u = some x' := hx'
          rw [(exec_effect hexec).users] at hx'
          simp only [Stmt.usersAfter, Table.get?_update, if_true] at hx'
          obtain ⟨y, _, rfl⟩ := Option.map_eq_some_iff.mp hx'
          rfl
      · exact fun _ h => (by cases h)

theorem ResetsKept.sends {p : Req Reply} (hp : p.Sends (fun l => l.issuesReset = false))
    (w : World) :
    ResetsKept w (p.run Stmt.exec w).2 :=
  hp.run (R := ResetsKept) .refl (fun _ _ _ => .trans) (fun _ _ _ hl hexec => .exec hl hexec) w

theorem ResetRequest.kept (r : ResetRequest) (w : World) :
    ResetsKept w ((r.prog env).run Stmt.exec w).2 := by
  cases r with
  | forgotPassword email => exact (forgotPassword_forgets email).1
  | resetPassword token newPassword => exact .sends (resetPassword_issuesNone token newPassword) w
  | changePassword userId currentPassword newPassword =>
    exact .sends (changePassword_issuesNone userId currentPassword newPassword) w
  | changeEmail userId newEmail password =>
    exact .sends (changeEmail_issuesNone userId newEmail password) w
  | verifyEmail token => exact .sends (verifyEmail_issuesNone token) w
  | other p issuesNone => exact .sends issuesNone w

end Handlers

section Entries

variable {env : Env} {w₀ w : World} {h : List ResetEntry} {e : ResetEntry} {u : Id} {t : Nat}

theorem ResetRun.kept (hrun : ResetRun env w₀ h w) : ResetsKept w₀ w :=
  Served.related .refl (fun _ _ _ => .trans) (fun s r _ => r.kept s) hrun

theorem Mails.held (he : e = serve Stmt.exec (ResetRequest.prog env) e.pre e.req)
    (hmails : e.Mails env u t) (hdrawn : e.pre.ResetsDrawn) :
    t = e.pre.nonce ∧ HeldBy u t e.pre.now e.post ∧
      ∀ x', e.post.users.get? u = some x' → x'.passwordResetToken = some (hashToken t) := by
  obtain ⟨r, pre, res, post⟩ := e
  simp only [serve, Entry.mk.injEq, true_and] at he
  obtain ⟨_, hpost⟩ := he
  obtain ⟨email, hreq, ⟨x, hfound⟩, hsent⟩ := hmails
  simp only at hreq hfound hsent hdrawn
  subst hreq hpost
  obtain ⟨hnonce, hheld, hstored⟩ := (forgotPassword_forgets email).2 _ t hsent u x hfound
  exact ⟨hnonce, hheld hdrawn, hstored⟩

theorem Resets.consumed (he : e = serve Stmt.exec (ResetRequest.prog env) e.pre e.req)
    (hresets : e.Resets u t) :
    ∃ x, e.pre.users.get? u = some x ∧ x.passwordResetToken = some (hashToken t) ∧
      (∀ s, x.passwordResetExpires = some s → e.pre.now ≤ s) ∧
      ∀ x', e.post.users.get? u = some x' → x'.passwordResetToken = none := by
  obtain ⟨r, pre, res, post⟩ := e
  simp only [serve, Entry.mk.injEq, true_and] at he
  obtain ⟨hres, hpost⟩ := he
  obtain ⟨newPassword, a, x, hreq, hok, hfound⟩ := hresets
  simp only at hreq hok hfound
  subst hreq hpost
  obtain ⟨v, y, hfound', hunexpired, hempty⟩ :=
    resetPassword_consumes t newPassword a (hres.symm.trans hok)
  rw [hfound] at hfound'
  cases hfound'
  obtain ⟨hx, hmatch⟩ := Table.find?_some hfound
  simp only [Bool.and_eq_true, beq_iff_eq] at hmatch
  exact ⟨x, hx, hmatch.1, hunexpired, hempty⟩

theorem HeldBy.spent {mailed : Time} (hheld : HeldBy u t mailed w)
    (hlost : ∀ x, w.users.get? u = some x → x.passwordResetToken ≠ some (hashToken t)) :
    Spent t w := by
  intro k x hk htoken
  obtain ⟨rfl, _⟩ := hheld.holder k x hk htoken
  exact hlost x hk htoken

end Entries

/-- A reset with a mailed token is a reset of the account it was mailed for, within the hour,
and neither a newer mail nor another reset of that account has come in between. -/
theorem reset_token_bounded (env : Env) {w₀ w : World} {before between : List ResetEntry}
    {mailing reset : ResetEntry} {u v : Id} {t : Nat} (hw₀ : w₀.ResetsDrawn)
    (hrun : ResetRun env w₀ (reset :: (between ++ mailing :: before)) w)
    (hmails : mailing.Mails env u t) (hresets : reset.Resets v t) :
    v = u ∧ reset.pre.now ≤ mailing.pre.now + resetTokenTtlMs ∧
      (∀ e ∈ between, ∀ t', ¬ e.Mails env u t') ∧ ∀ e ∈ between, ∀ t', ¬ e.Resets u t' := by
  have hrun' : ResetRun env w₀ ((reset :: between) ++ mailing :: before) w := hrun
  obtain ⟨hbefore, hmailing, hafter⟩ := Served.around hrun'
  obtain ⟨_, hheld, _⟩ := Mails.held hmailing.eq_serve hmails ((ResetRun.kept hbefore).drawn hw₀)
  have hlast : ResetRun env mailing.post ([] ++ reset :: between) w := hafter
  obtain ⟨hbetween, hreset, _⟩ := Served.around hlast
  obtain ⟨x, hx, htoken, hunexpired, _⟩ := Resets.consumed hreset.eq_serve hresets
  obtain ⟨rfl, hexpires⟩ := (hheld.kept (ResetRun.kept hbetween)).holder v x hx htoken
  -- an account without the token after a request of the middle has none at the reset
  have hlost : ∀ e after upto, between = after ++ e :: upto →
      (∀ y, e.post.users.get? v = some y → y.passwordResetToken ≠ some (hashToken t)) → False := by
    rintro e after upto rfl hlost
    obtain ⟨hupto, hserved, hlater⟩ := Served.around hbetween
    have hheld' := hheld.kept (ResetRun.kept (.snoc hupto hserved))
    exact (hheld'.spent hlost).kept hheld'.drawn (ResetRun.kept hlater) v x hx htoken
  refine ⟨rfl, hunexpired _ hexpires, fun e he t' hmails' => ?_, fun e he t' hresets' => ?_⟩
  · obtain ⟨after, upto, rfl⟩ := List.append_of_mem he
    obtain ⟨hupto, hserved, _⟩ := Served.around hbetween
    have hkept := ResetRun.kept (.trans (.snoc hbefore hmailing) hupto)
    obtain ⟨rfl, _, hstored⟩ := Mails.held hserved.eq_serve hmails' (hkept.drawn hw₀)
    refine hlost e after upto rfl fun y hy hsame => ?_
    obtain rfl : e.pre.nonce = t := by simpa [hstored y hy] using hsame
    exact absurd (hheld.kept (ResetRun.kept hupto)).drawn (Nat.lt_irrefl _)
  · obtain ⟨after, upto, rfl⟩ := List.append_of_mem he
    obtain ⟨_, hserved, _⟩ := Served.around hbetween
    obtain ⟨_, _, _, _, hempty⟩ := Resets.consumed hserved.eq_serve hresets'
    refine hlost e after upto rfl fun y hy hsame => ?_
    rw [hempty y hy] at hsame
    cases hsame

section Sample

def mailedWorld : World where
  users :=
    (∅ : Table User).insert 1 { email := "a@x.io", emailVerified := true, password := some "pw" }
  nonce := 5

theorem mailedWorld_drawn : mailedWorld.ResetsDrawn := by
  intro k x t hk ht
  rcases Table.get?_insert_cases hk with hold | ⟨_, rfl⟩
  · cases hold
  · cases ht

def resetAfterChange : List ResetRequest :=
  [.forgotPassword "a@x.io", .changePassword 1 "pw" "better", .resetPassword 5 "mine"]

def resetAfterSwitch : List ResetRequest :=
  [.forgotPassword "a@x.io", .changeEmail 1 "b@x.io" "pw", .verifyEmail 6, .resetPassword 5 "mine"]

def resetRun (rs : List ResetRequest) : List ResetEntry × World :=
  serveAll Stmt.exec (ResetRequest.prog sampleEnv) rs ([], mailedWorld)

theorem resetRun_steps (rs : List ResetRequest) :
    ResetRun sampleEnv mailedWorld (resetRun rs).1 (resetRun rs).2 :=
  serveAll_steps rs (fun _ _ _ => trivial) [] .refl

theorem reset_token_bounded_after_change :
    ∃ mailing reset, mailing ∈ (resetRun resetAfterChange).1 ∧
    reset ∈ (resetRun resetAfterChange).1 ∧
      reset.Resets 1 5 ∧ reset.pre.now ≤ mailing.pre.now + resetTokenTtlMs := by
  obtain ⟨_, hnow, _⟩ :=
    @reset_token_bounded sampleEnv mailedWorld _ [] [_] _ _ 1 1 5 mailedWorld_drawn
    (resetRun_steps resetAfterChange)
    ⟨"a@x.io", rfl, ⟨_, rfl⟩, .tail _ (.tail _ (.tail _ (.tail _ (.head _))))⟩ ⟨"mine", _, _,
      rfl, rfl, rfl⟩
  exact ⟨_, _, .tail _ (.tail _ (.head _)), .head _, ⟨"mine", _, _, rfl, rfl, rfl⟩, hnow⟩

/-- The token is good after the password was changed, and after the account moved. -/
theorem reset_token_outlives_change :
    (∃ mailing change reset w, ResetRun sampleEnv mailedWorld [reset, change, mailing] w ∧
      mailing.Mails sampleEnv 1 5 ∧ change.req = .changePassword 1 "pw" "better" ∧
        change.res = .ok (.message "messages.passwordChangedSuccess" none) ∧ reset.Resets 1 5) ∧
    ∃ mailing change verify reset w,
    ResetRun sampleEnv mailedWorld [reset, verify, change, mailing] w ∧
      mailing.Mails sampleEnv 1 5 ∧ verify.req = .verifyEmail 6 ∧
        ((verify.pre.users.get? 1).map (·.email) = some "a@x.io" ∧
          (verify.post.users.get? 1).map (·.email) = some "b@x.io") ∧ reset.Resets 1 5 := by
  refine ⟨⟨_, _, _, _, resetRun_steps resetAfterChange, ⟨"a@x.io", rfl, ⟨_, rfl⟩, ?_⟩, rfl, rfl,
      "mine", _, _, rfl, rfl, rfl⟩,
    _, _, _, _, _, resetRun_steps resetAfterSwitch, ⟨"a@x.io", rfl, ⟨_, rfl⟩, ?_⟩, rfl, ⟨rfl, rfl⟩,
      "mine", _, _, rfl, rfl, rfl⟩
  · exact .tail _ (.tail _ (.tail _ (.tail _ (.head _))))
  · exact .tail _ (.tail _ (.tail _ (.tail _ (.head _))))

end Sample

end SaasBackend
