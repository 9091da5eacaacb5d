import SaasBackend.Footprints
import SaasBackend.HandlerHistory
import SaasBackend.KillSwitch

set_option autoImplicit false

namespace SaasBackend
open Keyed Handler

abbrev SessionEntry := Entry SessionRequest World Err Reply

def SessionEntry.hands (e : SessionEntry) : Option (AccessToken × RefreshJwt) :=
  match e.res with
  | .ok (.session _ token refreshToken _ _) => some (token, refreshToken)
  | _ => none

def SessionEntry.enabled (e : SessionEntry) : Option Id :=
  match e.req, e.res with
  | .enable userId _, .ok _ => some userId
  | _, _ => none

/-- Since the last `enable` of `u`, the pair was handed out by a `verifyChallenge` for `u`,
or by a `refresh` with a refresh token of which the same holds. -/
inductive Vouched (u : Id) : List SessionEntry → AccessToken → RefreshJwt → Prop where
  | verified {h : List SessionEntry} {e : SessionEntry} {token : AccessToken}
      {refreshToken : RefreshJwt}
      {challengeToken code : Nat} {client : ClientInfo} :
      e.req = .verifyChallenge challengeToken code client → e.hands = some (token, refreshToken) →
      token.id = u → Vouched u (e :: h) token refreshToken
  | rotated {h : List SessionEntry} {e : SessionEntry} {token token' : AccessToken}
      {refreshToken presented : RefreshJwt} {client : ClientInfo} :
      e.req = .refresh presented client → e.hands = some (token, refreshToken) → token.id = u →
      Vouched u h token' presented → Vouched u (e :: h) token refreshToken
  | later {h : List SessionEntry} {e : SessionEntry} {token : AccessToken}
      {refreshToken : RefreshJwt} :
      Vouched u h token refreshToken → e.enabled ≠ some u → Vouched u (e :: h) token refreshToken

/-- An access token of the current version and a live refresh token of an account with a
second factor are vouched for. -/
structure FactorSound (h : List SessionEntry) (w : World) : Prop where
  fresh : w.Fresh
  issued : ∀ e ∈ h, ∀ token refreshToken, e.hands = some (token, refreshToken) →
    token.id < w.nonce ∧ ∀ x, w.users.get? token.id = some x → token.tokenVersion ≤ x.tokenVersion ∧
      (token.tokenVersion = x.tokenVersion → x.twoFactorEnabled = true →
        Vouched token.id h token refreshToken)
  rows : ∀ k t x, w.refreshTokens.get? k = some t → t.revoked = false →
    w.users.get? t.userId = some x → x.twoFactorEnabled = true →
    ∃ token refreshToken, t.token = hashToken refreshToken ∧ Vouched t.userId h token refreshToken

/-- Stores no refresh token and turns no second factor on, unless it kills the sessions. -/
def Stmt.neutral : Stmt → Bool
  | .userCreate u => !u.twoFactorEnabled
  | .userUpdate _ d => d.twoFactorEnabled != some true
  | .refreshTokenCreate _ => false
  | _ => true

theorem neutral_of_within {α : Type} {areas : List Area} {p : Req α} (h : Within areas p)
    (hareas : areas ⊆ [.routine, .kill, .tenant, .membership]) :
    p.Sends (fun l => l.neutral = true) := by
  refine Prog.Sends.mono (h.mono hareas) fun l hl => ?_
  cases l <;> simp_all [Stmt.neutral, Stmt.area]
  split at hl <;> simp_all

section Statements

variable {h : List SessionEntry} {w w' : World} {l : Stmt}

/-- Where a user with a second factor comes from, when a statement did not kill them. -/
theorem factor_back (hl : l.neutral = true) (hexec : l.exec w = .ok w') {k : Id} {x' : User}
    (hx' : w'.users.get? k = some x') (hkill : l.kills k = false)
    (hfactor : x'.twoFactorEnabled = true) :
    ∃ x, w.users.get? k = some x ∧ x.twoFactorEnabled = true ∧
      x.tokenVersion = x'.tokenVersion := by
  rcases (exec_effect hexec).user_back hx' with ⟨x, hx, hstep⟩ | ⟨y, rfl, _, rfl⟩
  · cases hstep with
    | same => exact ⟨x', hx, hfactor, rfl⟩
    | update d =>
      refine ⟨x, hx, ?_, rfl⟩
      have hflag : d.twoFactorEnabled.getD x.twoFactorEnabled = true := hfactor
      cases hd : d.twoFactorEnabled with
      | none => simpa [hd] using hflag
      | some b =>
        simp only [Stmt.neutral, hd, bne_iff_ne, ne_eq, Option.some.injEq] at hl
        exact absurd (by simpa [hd] using hflag) hl
    | kill => simp [Stmt.kills] at hkill
    | reuse => simp [Stmt.kills] at hkill
  · have hflag : y.twoFactorEnabled = true := hfactor
    simp [Stmt.neutral, hflag] at hl

theorem FactorSound.exec (hs : FactorSound h w) (hl : l.neutral = true)
    (hexec : l.exec w = .ok w') :
    FactorSound h w' := by
  have heff := exec_effect hexec
  refine ⟨hs.fresh.exec hexec, fun e he token refreshToken hhands => ?_,
    fun k t x hk hlive hx hfactor => ?_⟩
  · obtain ⟨hlt, hcap⟩ := hs.issued e he token refreshToken hhands
    refine ⟨Nat.lt_of_lt_of_le hlt heff.nonce_le, fun x' hx' => ?_⟩
    by_cases hkill : l.kills token.id = true
    · obtain ⟨x, hx, hversion⟩ := kill_version hkill hexec hx'
      have hle := (hcap x hx).1
      exact ⟨by omega, fun heq => by omega⟩
    · obtain ⟨x, hx, hle⟩ := (Since.exec hexec).users _ x' hlt hx'
      refine ⟨Nat.le_trans (hcap x hx).1 hle, fun heq hfactor => ?_⟩
      obtain ⟨y, hy, hfactor', hversion⟩ := factor_back hl hexec hx' (by simpa using hkill) hfactor
      exact (hcap y hy).2 (heq.trans hversion.symm) hfactor'
  · rcases heff.token_back hk with ⟨t₀, hk₀, hstep⟩ | ⟨_, rfl, _, _⟩
    · have hlive₀ : t₀.revoked = false := by
        cases hr : t₀.revoked with
        | false => rfl
        | true => rw [hstep.revoked hr] at hlive; cases hlive
      have hkill : l.kills t.userId = false := by
        cases hkill : l.kills t.userId with
        | false => rfl
        | true => rw [kill_tokens hkill hexec hk rfl] at hlive; cases hlive
      obtain ⟨y, hy, hfactor', _⟩ := factor_back hl hexec hx hkill hfactor
      rw [hstep.token, hstep.userId]
      exact hs.rows k t₀ y hk₀ hlive₀ (hstep.userId ▸ hy) hfactor'
    · cases hl

theorem FactorSound.cons (hs : FactorSound h w) {e : SessionEntry} (hhands : e.hands = none)
    (henabled : e.enabled = none) : FactorSound (e :: h) w := by
  have hlater : ∀ {u token refreshToken}, Vouched u h token refreshToken →
      Vouched u (e :: h) token refreshToken := fun hv => .later hv (by rw [henabled]; simp)
  refine ⟨hs.fresh, fun e' he' token refreshToken hhands' => ?_,
    fun k t x hk hlive hx hfactor => ?_⟩
  · rcases List.mem_cons.mp he' with rfl | he'
    · rw [hhands] at hhands'
      cases hhands'
    · obtain ⟨hlt, hcap⟩ := hs.issued e' he' token refreshToken hhands'
      exact ⟨hlt, fun x hx =>
        ⟨(hcap x hx).1, fun heq hfactor => hlater ((hcap x hx).2 heq hfactor)⟩⟩
  · obtain ⟨token, refreshToken, htoken, hv⟩ := hs.rows k t x hk hlive hx hfactor
    exact ⟨token, refreshToken, htoken, hlater hv⟩

/-- A kill on record as an `enable`: no pair of that user is left to be vouched for. -/
theorem FactorSound.enabled (hs : FactorSound h w) {u : Id} (hkill : l.kills u = true)
    (hneutral : l.neutral = true) (hexec : l.exec w = .ok w') {e : SessionEntry}
    (hhands : e.hands = none) (henabled : e.enabled = some u) : FactorSound (e :: h) w' := by
  have hs' := hs.exec hneutral hexec
  refine ⟨hs'.fresh, fun e' he' token refreshToken hhands' => ?_,
    fun k t x hk hlive hx hfactor => ?_⟩
  · rcases List.mem_cons.mp he' with rfl | he'
    · rw [hhands] at hhands'
      cases hhands'
    · obtain ⟨hlt, hcap⟩ := hs'.issued e' he' token refreshToken hhands'
      refine ⟨hlt, fun x hx => ⟨(hcap x hx).1, fun heq hfactor => ?_⟩⟩
      by_cases hu : token.id = u
      · subst hu
        obtain ⟨y, hy, hversion⟩ := kill_version hkill hexec hx
        have hle := ((hs.issued e' he' token refreshToken hhands').2 y hy).1
        omega
      · exact .later ((hcap x hx).2 heq hfactor) (by rw [henabled]; simpa using Ne.symm hu)
  · by_cases hu : t.userId = u
    · rw [kill_tokens hkill hexec hk hu] at hlive
      cases hlive
    · obtain ⟨token, refreshToken, htoken, hv⟩ := hs'.rows k t x hk hlive hx hfactor
      exact ⟨token, refreshToken, htoken, .later hv (by rw [henabled]; simpa using Ne.symm hu)⟩

end Statements

def Stmt.calm : Stmt → Bool
  | .userCreate u => !u.twoFactorEnabled
  | .userUpdate _ d => d.twoFactorEnabled.isNone
  | .userDelete _ | .killSessions .. | .reuseDetected _ | .refreshTokenCreate _ => false
  | _ => true

theorem Stmt.neutral_of_calm {l : Stmt} (hl : l.calm = true) : l.neutral = true := by
  cases l <;> simp_all [Stmt.calm, Stmt.neutral]

def Steady (w w' : World) : Prop :=
  ∀ k x, w.users.get? k = some x → ∃ x', w'.users.get? k = some x' ∧
    x'.twoFactorEnabled = x.twoFactorEnabled ∧ x'.tokenVersion = x.tokenVersion

theorem Steady.refl (w : World) : Steady w w := fun _ x hx => ⟨x, hx, rfl, rfl⟩

theorem Steady.trans {w₁ w₂ w₃ : World} (h₁ : Steady w₁ w₂) (h₂ : Steady w₂ w₃) : Steady w₁ w₃ := by
  intro k x hx
  obtain ⟨x₂, hx₂, hflag₂, hversion₂⟩ := h₁ k x hx
  obtain ⟨x₃, hx₃, hflag₃, hversion₃⟩ := h₂ k x₂ hx₂
  exact ⟨x₃, hx₃, hflag₃.trans hflag₂, hversion₃.trans hversion₂⟩

theorem Steady.exec {l : Stmt} {w w' : World} (hl : l.calm = true) (h : l.exec w = .ok w') :
    Steady w w' := by
  intro k x hx
  have hdelete : l ≠ .userDelete k := fun heq => by rw [heq] at hl; cases hl
  obtain ⟨x', hx', hstep⟩ := (exec_effect h).user_forth hx hdelete
  refine ⟨x', hx', ?_⟩
  cases hstep with
  | same => exact ⟨rfl, rfl⟩
  | update d =>
    have hnone : d.twoFactorEnabled = none := by simpa [Stmt.calm] using hl
    exact ⟨by simp [UserPatch.apply, hnone], rfl⟩
  | kill => cases hl
  | reuse => cases hl

section Requests

variable {α β : Type} {env : Env} {h : List SessionEntry} {w w' : World}

theorem FactorSound.calm (hs : FactorSound h w) {p : Req α}
    (hp : p.Sends (fun l => l.calm = true)) :
    FactorSound h (p.run Stmt.exec w).2 ∧ Steady w (p.run Stmt.exec w).2 := by
  have hstep : ∀ (l : Stmt) (w w' : World), l.calm = true → l.exec w = .ok w' →
      (FactorSound h w → FactorSound h w') ∧ Steady w w' := fun l w w' hl hexec =>
    ⟨fun hs => hs.exec (Stmt.neutral_of_calm hl) hexec, .exec hl hexec⟩
  have hrun := hp.run (R := fun w w' => (FactorSound h w → FactorSound h w') ∧ Steady w w')
    (fun w => ⟨id, .refl w⟩) (fun _ _ _ h₁ h₂ => ⟨h₂.1 ∘ h₁.1, h₁.2.trans h₂.2⟩) hstep w
  exact ⟨hrun.1 hs, hrun.2⟩

theorem checkPassword_calm (env : Env) (password : String) (user : User) (isLocked : Bool) :
    (checkPassword env password user isLocked).Sends (fun l => l.calm = true) := by
  unfold checkPassword
  split
  · exact .send rfl
  · exact .bind (.send rfl) fun _ => .ret

theorem createChallenge_calm (id : Id) : (createChallenge id).Sends (fun l => l.calm = true) :=
  .bind (.send rfl) fun _ => .bind (.send rfl) fun _ => .bind (.send rfl) fun _ => .ret

theorem when_sends {P : Stmt → Prop} {c : Bool} {p : Req Unit} (hp : p.Sends P) :
    (when c p).Sends P := by
  cases c
  · exact .ret
  · exact hp

theorem calm_bind {p : Req α} {k : α → Req β} {post : Except Err β → World → Prop}
    (hp : p.Sends (fun l => l.calm = true)) (hs : FactorSound h w)
    (hok : ∀ a w', FactorSound h w' → Steady w w' → (k a).Ends Stmt.exec post w')
    (herr : ∀ e w', FactorSound h w' → post (.error e) w') : (p.bind k).Ends Stmt.exec post w := by
  have hcalm : p.Ends Stmt.exec (fun _ w' => FactorSound h w' ∧ Steady w w') w := hs.calm hp
  refine Ends.bind hcalm ?_ ?_
  · exact fun a w' hw' => hok a w' hw'.1 hw'.2
  · exact fun e w' hw' => herr e w' hw'.1

theorem consumeBackupCode_calm (id : Id) (user : User) (matched : CodeMatch) :
    (consumeBackupCode id user matched).Sends (fun l => l.calm = true) := by
  cases matched with
  | backup hashed => exact .send rfl
  | totp timeStep => exact .ret
  | invalid => exact .ret

theorem FactorSound.run (hs : FactorSound h w) {p : Req α}
    (hp : p.Sends (fun l => l.neutral = true)) :
    FactorSound h (p.run Stmt.exec w).2 :=
  hp.run (R := fun w w' => FactorSound h w → FactorSound h w') (fun _ => id)
    (fun _ _ _ h₁ h₂ => h₂ ∘ h₁)
    (fun _ _ _ hl hexec hs => hs.exec hl hexec) w hs

theorem neutral_bind {p : Req α} {k : α → Req β} {post : Except Err β → World → Prop}
    (hp : p.Sends (fun l => l.neutral = true)) (hs : FactorSound h w)
    (hok : ∀ a w', FactorSound h w' → (k a).Ends Stmt.exec post w')
    (herr : ∀ e w', FactorSound h w' → post (.error e) w') : (p.bind k).Ends Stmt.exec post w := by
  have hsound : p.Ends Stmt.exec (fun _ w' => FactorSound h w') w := hs.run hp
  exact Ends.bind hsound hok herr

theorem FactorSound.error (hs : FactorSound h w') (r : SessionRequest) (err : Err) :
    FactorSound (⟨r, w, .error err, w'⟩ :: h) w' := by
  refine hs.cons rfl ?_
  cases r <;> rfl

theorem issue_ends {id : Id} {x : User} (client : ClientInfo) {k : RefreshJwt → Req Reply}
    {post : Except Err Reply → World → Prop} (hs : FactorSound h w) (hx : w.users.get? id = some x)
    (hk : ∀ refreshToken w', (x.twoFactorEnabled = false → FactorSound h w') →
      (∀ (e : SessionEntry) (token : AccessToken), e.hands = some (token, refreshToken) →
        e.enabled = none → token.id = id → token.tokenVersion = x.tokenVersion →
        (x.twoFactorEnabled = true → Vouched id (e :: h) token refreshToken) →
        FactorSound (e :: h) w') → (k refreshToken).Ends Stmt.exec post w')
    (herr : ∀ err w', FactorSound h w' → post (.error err) w') :
    ((createRefreshTokenRecord env id client).bind k).Ends Stmt.exec post w := by
  have hs₁ : FactorSound h { w with nonce := w.nonce + 1 } := hs.exec (l := .random) rfl rfl
  simp only [createRefreshTokenRecord, Prog.bind_eq, Prog.bind_assoc, ends_randomBytes_bind,
    ends_date_bind, ends_execute_bind]
  split
  · rename_i w' hexec
    have heff := exec_effect hexec
    have husers : w'.users = w.users := heff.users
    have hfresh := hs₁.fresh.exec hexec
    refine hk _ w' (fun hoff => ?_) fun e token hhands henabled hid hversion hvouched => ?_
    · refine ⟨hfresh, fun e he token refreshToken hhands => ?_, fun i t y hi hlive hy hfactor => ?_⟩
      · obtain ⟨hlt, hcap⟩ := hs₁.issued e he token refreshToken hhands
        exact ⟨Nat.lt_of_lt_of_le hlt heff.nonce_le, by rw [husers]; exact hcap⟩
      · rw [husers] at hy
        rcases heff.token_back hi with ⟨t₀, hi₀, hstep⟩ | ⟨_, hl, _, rfl⟩
        · rw [hstep.token, hstep.userId]
          refine hs₁.rows i t₀ y hi₀ ?_ (hstep.userId ▸ hy) hfactor
          cases hr : t₀.revoked with
          | false => rfl
          | true => rw [hstep.revoked hr] at hlive; cases hlive
        · cases hl
          rw [show w.users.get? id = some y from hy] at hx
          cases hx
          rw [hfactor] at hoff
          cases hoff
    · have hlater : ∀ {u token refreshToken}, Vouched u h token refreshToken →
          Vouched u (e :: h) token refreshToken := fun hv => .later hv (by rw [henabled]; simp)
      refine ⟨hfresh, fun e' he' token' refreshToken' hhands' => ?_,
        fun i t y hi hlive hy hfactor => ?_⟩
      · rw [husers]
        rcases List.mem_cons.mp he' with rfl | he'
        · rw [hhands] at hhands'
          cases hhands'
          rw [hid]
          refine ⟨Nat.lt_of_lt_of_le (hs₁.fresh.users id x hx) heff.nonce_le, fun y hy => ?_⟩
          rw [hx] at hy
          cases hy
          exact ⟨Nat.le_of_eq hversion, fun _ => hvouched⟩
        · obtain ⟨hlt, hcap⟩ := hs₁.issued e' he' token' refreshToken' hhands'
          exact ⟨Nat.lt_of_lt_of_le hlt heff.nonce_le,
            fun y hy => ⟨(hcap y hy).1, fun heq hfactor => hlater ((hcap y hy).2 heq hfactor)⟩⟩
      · rw [husers] at hy
        rcases heff.token_back hi with ⟨t₀, hi₀, hstep⟩ | ⟨_, hl, _, rfl⟩
        · have hlive₀ : t₀.revoked = false := by
            cases hr : t₀.revoked with
            | false => rfl
            | true => rw [hstep.revoked hr] at hlive; cases hlive
          obtain ⟨token', refreshToken', htoken, hv⟩ :=
            hs₁.rows i t₀ y hi₀ hlive₀ (hstep.userId ▸ hy) hfactor
          rw [hstep.token, hstep.userId]
          exact ⟨token', refreshToken', htoken, hlater hv⟩
        · cases hl
          rw [show w.users.get? id = some y from hy] at hx
          cases hx
          exact ⟨token, _, rfl, hvouched hfactor⟩
  · exact herr _ _ hs₁

def KeepsSound (env : Env) (h : List SessionEntry) (w : World) (r : SessionRequest) : Prop :=
  (r.prog env).Ends Stmt.exec (fun res w' => FactorSound (⟨r, w, res, w'⟩ :: h) w') w

theorem register_sound (hs : FactorSound h w) (name email password : String) (client : ClientInfo) :
    KeepsSound env h w (.register name email password client) := by
  simp only [KeepsSound, SessionRequest.prog, SaasBackend.register, findUserByEmail, Prog.bind_eq,
    Prog.tryCatch_eq, ends_query_bind]
  split
  · exact hs.error _ _
  · simp only [ends_randomBytes_bind, ends_date_bind, ends_tryCatch_bind]
    have hs₁ : FactorSound h { w with nonce := w.nonce + 1 } := hs.exec (l := .random) rfl rfl
    split
    · rename_i w₂ hexec
      have hs₂ : FactorSound h w₂ := hs₁.exec (by rfl) hexec
      obtain ⟨rfl, _⟩ := userCreate_ok hexec
      have hfree : w.users.get? (w.nonce + 1) = none :=
        Table.get?_of_bound hs₁.fresh.users (Nat.le_refl _)
      refine issue_ends client hs₂ (Table.get?_insert_self _ hfree)
        (fun refreshToken w₃ _ hissued => ?_)
        fun err w₃ hs₃ => hs₃.error _ _
      simp only [queueVerificationEmail, signToken, Prog.bind_eq, ends_execute_bind, Stmt.exec]
      exact (hissued _ _ rfl rfl rfl rfl (by simp)).exec (l := .enqueue _) rfl rfl
    · split <;> exact hs₁.error _ _

theorem login_sound (hs : FactorSound h w) (email password : String) (client : ClientInfo) :
    KeepsSound env h w (.login email password client) := by
  simp only [KeepsSound, SessionRequest.prog, SaasBackend.login, findUserByEmail, Prog.bind_eq,
    ends_query_bind]
  split
  · exact (hs.exec (l := .bcryptCompare none) rfl rfl).error _ _
  · rename_i id user hfound
    have huser := (Table.find?_some hfound).1
    simp only [ends_date_bind]
    refine calm_bind (when_sends (.send rfl)) hs (fun _ w₁ hs₁ hsteady₁ => ?_) fun _ _ hs' =>
      hs'.error _ _
    refine calm_bind (checkPassword_calm ..) hs₁ (fun valid w₂ hs₂ hsteady₂ => ?_) fun _ _ hs' =>
      hs'.error _ _
    split
    · refine calm_bind (when_sends ?_) hs₂ (fun _ w₃ hs₃ _ => hs₃.error _ _) fun _ _ hs' =>
        hs'.error _ _
      exact .bind (.send rfl) fun _ => when_sends (.bind (.send rfl) fun _ => .send rfl)
    · split
      · exact hs₂.error _ _
      · simp only [ends_date_bind]
        split
        · exact hs₂.error _ _
        · split
          · exact calm_bind (createChallenge_calm id) hs₂ (fun _ w₃ hs₃ _ => hs₃.cons rfl rfl)
              fun _ _ hs' => hs'.error _ _
          · rename_i hfactor
            obtain ⟨x, hx, hflag, hversion⟩ := hsteady₁.trans hsteady₂ id user huser
            have hoff : x.twoFactorEnabled = false := by rw [hflag]; simpa using hfactor
            refine issue_ends client hs₂ hx (fun refreshToken w₃ hs₃ hissued => ?_)
              fun _ _ hs' => hs'.error _ _
            simp only [ends_date_bind, saveUser, ends_send_bind]
            split
            · rename_i w₄ hexec
              simp only [signToken, Prog.bind_eq]
              refine (hissued _ _ rfl rfl rfl hversion.symm fun hon => ?_).exec (by rfl) hexec
              rw [hoff] at hon
              cases hon
            · exact (hs₃ hoff).error _ _

theorem googleAccount_sound (hs : FactorSound h w) {googleId normalizedEmail : String}
    {name : Option String} {k : Id × User → Req Reply} {post : Except Err Reply → World → Prop}
    (hk : ∀ id x w', FactorSound h w' → w'.users.get? id = some x →
      (k (id, x)).Ends Stmt.exec post w')
    (herr : ∀ err w', FactorSound h w' → post (.error err) w') :
    ((googleAccount googleId normalizedEmail name).bind k).Ends Stmt.exec post w := by
  simp only [googleAccount, findUserByEmail, saveUser, Prog.bind_eq, Prog.bind_assoc,
    Prog.tryCatch_eq, ends_query_bind]
  split
  · rename_i r hfound
    exact hk _ _ _ hs (Table.find?_some hfound).1
  · simp only [Prog.bind_assoc, ends_query_bind]
    split
    · rename_i id user hfound
      split
      · exact herr _ _ hs
      · simp only [Prog.bind_assoc, ends_send_bind]
        split
        · rename_i w' hexec
          obtain ⟨rfl, x, hx, _⟩ := setUser_ok hexec
          refine hk _ _ _ (hs.exec (by rfl) hexec) ?_
          simp [hx]
        · exact herr _ _ hs
    · rw [ends_tryCatch_bind]
      split
      · rename_i w' hexec
        obtain ⟨rfl, _⟩ := userCreate_ok hexec
        refine hk _ _ _ (hs.exec (by rfl) hexec) (Table.get?_insert_self _ ?_)
        exact Table.get?_of_bound hs.fresh.users (Nat.le_refl _)
      · split
        · simp only [Prog.bind_assoc, ends_query_bind]
          split
          · rename_i r hfound
            exact hk _ _ _ hs (Table.find?_some hfound).1
          · exact herr _ _ hs
        · exact herr _ _ hs

theorem googleLogin_sound (hs : FactorSound h w) (code state : String) (client : ClientInfo) :
    KeepsSound env h w (.googleLogin code state client) := by
  simp only [KeepsSound, SessionRequest.prog, SaasBackend.googleLogin, Prog.bind_eq]
  split
  · exact hs.error _ _
  · simp only [ends_date_bind]
    split
    · exact hs.error _ _
    · split
      · exact hs.error _ _
      · split
        · split
          · exact hs.error _ _
          · refine googleAccount_sound hs (fun id user w₁ hs₁ huser => ?_) fun _ _ hs' =>
              hs'.error _ _
            simp only []
            split
            · exact hs₁.error _ _
            · simp only [ends_date_bind]
              split
              · exact hs₁.error _ _
              · split
                · exact calm_bind (createChallenge_calm id) hs₁ (fun _ _ hs₂ _ => hs₂.cons rfl rfl)
                    fun _ _ hs' => hs'.error _ _
                · rename_i hfactor
                  simp only [ends_date_bind, saveUser, ends_send_bind]
                  split
                  · rename_i w₂ hexec
                    have hs₂ := hs₁.exec (by rfl) hexec
                    obtain ⟨x, hx, hflag, hversion⟩ := Steady.exec (by rfl) hexec id user huser
                    refine issue_ends client hs₂ hx (fun refreshToken w₃ _ hissued => ?_)
                      fun _ _ hs' => hs'.error _ _
                    simp only [signToken, Prog.bind_eq]
                    refine hissued _ _ rfl rfl rfl ?_ fun hon => ?_
                    · simp [huser, UserPatch.apply, hversion]
                    · rw [hflag] at hon
                      exact absurd hon hfactor
                  · exact hs₁.error _ _
        · exact hs.error _ _

theorem refresh_sound (hs : FactorSound h w) (presented : RefreshJwt) (client : ClientInfo) :
    KeepsSound env h w (.refresh presented client) := by
  simp only [KeepsSound, SessionRequest.prog, SaasBackend.refresh, Prog.bind_eq, ends_date_bind]
  split
  · exact hs.error _ _
  · simp only [ends_query_bind]
    split
    · exact hs.error _ _
    · rename_i tokenId storedToken user hstored
      obtain ⟨hrow, htoken, huser⟩ := stored_found hstored
      split
      · refine neutral_bind (.send rfl) hs (fun _ _ hs' => hs'.error _ _) fun _ _ hs' =>
          hs'.error _ _
      · rename_i hlive
        simp only [ends_date_bind]
        split
        · refine neutral_bind (.send rfl) hs (fun _ _ hs' => hs'.error _ _) fun _ _ hs' =>
            hs'.error _ _
        · split
          · exact hs.error _ _
          · split
            · exact hs.error _ _
            · simp only [ends_date_bind]
              split
              · exact hs.error _ _
              · refine calm_bind (.send rfl) hs (fun _ w₁ hs₁ hsteady => ?_) fun _ _ hs' =>
                  hs'.error _ _
                obtain ⟨x, hx, hflag, hversion⟩ := hsteady storedToken.userId user huser
                refine issue_ends client hs₁ hx (fun refreshToken w₂ _ hissued => ?_)
                  fun _ _ hs' => hs'.error _ _
                simp only [signToken, Prog.bind_eq]
                refine hissued _ _ rfl rfl rfl hversion.symm fun hon => ?_
                -- the row was live, so the presented token is vouched for
                obtain ⟨token, refreshToken', heq, hv⟩ :=
                  hs.rows tokenId storedToken user hrow (by simpa using hlive) huser (hflag ▸ hon)
                rw [htoken, hashToken_inj] at heq
                exact .rotated rfl rfl rfl (heq ▸ hv)

theorem verifyChallenge_sound (hs : FactorSound h w) (challengeToken code : Nat)
    (client : ClientInfo) :
    KeepsSound env h w (.verifyChallenge challengeToken code client) := by
  simp only [KeepsSound, SessionRequest.prog, verifyChallenge_eq, ends_query_bind]
  split
  · exact hs.error _ _
  rename_i challengeId stored user hfound
  obtain ⟨-, -, huser⟩ := challenge_found hfound
  refine whenAnswerable_rule (T := fun _ => True) (Q := fun p => p.Ends Stmt.exec _ w)
    (fun _ => hs.error _ _)
    (fun _ => neutral_bind (.send rfl) hs (fun _ _ hs' => hs'.error _ _) fun _ _ hs' =>
      hs'.error _ _)
    (fun _ hk => ends_date_bind.mpr (hk w.now trivial)) fun _ => ?_
  simp only [answerChallenge, Prog.bind_eq]
  refine calm_bind (.send rfl) hs (fun matched w₁ hs₁ hsteady₁ => ?_) fun _ _ hs' => hs'.error _ _
  split
  · refine calm_bind (.send rfl) hs₁ (fun attempts w₂ hs₂ _ => ?_) fun _ _ hs' => hs'.error _ _
    split <;> exact hs₂.error _ _
  · refine calm_bind (.send rfl) hs₁ (fun claimed w₂ hs₂ hsteady₂ => ?_) fun _ _ hs' =>
      hs'.error _ _
    split
    · exact hs₂.error _ _
    · simp only [completeChallenge, Prog.bind_eq]
      refine calm_bind (consumeBackupCode_calm ..) hs₂ (fun _ w₃ hs₃ hsteady₃ => ?_) fun _ _ hs' =>
        hs'.error _ _
      simp only [ends_date_bind]
      refine calm_bind (.send rfl) hs₃ (fun updated w₄ hs₄ hsteady₄ => ?_) fun _ _ hs' =>
        hs'.error _ _
      obtain ⟨x, hx, hflag, hversion⟩ :=
        (hsteady₁.trans (hsteady₂.trans (hsteady₃.trans hsteady₄))) stored.userId user huser
      refine issue_ends client hs₄ hx (fun refreshToken w₅ _ hissued => ?_) fun _ _ hs' =>
        hs'.error _ _
      simp only [signToken, Prog.bind_eq]
      exact hissued _ _ rfl rfl rfl hversion.symm fun _ => .verified rfl rfl rfl

/-- Requests that hand nothing out, turn no second factor on and store no refresh token. -/
theorem quiet_sound (hs : FactorSound h w) {r : SessionRequest}
    (henable : ∀ userId code, r ≠ .enable userId code)
    (hsends : (r.prog env).Sends (fun l => l.neutral = true))
    (hno : (r.prog env).Returns (fun a => a.accessToken = none)) : KeepsSound env h w r := by
  refine (hs.run hsends).cons ?_ ?_
  · unfold SessionEntry.hands
    split
    · rename_i hres
      cases hno.run hres
    · rfl
  · unfold SessionEntry.enabled
    split
    · rename_i hreq _
      exact absurd hreq (henable _ _)
    · rfl

theorem enable_sound (hs : FactorSound h w) (userId : Id) (code : Nat) :
    KeepsSound env h w (.enable userId code) := by
  simp only [KeepsSound, SessionRequest.prog, SaasBackend.enable, findUserById, Prog.bind_eq,
    ends_query_bind]
  split
  · exact hs.error _ _
  · split
    · exact hs.error _ _
    · split
      · exact hs.error _ _
      · simp only [ends_date_bind]
        split
        · exact hs.error _ _
        · refine calm_bind (drawBackupCodes_sends (by rfl) _) hs (fun codes w₁ hs₁ _ => ?_)
            fun _ _ hs' => hs'.error _ _
          rw [ends_execute_bind]
          split
          · rename_i w₂ hexec
            exact hs₁.enabled (u := userId) (by simp [Stmt.kills]) rfl hexec rfl rfl
          · exact hs₁.error _ _

end Requests

/-- Any other handler stores no refresh token and turns no second factor on. -/
def SessionRequest.allowed : World → SessionRequest → Prop
  | _, .other p _ => p.Sends (fun l => l.neutral = true)
  | _, _ => True

def SessionRequest.also {α : Type} (p : Req α) : SessionRequest :=
  .other (p.bind fun _ => .ret (.message "" none)) (.bind fun _ => rfl)

theorem SessionRequest.also_allowed {α : Type} {areas : List Area} {p : Req α} (h : Within areas p)
    (hareas : areas ⊆ [.routine, .kill, .tenant, .membership]) (w : World) :
    (SessionRequest.also p).allowed w :=
  .bind (neutral_of_within h hareas) fun _ => .ret

theorem SessionRequest.sound {env : Env} {h : List SessionEntry} {w : World} (hs : FactorSound h w)
    (r : SessionRequest) (hr : r.allowed w) : KeepsSound env h w r := by
  cases r with
  | register name email password client => exact register_sound hs name email password client
  | login email password client => exact login_sound hs email password client
  | googleLogin code state client => exact googleLogin_sound hs code state client
  | refresh token client => exact refresh_sound hs token client
  | verifyChallenge challengeToken code client =>
    exact verifyChallenge_sound hs challengeToken code client
  | resetPassword token newPassword =>
    exact quiet_sound hs nofun
      (neutral_of_within (resetPassword_within token newPassword) (by decide))
      (resetPassword_noOne env token newPassword)
  | changePassword userId currentPassword newPassword =>
    exact quiet_sound hs nofun
      (neutral_of_within (changePassword_within userId currentPassword newPassword) (by decide))
      (changePassword_noOne env userId currentPassword newPassword)
  | enable userId code => exact enable_sound hs userId code
  | disable userId password =>
    exact quiet_sound hs nofun (neutral_of_within (disable_within userId password) (by decide))
      (disable_noOne env userId password)
  | revokeAllSessions userId =>
    exact quiet_sound hs nofun (neutral_of_within (revokeAllSessions_within userId) (by decide))
      (.bind fun _ => rfl)
  | other p signsNoOneIn => exact quiet_sound hs nofun hr signsNoOneIn

abbrev SessionRun (env : Env) : World → List SessionEntry → World → Prop :=
  Steps (Served Stmt.exec (SessionRequest.prog env) SessionRequest.allowed)

/-- An accepted access token of an account with a second factor was handed out by a
challenge verified since the factor was turned on, or by a chain of refreshes from one. -/
theorem second_factor_gate (env : Env) {w₀ w : World} {h : List SessionEntry} (hw₀ : w₀.Fresh)
    (hnone : ∀ k t x, w₀.refreshTokens.get? k = some t → t.revoked = false →
      w₀.users.get? t.userId = some x → x.twoFactorEnabled = false)
    (hrun : SessionRun env w₀ h w) {e : SessionEntry} (he : e ∈ h) {token : AccessToken}
    {refreshToken : RefreshJwt} (hhands : e.hands = some (token, refreshToken))
    (haccepts : Accepts w token)
    {x : User} (hx : w.users.get? token.id = some x) (hfactor : x.twoFactorEnabled = true) :
    Vouched token.id h token refreshToken := by
  have hstart : FactorSound [] w₀ := by
    refine ⟨hw₀, by simp, fun k t x hk hlive hx hfactor => ?_⟩
    rw [hnone k t x hk hlive hx] at hfactor
    cases hfactor
  have hs := Served.invariant FactorSound hstart
    (fun h w r hs hr => SessionRequest.sound hs r hr) hrun
  obtain ⟨y, hy, hversion⟩ := haccepts.version
  exact ((hs.issued e he token refreshToken hhands).2 y hy).2 hversion.symm (by
    rw [hx] at hy
    cases hy
    exact hfactor)

section Sample

/-- One account: it registers, turns its second factor on and signs in with it. The reset
and verification tokens, ids and secrets are drawn from one supply. -/
def gatedSignIn : List SessionRequest :=
  [.register "A" "a@x.io" "pw" {}, .also (setup 1), .enable 1 5, .login "a@x.io" "pw" {},
    .verifyChallenge 15 5 {}]

def gatedRun : List SessionEntry × World :=
  serveAll Stmt.exec (SessionRequest.prog sampleEnv) gatedSignIn ([], {})

theorem gatedRun_steps : SessionRun sampleEnv {} gatedRun.1 gatedRun.2 := by
  refine serveAll_steps gatedSignIn (fun r hr w => ?_) [] .refl
  simp only [gatedSignIn, List.mem_cons, List.not_mem_nil, or_false] at hr
  rcases hr with rfl | rfl | rfl | rfl | rfl
  · trivial
  · exact SessionRequest.also_allowed (setup_within 1) (by decide) w
  · trivial
  · trivial
  · trivial

theorem gatedRun_newest :
    ∃ e ∈ gatedRun.1, e.hands = some (⟨1, "a@x.io", .user, 1, 900⟩, ⟨1, 17, 604800⟩) :=
  ⟨_, .head _, rfl⟩

theorem gatedRun_factor : ∃ x, gatedRun.2.users.get? 1 = some x ∧ x.twoFactorEnabled = true :=
    ⟨_, rfl, rfl⟩

theorem second_factor_gate_verified :
    Vouched 1 gatedRun.1 ⟨1, "a@x.io", .user, 1, 900⟩ ⟨1, 17, 604800⟩ := by
  have hfresh : ({} : World).Fresh := ⟨fun _ _ hk => (by cases hk), fun _ _ hk => (by cases hk)⟩
  obtain ⟨e, he, hhands⟩ := gatedRun_newest
  obtain ⟨x, hx, hon⟩ := gatedRun_factor
  exact second_factor_gate sampleEnv hfresh (fun _ _ _ hk => (by cases hk)) gatedRun_steps he hhands
    ⟨_, rfl⟩ hx hon

end Sample

end SaasBackend
