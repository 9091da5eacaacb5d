import SaasBackend.GoogleLinking

/-! Sessions that were ended on purpose, or ran out, and their refresh tokens presented
again. The row only says that it is revoked, not why, and `refresh` takes every revoked row
for a rotated one. -/

set_option autoImplicit false

namespace SaasBackend
open Keyed Handler

def World.TokensOwned (w : World) : Prop :=
  ∀ k t, w.refreshTokens.get? k = some t → ∃ x, w.users.get? t.userId = some x

theorem World.TokensOwned.exec {l : Stmt} {w w' : World} (hw : w.TokensOwned)
    (hexec : l.exec w = .ok w') :
    w'.TokensOwned := by
  have heff := exec_effect hexec
  intro k t hk
  by_cases hl : l = .userDelete t.userId
  · rw [heff.refreshTokens, hl] at hk
    simp only [Stmt.refreshTokensAfter, Table.get?_eraseWhere_eq_some, beq_self_eq_true] at hk
    cases hk.2
  · rcases heff.token_back hk with ⟨t₀, hk₀, hstep⟩ | ⟨x, rfl, _, rfl⟩
    · obtain ⟨x, hx⟩ := hw k t₀ hk₀
      rw [← hstep.userId] at hx
      obtain ⟨x', hx', _⟩ := heff.user_forth hx hl
      exact ⟨x', hx'⟩
    · obtain ⟨x, hx⟩ := Option.isSome_iff_exists.mp (refreshTokenCreate_ok hexec).1
      obtain ⟨x', hx', _⟩ := heff.user_forth hx hl
      exact ⟨x', hx'⟩

structure TokensKept (w w' : World) : Prop where
  nonce : w.nonce ≤ w'.nonce
  rows : ∀ k t', w'.refreshTokens.get? k = some t' → t'.token.preimage.jti < w.nonce →
    ∃ t, w.refreshTokens.get? k = some t ∧ TokenStep t t'

theorem tokensKept_rule (env : Env) (w₀ : World) : RecordRule env (TokensKept w₀) := by
  refine .of_recorded (fun l w w' hl hexec hw => ?_) fun userId w w' h hw => ?_
  · have heff := exec_effect hexec
    refine ⟨Nat.le_trans hw.nonce heff.nonce_le, fun k t' hk hdrawn => ?_⟩
    rcases heff.token_back hk with ⟨t, ht, hstep⟩ | ⟨x, rfl, _⟩
    · obtain ⟨t₀, ht₀, hstep₀⟩ := hw.rows k t ht (hstep.token ▸ hdrawn)
      exact ⟨t₀, ht₀, hstep₀.trans hstep⟩
    · cases hl
  · refine ⟨Nat.le_trans hw.nonce (Nat.le_of_lt h.nonce), fun k t' hk hdrawn => ?_⟩
    rcases h.rows k t' hk with hold | ⟨htoken, _⟩
    · exact hw.rows k t' hold hdrawn
    · rw [htoken] at hdrawn
      exact absurd hw.nonce (Nat.not_le.mpr hdrawn)

section Runs

variable {env : Env} {w₀ w : World} {h : List SessionEntry}

theorem LinkRun.kept (hrun : LinkRun env w₀ h w) : TokensKept w₀ w :=
  Served.related (R := fun w w' => TokensKept w₀ w → TokensKept w₀ w') (fun _ => id)
    (fun _ _ _ h₁ h₂ => h₂ ∘ h₁)
    (fun w r hr => (tokensKept_rule env w₀).request_keeps r hr w) hrun
    ⟨Nat.le_refl _, fun _ t hk _ => ⟨t, hk, .refl t⟩⟩

theorem LinkRun.since (hrun : LinkRun env w₀ h w) : Since w₀ w :=
  Served.related .refl (fun _ _ _ => .trans)
    (fun w r _ => Prog.Sends.run (P := fun _ => True) .refl (fun _ _ _ => .trans)
      (fun _ _ _ _ hexec => .exec hexec)
      (.of_forall (fun _ => trivial) (r.prog env)) w) hrun

theorem LinkRun.maintains {I : World → Prop}
    (hexec : ∀ (l : Stmt) (w w' : World), l.exec w = .ok w' → I w → I w')
    (hrun : LinkRun env w₀ h w) (h₀ : I w₀) : I w :=
  Served.related (R := fun w w' => I w → I w') (fun _ => id) (fun _ _ _ h₁ h₂ => h₂ ∘ h₁)
    (fun w _ _ => Prog.Maintains.of_sends (P := fun _ => True) (.of_forall (fun _ => trivial) _)
      (fun l w w' _ => hexec l w w') w) hrun h₀

end Runs

/-- The request ended the session of row `k`, which is user `u`'s and holds `v`, other than
by rotation: it logged out with the token, revoked the session, or left the row expired. -/
inductive EndsSession (env : Env) (v : RefreshJwt) (k u : Id) (e : SessionEntry) : Prop where
  | logout {t : RefreshToken} : e.req.prog env = logout u (some v) →
      e.pre.refreshTokens.get? k = some t →
      t.token = hashToken v → t.userId = u → t.revoked = false → EndsSession env v k u e
  | revokeSession {t : RefreshToken} : e.req.prog env = SaasBackend.revokeSession u k →
      e.pre.refreshTokens.get? k = some t → t.token = hashToken v → t.userId = u →
      t.revoked = false → EndsSession env v k u e
  | expires {t : RefreshToken} : e.post.refreshTokens.get? k = some t → t.token = hashToken v →
      t.userId = u → t.revoked = false → t.expiresAt < e.post.now → EndsSession env v k u e

def World.Ended (w : World) (v : RefreshJwt) (k u : Id) : Prop :=
  ∃ t, w.refreshTokens.get? k = some t ∧ t.token = hashToken v ∧ t.userId = u ∧
    (t.revoked = true ∨ t.expiresAt < w.now)

/-- src/modules/jobs/maintenance.worker.js; the rows deleted are counted. -/
def cleanupRefreshTokens : Req Nat := do
  let now ← date
  let revokedBefore := now - 7 * 24 * 60 * 60 * 1000
  send (.refreshTokenCleanup now revokedBefore) (fun w => (w.refreshTokens.filter (fun _ t =>
    decide (t.expiresAt < now) || (t.revoked && decide (t.updatedAt < revokedBefore)))).length)

theorem logout_ends {w : World} {v : RefreshJwt} {k u : Id} {t : RefreshToken}
    (hk : w.refreshTokens.get? k = some t) (htoken : t.token = hashToken v) (huser : t.userId = u) :
    (logout u (some v)).Ends Stmt.exec (fun _ w' => w'.Ended v k u) w := by
  simp only [logout, Prog.bind_eq, ends_execute_bind, Stmt.exec]
  refine ⟨{ t with revoked := true, updatedAt := w.now }, ?_, htoken, huser, .inl rfl⟩
  simp [hk, htoken, huser]

theorem revokeSession_ends {w : World} {v : RefreshJwt} {k u : Id} {t : RefreshToken}
    (hk : w.refreshTokens.get? k = some t) (htoken : t.token = hashToken v) (huser : t.userId = u) :
    (revokeSession u k).Ends Stmt.exec (fun _ w' => w'.Ended v k u) w := by
  simp only [revokeSession, Prog.bind_eq, ends_query_bind, hk, Option.filter, huser,
    beq_self_eq_true, if_true]
  split
  · rename_i hrevoked
    exact ⟨t, hk, htoken, huser, .inl hrevoked⟩
  · rw [ends_execute_bind]
    simp only [Stmt.exec, World.require, hk, Option.isSome_some, if_true]
    exact ⟨{ t with revoked := true, updatedAt := w.now }, by simp [hk], htoken, huser, .inl rfl⟩

/-- What is left of a session that was ended: the row, revoked or expired. -/
theorem EndsSession.ended {env : Env} {v : RefreshJwt} {k u : Id} {e : SessionEntry}
    (h : EndsSession env v k u e) (he : e = serve Stmt.exec (SessionRequest.prog env) e.pre e.req) :
    e.post.Ended v k u := by
  have hpost : e.post = ((e.req.prog env).run Stmt.exec e.pre).2 := by rw [he]; rfl
  cases h with
  | logout hreq hk htoken huser _ =>
    rw [hpost, hreq]
    exact logout_ends hk htoken huser
  | revokeSession hreq hk htoken huser _ =>
    rw [hpost, hreq]
    exact revokeSession_ends hk htoken huser
  | expires hk htoken huser _ hexpired => exact ⟨_, hk, htoken, huser, .inr hexpired⟩

structure LeavesOthers (k u : Id) (w w' : World) : Prop where
  tokens : ∀ j t, j ≠ k → w.refreshTokens.get? j = some t → t.userId = u →
    ∃ t', w'.refreshTokens.get? j = some t' ∧ t'.revoked = t.revoked
  version : ∀ x, w.users.get? u = some x → ∃ x', w'.users.get? u = some x' ∧
    x'.tokenVersion = x.tokenVersion

theorem LeavesOthers.refl (k u : Id) (w : World) : LeavesOthers k u w w :=
  ⟨fun _ t _ hk _ => ⟨t, hk, rfl⟩, fun x hx => ⟨x, hx, rfl⟩⟩

def Stmt.touchesOnly (k : Id) : Stmt → Bool
  | .read | .random | .refreshTokenCreate _ => true
  | .refreshTokenExpire id | .refreshTokenRotate id => id == k
  | _ => false

structure OthersKept (k : Id) (w w' : World) : Prop where
  users : w'.users = w.users
  tokens : ∀ j t, j ≠ k → w.refreshTokens.get? j = some t → w'.refreshTokens.get? j = some t

theorem OthersKept.refl (k : Id) (w : World) : OthersKept k w w := ⟨rfl, fun _ _ _ hk => hk⟩

theorem OthersKept.trans {k : Id} {w₁ w₂ w₃ : World} (h₁ : OthersKept k w₁ w₂)
    (h₂ : OthersKept k w₂ w₃) :
    OthersKept k w₁ w₃ :=
  ⟨h₂.users.trans h₁.users, fun j t hne hk => h₂.tokens j t hne (h₁.tokens j t hne hk)⟩

theorem OthersKept.exec {k : Id} {l : Stmt} {w w' : World} (hl : l.touchesOnly k = true)
    (hexec : l.exec w = .ok w') :
    OthersKept k w w' := by
  refine ⟨?_, fun j t hne hk => token_kept ?_ ?_ hexec hk⟩
  · rw [(exec_effect hexec).users]
    cases l <;> first | rfl | cases hl
  · cases l with
    | refreshTokenExpire id | refreshTokenRotate id =>
      obtain rfl := beq_iff_eq.mp hl
      simpa [Stmt.revokesToken] using hne
    | _ => first | rfl | cases hl
  · cases l <;> first | rfl | cases hl

theorem OthersKept.leaves {k : Id} {w w' : World} (h : OthersKept k w w') (u : Id) :
    LeavesOthers k u w w' :=
  ⟨fun j t hne hk _ => ⟨t, h.tokens j t hne hk, rfl⟩, fun x hx => ⟨x, h.users ▸ hx, rfl⟩⟩

section Presented

variable {env : Env} {w : World} {v : RefreshJwt} {client : ClientInfo} {k u : Id}

theorem refresh_othersKept
    (hrow : ∀ j t, w.refreshTokens.get? j = some t → t.token = hashToken v →
      j = k ∧ t.revoked = false) :
    (refresh env v client).Ends Stmt.exec (fun _ w' => OthersKept k w w') w := by
  unfold refresh
  rw [Prog.bind_eq, ends_date_bind]
  split
  · exact .refl k w
  rw [Prog.bind_eq, ends_query_bind]
  split
  · exact .refl k w
  rename_i tokenId storedToken user hstored
  obtain ⟨hk, htoken, _⟩ := stored_found hstored
  obtain ⟨rfl, hunrevoked⟩ := hrow tokenId storedToken hk htoken
  rw [if_neg (by simp [hunrevoked])]
  refine Prog.Sends.run (P := fun l => l.touchesOnly tokenId = true)
    (R := OthersKept tokenId) (.refl _)
    (fun _ _ _ => .trans) (fun _ _ _ hl hexec => .exec hl hexec) ?_ w
  have hself : (tokenId == tokenId) = true := beq_self_eq_true _
  refine .bind (.send rfl) fun now => ?_
  split
  · exact .bind (.send hself) fun _ => .throw
  split
  · exact .throw
  split
  · exact .throw
  refine .bind (.send rfl) fun now => ?_
  split
  · exact .throw
  refine .bind (.send hself) fun _ => .bind ?_ fun _ => .bind (.bind (.send rfl) fun _ => .ret)
    fun _ => .ret
  exact .bind (.send rfl) fun _ => .bind (.send rfl) fun _ => .bind (.send rfl) fun _ => .ret

theorem refresh_reuse {t : RefreshToken} {x : User} (hs : w.CredentialsSound)
    (hfresh : v.expired w.now = false)
    (hk : w.refreshTokens.get? k = some t) (htoken : t.token = hashToken v)
    (hrevoked : t.revoked = true) (hx : w.users.get? t.userId = some x) :
    (refresh env v client).Ends Stmt.exec (fun _ w' =>
      ∃ x', w'.users.get? t.userId = some x' ∧ x'.tokenVersion = x.tokenVersion + 1) w := by
  have hfound : w.refreshTokens.find? (fun _ t => t.token == hashToken v) = some (k, t) :=
    Table.find?_unique hk (by simp [htoken]) fun j t' hj htoken' =>
      hs.unique j k t' t hj hk ((beq_iff_eq.mp htoken').trans htoken.symm)
  unfold refresh
  rw [Prog.bind_eq, ends_date_bind, hfresh, if_neg (by simp), Prog.bind_eq, ends_query_bind, hfound]
  simp only [Option.bind_some, hx, Option.map_some, hrevoked, if_true]
  rw [Prog.bind_eq, ends_execute_bind]
  have hok : w.setUser t.userId (fun u => { u with tokenVersion := u.tokenVersion + 1 }) =
      .ok { w with
        users := w.users.update t.userId
          (fun u => { u with tokenVersion := u.tokenVersion + 1 }) } :=
    setUser_eq_ok hx fun j v' hj hne => hs.unclashed t.userId j x v' hx hj (Ne.symm hne)
  simp only [Stmt.exec, hok]
  exact ⟨{ x with tokenVersion := x.tokenVersion + 1 }, by simp [hx], rfl⟩

end Presented

/-- A token that is presented after its session was ended leaves the other sessions of its
user alone exactly when its signature has expired, or its row is gone or not yet revoked. -/
theorem ended_session_quiet_iff (env : Env) {w₀ w : World} (hs₀ : w₀.CredentialsSound)
    (ho₀ : w₀.TokensOwned) {before between after : List SessionEntry} {ending p : SessionEntry}
    (hrun : LinkRun env w₀ (after ++ p :: (between ++ ending :: before)) w) {v : RefreshJwt}
    {k u : Id} (hends : EndsSession env v k u ending) {client : ClientInfo}
    (hp : p.req = .refresh v client) :
    LeavesOthers k u p.pre p.post ↔
      v.expired p.pre.now = true ∨ ∀ t, p.pre.refreshTokens.get? k = some t →
      t.revoked = false := by
  obtain ⟨hupto, hpserved, _⟩ := Served.around hrun
  obtain ⟨hbefore, hserved, hbetween⟩ := Served.around hupto
  obtain ⟨t, hk, htoken, huser, _⟩ := hends.ended (Served.eq_serve hserved)
  have hs : ending.post.CredentialsSound := LinkRun.sound hs₀ (.snoc hbefore hserved)
  have hs' := LinkRun.sound hs₀ hupto
  have howned : p.pre.TokensOwned :=
    LinkRun.maintains (fun _ _ _ hexec hw => hw.exec hexec) hupto ho₀
  have hpost : p.post = ((refresh env v client).run Stmt.exec p.pre).2 := by
    rw [Served.eq_serve hpserved,
      ← show (SessionRequest.prog env p.req) = refresh env v client by rw [hp]; rfl]
    rfl
  have hdrawn : v.jti < ending.post.nonce := by
    have := hs.drawn k t hk
    rwa [htoken] at this
  -- whatever row holds the token now is the one of the session
  have hrow : ∀ j t', p.pre.refreshTokens.get? j = some t' → t'.token = hashToken v →
      j = k ∧ t'.userId = u := by
    intro j t' hj htoken'
    obtain ⟨t₀, hj₀, hstep⟩ := (LinkRun.kept hbetween).rows j t' hj (by rw [htoken']; exact hdrawn)
    obtain rfl := hs.unique j k t₀ t hj₀ hk (hstep.token.symm.trans (htoken'.trans htoken.symm))
    rw [hk] at hj₀
    cases hj₀
    exact ⟨rfl, hstep.userId.trans huser⟩
  rw [hpost]
  constructor
  · intro hleaves
    cases hexpired : v.expired p.pre.now with
    | true => exact .inl rfl
    | false =>
      refine .inr fun t' hk' => ?_
      obtain ⟨t₀, ht₀, hstep⟩ :=
        (LinkRun.since hbetween).tokens k t' (hs.fresh.refreshTokens k t hk) hk'
      rw [hk] at ht₀
      cases ht₀
      by_contra hrevoked
      obtain ⟨x, hx⟩ := howned k t' hk'
      obtain ⟨x', hx', hbumped⟩ := (refresh_reuse hs' hexpired hk'
        (hstep.token.trans htoken) (Bool.not_eq_false _ ▸ hrevoked) hx :
          Prog.Ends _ _ (refresh env v client) _)
      rw [hstep.userId, huser] at hx hx'
      obtain ⟨x'', hx'', hsame⟩ := hleaves.version x hx
      rw [hx'] at hx''
      cases hx''
      omega
  · rintro (hexpired | hunrevoked)
    · have hsame : (refresh env v client).Ends Stmt.exec (fun _ w' => w' = p.pre) p.pre := by
        unfold refresh
        rw [Prog.bind_eq, ends_date_bind, hexpired, if_pos rfl]
        rfl
      rw [show ((refresh env v client).run Stmt.exec p.pre).2 = p.pre from hsame]
      exact .refl k u p.pre
    · exact OthersKept.leaves (refresh_othersKept fun j t' hj htoken' =>
        have hj' := hrow j t' hj htoken'
        ⟨hj'.1, hunrevoked t' (hj'.1 ▸ hj)⟩ : Prog.Ends _ _ _ _) u

section Sample

def laptop : RefreshJwt := ⟨1, 2, 604800⟩

def logsOut : SessionRequest := .other (logout 1 (some laptop)) (.bind fun _ => rfl)

def cleansUp : SessionRequest :=
  .other ((execute (.tick (8 * 24 * 60 * 60 * 1000))).bind fun _ =>
    cleanupRefreshTokens.bind fun deleted =>
    .ret (.revokedCount deleted)) (.bind fun _ => .bind fun _ => rfl)

def loggedOut (later : List SessionRequest) : List SessionEntry × World :=
  serveAll Stmt.exec (SessionRequest.prog sampleEnv)
    ([.register "A" "a@x.io" "pw" {}, .login "a@x.io" "pw" {}, logsOut] ++ later ++
      [.refresh laptop {}]) ([], {})

theorem emptyWorld_sound : ({} : World).CredentialsSound ∧ ({} : World).TokensOwned :=
  ⟨.empty, fun _ _ hk => (by cases hk)⟩

theorem loggedOut_steps (later : List SessionRequest) (hlater : ∀ r ∈ later, r = cleansUp) :
    LinkRun sampleEnv {} (loggedOut later).1 (loggedOut later).2 := by
  refine serveAll_steps _ (fun r hr w => ?_) [] .refl
  simp only [List.mem_append, List.mem_cons, List.not_mem_nil, or_false] at hr
  rcases hr with ((rfl | rfl | rfl) | hr) | rfl
  · trivial
  · trivial
  · exact (logout_within 1 (some laptop)).mono (by decide)
  · obtain rfl := hlater r hr
    refine (?_ : Within _ (cleansUp.prog sampleEnv))
    exact .bind (.send rfl) fun _ => .bind (.bind (.send rfl) fun _ => .send rfl) fun _ => .ret
  · trivial

/-- After a cleanup the presented token is unknown. -/
theorem ended_session_quiet_cleaned :
    ∃ p ending, p ∈ (loggedOut [cleansUp]).1 ∧ EndsSession sampleEnv laptop 3 1 ending ∧
      p.req = .refresh laptop {} ∧ LeavesOthers 3 1 p.pre p.post := by
  have hrun := loggedOut_steps [cleansUp] fun r hr => by simpa using hr
  have hends : EndsSession sampleEnv laptop 3 1 (serve Stmt.exec (SessionRequest.prog sampleEnv)
      (serveAll Stmt.exec (SessionRequest.prog sampleEnv)
        [.register "A" "a@x.io" "pw" {}, .login "a@x.io" "pw" {}] ([], {})).2 logsOut) :=
    .logout rfl rfl rfl rfl rfl
  refine ⟨_, _, .head _, hends, rfl, ?_⟩
  exact (@ended_session_quiet_iff sampleEnv {} _ emptyWorld_sound.1 emptyWorld_sound.2 [_, _] [_]
    [] _ _ hrun laptop
    3 1 hends {} rfl).mpr (.inr fun t ht => nomatch (show none = some t from ht))

/-- Presenting the token of the session that was logged out revokes the other one. -/
theorem logged_out_revokes_other :
    ∃ p ending before w, LinkRun sampleEnv {} (p :: ending :: before) w ∧
    ({} : World).CredentialsSound ∧
      ({} : World).TokensOwned ∧ EndsSession sampleEnv laptop 3 1 ending ∧
      p.req = .refresh laptop {} ∧
      (p.pre.refreshTokens.get? 5).map (fun t => (t.userId, t.revoked)) = some (1, false) ∧
      (p.post.refreshTokens.get? 5).map (fun t => (t.userId, t.revoked)) = some (1, true) ∧
      (p.pre.users.get? 1).map (·.tokenVersion) = some 0 ∧
      (p.post.users.get? 1).map (·.tokenVersion) = some 1 :=
  ⟨_, _, _, _, loggedOut_steps [] (fun _ hr => by cases hr), emptyWorld_sound.1, emptyWorld_sound.2,
    .logout rfl rfl rfl rfl rfl, rfl, rfl, rfl, rfl, rfl⟩

end Sample

end SaasBackend
