import SaasBackend.DurationText
import SaasBackend.HandlerPairs
import SaasBackend.ProjectIsolation
import SaasBackend.SessionEndings
import SaasBackend.TokenRecords

/-! Two runs of one schedule, one of them interrupted by the cleanup of refresh tokens. The
rows it deletes are missed by nobody as long as their tokens have run out, which is a matter
of three durations: the lifetime of the token, that of its row, and the seven days that a
revoked row is kept. -/

set_option autoImplicit false

namespace SaasBackend
open Keyed Handler

/-- The same store but for refresh tokens that have run out, of which some rows are gone. -/
structure World.Pruned (w w' : World) : Prop where
  rest : ∃ tokens, w' = { w with refreshTokens := tokens }
  rows : ∀ k, w'.refreshTokens.get? k = w.refreshTokens.get? k ∨ (w'.refreshTokens.get? k = none ∧
    ∃ t, w.refreshTokens.get? k = some t ∧ t.token.preimage.expired w.now = true)

structure RefreshToken.Dated (env : Env) (now : Time) (t : RefreshToken) (c : Time) : Prop where
  exp : t.token.preimage.exp = c / 1000 + env.jwtRefreshExpiresInMs / 1000
  expiresAt : t.expiresAt = c + env.refreshTokenTtlMs
  updated : c ≤ t.updatedAt
  past : t.updatedAt ≤ now

/-- The constraints of the database, and rows that were created under this configuration. -/
structure World.Datable (env : Env) (w : World) : Prop where
  fresh : w.Fresh
  unique : w.TokensUnique
  drawn : w.TokensDrawn
  dated : ∀ k t, w.refreshTokens.get? k = some t → ∃ c, t.Dated env w.now c

section Blind

variable {l : Stmt} {w w' : World}

theorem setUser_tokens (w : World) (tokens : Table RefreshToken) (id : Id) (f : User → User) :
    ({ w with refreshTokens := tokens } : World).setUser id f =
      (w.setUser id f).map (fun t => { t with refreshTokens := tokens }) := by
  unfold World.setUser
  dsimp only
  split
  · rfl
  · split <;> rfl

theorem exec_blind (hl : l.tokenBlind = true) (w : World) (tokens : Table RefreshToken) :
    (∃ e, l.exec w = .error e ∧ l.exec { w with refreshTokens := tokens } = .error e) ∨
      ∃ t t', l.exec w = .ok t ∧ l.exec { w with refreshTokens := tokens } = .ok t' ∧
        ∃ tokens', t' = { t with refreshTokens := tokens' } := by
  cases l with
  | userUpdate id d =>
    simp only [Stmt.exec, setUser_tokens]
    cases w.setUser id d.apply with
    | error e => exact .inl ⟨e, rfl, rfl⟩
    | ok t => exact .inr ⟨t, _, rfl, rfl, _, rfl⟩
  | killSessions id d =>
    simp only [Stmt.exec, setUser_tokens]
    cases w.setUser id (fun u => { d.apply u with tokenVersion := u.tokenVersion + 1 }) with
    | error e => exact .inl ⟨e, rfl, rfl⟩
    | ok t => exact .inr ⟨_, _, rfl, rfl, _, rfl⟩
  | reuseDetected id =>
    simp only [Stmt.exec, setUser_tokens]
    cases w.setUser id (fun u => { u with tokenVersion := u.tokenVersion + 1 }) with
    | error e => exact .inl ⟨e, rfl, rfl⟩
    | ok t => exact .inr ⟨_, _, rfl, rfl, _, rfl⟩
  | userCreate u =>
    by_cases hclash : w.users.any (fun _ v => u.clash v) = true
    · exact .inl ⟨_, if_pos hclash, if_pos hclash⟩
    · exact .inr ⟨_, _, if_neg hclash, if_neg hclash, _, rfl⟩
  | challengeCreate c =>
    by_cases hno : (!w.hasUser c.userId) = true
    · exact .inl ⟨_, if_pos hno, if_pos hno⟩
    by_cases hclash : w.twoFactorChallenges.any (fun _ c' => c.token == c'.token) = true
    · exact .inl ⟨_, (if_neg hno).trans (if_pos hclash), (if_neg hno).trans (if_pos hclash)⟩
    · exact .inr ⟨_, _, (if_neg hno).trans (if_neg hclash),
        (if_neg hno).trans (if_neg hclash), _, rfl⟩
  | challengeDelete id | challengeAttempt id =>
    by_cases hrow : (w.twoFactorChallenges.get? id).isSome = true
    · exact .inr ⟨_, _, if_pos hrow, if_pos hrow, _, rfl⟩
    · exact .inl ⟨_, if_neg hrow, if_neg hrow⟩
  | read | random | bcryptCompare | codeCheck | refreshTokenRevokeByToken | refreshTokenRevokeAll
  | challengeClaim
  | enqueue | tick => exact .inr ⟨_, _, rfl, rfl, _, rfl⟩
  | _ => cases hl

theorem expired_later {v : RefreshJwt} {now now' : Time} (h : v.expired now = true)
    (hle : now ≤ now') :
    v.expired now' = true := by
  simp only [RefreshJwt.expired, decide_eq_true_eq] at h ⊢
  exact Nat.le_trans h (Nat.div_le_div_right hle)

/-- A statement that goes through in both changes the rows that are in both alike. -/
theorem World.Pruned.exec (h : w.Pruned w') {t t' : World} (hstores : l.storesToken = false)
    (hexec : l.exec w = .ok t) (hexec' : l.exec w' = .ok t')
    (hrest : ∃ tokens, t' = { t with refreshTokens := tokens }) : t.Pruned t' := by
  have heff := exec_effect hexec
  have heff' := exec_effect hexec'
  have hno : ∀ x, l ≠ .refreshTokenCreate x := by
    rintro x rfl
    cases hstores
  have hnow : w'.now = w.now := by
    obtain ⟨tokens, rfl⟩ := h.rest
    rfl
  refine ⟨hrest, fun k => ?_⟩
  rw [heff.tokens hno k, heff'.tokens hno k, hnow]
  rcases h.rows k with hsame | ⟨hgone, x, hx, hexpired⟩
  · exact .inl (by rw [hsame])
  · rw [hgone, hx]
    simp only [Option.bind_none, Option.bind_some]
    split
    · exact .inl rfl
    · refine .inr ⟨trivial, _, rfl, expired_later ?_ heff.now_le⟩
      split <;> exact hexpired

end Blind

section Dates

variable {env : Env} {l : Stmt} {w w' : World}

theorem World.Datable.exec (hw : w.Datable env) (hstores : l.storesToken = false)
    (hexec : l.exec w = .ok w') :
    w'.Datable env := by
  have heff := exec_effect hexec
  have hno : ∀ x, l ≠ .refreshTokenCreate x := by
    rintro x rfl
    cases hstores
  refine ⟨hw.fresh.exec hexec, hw.unique.exec hexec, hw.drawn.exec hstores hexec, fun k t hk => ?_⟩
  rw [heff.tokens hno k] at hk
  obtain ⟨t₀, hk₀, hrow⟩ := Option.bind_eq_some_iff.mp hk
  obtain ⟨c, hdated⟩ := hw.dated k t₀ hk₀
  have hle := heff.now_le
  refine ⟨c, ?_⟩
  split at hrow
  · cases hrow
  · split at hrow
    · cases hrow
      exact ⟨hdated.exp, hdated.expiresAt, Nat.le_trans hdated.updated hdated.past, hle⟩
    · cases hrow
      exact ⟨hdated.exp, hdated.expiresAt, hdated.updated, Nat.le_trans hdated.past hle⟩

theorem datable_rule (env : Env) : RecordRule env (World.Datable env) := by
  refine ⟨fun l w w' hl hexec hw => hw.exec hl hexec, fun userId client w hw => ?_⟩
  have hkept : Prog.Maintains Stmt.exec (fun w => w.Fresh ∧ w.TokensUnique)
      (createRefreshTokenRecord env userId client) :=
    Prog.Maintains.of_sends (P := fun _ => True) (.of_forall (fun _ => trivial) _)
      fun _ _ _ _ hexec h =>
      ⟨h.1.exec hexec, h.2.exec hexec⟩
  obtain ⟨hfresh, hunique⟩ := hkept w ⟨hw.fresh, hw.unique⟩
  have hrecorded := createRefreshTokenRecord_recorded env userId client w
  refine ⟨hfresh, hunique, tokensDrawn_rule.record userId client w hw.drawn, fun k t hk => ?_⟩
  have hnow : ((createRefreshTokenRecord env userId client).run Stmt.exec w).2.now = w.now :=
    hrecorded.now
  rw [hnow]
  rcases hrecorded.rows k t hk with hold | ⟨htoken, _, _, hexpires, _, hupdated⟩
  · exact hw.dated k t hold
  · refine ⟨w.now, ?_, hexpires, Nat.le_of_eq hupdated.symm, Nat.le_of_eq hupdated⟩
    rw [htoken]
    rfl

end Dates

structure Swept (env : Env) (w w' : World) : Prop where
  datable : w.Datable env
  pruned : w.Pruned w'

section Swept

variable {env : Env} {w w' : World}

theorem Swept.refl (hw : w.Datable env) :
    Swept env w w := ⟨hw, ⟨w.refreshTokens, rfl⟩, fun _ => .inl rfl⟩

theorem Swept.exec (h : Swept env w w') {l : Stmt} (hl : l.tokenBlind = true) :
    (∃ e, l.exec w = .error e ∧ l.exec w' = .error e) ∨
      ∃ t t', l.exec w = .ok t ∧ l.exec w' = .ok t' ∧ Swept env t t' := by
  have hstores : l.storesToken = false := by cases l <;> first | rfl | cases hl
  obtain ⟨tokens, hrest⟩ := h.pruned.rest
  rcases exec_blind hl w tokens with ⟨e, he, he'⟩ | ⟨t, t', ht, ht', htokens⟩
  · exact .inl ⟨e, he, hrest ▸ he'⟩
  · rw [← hrest] at ht'
    exact .inr ⟨t, t', ht, ht', h.datable.exec hstores ht, h.pruned.exec hstores ht ht' htokens⟩

theorem World.Pruned.row (h : w.Pruned w') {k : Id} {t : RefreshToken}
    (hk : w'.refreshTokens.get? k = some t) :
    w.refreshTokens.get? k = some t := by
  rcases h.rows k with hsame | ⟨hgone, _⟩
  · rw [← hsame, hk]
  · rw [hgone] at hk
    cases hk

theorem createRefreshTokenRecord_swept (userId : Id) (client : ClientInfo) :
    (createRefreshTokenRecord env userId client).Paired Stmt.exec (Swept env) := by
  intro w w' h
  have hdatable := (datable_rule env).record userId client w h.datable
  have hpruned : Together (fun _ t t' => t.Pruned t') (createRefreshTokenRecord env userId client)
      w w' := by
    have hnone : ∀ {k}, w.nonce ≤ k → w.refreshTokens.get? k = none ∧ w'.refreshTokens.get? k =
        none := by
      intro k hk
      have hnone : w.refreshTokens.get? k = none := by
        by_contra hsome
        obtain ⟨t, ht⟩ := Option.ne_none_iff_exists'.mp hsome
        exact absurd (h.datable.fresh.refreshTokens k t ht) (Nat.not_lt.mpr hk)
      rcases h.pruned.rows k with hsame | ⟨hgone, _⟩
      · exact ⟨hnone, hsame.trans hnone⟩
      · exact ⟨hnone, hgone⟩
    -- the digest of a token that was just drawn is in neither table
    have hnew : ∀ exp, w.refreshTokens.any
      (fun _ t => hashToken (⟨userId, w.nonce, exp⟩ : RefreshJwt) == t.token) = false ∧
        w'.refreshTokens.any (fun _ t => hashToken (⟨userId, w.nonce, exp⟩ : RefreshJwt) ==
          t.token) = false := by
      have hother : ∀ exp k t, w.refreshTokens.get? k = some t →
          (hashToken (⟨userId, w.nonce, exp⟩ : RefreshJwt) == t.token) = false := by
        intro exp k t hk
        refine beq_eq_false_iff_ne.mpr fun heq => ?_
        have hlt := h.datable.drawn k t hk
        rw [← heq] at hlt
        exact absurd hlt (Nat.lt_irrefl w.nonce)
      exact fun exp => ⟨Table.any_eq_false.mpr (hother exp), Table.any_eq_false.mpr fun k t hk =>
        hother exp k t (h.pruned.row hk)⟩
    have hrows := h.pruned.rows
    obtain ⟨tokens, rfl⟩ := h.pruned.rest
    refine Prog.Together.send_bind rfl (.inr ⟨_, _, rfl, rfl, ?_⟩)
    refine together_query_bind rfl ?_
    by_cases hno : (!w.hasUser userId) = true
    · exact Prog.Together.send_bind rfl (.inl ⟨_, if_pos hno, if_pos hno, ⟨tokens, rfl⟩, hrows⟩)
    refine Prog.Together.send_bind rfl (.inr ⟨_, _, (if_neg hno).trans (if_neg (by simp [hnew])),
      (if_neg hno).trans (if_neg (by simp [hnew])), ?_⟩)
    refine Prog.Together.ret ⟨⟨_, rfl⟩, fun k => ?_⟩
    obtain ⟨hfree, hfree'⟩ := hnone (Nat.le_succ w.nonce)
    simp only [Table.get?_insert _ hfree, Table.get?_insert _ hfree']
    split
    · exact .inl rfl
    · exact hrows k
  exact ⟨hpruned.1, hdatable, hpruned.2⟩

theorem swept_pairs (env : Env) : PairRule env (Swept env) :=
  ⟨fun _ _ h => h.pruned.rest, fun _ hl _ _ h => h.exec hl, createRefreshTokenRecord_swept⟩

def World.presented (w : World) (v : RefreshJwt) : Option (Id × RefreshToken × User) :=
  (w.refreshTokens.find? (fun _ t => t.token == hashToken v)).bind
    (fun r => (w.users.get? r.2.userId).map (fun u => (r.1, r.2, u)))

theorem Swept.now (h : Swept env w w') : w'.now = w.now := by
  obtain ⟨tokens, rfl⟩ := h.pruned.rest
  rfl

theorem Swept.users (h : Swept env w w') : w'.users = w.users := by
  obtain ⟨tokens, rfl⟩ := h.pruned.rest
  rfl

theorem Swept.alive (h : Swept env w w') {k : Id} {t : RefreshToken} {v : RefreshJwt}
    (hv : v.expired w.now = false) (hk : w.refreshTokens.get? k = some t)
    (htoken : t.token = hashToken v) : w'.refreshTokens.get? k = some t := by
  rcases h.pruned.rows k with hsame | ⟨_, t', hk', hexpired⟩
  · rw [hsame, hk]
  · rw [hk] at hk'
    cases hk'
    rw [htoken] at hexpired
    exact absurd hexpired (by simp [hashToken, hv])

theorem Swept.presented (h : Swept env w w') {v : RefreshJwt} (hv : v.expired w.now = false) :
    w.presented v = w'.presented v := by
  have hfind : w.refreshTokens.find? (fun _ t => t.token == hashToken v) =
      w'.refreshTokens.find? (fun _ t => t.token == hashToken v) := by
    cases hfound : w.refreshTokens.find? (fun _ t => t.token == hashToken v) with
    | some r =>
      obtain ⟨k, t⟩ := r
      obtain ⟨hk, htoken⟩ := Table.find?_some hfound
      refine (Table.find?_unique (h.alive hv hk (beq_iff_eq.mp htoken)) htoken
        fun k' t' hk' htoken' => ?_).symm
      exact h.datable.unique k' k t' t (h.pruned.row hk') hk
        ((beq_iff_eq.mp htoken').trans (beq_iff_eq.mp htoken).symm)
    | none =>
      cases hfound' : w'.refreshTokens.find? (fun _ t => t.token == hashToken v) with
      | none => rfl
      | some r =>
        obtain ⟨hk, htoken⟩ := Table.find?_some (show _ = some (r.1, r.2) from hfound')
        rw [Table.find?_none hfound (h.pruned.row hk)] at htoken
        cases htoken
  rw [World.presented, World.presented, ← hfind, h.users]

theorem Swept.revoke (h : Swept env w w') {l : Stmt} {k : Id} {t : RefreshToken}
    (hl : l = .refreshTokenRotate k ∨ l = .refreshTokenExpire k ∨ l = .refreshTokenRevoke k)
    (hk : w.refreshTokens.get? k = some t) (hk' : w'.refreshTokens.get? k = some t) :
    ∃ s s', l.exec w = .ok s ∧ l.exec w' = .ok s' ∧ Swept env s s' := by
  obtain ⟨tokens, hrest⟩ := h.pruned.rest
  have hexec : ∀ {x : World}, x.refreshTokens.get? k = some t → l.exec x = .ok { x with
      refreshTokens :=
      x.refreshTokens.update k (fun t => { t with revoked := true, updatedAt := x.now }) } := by
    intro x hx
    rcases hl with rfl | rfl | rfl <;> simp [Stmt.exec, World.require, hx]
  have hstores : l.storesToken = false := by rcases hl with rfl | rfl | rfl <;> rfl
  refine ⟨_, _, hexec hk, hexec hk', h.datable.exec hstores (hexec hk),
    h.pruned.exec hstores (hexec hk) (hexec hk') ?_⟩
  subst hrest
  exact ⟨_, rfl⟩

theorem refresh_swept (v : RefreshJwt) (client : ClientInfo) :
    (refresh env v client).Paired Stmt.exec (Swept env) := by
  have hR := swept_pairs env
  intro w w' h
  refine together_query_bind h.now.symm ?_
  split
  · exact Prog.Together.throw h
  rename_i hunexpired
  have hv : v.expired w.now = false := Bool.not_eq_true _ ▸ hunexpired
  refine together_query_bind (h.presented hv) ?_
  split
  · exact Prog.Together.throw h
  rename_i tokenId storedToken user hstored
  obtain ⟨hk, htoken, _⟩ := stored_found hstored
  have hk' := h.alive hv hk htoken
  split
  · exact Prog.Paired.bind (hR.send rfl) (fun _ => .throw) w w' h
  refine together_query_bind h.now.symm ?_
  split
  · obtain ⟨s, s', hs, hs', h₁⟩ := h.revoke (.inr (.inl rfl)) hk hk'
    exact Prog.Together.send_bind rfl (.inr ⟨s, s', hs, hs', Prog.Together.throw h₁⟩)
  split
  · exact Prog.Together.throw h
  split
  · exact Prog.Together.throw h
  refine together_query_bind h.now.symm ?_
  split
  · exact Prog.Together.throw h
  obtain ⟨s, s', hs, hs', h₁⟩ := h.revoke (.inl rfl) hk hk'
  refine Prog.Together.send_bind rfl (.inr ⟨s, s', hs, hs', ?_⟩)
  exact Prog.Paired.bind (hR.record _ _) (fun _ => .bind (hR.signToken_pairs _ _ _ _) fun _ =>
    .ret) s s' h₁

theorem logout_swept (userId : Id) (refreshToken : Option RefreshJwt) :
    (logout userId refreshToken).Paired Stmt.exec (Swept env) := by
  have hR := swept_pairs env
  unfold logout
  cases refreshToken with
  | none => exact .bind (hR.send rfl) fun _ => .ret
  | some token => exact .bind (hR.send rfl) fun _ => .ret

theorem revokeAllSessions_swept (userId : Id) (h : Swept env w w') :
    Swept env ((revokeAllSessions userId).run Stmt.exec w).2
      ((revokeAllSessions userId).run Stmt.exec w').2 := by
  simp only [revokeAllSessions, Prog.bind_eq, send, Prog.send_bind, Prog.run_stmt]
  rcases h.exec (l := .killSessions userId {}) rfl with ⟨e, he, he'⟩ | ⟨t, t', ht, ht', hswept⟩
  · rw [he, he']
    exact h
  · rw [ht, ht']
    exact hswept

/-- Where the row is gone there is no session to revoke; it had run out. -/
theorem revokeSession_swept (userId sessionId : Id) (h : Swept env w w') :
    Swept env ((revokeSession userId sessionId).run Stmt.exec w).2
      ((revokeSession userId sessionId).run Stmt.exec w').2 := by
  have hends : ∀ {x : World} {P : World → Prop}, P x →
    (∀ t x', x.refreshTokens.get? sessionId = some t →
      (Stmt.refreshTokenRevoke sessionId).exec x = .ok x' → P x') →
      (revokeSession userId sessionId).Ends Stmt.exec (fun _ x' => P x') x := by
    intro x P hsame hrevoked
    unfold revokeSession
    rw [Prog.bind_eq, ends_query_bind]
    split
    · exact hsame
    rename_i session hfound
    split
    · exact hsame
    rw [Prog.bind_eq, ends_execute_bind]
    split
    · rename_i x' hexec
      exact hrevoked session x' (Option.filter_eq_some_iff.mp hfound).1 hexec
    · exact hsame
  rcases h.pruned.rows sessionId with hsame | ⟨hgone, t, ht, hexpired⟩
  · have hR : (revokeSession userId sessionId).Together Stmt.exec (fun _ => Swept env) w w' := by
      refine together_query_bind (by rw [hsame]) ?_
      split
      · exact Prog.Together.throw h
      rename_i session hfound
      have hk := (Option.filter_eq_some_iff.mp hfound).1
      split
      · exact Prog.Together.throw h
      obtain ⟨s, s', hs, hs', h₁⟩ := h.revoke (.inr (.inr rfl)) hk (hsame.trans hk)
      exact Prog.Together.send_bind rfl (.inr ⟨s, s', hs, hs', Prog.Together.ret h₁⟩)
    exact hR.2
  · have hleft : ((revokeSession userId sessionId).run Stmt.exec w').2 = w' :=
      hends (P := fun x' => x' = w') rfl fun t' _ hk => by rw [hgone] at hk; cases hk
    rw [hleft]
    refine hends (P := fun x => Swept env x w') h fun t' s hk hexec =>
      ⟨h.datable.exec rfl hexec, ?_, fun j => ?_⟩
    · obtain ⟨tokens, hrest⟩ := h.pruned.rest
      rw [(require_ok hexec).1, hrest]
      exact ⟨tokens, rfl⟩
    · rw [(exec_effect hexec).tokens (fun _ => Stmt.noConfusion) j]
      by_cases hj : j = sessionId
      · subst hj
        refine .inr ⟨hgone, _, by rw [ht]; rfl, ?_⟩
        rw [(exec_effect hexec).now]
        split <;> exact hexpired
      · have hother : ∀ t, (Stmt.refreshTokenRevoke sessionId).revokesToken j t = false :=
          fun _ => beq_false_of_ne hj
        rw [(exec_effect hexec).now]
        simpa [hother, Stmt.erasesToken, Stmt.nowAfter] using h.pruned.rows j

theorem lifetime_over {c lifetime ttl updatedAt now : Nat}
    (hcond : lifetime / 1000 ≤ 7 * 24 * 60 * 60 ∧
    1000 * (lifetime / 1000) ≤ ttl + 1) (hupdated : c ≤ updatedAt)
    (hswept : c + ttl < now ∨ updatedAt < now - 7 * 24 * 60 * 60 * 1000) :
    (c / 1000 + lifetime / 1000) * 1000 ≤ now := by
  have hdiv := Nat.mul_div_le c 1000
  rcases hswept with hexpired | hold <;> omega

theorem RefreshToken.Dated.swept {now c : Time} {t : RefreshToken} (h : t.Dated env now c)
    (hcond : env.jwtRefreshExpiresInMs / 1000 ≤ 7 * 24 * 60 * 60 ∧
      1000 * (env.jwtRefreshExpiresInMs / 1000) ≤ env.refreshTokenTtlMs + 1)
    (hswept : t.expiresAt < now ∨ t.updatedAt < now - 7 * 24 * 60 * 60 * 1000) :
    t.token.preimage.expired now = true := by
  simp only [RefreshJwt.expired, decide_eq_true_eq, Nat.le_div_iff_mul_le (by decide : 0 < 1000)]
  rw [h.expiresAt] at hswept
  rw [h.exp]
  exact lifetime_over hcond h.updated hswept

theorem cleanup_tokens (w : World) : (cleanupRefreshTokens.run Stmt.exec w).2.refreshTokens =
    w.refreshTokens.eraseWhere (fun _ t => decide (t.expiresAt < w.now) ||
      (t.revoked && decide (t.updatedAt < w.now - 7 * 24 * 60 * 60 * 1000))) := rfl

theorem cleanup_swept (hcond : env.jwtRefreshExpiresInMs / 1000 ≤ 7 * 24 * 60 * 60 ∧
    1000 * (env.jwtRefreshExpiresInMs / 1000) ≤ env.refreshTokenTtlMs + 1) (h : Swept env w w') :
    Swept env w (cleanupRefreshTokens.run Stmt.exec w').2 := by
  have hnow := h.now
  refine ⟨h.datable, ?_, fun k => ?_⟩
  · obtain ⟨tokens, rfl⟩ := h.pruned.rest
    exact ⟨_, rfl⟩
  · rw [cleanup_tokens, Table.get?_eraseWhere]
    cases hk : w'.refreshTokens.get? k with
    | none =>
      have hrows := h.pruned.rows k
      rwa [hk] at hrows
    | some t =>
      have hrow := h.pruned.row hk
      simp only [Option.bind_some, hrow]
      split
      · rename_i herased
        obtain ⟨c, hdated⟩ := h.datable.dated k t hrow
        refine .inr ⟨rfl, t, rfl, hdated.swept hcond ?_⟩
        simp only [hnow, Bool.or_eq_true, Bool.and_eq_true, decide_eq_true_eq] at herased
        exact herased.imp_right (·.2)
      · exact .inl rfl

theorem resetPassword_swept (token : Nat) (newPassword : String) :
    (resetPassword env token newPassword).Paired Stmt.exec (Swept env) := by
  have hR := swept_pairs env
  refine .bind (hR.send rfl) fun found => ?_
  split
  · exact .throw
  · refine .bind (hR.send rfl) fun now => ?_
    split
    · exact .bind (hR.send rfl) fun _ => .throw
    · exact .bind (hR.send rfl) fun _ => .ret

theorem changePassword_swept (userId : Id) (currentPassword newPassword : String) :
    (changePassword env userId currentPassword newPassword).Paired Stmt.exec (Swept env) := by
  have hR := swept_pairs env
  refine .bind (hR.send rfl) fun found => ?_
  split
  · exact .throw
  · split
    · exact .throw
    · refine .bind (hR.send rfl) fun valid => ?_
      split
      · exact .throw
      · refine .bind (hR.send rfl) fun samePassword => ?_
        split
        · exact .throw
        · exact .bind (hR.send rfl) fun _ => .ret

theorem drawBackupCodes_swept (n : Nat) : (drawBackupCodes n).Paired Stmt.exec (Swept env) := by
  induction n with
  | zero => exact .ret
  | succ n ih => exact .bind ((swept_pairs env).send rfl) fun _ => .bind ih fun _ => .ret

theorem enable_swept (userId : Id) (code : Nat) :
    (enable env userId code).Paired Stmt.exec (Swept env) := by
  have hR := swept_pairs env
  refine .bind (hR.send rfl) fun found => ?_
  split
  · exact .throw
  · split
    · exact .throw
    · split
      · exact .throw
      · refine .bind (hR.send rfl) fun now => ?_
        split
        · exact .throw
        · exact .bind (drawBackupCodes_swept _) fun _ => .bind (hR.send rfl) fun _ => .ret

theorem disable_swept (userId : Id) (password : String) :
    (disable env userId password).Paired Stmt.exec (Swept env) := by
  have hR := swept_pairs env
  refine .bind (hR.send rfl) fun found => ?_
  split
  · exact .throw
  · split
    · exact .throw
    · split
      · exact .throw
      · refine .bind (hR.send rfl) fun valid => ?_
        split
        · exact .throw
        · exact .bind (hR.send rfl) fun _ => .ret

end Swept

/-- What happens to the sessions over time: sign-ins, refreshes, logouts and revocations,
the clock, and the cleanup. -/
inductive SweepStep where
  | request (r : SessionRequest)
  | logout (userId : Id) (refreshToken : Option RefreshJwt)
  | revokeSession (userId sessionId : Id)
  | pass (d : Time)
  | cleanup

def SweepStep.isCleanup : SweepStep → Bool
  | .cleanup => true
  | _ => false

def SweepStep.named : SweepStep → Prop
  | .request (.other ..) => False
  | _ => True

def SweepStep.run (env : Env) (w : World) : SweepStep → World
  | .request r => ((r.prog env).run Stmt.exec w).2
  | .logout userId refreshToken => ((SaasBackend.logout userId refreshToken).run Stmt.exec w).2
  | .revokeSession userId sessionId =>
      ((SaasBackend.revokeSession userId sessionId).run Stmt.exec w).2
  | .pass d => { w with now := w.now + d }
  | .cleanup => (cleanupRefreshTokens.run Stmt.exec w).2

def sweep (env : Env) (w : World) (steps : List SweepStep) : World :=
  steps.foldl (SweepStep.run env) w

def unswept (steps : List SweepStep) : List SweepStep := steps.filter (fun s => !s.isCleanup)

/-- Presenting the token raises the version of `u`, which `refresh` does when it revokes all
the sessions of a user for the reuse of a token. -/
def ReuseDetected (env : Env) (v : RefreshJwt) (client : ClientInfo) (u : Id) (w : World) : Prop :=
  ∃ x x', w.users.get? u = some x ∧
    ((refresh env v client).run Stmt.exec w).2.users.get? u = some x' ∧
    x.tokenVersion < x'.tokenVersion

/-- After any schedule, what a refresh or an access token meets does not depend on the
cleanups in it. -/
def CleanupInvisible (env : Env) : Prop :=
  ∀ w₀ : World, w₀.Datable env → ∀ steps : List SweepStep, (∀ s ∈ steps, s.named) →
    (∀ v client, ((refresh env v client).run Stmt.exec (sweep env w₀ steps)).1 =
        ((refresh env v client).run Stmt.exec (sweep env w₀ (unswept steps))).1 ∧
      ∀ u, ReuseDetected env v client u (sweep env w₀ steps) ↔
        ReuseDetected env v client u (sweep env w₀ (unswept steps))) ∧
    ∀ header, ((authenticate header).run Stmt.exec (sweep env w₀ steps)).1 =
      ((authenticate header).run Stmt.exec (sweep env w₀ (unswept steps))).1

section Schedules

variable {env : Env} {w w' : World}

theorem Swept.step (h : Swept env w w') {s : SweepStep} (hs : s.named)
    (hcleanup : s.isCleanup = false) :
    Swept env (s.run env w) (s.run env w') := by
  have hR := swept_pairs env
  cases s with
  | request r =>
    cases r with
    | register name email password client =>
      exact (hR.register_pairs name email password client w w' h).2
    | login email password client => exact (hR.login_pairs email password client w w' h).2
    | googleLogin code state client => exact (hR.googleLogin_pairs code state client w w' h).2
    | refresh token client => exact (refresh_swept token client w w' h).2
    | verifyChallenge challengeToken code client =>
      exact (hR.verifyChallenge_pairs challengeToken code client w w' h).2
    | resetPassword token newPassword => exact (resetPassword_swept token newPassword w w' h).2
    | changePassword userId currentPassword newPassword =>
      exact (changePassword_swept userId currentPassword newPassword w w' h).2
    | enable userId code => exact (enable_swept userId code w w' h).2
    | disable userId password => exact (disable_swept userId password w w' h).2
    | revokeAllSessions userId => exact revokeAllSessions_swept userId h
    | other => cases hs
  | logout userId refreshToken => exact (logout_swept userId refreshToken w w' h).2
  | revokeSession userId sessionId => exact revokeSession_swept userId sessionId h
  | pass d => exact ((hR.send rfl : (execute (.tick d)).Paired Stmt.exec (Swept env)) w w' h).2
  | cleanup => cases hcleanup

theorem swept_run (hcond : env.jwtRefreshExpiresInMs / 1000 ≤ 7 * 24 * 60 * 60 ∧
    1000 * (env.jwtRefreshExpiresInMs / 1000) ≤ env.refreshTokenTtlMs + 1) (steps : List SweepStep)
    (hsteps : ∀ s ∈ steps, s.named) (h : Swept env w w') :
    Swept env (sweep env w (unswept steps)) (sweep env w' steps) := by
  induction steps generalizing w w' with
  | nil => exact h
  | cons s rest ih =>
    have hrest := fun s hs => hsteps s (List.mem_cons_of_mem _ hs)
    cases hcleanup : s.isCleanup with
    | true =>
      have hs : s = .cleanup := by cases s <;> first | rfl | cases hcleanup
      subst hs
      exact ih hrest (cleanup_swept hcond h)
    | false =>
      rw [unswept, List.filter_cons_of_pos (by simp [hcleanup])]
      exact ih hrest (h.step (hsteps s List.mem_cons_self) hcleanup)

theorem Swept.sees (h : Swept env w w') :
    (∀ v client, ((refresh env v client).run Stmt.exec w').1 =
      ((refresh env v client).run Stmt.exec w).1 ∧
      ∀ u, ReuseDetected env v client u w' ↔ ReuseDetected env v client u w) ∧
    ∀ header, ((authenticate header).run Stmt.exec w').1 =
      ((authenticate header).run Stmt.exec w).1 := by
  refine ⟨fun v client => ?_, fun header => ?_⟩
  · obtain ⟨hsame, hafter⟩ := refresh_swept v client w w' h
    refine ⟨hsame.symm, fun u => ?_⟩
    rw [ReuseDetected, ReuseDetected, h.users, hafter.users]
  · have hreads : ReadsSame _ (authenticate header) w w' := authenticate_same h.now.symm fun u _ =>
      by rw [h.users]
    exact hreads.1.symm

end Schedules

/-- The environment under a value of JWT_REFRESH_EXPIRES_IN: jsonwebtoken reads the value with
a parser of its own, and a lifetime below zero is one that is over at once. -/
def Env.withRefreshExpiresIn (env : Env) (ms : String → Rat) (value : String) : Env :=
  { env with
    jwtRefreshExpiresInMs := (ms value).floor.toNat
    refreshTokenTtlMs := (parseDurationMs (some value) (7 * 24 * 60 * 60 * 1000)).floor.toNat }

section Necessity

variable {env : Env}

def firstJwt (env : Env) : RefreshJwt := ⟨1, 0, env.jwtRefreshExpiresInMs / 1000⟩

def rotatedWorld (env : Env) (now : Time) : World :=
  { users := Table.insert ∅ 1 { email := "a@x.io" }
    refreshTokens := Table.insert ∅ 2
      { token := hashToken (firstJwt env), userId := 1, revoked := true,
        expiresAt := env.refreshTokenTtlMs }
    now, nonce := 3 }

theorem rotatedWorld_row {now : Time} {k : Id} {t : RefreshToken}
    (hk : (rotatedWorld env now).refreshTokens.get? k = some t) :
    k = 2 ∧ t = { token := hashToken (firstJwt env), userId := 1, revoked := true,
                  expiresAt := env.refreshTokenTtlMs } := by
  rcases Table.get?_insert_cases hk with h | h
  · cases h
  · exact h

theorem rotatedWorld_user {now : Time} {k : Id} {x : User}
    (hk : (rotatedWorld env now).users.get? k = some x) :
    k = 1 ∧ x = { email := "a@x.io" } := by
  rcases Table.get?_insert_cases hk with h | h
  · cases h
  · exact h

theorem rotatedWorld_sound (env : Env) (now : Time) : (rotatedWorld env now).CredentialsSound := by
  refine ⟨⟨fun k x hk => ?_, fun k t hk => ?_⟩, fun i j _ _ hi hj hne => ?_, fun i j _ _ hi hj _ =>
    ?_, fun k t hk => ?_,
    ⟨fun _ _ hk => (by cases hk), fun _ _ hk => (by cases hk), fun _ _ _ _ hk => (by cases hk)⟩⟩
  · rw [(rotatedWorld_user hk).1]
    exact (by decide : 1 < 3)
  · rw [(rotatedWorld_row hk).1]
    exact (by decide : 2 < 3)
  · exact absurd ((rotatedWorld_user hi).1.trans (rotatedWorld_user hj).1.symm) hne
  · exact (rotatedWorld_row hi).1.trans (rotatedWorld_row hj).1.symm
  · rw [(rotatedWorld_row hk).2]
    exact (by decide : 0 < 3)

theorem rotatedWorld_datable (env : Env) : (rotatedWorld env 0).Datable env := by
  have hs := rotatedWorld_sound env 0
  refine ⟨hs.fresh, hs.unique, hs.drawn, fun k t hk => ?_⟩
  obtain ⟨_, rfl⟩ := rotatedWorld_row hk
  refine ⟨0, ?_, ?_, ?_, ?_⟩
  · exact (by simp [firstJwt, hashToken])
  · exact (Nat.zero_add _).symm
  · exact Nat.le_refl 0
  · exact Nat.le_refl 0

theorem rotatedWorld_reuse {now : Time} (hfresh : (firstJwt env).expired now = false) :
    ReuseDetected env (firstJwt env) {} 1 (rotatedWorld env now) := by
  obtain ⟨x', hx', hbumped⟩ :=
    (refresh_reuse (rotatedWorld_sound env now) hfresh (k := 2) rfl rfl rfl
    (x := { email := "a@x.io" }) rfl : Prog.Ends _ _ (refresh env (firstJwt env) {}) _)
  exact ⟨_, x', rfl, hx', hbumped ▸ Nat.lt_succ_self _⟩

theorem not_reuseDetected {v : RefreshJwt} {client : ClientInfo} {u : Id} {w : World}
    (hgone : ∀ k, w.refreshTokens.get? k = none) : ¬ ReuseDetected env v client u w := by
  have hsame : (refresh env v client).Ends Stmt.exec (fun _ w' => w' = w) w := by
    unfold refresh
    rw [Prog.bind_eq, ends_date_bind]
    split
    · rfl
    · rw [Prog.bind_eq, ends_query_bind]
      split
      · rfl
      · rename_i hstored
        exact absurd (stored_found hstored).1 (by simp [hgone])
  rintro ⟨x, x', hx, hx', hlt⟩
  rw [show ((refresh env v client).run Stmt.exec w).2 = w from hsame, hx] at hx'
  cases hx'
  exact Nat.lt_irrefl _ hlt

theorem rotatedWorld_passed (d : Nat) :
    SweepStep.run env (rotatedWorld env 0) (.pass d) = rotatedWorld env d := by
  show ({ rotatedWorld env 0 with now := 0 + d } : World) = rotatedWorld env d
  rw [Nat.zero_add]
  rfl

theorem rotatedWorld_cleaned {d : Nat}
    (hd : env.refreshTokenTtlMs < d ∨ 7 * 24 * 60 * 60 * 1000 < d) (k : Id) :
    (cleanupRefreshTokens.run Stmt.exec (rotatedWorld env d)).2.refreshTokens.get? k = none := by
  rw [cleanup_tokens, Table.get?_eraseWhere]
  cases hk : (rotatedWorld env d).refreshTokens.get? k with
  | none => rfl
  | some t =>
    rw [(rotatedWorld_row hk).2, Option.bind_some, if_pos]
    rw [Bool.or_eq_true, Bool.true_and]
    exact hd.imp (decide_eq_true ·) fun h => decide_eq_true (Nat.sub_pos_of_lt h)

theorem visible_of_outliving {d : Nat}
    (hd : env.refreshTokenTtlMs < d ∨ 7 * 24 * 60 * 60 * 1000 < d)
    (hfresh : (firstJwt env).expired d = false) : ¬ CleanupInvisible env := by
  intro hinvisible
  have hiff := ((hinvisible (rotatedWorld env 0) (rotatedWorld_datable env) [.pass d, .cleanup]
    (by simp [SweepStep.named])).1
    (firstJwt env) {}).2 1
  have hwith : sweep env (rotatedWorld env 0) [.pass d, .cleanup] =
      (cleanupRefreshTokens.run Stmt.exec (rotatedWorld env d)).2 :=
        congrArg (SweepStep.run env · .cleanup) (rotatedWorld_passed d)
  have hwithout : sweep env (rotatedWorld env 0) (unswept [.pass d, .cleanup]) =
    rotatedWorld env d := rotatedWorld_passed d
  rw [hwith, hwithout] at hiff
  exact not_reuseDetected (rotatedWorld_cleaned hd) (hiff.mpr (rotatedWorld_reuse hfresh))

end Necessity

/-- The cleanup goes unnoticed exactly when, as the value is read, the token lives no longer
than seven days and no longer than its row. -/
theorem cleanup_invisible_iff (env₀ : Env) (ms : String → Rat) (value : String) :
    let env := env₀.withRefreshExpiresIn ms value
    CleanupInvisible env ↔ env.jwtRefreshExpiresInMs / 1000 ≤ 7 * 24 * 60 * 60 ∧
      1000 * (env.jwtRefreshExpiresInMs / 1000) ≤ env.refreshTokenTtlMs + 1 := by
  intro env
  have hfresh : ∀ {d : Nat}, d / 1000 < env.jwtRefreshExpiresInMs / 1000 →
      (firstJwt env).expired d = false :=
    fun h => decide_eq_false (Nat.not_le.mpr h)
  constructor
  · intro hinvisible
    by_contra hcond
    rcases not_and_or.mp hcond with hlong | hlong
    · refine visible_of_outliving (d := 7 * 24 * 60 * 60 * 1000 + 1) (.inr (Nat.lt_succ_self _))
        (hfresh ?_) hinvisible
      omega
    · refine visible_of_outliving (d := env.refreshTokenTtlMs + 1) (.inl (Nat.lt_succ_self _))
        (hfresh ?_) hinvisible
      omega
  · intro hcond w₀ hw₀ steps hsteps
    exact (swept_run hcond steps hsteps (.refl hw₀)).sees

section Sample

/-- JWT_REFRESH_EXPIRES_IN="30d" -/
def thirtyDays : Env := sampleEnv.withRefreshExpiresIn (fun _ => 30 * 24 * 60 * 60 * 1000) "30d"

theorem thirtyDays_eq :
    thirtyDays = { sampleEnv with
      jwtRefreshExpiresInMs := 2592000000, refreshTokenTtlMs := 2592000000 } := by
  have hms : ((30 * 24 * 60 * 60 * 1000 : Rat)).floor.toNat = 2592000000 := by decide +kernel
  have hparsed : (parseDurationMs (some "30d") (7 * 24 * 60 * 60 * 1000)).floor.toNat =
    2592000000 := by decide +kernel
  rw [thirtyDays, Env.withRefreshExpiresIn, hms, hparsed]

def eightDays : List SweepStep :=
  [.request (.register "A" "a@x.io" "pw" {}), .request (.refresh ⟨1, 2, 2592000⟩ {}),
    .pass (8 * 24 * 60 * 60 * 1000), .cleanup]

/-- The rotated token would have revoked the sessions of its user; after the cleanup it does not. -/
theorem cleanup_hides_reuse :
    ¬ CleanupInvisible thirtyDays ∧
      (⟨1, 2, 2592000⟩ : RefreshJwt).expired (sweep thirtyDays {} eightDays).now = false ∧
      ReuseDetected thirtyDays ⟨1, 2, 2592000⟩ {} 1 (sweep thirtyDays {} (unswept eightDays)) ∧
      ¬ ReuseDetected thirtyDays ⟨1, 2, 2592000⟩ {} 1 (sweep thirtyDays {} eightDays) := by
  have hfires : ReuseDetected thirtyDays ⟨1, 2, 2592000⟩ {} 1
      (sweep thirtyDays {} (unswept eightDays)) := by
    rw [thirtyDays_eq]
    exact ⟨_, _, rfl, rfl, by decide⟩
  have hhidden : ¬ ReuseDetected thirtyDays ⟨1, 2, 2592000⟩ {} 1
      (sweep thirtyDays {} eightDays) := by
    rw [thirtyDays_eq]
    rintro ⟨x, x', hx, hx', hlt⟩
    cases Option.some.inj (show some _ = some x from hx)
    cases Option.some.inj (show some _ = some x' from hx')
    exact absurd hlt (by decide)
  refine ⟨fun hinvisible => ?_, by rw [thirtyDays_eq]; rfl, hfires, hhidden⟩
  have hempty : ({} : World).Datable thirtyDays :=
    ⟨World.CredentialsSound.empty.fresh, World.CredentialsSound.empty.unique,
      World.CredentialsSound.empty.drawn, fun _ _ hk => (by cases hk)⟩
  have hiff := ((hinvisible {} hempty eightDays (by simp [eightDays, SweepStep.named])).1
    ⟨1, 2, 2592000⟩ {}).2 1
  exact hhidden (hiff.mpr hfires)

end Sample

end SaasBackend
