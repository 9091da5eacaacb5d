import SaasBackend.AuthService
import SaasBackend.HandlerTurnstile
import SaasBackend.StatementEffects

set_option autoImplicit false

namespace SaasBackend
open Keyed Handler

def KeepsTokens (l : Stmt) : Prop := ∀ t, l.erasesToken t = false

inductive RotationRequest where
  | refresh (token : RefreshJwt) (client : ClientInfo)
  /-- any other handler that deletes no refresh-token row -/
  | other (p : Req Reply) (keeps : p.Sends KeepsTokens)

def RotationRequest.prog (env : Env) : RotationRequest → Req Reply
  | .refresh token client => SaasBackend.refresh env token client
  | .other p _ => p

def Reply.isSession : Reply → Bool
  | .session .. => true
  | _ => false

def Stmt.createsToken : Stmt → Bool
  | .refreshTokenCreate _ => true
  | _ => false

def rotatesUnrevoked (w : World) : Stmt → Bool
  | .refreshTokenRotate id => (w.refreshTokens.get? id).all (fun t => !t.revoked)
  | _ => true

def World.DigestsUnique (w : World) : Prop :=
  ∀ k k' t t', w.refreshTokens.get? k = some t → w.refreshTokens.get? k' = some t' →
    t.token = t'.token → k = k'

def TokensGrow (w w' : World) : Prop :=
  ∀ k t, w.refreshTokens.get? k = some t → ∃ t', w'.refreshTokens.get? k = some t' ∧ TokenStep t t'

theorem TokensGrow.refl (w : World) : TokensGrow w w := fun _ t hk => ⟨t, hk, .refl t⟩

theorem TokensGrow.trans {w₁ w₂ w₃ : World} (h₁ : TokensGrow w₁ w₂) (h₂ : TokensGrow w₂ w₃) :
    TokensGrow w₁ w₃ := by
  intro k t hk
  obtain ⟨t₂, hk₂, hstep⟩ := h₁ k t hk
  obtain ⟨t₃, hk₃, hstep'⟩ := h₂ k t₂ hk₂
  exact ⟨t₃, hk₃, hstep.trans hstep'⟩

theorem TokensGrow.exec {l : Stmt} {w w' : World} (hl : KeepsTokens l) (h : l.exec w = .ok w') :
    TokensGrow w w' := fun _ t hk => (exec_effect h).token_forth hk (hl t)

theorem refreshTokenCreate_ok {x : RefreshToken} {w w' : World}
    (h : (Stmt.refreshTokenCreate x).exec w = .ok w') :
    w.hasUser x.userId = true ∧ ∀ k t, w.refreshTokens.get? k = some t → x.token ≠ t.token := by
  simp only [Stmt.exec] at h
  split at h
  · cases h
  · rename_i huser
    split at h
    · cases h
    · rename_i hany
      have hnone := Table.any_eq_false.mp (Bool.not_eq_true _ ▸ hany)
      exact ⟨by simpa using huser, fun k t hk => beq_eq_false_iff_ne.mp (hnone k t hk)⟩

theorem World.DigestsUnique.exec {l : Stmt} {w w' : World} (hw : w.DigestsUnique)
    (h : l.exec w = .ok w') : w'.DigestsUnique := by
  intro k k' t t' hk hk' heq
  rcases (exec_effect h).token_back hk with ⟨s, hs, hstep⟩ | ⟨x, rfl, rfl, rfl⟩
  · rcases (exec_effect h).token_back hk' with ⟨s', hs', hstep'⟩ | ⟨x, rfl, rfl, rfl⟩
    · exact hw k k' s s' hs hs' (by rw [← hstep.token, heq, hstep'.token])
    · exact absurd (heq.symm.trans hstep.token) ((refreshTokenCreate_ok h).2 k s hs)
  · rcases (exec_effect h).token_back hk' with ⟨s', hs', hstep'⟩ | ⟨x', hx, rfl, rfl⟩
    · exact absurd (heq.trans hstep'.token) ((refreshTokenCreate_ok h).2 k' s' hs')
    · rfl

section Rules

variable {α β : Type} {T : Turnstile World Err Stmt β} {w : World}

theorem held_query_bind (hexec : T.exec = Stmt.exec) (hread : ¬ T.barred .read) {view : World → α}
    {k : α → Req β} (h : ∀ w', T.rely w w' → T.inv w' → T.Held (k (view w')) w') :
    T.Held ((query view).bind k) w := by
  refine Turnstile.held_send_bind.mpr fun w' hr hi => ⟨hread, fun w'' hok => .inr ?_⟩
  rw [hexec] at hok
  cases hok
  exact h w' hr hi

theorem held_execute_bind {l : Stmt} (hl : ¬ T.barred l) {k : Unit → Req β}
    (h : ∀ w' w'', T.rely w w' → T.inv w' → T.exec l w' = .ok w'' →
      (T.pass w' l ∧ T.after w' (k ())) ∨ T.Held (k ()) w'') : T.Held ((execute l).bind k) w :=
  Turnstile.held_send_bind.mpr fun w' hr hi => ⟨hl, fun w'' hok => h w' w'' hr hi hok⟩

end Rules

def rotation (digest : Digest RefreshJwt) : Turnstile World Err Stmt Reply where
  exec := Stmt.exec
  allowed := KeepsTokens
  inv := World.DigestsUnique
  rely := TokensGrow
  pass w l := ∃ k t, l = .refreshTokenRotate k ∧ w.refreshTokens.get? k = some t ∧ t.token = digest
  barred l := l.createsToken = true
  good a := a.isSession = true
  after _ _ := True
  rely_refl := .refl
  rely_trans _ _ _ := .trans
  inv_step _ _ _ _ hw h := hw.exec h
  rely_step _ _ _ hl _ h := .exec hl h
  after_next _ _ _ _ _ _ := trivial
  after_fail _ _ _ _ _ _ := trivial

theorem stored_found {w : World} {token : RefreshJwt} {id : Id} {t : RefreshToken} {u : User}
    (h : ((w.refreshTokens.find? (fun _ t => t.token == hashToken token)).bind
      (fun r => (w.users.get? r.2.userId).map (fun u => (r.1, r.2, u)))) = some (id, t, u)) :
    w.refreshTokens.get? id = some t ∧ t.token = hashToken token ∧
      w.users.get? t.userId = some u := by
  obtain ⟨⟨k, s⟩, hfind, hmap⟩ := Option.bind_eq_some_iff.mp h
  obtain ⟨v, hv, heq⟩ := Option.map_eq_some_iff.mp hmap
  cases heq
  obtain ⟨hk, hs⟩ := Table.find?_some hfind
  exact ⟨hk, by simpa using hs, hv⟩

theorem refresh_held (env : Env) (token : RefreshJwt) (client : ClientInfo) (w : World) :
    (rotation (hashToken token)).Held (SaasBackend.refresh env token client) w := by
  unfold SaasBackend.refresh
  simp only [Prog.bind_eq]
  refine held_query_bind rfl (by simp [rotation, Stmt.createsToken]) fun w₁ _ _ => ?_
  split
  · trivial
  · refine held_query_bind rfl (by simp [rotation, Stmt.createsToken]) fun w₂ _ _ => ?_
    split
    · trivial
    · rename_i tokenId storedToken user hstored
      split
      · refine held_execute_bind (by simp [rotation, Stmt.createsToken]) fun _ _ _ _ _ =>
          .inr trivial
      · refine held_query_bind rfl (by simp [rotation, Stmt.createsToken]) fun w₃ hr₃ _ => ?_
        split
        · refine held_execute_bind (by simp [rotation, Stmt.createsToken]) fun _ _ _ _ _ =>
            .inr trivial
        · split
          · trivial
          · split
            · trivial
            · refine held_query_bind rfl (by simp [rotation, Stmt.createsToken]) fun w₄ hr₄ _ => ?_
              split
              · trivial
              · refine held_execute_bind (by simp [rotation, Stmt.createsToken])
                  fun w₅ _ hr₅ _ _ => .inl ⟨?_, trivial⟩
                obtain ⟨hrow, htoken, _⟩ := stored_found hstored
                obtain ⟨t, ht, hstep⟩ := TokensGrow.trans (TokensGrow.trans hr₃ hr₄) hr₅ _ _ hrow
                exact ⟨tokenId, t, rfl, ht, hstep.token.trans htoken⟩

theorem createRefreshTokenRecord_keeps (env : Env) (userId : Id) (client : ClientInfo) :
    (createRefreshTokenRecord env userId client).Sends KeepsTokens := by
  unfold createRefreshTokenRecord
  simp only [Prog.bind_eq]
  exact .bind (.send fun _ => rfl) fun _ => .bind (.send fun _ => rfl) fun _ =>
    .bind (.send fun _ => rfl) fun _ => trivial

theorem refresh_keeps (env : Env) (token : RefreshJwt) (client : ClientInfo) :
    (SaasBackend.refresh env token client).Sends KeepsTokens := by
  unfold SaasBackend.refresh
  simp only [Prog.bind_eq]
  refine .bind (.send fun _ => rfl) fun _ => ?_
  split
  · trivial
  · refine .bind (.send fun _ => rfl) fun _ => ?_
    split
    · trivial
    · split
      · exact .bind (.send fun _ => rfl) fun _ => trivial
      · refine .bind (.send fun _ => rfl) fun _ => ?_
        split
        · exact .bind (.send fun _ => rfl) fun _ => trivial
        · split
          · trivial
          · split
            · trivial
            · refine .bind (.send fun _ => rfl) fun _ => ?_
              split
              · trivial
              · refine .bind (.send fun _ => rfl) fun _ => ?_
                refine .bind (createRefreshTokenRecord_keeps env _ _) fun _ => ?_
                exact .bind (.bind (.send fun _ => rfl) fun _ => trivial) fun _ => trivial

theorem refresh_sendsOnce (env : Env) (token : RefreshJwt) (client : ClientInfo) :
    (SaasBackend.refresh env token client).SendsOnce (fun l => l.createsToken = true) := by
  unfold SaasBackend.refresh
  simp only [Prog.bind_eq]
  refine .bind (.send (by simp [Stmt.createsToken])) fun _ => ?_
  split
  · trivial
  · refine .bind (.send (by simp [Stmt.createsToken])) fun _ => ?_
    split
    · trivial
    · split
      · exact .bind (.send (by simp [Stmt.createsToken])) fun _ => trivial
      · refine .bind (.send (by simp [Stmt.createsToken])) fun _ => ?_
        split
        · exact .bind (.send (by simp [Stmt.createsToken])) fun _ => trivial
        · split
          · trivial
          · split
            · trivial
            · refine .bind (.send (by simp [Stmt.createsToken])) fun _ => ?_
              split
              · trivial
              · refine .bind (.send (by simp [Stmt.createsToken])) fun _ => ?_
                simp only [createRefreshTokenRecord, signToken, Prog.bind_eq, Prog.bind_assoc]
                refine .bind (.send (by simp [Stmt.createsToken])) fun _ => ?_
                refine .bind (.send (by simp [Stmt.createsToken])) fun _ => ?_
                refine .send_bind fun _ => ?_
                exact .bind trivial fun _ => .bind (.send (by simp [Stmt.createsToken])) fun _ =>
                  trivial

/-- While rotations meet unrevoked rows only, at most one of the refresh requests with a
token returns a new pair, and they store one new row at most. -/
theorem refresh_rotates_once (env : Env) {w₀ : World} (hw₀ : w₀.DigestsUnique)
    {tr : List (Event RotationRequest World Stmt)} {c : Config RotationRequest World Err Stmt Reply}
    (hrun : Steps (Step Stmt.exec (RotationRequest.prog env) (fun _ => True)
      (fun w l => rotatesUnrevoked w l = true)) ⟨w₀, []⟩ tr c) (token : RefreshJwt)
    {i j : Nat} {ci cj : ClientInfo} {p q : Req Reply}
    (hi : c.pool[i]? = some (.refresh token ci, p))
    (hj : c.pool[j]? = some (.refresh token cj, q)) :
    (∀ a b, p = .ret a → q = .ret b → a.isSession = true → b.isSession = true → i = j) ∧
      (0 < firings (fun l => l.createsToken = true) tr i →
        0 < firings (fun l => l.createsToken = true) tr j → i = j) ∧
      firings (fun l => l.createsToken = true) tr i ≤ 1 := by
  let T := rotation (hashToken token)
  have hsends : ∀ r, True → (RotationRequest.prog env r).Sends T.allowed := by
    rintro (⟨token', client⟩ | ⟨p, keeps⟩) _
    · exact refresh_keeps env token' client
    · exact keeps
  have hheld : ∀ r w, True → (∃ client, r = .refresh token client) → T.inv w →
      T.Held (RotationRequest.prog env r) w := by
    rintro _ w _ ⟨client, rfl⟩ _
    exact refresh_held env token client w
  have hruns := Turnstile.Runs.steps (T := T) hsends hheld hw₀ hrun
  -- the row of the digest, once revoked, stays there and stays revoked
  have honce := (Turnstile.passes_once (T := T)
    (fun w => ∃ k t, w.refreshTokens.get? k = some t ∧ t.token = hashToken token ∧ t.revoked = true)
    (by
      rintro w _ w' _ ⟨k, t, rfl, hk, htoken⟩ hexec
      obtain ⟨rfl, _⟩ := require_ok hexec
      exact ⟨k, { t with revoked := true, updatedAt := w.now }, by simp [hk], htoken, rfl⟩)
    (by
      rintro w w' hgrow ⟨k, t, hk, htoken, hrevoked⟩
      obtain ⟨t', hk', hstep⟩ := hgrow k t hk
      exact ⟨k, t', hk', hstep.token.trans htoken, hstep.revoked hrevoked⟩)
    (by
      rintro w _ hunique hcond ⟨k, t, rfl, hk, htoken⟩ ⟨k', t', hk', htoken', hrevoked⟩
      cases hunique k k' t t' hk hk' (htoken.trans htoken'.symm)
      rw [hk] at hk'
      cases hk'
      simp [rotatesUnrevoked, hk, hrevoked] at hcond)
    hsends hw₀ hrun).2
  refine ⟨fun a b hp hq ha hb => ?_, fun hpos hpos' => ?_, ?_⟩
  · subst hp hq
    rcases hruns.threads i _ hi ⟨ci, rfl⟩ with hno | ⟨s, hpassed, _⟩
    · exact absurd ha hno
    · rcases hruns.threads j _ hj ⟨cj, rfl⟩ with hno | ⟨s', hpassed', _⟩
      · exact absurd hb hno
      · exact honce i j s s' hpassed hpassed'
  · obtain ⟨l, s₁, s₂, hmem, hl⟩ := exists_firing hpos
    obtain ⟨l', s₁', s₂', hmem', hl'⟩ := exists_firing hpos'
    obtain ⟨s, hpassed⟩ := hruns.barred i _ hi ⟨ci, rfl⟩ l s₁ s₂ hmem hl
    obtain ⟨s', hpassed'⟩ := hruns.barred j _ hj ⟨cj, rfl⟩ l' s₁' s₂' hmem' hl'
    exact honce i j s s' hpassed hpassed'
  · rcases (firings_le_one hrun).2 i _ hi (refresh_sendsOnce env token ci) with ⟨h, _⟩ | ⟨h, _⟩
    · omega
    · omega

section Sample

def rotatedToken : RefreshJwt := ⟨1, 2, 1000⟩

def rotationWorld : World where
  users := (∅ : Table User).insert 1 { email := "a@x.io" }
  refreshTokens := (∅ : Table RefreshToken).insert 3
    { token := hashToken rotatedToken, userId := 1, expiresAt := 1000000 }
  nonce := 10

theorem rotationWorld_unique : rotationWorld.DigestsUnique := by
  intro k k' t t' hk hk' _
  rcases Table.get?_insert_cases hk with h | ⟨rfl, _⟩
  · cases h
  · rcases Table.get?_insert_cases hk' with h | ⟨rfl, _⟩
    · cases h
    · rfl

def rotatedInTurn : List (RotationRequest ⊕ Nat) :=
  [.inl (.refresh rotatedToken {}), .inl (.refresh rotatedToken {})] ++ List.replicate 9 (.inr 0) ++
    List.replicate 9 (.inr 1)

def rotatedAtOnce : List (RotationRequest ⊕ Nat) :=
  [.inl (.refresh rotatedToken {}), .inl (.refresh rotatedToken {})] ++ List.replicate 4 (.inr 0) ++
    List.replicate 9 (.inr 1) ++ List.replicate 9 (.inr 0)

def rotated (sched : List (RotationRequest ⊕ Nat)) : Config RotationRequest World Err Stmt Reply :=
  Config.play Stmt.exec (RotationRequest.prog sampleEnv) ⟨rotationWorld, []⟩ sched

theorem refresh_rotates_once_in_turn :
    ∃ tr, Steps (Step Stmt.exec (RotationRequest.prog sampleEnv) (fun _ => True)
        (fun w l => rotatesUnrevoked w l = true)) ⟨rotationWorld, []⟩ tr (rotated rotatedInTurn) ∧
      firings (fun l => l.createsToken = true) tr 0 ≤ 1 := by
  obtain ⟨tr, hrun⟩ : ∃ tr, Steps (Step Stmt.exec (RotationRequest.prog sampleEnv) (fun _ => True)
      (fun w l => rotatesUnrevoked w l = true)) ⟨rotationWorld, []⟩ tr (rotated rotatedInTurn) :=
    Config.play_steps _ _ rotatedInTurn (fun _ _ => trivial) _ (by decide)
  exact ⟨tr, hrun,
    (refresh_rotates_once sampleEnv rotationWorld_unique hrun rotatedToken (i := 0) (j := 1)
    rfl rfl).2.2⟩

/-- Both requests get a pair, and both new rows are live. -/
theorem rotated_at_once_twice :
    (∃ tr, Steps (Step Stmt.exec (RotationRequest.prog sampleEnv) (fun _ => True) (fun _ _ => True))
        ⟨rotationWorld, []⟩ tr (rotated rotatedAtOnce)) ∧
      (∃ a b, (rotated rotatedAtOnce).pool[0]? = some (.refresh rotatedToken {}, .ret a) ∧
        (rotated rotatedAtOnce).pool[1]? = some (.refresh rotatedToken {}, .ret b) ∧
        a.isSession = true ∧ b.isSession = true) ∧
      (rotated rotatedAtOnce).store.refreshTokens.rows.map (fun r => (r.1, r.2.revoked)) =
        [(3, true), (11, false), (13, false)] :=
  ⟨Config.play_steps_free Stmt.exec _ rotatedAtOnce (fun _ _ => trivial) _,
    ⟨_, _, rfl, rfl, rfl, rfl⟩, by decide⟩

end Sample

end SaasBackend
