import SaasBackend.PendingChallenges
import SaasBackend.RefreshRotation

set_option autoImplicit false

namespace SaasBackend
open Keyed Handler

/-- src/modules/jobs/maintenance.worker.js; the rows deleted are counted. -/
def cleanupTwoFactorChallenges : Req Nat := do
  let now ← date
  send (.challengeCleanup now)
    (fun w => (w.twoFactorChallenges.filter (fun _ c => decide (c.expiresAt < now))).length)

inductive ChallengeRequest where
  | verifyChallenge (challengeToken code : Nat) (client : ClientInfo)
  | cleanup
  /-- any other handler that opens no challenge -/
  | other (p : Req Reply) (opens : Within opensNone p)

def ChallengeRequest.prog (env : Env) : ChallengeRequest → Req Reply
  | .verifyChallenge challengeToken code client =>
      SaasBackend.verifyChallenge env challengeToken code client
  | .cleanup => cleanupTwoFactorChallenges.bind fun deleted => .ret (.revokedCount deleted)
  | .other p _ => p

abbrev ChallengeEvent := Event ChallengeRequest World Stmt

abbrev ChallengeConfig := Config ChallengeRequest World Err Stmt Reply

abbrev ChallengeRaceRun (env : Env) : ChallengeConfig → List ChallengeEvent →
    ChallengeConfig → Prop :=
  Steps (Step Stmt.exec (ChallengeRequest.prog env) (fun _ => True) (fun _ _ => True))

def World.ChallengeTokensUnique (w : World) : Prop :=
  ∀ k k' c c', w.twoFactorChallenges.get? k = some c → w.twoFactorChallenges.get? k' = some c' →
    c.token = c'.token → k = k'

def ChallengesOld (w w' : World) : Prop :=
  ∀ k c', w'.twoFactorChallenges.get? k = some c' →
    ∃ c, w.twoFactorChallenges.get? k = some c ∧ ChallengeStep c c'

theorem ChallengesOld.refl (w : World) : ChallengesOld w w := fun _ c hk => ⟨c, hk, .refl c⟩

theorem ChallengesOld.trans {w₁ w₂ w₃ : World} (h₁ : ChallengesOld w₁ w₂)
    (h₂ : ChallengesOld w₂ w₃) :
    ChallengesOld w₁ w₃ := by
  intro k c₃ hk
  obtain ⟨c₂, hk₂, hstep₂⟩ := h₂ k c₃ hk
  obtain ⟨c₁, hk₁, hstep₁⟩ := h₁ k c₂ hk₂
  exact ⟨c₁, hk₁, hstep₁.trans hstep₂⟩

theorem ChallengesOld.exec {l : Stmt} {w w' : World} (hl : opensNone.contains l.area = true)
    (h : l.exec w = .ok w') :
    ChallengesOld w w' := fun _ _ hk => challenge_back hl (exec_effect h) hk

theorem World.ChallengeTokensUnique.old {w w' : World} (hw : w.ChallengeTokensUnique)
    (hold : ChallengesOld w w') :
    w'.ChallengeTokensUnique := by
  intro k k' c c' hk hk' htoken
  obtain ⟨c₀, hk₀, hstep⟩ := hold k c hk
  obtain ⟨c₁, hk₁, hstep'⟩ := hold k' c' hk'
  exact hw k k' c₀ c₁ hk₀ hk₁ (by rw [← hstep.token, ← hstep'.token, htoken])

def ClaimsUnused (digest : Digest Nat) (w : World) (l : Stmt) : Prop :=
  ∃ k c, l = .challengeClaim k ∧ w.twoFactorChallenges.get? k = some c ∧ c.token = digest ∧
    c.used = false

def claim (digest : Digest Nat) : Turnstile World Err Stmt Reply where
  exec := Stmt.exec
  allowed l := opensNone.contains l.area = true
  inv := World.ChallengeTokensUnique
  rely := ChallengesOld
  pass := ClaimsUnused digest
  barred _ := False
  good a := a.isSession = true
  after _ _ := True
  rely_refl := .refl
  rely_trans _ _ _ := .trans
  inv_step _ _ _ hl hw h := hw.old (.exec hl h)
  rely_step _ _ _ hl _ h := .exec hl h
  after_next _ _ _ _ _ _ := trivial
  after_fail _ _ _ _ _ _ := trivial

theorem verifyChallenge_unclaimed (env : Env) (t code : Nat) (client : ClientInfo) (w : World) :
    (claim (hashToken t)).Held (verifyChallenge env t code client) w := by
  rw [verifyChallenge_eq]
  refine held_query_bind rfl id fun w₁ _ _ => ?_
  split
  · trivial
  rename_i k c user hfound
  obtain ⟨hstored, hpresented, -⟩ := challenge_found hfound
  refine whenAnswerable_rule (T := fun _ => True)
    (Q := fun p => ∀ w', ChallengesOld w₁ w' → (claim (hashToken t)).Held p w')
      (fun _ _ _ => trivial)
    (fun _ _ _ => held_execute_bind id fun _ _ _ _ _ => .inr trivial)
    (fun _ hk _ hr => held_query_bind rfl id fun w₃ hr₃ _ => hk w₃.now trivial w₃ (hr.trans hr₃))
    (fun _ w₃ hr₃ => ?_) w₁ (.refl w₁)
  refine Turnstile.held_send_bind.mpr fun w₄ hr₄ _ => ⟨id, fun w₄' hok => .inr ?_⟩
  cases hok
  split
  · refine Turnstile.held_send_bind.mpr fun _ _ _ => ⟨id, fun _ _ => .inr ?_⟩
    split <;> trivial
  · refine Turnstile.held_send_bind.mpr fun w₅ hr₅ _ => ⟨id, fun _ _ => ?_⟩
    -- the row that the claim finds unused is the one that was read
    cases hk' : w₅.twoFactorChallenges.get? k with
    | none => exact .inr (by rw [if_pos (by rfl)]; trivial)
    | some c' =>
      obtain ⟨c₀, hk, hstep⟩ := (hr₃.trans hr₄).trans hr₅ k c' hk'
      rw [hstored] at hk
      cases hk
      cases hused : c'.used with
      | true => exact .inr (by rw [if_pos (by simp [hused])]; trivial)
      | false => exact .inl ⟨⟨k, c', rfl, hk', hstep.token.trans hpresented, hused⟩, trivial⟩

theorem ChallengeRequest.sends (env : Env) (r : ChallengeRequest) :
    Within opensNone (r.prog env) := by
  cases r with
  | verifyChallenge t code client => exact (verifyChallenge_within t code client).mono (by decide)
  | cleanup => exact .bind (.bind (.send rfl) fun _ => .send rfl) fun _ => .ret
  | other p opens => exact opens

/-- In any interleaving of verifications, cleanups and other handlers that open no challenge,
at most one request claims a challenge, and at most one returns a token pair for it. -/
theorem challenge_claimed_once (env : Env) {w₀ : World} (hw₀ : w₀.ChallengeTokensUnique)
    {tr : List ChallengeEvent} {c : ChallengeConfig} (hrun : ChallengeRaceRun env ⟨w₀, []⟩ tr c)
    (t : Nat) : (∀ i j s s', (claim (hashToken t)).PassedAt tr i s →
      (claim (hashToken t)).PassedAt tr j s' → i = j) ∧
      ∀ (i j code code' : Nat) (client client' : ClientInfo) (a b : Reply),
        c.pool[i]? = some (.verifyChallenge t code client, .ret a) →
          c.pool[j]? = some (.verifyChallenge t code' client', .ret b) →
            a.isSession = true → b.isSession = true → i = j := by
  let T := claim (hashToken t)
  have hsends : ∀ r, True → (ChallengeRequest.prog env r).Sends T.allowed := fun r _ => r.sends env
  have hheld : ∀ r w, True → (∃ code client, r = .verifyChallenge t code client) → T.inv w →
      T.Held (ChallengeRequest.prog env r) w := by
    rintro _ w _ ⟨code, client, rfl⟩ _
    exact verifyChallenge_unclaimed env t code client w
  have hruns := Turnstile.Runs.steps (T := T) hsends hheld hw₀ hrun
  have honce := (Turnstile.passes_once (T := T)
    (fun w => ∀ k c, w.twoFactorChallenges.get? k = some c → c.token = hashToken t → c.used = true)
    (by
      rintro w _ w' hunique ⟨k, c, rfl, hk, htoken, _⟩ hexec k' c' hk' htoken'
      cases hexec
      simp only [Table.get?_updateWhere] at hk'
      obtain ⟨c₀, hk₀, rfl⟩ := Option.map_eq_some_iff.mp hk'
      split
      · rfl
      · rename_i hother
        rw [if_neg hother] at htoken'
        cases hunique k' k c₀ c hk₀ hk (htoken'.trans htoken.symm)
        simpa using hother)
    (by
      intro w w' hold hall k c' hk' htoken
      obtain ⟨c, hk, hstep⟩ := hold k c' hk'
      exact hstep.used (hall k c hk (hstep.token ▸ htoken)))
    (by
      rintro w _ _ _ ⟨k, c, rfl, hk, htoken, hunused⟩ hall
      rw [hall k c hk htoken] at hunused
      cases hunused)
    hsends hw₀ hrun).2
  refine ⟨honce, fun i j code code' client client' a b hi hj ha hb => ?_⟩
  rcases hruns.threads i _ hi ⟨code, client, rfl⟩ with hno | ⟨s, hpassed, _⟩
  · exact absurd ha hno
  · rcases hruns.threads j _ hj ⟨code', client', rfl⟩ with hno | ⟨s', hpassed', _⟩
    · exact absurd hb hno
    · exact honce i j s s' hpassed hpassed'

section Sample

def challengedWorld : World where
  users := (∅ : Table User).insert 1
    { email := "a@x.io", twoFactorEnabled := true, twoFactorSecret := some (encryptSecret 4)
      twoFactorBackupCodes := [.sha256 (hashToken 9)] }
  twoFactorChallenges :=
    (∅ : Table TwoFactorChallenge).insert 2 ⟨hashToken 3, 1, 300000, false, 0, 0⟩
  nonce := 6

theorem challengedWorld_unique : challengedWorld.ChallengeTokensUnique := by
  intro k k' c c' hk hk' _
  rcases Table.get?_insert_cases hk with h | ⟨rfl, _⟩
  · cases h
  · rcases Table.get?_insert_cases hk' with h | ⟨rfl, _⟩
    · cases h
    · rfl

def claimedAtOnce : List (ChallengeRequest ⊕ Nat) :=
  [.inl (.verifyChallenge 3 5 {}), .inl (.verifyChallenge 3 9 {}), .inl (.verifyChallenge 3 8 {}),
    .inl .cleanup] ++
    List.replicate 4 (.inr 0) ++ List.replicate 5 (.inr 2) ++ List.replicate 12
      (.inr 1) ++ List.replicate 2 (.inr 3) ++
    List.replicate 8 (.inr 0)

def claimedRace : ChallengeConfig :=
  Config.play Stmt.exec (ChallengeRequest.prog sampleEnv) ⟨challengedWorld, []⟩ claimedAtOnce

theorem challenge_claimed_once_at_once :
    (∃ a, claimedRace.pool[1]? = some (.verifyChallenge 3 9 {}, .ret a) ∧ a.isSession = true) ∧
      ∀ j code client b, claimedRace.pool[j]? = some (.verifyChallenge 3 code client, .ret b) →
        b.isSession = true → 1 = j := by
  obtain ⟨tr, hrun⟩ : ∃ tr, ChallengeRaceRun sampleEnv ⟨challengedWorld, []⟩ tr claimedRace :=
    Config.play_steps_free Stmt.exec _ claimedAtOnce (fun _ _ => trivial) _
  refine ⟨⟨_, rfl, rfl⟩, fun j code client b hj hb => ?_⟩
  exact (challenge_claimed_once sampleEnv challengedWorld_unique hrun 3).2 1 j 9 code {} client _ b
    rfl hj rfl hb

end Sample

end SaasBackend
