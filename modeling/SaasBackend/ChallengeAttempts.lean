import SaasBackend.ChallengeRaces
import SaasBackend.FactorRequests
import Mathlib.Data.List.Perm.Subperm

/-! Guesses against one challenge. The counter is read with the challenge, a code is checked
several statements later, and a failure is counted after that; the claim looks at the flag
alone. The cap holds as long as no one counts in between. -/

set_option autoImplicit false

namespace SaasBackend
open Keyed Handler

def Stmt.checksCode : Stmt → Bool
  | .codeCheck _ => true
  | _ => false

def Stmt.countsAttempt (k : Id) : Stmt → Bool
  | .challengeAttempt k' => k' == k
  | _ => false

def Stmt.claimsSome : Stmt → Bool
  | .challengeClaim _ => true
  | _ => false

def World.challengeUser (w : World) (k : Id) : Option (TwoFactorChallenge × User) :=
  (w.twoFactorChallenges.get? k).bind (fun c => (w.users.get? c.userId).map (fun x => (c, x)))

def challengeRead (k : Id) (i : Nat) (tr : List ChallengeEvent) :
    Option (TwoFactorChallenge × User) :=
  (own Stmt.exec i tr).getLast?.bind (fun e => e.2.challengeUser k)

def codeWrong (env : Env) (k : Id) (c : ChallengeConfig) (tr : List ChallengeEvent) (i : Nat)
    (w : World) : Bool :=
  match c.pool[i]?, challengeRead k i tr with
  | some (.verifyChallenge _ code _, _), some (_, x) =>
      decide (matchCode env x code w.now = .invalid)
  | _, _ => false

/-- The verifications of which a wrong code was checked through challenge `k`, newest first;
`c` is the end of the run. -/
def wrongChecks (env : Env) (k : Id) (c : ChallengeConfig) : List ChallengeEvent → List Nat
  | [] => []
  | .fire i (.codeCheck k') w _ :: tr =>
    if k' = k ∧ codeWrong env k c tr i w = true then i :: wrongChecks env k c tr
      else wrongChecks env k c tr
  | _ :: tr => wrongChecks env k c tr

def attemptsCounted (k : Id) (tr : List ChallengeEvent) : List Nat :=
  passed Stmt.exec (Stmt.countsAttempt k) tr

def counterStands (k : Id) (i : Nat) (tr : List ChallengeEvent) (w : World) : Bool :=
  (challengeRead k i tr).all
    (fun r => (w.twoFactorChallenges.get? k).any (fun d => d.attempts == r.1.attempts))

/-- What a check or a claim meets, after the run before it: the counter that its request read,
and, at a check, no wrong code that is still to be counted. -/
def countsCurrent (env : Env) (k : Id) (c : ChallengeConfig)
    (tr : List ChallengeEvent) : ChallengeEvent → Bool
  | .fire i (.codeCheck k') w _ => k' != k ||
    (counterStands k i tr w && (wrongChecks env k c tr).all (attemptsCounted k tr).contains)
  | .fire i (.challengeClaim k') w _ => k' != k || counterStands k i tr w
  | _ => true

def ReadsOpen (own : Own) (k : Id) (d : TwoFactorChallenge) (x : User) : Prop :=
  ∃ w, own.getLast? = some (.read, w) ∧ w.challengeUser k = some (d, x) ∧
    d.attempts < maxChallengeAttempts

/-- What a verification sends, in terms of what it read: one check and one claim, both of
the challenge it found open. -/
inductive VerifySends : Own → Stmt → Prop where
  | plain {own : Own} {l : Stmt} : opensNone.contains l.area = true → l.checksCode = false →
      l.claimsSome = false → VerifySends own l
  | checks {own : Own} {k : Id} {d : TwoFactorChallenge} {x : User} : ReadsOpen own k d x →
      (∀ e ∈ own, e.1.checksCode = false) → VerifySends own (.codeCheck k)
  | claims {own : Own} {k : Id} {d : TwoFactorChallenge} {x : User} : ReadsOpen own k d x →
      VerifySends own (.challengeClaim k)

def ClaimReturns (t : Nat) (own : Own) (a : Reply) : Prop :=
  a.isSession = true → ∃ k w own₀ d x, (.challengeClaim k, w) :: own₀ <:+ own ∧
    ReadsOpen own₀ k d x ∧
    d.token = hashToken t ∧ (w.twoFactorChallenges.get? k).any (fun d => !d.used) = true

def ChallengeRequest.Sent : ChallengeRequest → Own → Stmt → Prop
  | .verifyChallenge .. => VerifySends
  | _ => fun _ l => opensNone.contains l.area = true

def ChallengeRequest.Replies : ChallengeRequest → Own → Reply → Prop
  | .verifyChallenge t _ _ => ClaimReturns t
  | _ => fun _ _ => True

section Along

variable {env : Env}

theorem completeChallenge_plain (id : Id) (user : User) (matched : CodeMatch)
    (client : ClientInfo) :
    (completeChallenge env id user matched client).Sends (fun l => ∀ own, VerifySends own l) := by
  have hread : ∀ own, VerifySends own .read := fun _ => .plain rfl rfl rfl
  refine .bind ?_ fun _ => .bind (.send hread) fun _ =>
    .bind (.send fun _ => .plain rfl rfl rfl) fun _ =>
    .bind ?_ fun _ => .bind (.bind (.send hread) fun _ => .ret) fun _ => .ret
  · cases matched with
    | backup hashed => exact .send fun _ => .plain rfl rfl rfl
    | totp timeStep => exact .ret
    | invalid => exact .ret
  · exact .bind (.send fun _ => .plain rfl rfl rfl) fun _ => .bind (.send hread) fun _ =>
      .bind (.send fun _ => .plain rfl rfl rfl) fun _ => .ret

theorem verifyChallenge_sent (t code : Nat) (client : ClientInfo) :
    (verifyChallenge env t code client).Along Stmt.exec VerifySends (ClaimReturns t) [] := by
  refine verifyChallenge_along_of (fun _ => .plain rfl rfl rfl) (fun _ _ => .plain rfl rfl rfl)
    fun own w k d x hlast hreads hstored hpresented hx hleft => ?_
  have hread : w.challengeUser k = some (d, x) := by simp [World.challengeUser, hstored, hx]
  have hopen : ∀ {own' : Own}, own <:+ own' → ReadsOpen own' k d x := fun hsuffix =>
    ⟨w, getLast?_of_suffix hlast hsuffix, hread, hleft⟩
  refine Prog.along_send_bind.mpr ⟨.checks (hopen (List.suffix_refl _)) fun e he => ?_,
    fun w₄ _ _ => ?_⟩
  · rw [hreads e he]
    rfl
  split
  · refine Prog.along_send_bind.mpr ⟨.plain rfl rfl rfl, fun _ _ _ => ?_⟩
    split <;> exact .throw
  · refine Prog.along_send_bind.mpr ⟨.claims (hopen (List.suffix_cons _ _)), fun w₅ _ _ => ?_⟩
    split
    · exact .throw
    · rename_i hclaimed
      refine .of_history (completeChallenge_plain ..) fun a own' hown _ => ?_
      exact ⟨k, w₅, _, d, x, hown, hopen (List.suffix_cons _ _), hpresented,
        by simpa using hclaimed⟩

theorem ChallengeRequest.along (r : ChallengeRequest) :
    (r.prog env).Along Stmt.exec r.Sent r.Replies [] := by
  cases r with
  | verifyChallenge t code client => exact verifyChallenge_sent t code client
  | cleanup =>
    exact .of_history (Prog.Sends.mono (ChallengeRequest.sends env .cleanup) fun _ hl _ => hl)
      fun _ _ _ => trivial
  | other p opens => exact .of_history (Prog.Sends.mono opens fun _ hl _ => hl) fun _ _ _ => trivial

theorem ChallengeRequest.Sent.opensNone {r : ChallengeRequest} {own : Own} {l : Stmt}
    (h : r.Sent own l) :
    SaasBackend.opensNone.contains l.area = true := by
  cases r with
  | verifyChallenge t code client =>
    cases h with
    | plain hl => exact hl
    | checks => rfl
    | claims => rfl
  | cleanup => exact h
  | other p opens => exact h

end Along

theorem counter_back {l : Stmt} {w w' : World} (hl : opensNone.contains l.area = true)
    (h : l.Effect w w') {k : Id} {d' : TwoFactorChallenge}
    (hk : w'.twoFactorChallenges.get? k = some d') :
    ∃ d, w.twoFactorChallenges.get? k = some d ∧
      d'.attempts = d.attempts + if l.countsAttempt k = true then 1 else 0 := by
  rw [h.twoFactorChallenges] at hk
  cases l with
  | challengeCreate d => cases hl
  | userDelete id => exact ⟨d', (Table.get?_eraseWhere_eq_some.mp hk).1, rfl⟩
  | challengeCleanup before => exact ⟨d', (Table.get?_eraseWhere_eq_some.mp hk).1, rfl⟩
  | challengeDelete id =>
    simp only [Stmt.twoFactorChallengesAfter, Table.get?_erase] at hk
    split at hk
    · cases hk
    · exact ⟨d', hk, rfl⟩
  | challengeAttempt id =>
    simp only [Stmt.twoFactorChallengesAfter, Table.get?_update] at hk
    split at hk
    · rename_i hid
      obtain ⟨d, hd, rfl⟩ := Option.map_eq_some_iff.mp hk
      exact ⟨d, hd, by simp [Stmt.countsAttempt, hid]⟩
    · rename_i hid
      exact ⟨d', hk, by simp [Stmt.countsAttempt, Ne.symm hid]⟩
  | challengeClaim id =>
    simp only [Stmt.twoFactorChallengesAfter, Table.get?_updateWhere] at hk
    obtain ⟨d, hd, rfl⟩ := Option.map_eq_some_iff.mp hk
    refine ⟨d, hd, ?_⟩
    split <;> rfl
  | _ => exact ⟨d', hk, rfl⟩

section Run

variable {env : Env} {w₀ : World} {tr : List ChallengeEvent} {c : ChallengeConfig} {k : Id}
  {d₀ : TwoFactorChallenge}

theorem ChallengeRaceRun.recalled (hrun : ChallengeRaceRun env ⟨w₀, []⟩ tr c) :
    Recalled Stmt.exec ChallengeRequest.Sent ChallengeRequest.Replies tr c :=
  Recalled.steps (fun r _ => r.along) hrun

theorem ChallengeRaceRun.old (hrun : ChallengeRaceRun env ⟨w₀, []⟩ tr c) :
    ChallengesOld w₀ c.store ∧ ∀ i l w w', .fire i l w w' ∈ tr → ChallengesOld w₀ w :=
  Recalled.invariant (ChallengesOld w₀) (fun r _ => r.along)
    (fun _ _ _ _ _ _ hsent hold _ hexec => hold.trans (.exec hsent.opensNone hexec)) (.refl w₀) hrun

theorem ChallengeRaceRun.counter (hrun : ChallengeRaceRun env ⟨w₀, []⟩ tr c)
    (h₀ : w₀.twoFactorChallenges.get? k = some d₀) {d : TwoFactorChallenge}
    (hk : c.store.twoFactorChallenges.get? k = some d) :
    d.attempts = d₀.attempts + (attemptsCounted k tr).length := by
  induction hrun generalizing d with
  | refl =>
    rw [h₀] at hk
    cases hk
    rfl
  | @snoc tr c c' e hbefore hstep ih =>
    cases hstep with
    | arrive hr => exact ih hk
    | @fire i r l n k' hi hcond =>
      have hrec := ChallengeRaceRun.recalled (.snoc hbefore (.fire hi hcond))
      obtain ⟨_, _, _, hsent⟩ := hrec.events tr [] i l _ _ rfl
      unfold attemptsCounted at ih ⊢
      cases hexec : l.exec c.store with
      | error e =>
        rw [Config.advance_error _ hi hexec] at hk ⊢
        rw [passed_fire_of_error hexec]
        exact ih hk
      | ok w =>
        rw [Config.advance_ok _ hi hexec] at hk ⊢
        obtain ⟨d', hk', hcount⟩ := counter_back hsent.opensNone (exec_effect hexec) hk
        rw [passed_fire_of_ok hexec, hcount, ih hk']
        split <;> simp [Nat.add_assoc]

theorem wrongChecks_own {tr : List ChallengeEvent} {i : Nat} (h : i ∈ wrongChecks env k c tr) :
    ∃ w, (.codeCheck k, w) ∈ own Stmt.exec i tr := by
  induction tr with
  | nil => cases h
  | cons e tr ih =>
    have hold : i ∈ wrongChecks env k c tr → ∃ w,
        (.codeCheck k, w) ∈ own Stmt.exec i (e :: tr) := by
      intro hmem
      obtain ⟨w, hown⟩ := ih hmem
      have happend : own Stmt.exec i ([e] ++ tr) = own Stmt.exec i [e] ++ own Stmt.exec i tr :=
        own_append tr [e]
      exact ⟨w, happend ▸ List.mem_append_right _ hown⟩
    unfold wrongChecks at h
    split at h
    · cases h
    · rename_i j k' w w' tr' heq
      cases heq
      split at h
      · rename_i hwrong
        rcases List.mem_cons.mp h with rfl | hmem
        · obtain ⟨rfl, _⟩ := hwrong
          have hown : own Stmt.exec i (.fire i (.codeCheck k') w w' :: tr) =
              (.codeCheck k', w) :: own Stmt.exec i tr := own_fire_of_ok rfl
          exact ⟨w, hown ▸ .head _⟩
        · exact hold hmem
      · exact hold h
    · rename_i heq
      cases heq
      exact hold h

theorem codeWrong_checks (hrun : ChallengeRaceRun env ⟨w₀, []⟩ tr c)
    {tr₁ tr₂ : List ChallengeEvent} {i : Nat} {w w' : World}
    (htr : tr = tr₂ ++ .fire i (.codeCheck k) w w' :: tr₁)
    (hwrong : codeWrong env k c tr₁ i w = true) :
    (∃ d x, challengeRead k i tr₁ = some (d, x) ∧ d.attempts < maxChallengeAttempts) ∧
      ∀ e ∈ own Stmt.exec i tr₁, e.1.checksCode = false := by
  obtain ⟨_, ⟨r, p⟩, hpool, hsent⟩ := (ChallengeRaceRun.recalled hrun).events tr₁ tr₂ i _ w w' htr
  unfold codeWrong at hwrong
  rw [hpool] at hwrong
  cases r with
  | verifyChallenge t code client =>
    cases hsent with
    | plain _ hno => cases hno
    | checks hread hfirst =>
      obtain ⟨w₁, hlast, huser, hleft⟩ := hread
      exact ⟨⟨_, _, by rw [challengeRead, hlast]; exact huser, hleft⟩, hfirst⟩
  | cleanup => cases hwrong
  | other p opens => cases hwrong

theorem wrongChecks_nodup (hrun : ChallengeRaceRun env ⟨w₀, []⟩ tr c)
    {tr₁ tr₂ : List ChallengeEvent} (htr : tr = tr₂ ++ tr₁) : (wrongChecks env k c tr₁).Nodup := by
  induction tr₁ generalizing tr₂ with
  | nil => exact List.nodup_nil
  | cons e tr₁ ih =>
    have hrest := @ih (tr₂ ++ [e]) (by rw [htr]; simp)
    unfold wrongChecks
    split
    · exact List.nodup_nil
    · rename_i i k' w w' tr' heq
      cases heq
      split
      · rename_i hwrong
        obtain ⟨rfl, hwrong⟩ := hwrong
        refine List.nodup_cons.mpr ⟨fun hmem => ?_, hrest⟩
        obtain ⟨v, hown⟩ := wrongChecks_own hmem
        have hfirst := (codeWrong_checks hrun htr hwrong).2 _ hown
        cases hfirst
      · exact hrest
    · rename_i heq
      cases heq
      exact hrest

theorem wrongChecks_left (hrun : ChallengeRaceRun env ⟨w₀, []⟩ tr c)
    (h₀ : w₀.twoFactorChallenges.get? k = some d₀)
    (hcond : checkEvents (countsCurrent env k c) tr = true) {tr₁ tr₂ : List ChallengeEvent}
    (htr : tr = tr₂ ++ tr₁) :
    (wrongChecks env k c tr₁).length ≤ maxChallengeAttempts - d₀.attempts := by
  induction tr₁ generalizing tr₂ with
  | nil => exact Nat.zero_le _
  | cons e tr₁ ih =>
    have hrest := @ih (tr₂ ++ [e]) (by rw [htr]; simp)
    unfold wrongChecks
    split
    · exact Nat.zero_le _
    · rename_i i k' w w' tr' heq
      cases heq
      split
      · rename_i hwrong
        obtain ⟨rfl, hwrong⟩ := hwrong
        obtain ⟨⟨d, x, hread, hleft⟩, _⟩ := codeWrong_checks hrun htr hwrong
        have hevent := checkEvents_at (htr ▸ hcond)
        simp only [countsCurrent, counterStands, hread, Option.all_some, bne_self_eq_false,
          Bool.false_or, Bool.and_eq_true, List.all_eq_true, List.contains_iff_mem] at hevent
        obtain ⟨hstands, hcounted⟩ := hevent
        obtain ⟨d', hd', hsame⟩ := (Option.any_eq_true _ _).mp hstands
        obtain ⟨c₁, _, hbefore, rfl, _⟩ := Steps.at_fire (htr ▸ hrun)
        have hcounter := ChallengeRaceRun.counter hbefore h₀ hd'
        have hnodup : (wrongChecks env k' c tr₁).Nodup :=
          wrongChecks_nodup hrun (htr.trans (List.append_cons tr₂ _ tr₁))
        have hfewer := (hnodup.subperm hcounted).length_le
        have hsame : d'.attempts = d.attempts := by simpa using hsame
        rw [List.length_cons]
        omega
      · exact hrest
    · rename_i heq
      cases heq
      exact hrest

/-- A pair for the challenge is handed out by a request that claimed it, unused and with
attempts left. -/
theorem session_claimed (hw₀ : w₀.ChallengeTokensUnique) (hrun : ChallengeRaceRun env ⟨w₀, []⟩ tr c)
    (h₀ : w₀.twoFactorChallenges.get? k = some d₀) {t : Nat} (htoken : d₀.token = hashToken t)
    (hcond : checkEvents (countsCurrent env k c) tr = true) {i code : Nat} {client : ClientInfo}
    {a : Reply} (hpool : c.pool[i]? = some (.verifyChallenge t code client, .ret a))
    (ha : a.isSession = true) :
    ∃ w w' d, .fire i (.challengeClaim k) w w' ∈ tr ∧ w.twoFactorChallenges.get? k = some d ∧
      d.used = false ∧
      d.attempts < maxChallengeAttempts := by
  obtain ⟨k', w, own₀, d, x, hsuffix, ⟨w₁, hlast, huser, hleft⟩, hpresented, hunused⟩ :=
    (ChallengeRaceRun.recalled hrun).pool i _ hpool ha
  obtain ⟨tr₁, tr₂, w', _, htr, _, hown⟩ := own_split hsuffix
  -- the challenge that was read holds the token, so it is the one the run began with
  obtain ⟨d₁, hd₁, hmap⟩ := Option.bind_eq_some_iff.mp huser
  obtain ⟨_, _, heq⟩ := Option.map_eq_some_iff.mp hmap
  cases heq
  obtain ⟨_, hfire, _⟩ := mem_own (hown ▸ List.mem_of_getLast? hlast)
  have hmem := List.mem_append_right tr₂
    (List.mem_cons_of_mem (.fire i (.challengeClaim k') w w') hfire)
  obtain ⟨d₂, hd₂, hstep⟩ := (ChallengeRaceRun.old hrun).2 _ _ _ _ (htr ▸ hmem) k' d hd₁
  obtain rfl : k' = k :=
    hw₀ k' k d₂ d₀ hd₂ h₀ (hstep.token.symm.trans (hpresented.trans htoken.symm))
  obtain ⟨d', hd', hunused⟩ := (Option.any_eq_true _ _).mp hunused
  have hevent := checkEvents_at (htr ▸ hcond)
  have hread : challengeRead k' i tr₁ = some (d, x) := by
    rw [challengeRead, hown, hlast]; exact huser
  simp only [countsCurrent, counterStands, hread, hd', Option.all_some, Option.any_some,
    bne_self_eq_false, Bool.false_or, beq_iff_eq] at hevent
  exact ⟨w, w', d', htr ▸ List.mem_append_right _ (.head _), hd', by simpa using hunused,
    hevent ▸ hleft⟩

end Run

/-- While every check and every claim of a challenge meets the counter that its request read,
and no check a wrong code still to be counted, at most five wrong codes are checked through
it, and no request gets a pair for it at five. -/
theorem challenge_attempts_capped (env : Env) {w₀ : World} (hw₀ : w₀.ChallengeTokensUnique)
    {k t : Nat} {d₀ : TwoFactorChallenge} (h₀ : w₀.twoFactorChallenges.get? k = some d₀)
    (htoken : d₀.token = hashToken t) {tr : List ChallengeEvent} {c : ChallengeConfig}
    (hrun : ChallengeRaceRun env ⟨w₀, []⟩ tr c)
    (hcond : checkEvents (countsCurrent env k c) tr = true) :
    (wrongChecks env k c tr).length ≤ maxChallengeAttempts - d₀.attempts ∧
      ∀ (i code : Nat) (client : ClientInfo) (a : Reply),
        c.pool[i]? = some (.verifyChallenge t code client, .ret a) → a.isSession = true →
          ∃ w w' d, .fire i (.challengeClaim k) w w' ∈ tr ∧ w.twoFactorChallenges.get? k = some d ∧
            d.used = false ∧ d.attempts < maxChallengeAttempts :=
  ⟨wrongChecks_left hrun h₀ hcond (List.nil_append tr).symm,
    fun _ _ _ _ => session_claimed hw₀ hrun h₀ htoken hcond⟩

section Sample

def guessedInTurn : List (ChallengeRequest ⊕ Nat) :=
  [.inl (.verifyChallenge 3 8 {}), .inl (.verifyChallenge 3 8 {}),
    .inl (.verifyChallenge 3 5 {})] ++
    List.replicate 5 (.inr 0) ++ List.replicate 5 (.inr 1) ++ List.replicate 11 (.inr 2)

def guessedAtOnce : List (ChallengeRequest ⊕ Nat) :=
  List.replicate 6 (.inl (.verifyChallenge 3 8 {})) ++ [.inl (.verifyChallenge 3 5 {})] ++
    (List.range 7).map .inr ++ (List.range 6).flatMap
      (fun i => List.replicate 4 (.inr i)) ++ List.replicate 10 (.inr 6)

def guessedThrough (sched : List (ChallengeRequest ⊕ Nat)) : ChallengeConfig :=
  Config.play Stmt.exec (ChallengeRequest.prog sampleEnv) ⟨challengedWorld, []⟩ sched

def guessedTrace (sched : List (ChallengeRequest ⊕ Nat)) : List ChallengeEvent :=
  Config.trace Stmt.exec (ChallengeRequest.prog sampleEnv) ⟨challengedWorld, []⟩ sched []

theorem guessedThrough_run (sched : List (ChallengeRequest ⊕ Nat)) :
    ChallengeRaceRun sampleEnv ⟨challengedWorld, []⟩ (guessedTrace sched) (guessedThrough sched) :=
  Config.trace_steps Stmt.exec _ sched (fun _ _ => trivial) .refl

theorem challenge_attempts_capped_in_turn :
    (wrongChecks sampleEnv 2 (guessedThrough guessedInTurn)
      (guessedTrace guessedInTurn)).length ≤ 5 ∧
      ∃ w w' d, .fire 2 (.challengeClaim 2) w w' ∈ guessedTrace guessedInTurn ∧
        w.twoFactorChallenges.get? 2 = some d ∧ d.used = false ∧
        d.attempts < maxChallengeAttempts := by
  obtain ⟨hfew, hclaims⟩ :=
    challenge_attempts_capped sampleEnv challengedWorld_unique (k := 2) (t := 3) rfl rfl
    (guessedThrough_run guessedInTurn) (by decide +kernel)
  exact ⟨hfew, hclaims 2 5 {} _ rfl rfl⟩

set_option maxRecDepth 8000 in
/-- A fresh challenge through which six wrong codes are checked, and then the right one. -/
theorem challenge_guessed_at_once :
    ChallengeRaceRun sampleEnv ⟨challengedWorld, []⟩ (guessedTrace guessedAtOnce)
    (guessedThrough guessedAtOnce) ∧
      (∃ d, challengedWorld.twoFactorChallenges.get? 2 = some d ∧ d.attempts = 0 ∧
        d.token = hashToken 3) ∧
      (wrongChecks sampleEnv 2 (guessedThrough guessedAtOnce)
        (guessedTrace guessedAtOnce)).length = 6 ∧
      (∃ w w' d, .fire 6 (.challengeClaim 2) w w' ∈ guessedTrace guessedAtOnce ∧
        w.twoFactorChallenges.get? 2 = some d ∧ d.attempts = 6) ∧
      ∃ a, (guessedThrough guessedAtOnce).pool[6]? = some (.verifyChallenge 3 5 {}, .ret a) ∧
        a.isSession = true := by
  refine ⟨guessedThrough_run guessedAtOnce, ⟨_, rfl, rfl, rfl⟩, by decide +kernel, ?_,
    ⟨_, rfl, rfl⟩⟩
  exact ⟨_, _, _, List.mem_of_getElem? (i := 6) rfl, rfl, rfl⟩

end Sample

end SaasBackend
