import SaasBackend.FactorRequests

set_option autoImplicit false

namespace SaasBackend
open Keyed Handler

/-- otplib rejects a code of a step that is not later than `afterTimeStep`. -/
def Env.StepsLater (env : Env) : Prop :=
  ∀ secret code now n s, env.otpVerify secret code now (some n) = some s → n < s

/-- Whenever a verification records its time step, its code, checked for the same instant
against the row stored then, comes out as it did against the row that it read. -/
def ChecksHold (env : Env) (tr : List FactorEvent) (c : FactorConfig) : Prop :=
  ∀ tr₁ tr₂ i id d w w' challengeToken code client p,
    tr = tr₂ ++ .fire i (.userUpdate id d) w w' :: tr₁ → d.lastTotpTimeStep.isSome = true →
      c.pool[i]? = some (.verifyChallenge challengeToken code client, p) →
        ∀ w₁ ∈ firstRead i tr₁, ∀ challengeId v, (.codeCheck challengeId, v) ∈ own Stmt.exec i tr₁ →
          ∀ x₁ x, w₁.users.get? id = some x₁ → w.users.get? id = some x →
            matchCode env x code v.now = matchCode env x₁ code v.now

def StaysEnrolled (u : Id) (c : FactorConfig) : Prop :=
  ∀ (i : Nat) (password : String) (p : Req Reply), c.pool[i]? ≠ some (.disable u password, p)

def RecordsStep (tr : List FactorEvent) (i : Nat) (u : Id) (s : Nat) : Prop :=
  ∃ d w w', .fire i (.userUpdate u d) w w' ∈ tr ∧ (Stmt.userUpdate u d).exec w = .ok w' ∧
    d.lastTotpTimeStep = some (some s)

def AcceptsTotp (c : FactorConfig) (i code : Nat) : Prop :=
  ∃ challengeToken client user token refreshToken dev, c.pool[i]? =
    some (.verifyChallenge challengeToken code client,
      .ret (.session user token refreshToken dev false))

structure StepsForward (u : Id) (w w' : World) : Prop where
  nonce : w.nonce ≤ w'.nonce
  step : ∀ x', u < w.nonce → w'.users.get? u = some x' → ∃ x, w.users.get? u = some x ∧
    ∀ n, x.lastTotpTimeStep = some n → ∃ m, x'.lastTotpTimeStep = some m ∧ n ≤ m

theorem StepsForward.refl (u : Id) (w : World) : StepsForward u w w :=
  ⟨Nat.le_refl _, fun x _ hx => ⟨x, hx, fun n hn => ⟨n, hn, Nat.le_refl n⟩⟩⟩

theorem StepsForward.trans {u : Id} {w₁ w₂ w₃ : World} (h₁ : StepsForward u w₁ w₂)
    (h₂ : StepsForward u w₂ w₃) :
    StepsForward u w₁ w₃ := by
  refine ⟨Nat.le_trans h₁.nonce h₂.nonce, fun x₃ hu hx₃ => ?_⟩
  obtain ⟨x₂, hx₂, hstep₂⟩ := h₂.step x₃ (Nat.lt_of_lt_of_le hu h₁.nonce) hx₃
  obtain ⟨x₁, hx₁, hstep₁⟩ := h₁.step x₂ hu hx₂
  refine ⟨x₁, hx₁, fun n hn => ?_⟩
  obtain ⟨m, hm, hle⟩ := hstep₁ n hn
  obtain ⟨k, hk, hle'⟩ := hstep₂ m hm
  exact ⟨k, hk, Nat.le_trans hle hle'⟩

theorem matchCode_totp {env : Env} (hotp : env.StepsLater) {x : User} {code : Nat}
    {now : Time} {s : Nat} (h : matchCode env x code now = .totp s) :
    ∀ n, x.lastTotpTimeStep = some n → n < s := by
  intro n hn
  unfold matchCode at h
  split at h
  · rename_i hsome
    cases h
    obtain ⟨secret, _, hverify⟩ := Option.bind_eq_some_iff.mp hsome
    rw [hn] at hverify
    exact hotp _ _ _ _ _ hverify
  · split at h <;> cases h

section Run

variable {env : Env} {w₀ : World} {tr : List FactorEvent} {c : FactorConfig} {u : Id}

theorem recorded_later (hotp : env.StepsLater) (hrun : FactorRun env ⟨w₀, []⟩ tr c)
    (hcond : ChecksHold env tr c) {i : Nat} {id : Id} {d : UserPatch} {w w' : World}
    (hfire : .fire i (.userUpdate id d) w w' ∈ tr) {step : Option Nat}
    (hstep : d.lastTotpTimeStep = some step) {x : User} (hx : w.users.get? id = some x) :
    ∃ s, step = some s ∧ ∀ n, x.lastTotpTimeStep = some n → n < s := by
  obtain ⟨tr₂, tr₁, htr⟩ := List.append_of_mem hfire
  obtain ⟨_, ⟨r, p⟩, hq, hwrites⟩ := hrun.recalled.events tr₁ tr₂ i _ w w' htr
  simp only [] at hwrites
  cases hwrites with
  | leaves hleaves => simp [Stmt.leavesFactor, hstep] at hleaves
  | @verifies challengeToken code client _ _ _ x₁ matched hjudged _ hrecords =>
    obtain ⟨s, rfl, rfl⟩ := hrecords step hstep
    obtain ⟨w₁, hlast, hx₁⟩ := hjudged.read
    obtain ⟨challengeId, v, hmem, hmatched⟩ := hjudged.check
    have hsame :=
      hcond tr₁ tr₂ i id d w w' challengeToken code client p htr (by rw [hstep]; rfl) hq w₁
      (by rw [firstRead, hlast]; rfl) challengeId v hmem x₁ x hx₁ hx
    exact ⟨s, rfl, matchCode_totp hotp (hsame.trans hmatched)⟩

theorem event_forward (hotp : env.StepsLater) (hrun : FactorRun env ⟨w₀, []⟩ tr c)
    (hcond : ChecksHold env tr c) (henrolled : StaysEnrolled u c) {i : Nat} {l : Stmt}
    {w w' : World} (hfire : .fire i l w w' ∈ tr) : StepsForward u w w' := by
  obtain ⟨tr₂, tr₁, htr⟩ := List.append_of_mem hfire
  obtain ⟨hstore, ⟨r, p⟩, hq, hwrites⟩ := hrun.recalled.events tr₁ tr₂ i l w w' htr
  rcases hstore with hexec | ⟨_, rfl⟩
  · refine ⟨(exec_effect hexec).nonce_le, fun x' hu hx' => ?_⟩
    rcases (exec_effect hexec).user_back hx' with ⟨x, hx, hstep⟩ | ⟨_, _, rfl, _⟩
    · refine ⟨x, hx, fun n hn => ?_⟩
      have hkept : ∀ d : UserPatch, d.lastTotpTimeStep = none →
          (d.apply x).lastTotpTimeStep = some n := by
        intro d hd
        simp [UserPatch.apply, hd, hn]
      cases hstep with
      | same => exact ⟨n, hn, Nat.le_refl n⟩
      | update d =>
        cases hd : d.lastTotpTimeStep with
        | none => exact ⟨n, hkept d hd, Nat.le_refl n⟩
        | some step =>
          obtain ⟨s, rfl, hlater⟩ := recorded_later hotp hrun hcond hfire hd hx
          exact ⟨s, by simp [UserPatch.apply, hd], Nat.le_of_lt (hlater n hn)⟩
      | kill d =>
        have hnone : d.lastTotpTimeStep = none := by
          simp only [] at hwrites
          cases hwrites with
          | leaves hleaves =>
            simp only [Stmt.leavesFactor, Bool.and_eq_true, Option.isNone_iff_eq_none] at hleaves
            exact hleaves.2
          | enrols hnone => exact hnone
          | @removes _ password => exact absurd hq (henrolled i password p)
        exact ⟨n, hkept d hnone, Nat.le_refl n⟩
      | reuse => exact ⟨n, hn, Nat.le_refl n⟩
    · exact absurd hu (Nat.lt_irrefl _)
  · exact .refl u _

theorem part_forward (hotp : env.StepsLater) (hrun : FactorRun env ⟨w₀, []⟩ tr c)
    (hcond : ChecksHold env tr c) (henrolled : StaysEnrolled u c) {c₁ c₂ : FactorConfig}
    {tr₂ : List FactorEvent} (hpart : FactorRun env c₁ tr₂ c₂) (hsub : tr₂ ⊆ tr) :
    StepsForward u c₁.store c₂.store := by
  induction hpart with
  | refl => exact .refl u c₁.store
  | @snoc tr' c' c'' e _ hstep ih =>
    have hbefore := ih fun x hx => hsub (.tail _ hx)
    cases hstep with
    | arrive hr => exact hbefore
    | fire hi _ => exact hbefore.trans (event_forward hotp hrun hcond henrolled (hsub (.head _)))

theorem FactorRun.fresh (hw₀ : w₀.Fresh) (hrun : FactorRun env ⟨w₀, []⟩ tr c) : c.store.Fresh := by
  induction hrun with
  | refl => exact hw₀
  | @snoc _ c' _ _ _ hstep ih =>
    cases hstep with
    | arrive hr => exact ih
    | @fire i r l n k hi _ =>
      cases he : l.exec c'.store with
      | ok w => rw [Config.advance_ok _ hi he]; exact ih.exec he
      | error e => rw [Config.advance_error _ hi he]; exact ih

theorem recorded_apart (hotp : env.StepsLater) (hw₀ : w₀.Fresh) (hrun : FactorRun env ⟨w₀, []⟩ tr c)
    (hcond : ChecksHold env tr c) (henrolled : StaysEnrolled u c)
    {tr₁ tr₂ : List FactorEvent} {i j s : Nat} {d d' : UserPatch} {w w' v v' : World}
    (htr : tr = tr₂ ++ .fire i (.userUpdate u d) w w' :: tr₁)
    (hexec : (Stmt.userUpdate u d).exec w = .ok w') (hstep : d.lastTotpTimeStep = some (some s))
    (hlater : .fire j (.userUpdate u d') v v' ∈ tr₂)
    (hexec' : (Stmt.userUpdate u d').exec v = .ok v')
    (hstep' : d'.lastTotpTimeStep = some (some s)) : False := by
  have hsub : tr₂ ⊆ tr := by rw [htr]; exact List.subset_append_left _ _
  obtain ⟨_, c₂, _, _, hupto, rfl, hafter⟩ := Steps.at_fire (htr ▸ hrun)
  obtain ⟨x, hx, _⟩ := (setUser_ok hexec).2
  obtain ⟨y, hy, _⟩ := (setUser_ok hexec').2
  have hx' : c₂.store.users.get? u = some (d.apply x) := by rw [(setUser_ok hexec).1]; simp [hx]
  obtain ⟨tr₂b, tr₂a, rfl⟩ := List.append_of_mem hlater
  obtain ⟨c₃, _, hbetween, rfl, _⟩ := Steps.at_fire hafter
  have hforward := part_forward hotp hrun hcond henrolled hbetween fun e he =>
    hsub (List.mem_append_right _ (.tail _ he))
  obtain ⟨x'', hx'', hgrown⟩ := hforward.step y ((FactorRun.fresh hw₀ hupto).users u _ hx') hy
  rw [hx'] at hx''
  cases hx''
  obtain ⟨m, hm, hle⟩ := hgrown s (by simp [UserPatch.apply, hstep])
  obtain ⟨s', heq, hlt⟩ := recorded_later hotp hrun hcond (hsub hlater) hstep' hy
  cases heq
  have hlt' := hlt m hm
  omega

theorem accepted_records (hrun : FactorRun env ⟨w₀, []⟩ tr c) {i code : Nat}
    (haccepts : AcceptsTotp c i code) :
    ∃ u s, RecordsStep tr i u s ∧ ∃ x now, matchCode env x code now = .totp s := by
  obtain ⟨challengeToken, client, user, token, refreshToken, dev, hpool⟩ := haccepts
  obtain ⟨id, d, w, hown, hwrote⟩ :=
    hrun.recalled.pool i _ hpool user token refreshToken dev false rfl
  obtain ⟨w', hfire, w'', hexec⟩ := mem_own hown
  obtain ⟨tr₂, tr₁, htr⟩ := List.append_of_mem hfire
  obtain ⟨hstore, q, hq, hwrites⟩ := hrun.recalled.events tr₁ tr₂ i _ w w' htr
  rw [hpool] at hq
  cases hq
  obtain ⟨step, hstep⟩ := Option.isSome_iff_exists.mp hwrote
  cases hwrites with
  | leaves hleaves => simp [Stmt.leavesFactor, hstep] at hleaves
  | verifies hjudged _ hrecords =>
    obtain ⟨s, rfl, rfl⟩ := hrecords step hstep
    obtain ⟨_, v, _, hmatched⟩ := hjudged.check
    rcases hstore with hok | ⟨⟨err, hfail⟩, _⟩
    · exact ⟨id, s, ⟨d, w, w', hfire, hok, hstep⟩, _, v.now, hmatched⟩
    · rw [hexec] at hfail
      cases hfail

theorem recorded_once (hotp : env.StepsLater) (hw₀ : w₀.Fresh) (hrun : FactorRun env ⟨w₀, []⟩ tr c)
    (hcond : ChecksHold env tr c) (henrolled : StaysEnrolled u c) {i j s : Nat}
    (hi : RecordsStep tr i u s) (hj : RecordsStep tr j u s) : i = j := by
  obtain ⟨d, w, w', hfire, hexec, hstep⟩ := hi
  obtain ⟨d', v, v', hfire', hexec', hstep'⟩ := hj
  obtain ⟨tr₂, tr₁, htr⟩ := List.append_of_mem hfire
  have hmem := hfire'
  rw [htr] at hmem
  rcases List.mem_append.mp hmem with hlater | hmem
  · exact (recorded_apart hotp hw₀ hrun hcond henrolled htr hexec hstep hlater hexec' hstep').elim
  · rcases List.mem_cons.mp hmem with heq | hearlier
    · cases heq
      rfl
    · obtain ⟨x, y, rfl⟩ := List.append_of_mem hearlier
      have htr₂ : tr = (tr₂ ++ .fire i (.userUpdate u d) w w' :: x) ++
          .fire j (.userUpdate u d') v v' :: y := by
        rw [htr]
        simp
      exact (recorded_apart hotp hw₀ hrun hcond henrolled htr₂ hexec' hstep'
        (List.mem_append_right _ (.head _)) hexec
        hstep).elim

end Run

/-- While the checks hold when their steps are recorded, every pair for a TOTP code has its
own time step, and the recorded step never goes back. -/
theorem totp_steps_forward (env : Env) (hotp : env.StepsLater) {w₀ : World} (hw₀ : w₀.Fresh)
    {tr₁ tr₂ tr₃ : List FactorEvent} {c₁ c₂ c₃ : FactorConfig}
    (hrun₁ : FactorRun env ⟨w₀, []⟩ tr₁ c₁)
    (hrun₂ : FactorRun env c₁ tr₂ c₂) (hrun₃ : FactorRun env c₂ tr₃ c₃)
    (hcond : ChecksHold env (tr₃ ++ (tr₂ ++ tr₁)) c₃) {u : Id} (henrolled : StaysEnrolled u c₃) :
    (∀ i code, AcceptsTotp c₃ i code →
      ∃ v s, RecordsStep (tr₃ ++ (tr₂ ++ tr₁)) i v s ∧ ∃ x now,
      matchCode env x code now = .totp s) ∧
      (∀ i j s, RecordsStep (tr₃ ++ (tr₂ ++ tr₁)) i u s →
        RecordsStep (tr₃ ++ (tr₂ ++ tr₁)) j u s → i = j) ∧
      ∀ x₁ x₂ n, c₁.store.users.get? u = some x₁ → c₂.store.users.get? u = some x₂ →
        x₁.lastTotpTimeStep = some n → ∃ m, x₂.lastTotpTimeStep = some m ∧ n ≤ m := by
  have hrun : FactorRun env ⟨w₀, []⟩ (tr₃ ++ (tr₂ ++ tr₁)) c₃ :=
    Steps.trans (Steps.trans hrun₁ hrun₂) hrun₃
  refine ⟨fun i code => accepted_records hrun,
    fun i j s => recorded_once hotp hw₀ hrun hcond henrolled, fun x₁ x₂ n hx₁ hx₂ hn => ?_⟩
  have hforward := part_forward hotp hrun hcond henrolled hrun₂ fun e he =>
    List.mem_append_right _ (List.mem_append_left _ he)
  obtain ⟨x, hx, hgrown⟩ := hforward.step x₂ ((FactorRun.fresh hw₀ hrun₁).users u x₁ hx₁) hx₂
  rw [hx₁] at hx
  cases hx
  exact hgrown n hn

section Sample

def checkHolds (env : Env) (c : FactorConfig) (tr : List FactorEvent) : FactorEvent → Bool
  | .fire i (.userUpdate id d) w _ => d.lastTotpTimeStep.isNone ||
    match c.pool[i]?, (firstRead i tr).bind (fun w₁ => w₁.users.get? id), w.users.get? id with
    | some (.verifyChallenge _ code _, _), some x₁, some x => (own Stmt.exec i tr).all (fun e =>
        match e with
        | (.codeCheck _, v) => matchCode env x code v.now == matchCode env x₁ code v.now
        | _ => true)
    | _, _, _ => true
  | _ => true

theorem checkHolds_sound {env : Env} {c : FactorConfig} {tr : List FactorEvent}
    (hcheck : checkEvents (checkHolds env c) tr = true) : ChecksHold env tr c := by
  intro tr₁ tr₂ i id d w w' challengeToken code client p htr hwrites hpool w₁ hw₁ challengeId v
    hmem x₁ x hx₁ hx
  subst htr
  have hevent := checkEvents_at hcheck
  rw [Option.mem_def] at hw₁
  simp only [checkHolds, hw₁, Option.bind_some, hx₁, hx, hpool, Bool.or_eq_true,
    Option.isNone_iff_eq_none, List.all_eq_true] at hevent
  rcases hevent with hnone | hall
  · rw [hnone] at hwrites
    cases hwrites
  · simpa using hall _ hmem

/-- An authenticator whose code for step `s` is `secret + s`, valid one step around now. -/
def steppedEnv : Env :=
  { sampleEnv with
    otpVerify := fun secret code now afterTimeStep =>
      if secret ≤ code ∧ now / 30000 ≤ code - secret + 1 ∧ code - secret ≤ now / 30000 + 1 ∧
          afterTimeStep.all (fun n => decide (n < code - secret)) = true then some (code - secret)
      else none }

theorem steppedEnv_later : steppedEnv.StepsLater := by
  intro secret code now n s h
  simp only [steppedEnv, Option.all_some, decide_eq_true_eq] at h
  split at h
  · rename_i hvalid
    cases h
    exact hvalid.2.2.2
  · cases h

def enrolledWorld : World where
  users := (∅ : Table User).insert 1
    { email := "a@x.io", twoFactorEnabled := true, twoFactorSecret := some (encryptSecret 4) }
  twoFactorChallenges :=
    ((∅ : Table TwoFactorChallenge).insert 2 ⟨hashToken 3, 1, 300000, false, 0, 0⟩).insert 4
    ⟨hashToken 5, 1, 300000, false, 0, 0⟩
  now := 60000
  nonce := 6

theorem enrolledWorld_fresh : enrolledWorld.Fresh := by
  refine ⟨fun k x hk => ?_, fun k t hk => (by cases hk)⟩
  rcases Table.get?_insert_cases hk with hold | ⟨rfl, _⟩
  · cases hold
  · decide

def steppedInTurn : List (FactorRequest ⊕ Nat) :=
  .inl (.verifyChallenge 3 6 {}) :: List.replicate 11 (.inr 0) ++ .inl (.verifyChallenge 5 7 {}) ::
    List.replicate 11 (.inr 1)

def steppedAtOnce : List (FactorRequest ⊕ Nat) :=
  .inl (.verifyChallenge 3 6 {}) :: .inl (.verifyChallenge 5 6 {}) :: .inr 1 :: List.replicate 11
    (.inr 0) ++
    List.replicate 10 (.inr 1)

def stepped (sched : List (FactorRequest ⊕ Nat)) : FactorConfig :=
  Config.play Stmt.exec (FactorRequest.prog steppedEnv) ⟨enrolledWorld, []⟩ sched

def steppedTrace (sched : List (FactorRequest ⊕ Nat)) : List FactorEvent :=
  Config.trace Stmt.exec (FactorRequest.prog steppedEnv) ⟨enrolledWorld, []⟩ sched []

theorem stepped_run (sched : List (FactorRequest ⊕ Nat)) :
    FactorRun steppedEnv ⟨enrolledWorld, []⟩ (steppedTrace sched) (stepped sched) :=
  Config.trace_steps Stmt.exec _ sched (fun _ _ => trivial) .refl

theorem steppedInTurn_checks :
    checkEvents (checkHolds steppedEnv (stepped steppedInTurn)) (steppedTrace steppedInTurn) =
      true := by
  decide +kernel

set_option maxRecDepth 4000 in
theorem steppedInTurn_enrolled : StaysEnrolled 1 (stepped steppedInTurn) := by
  intro i password p hp
  match i with
  | 0 => cases hp
  | 1 => cases hp
  | i + 2 => cases hp

set_option maxRecDepth 4000 in
theorem totp_steps_forward_in_turn :
    RecordsStep (steppedTrace steppedInTurn) 1 1 3 ∧
      ∀ j, RecordsStep (steppedTrace steppedInTurn) j 1 3 → 1 = j := by
  have hcond : ChecksHold steppedEnv ([] ++ ([] ++ steppedTrace steppedInTurn))
      (stepped steppedInTurn) :=
    checkHolds_sound steppedInTurn_checks
  have hrecords : RecordsStep (steppedTrace steppedInTurn) 1 1 3 :=
    ⟨_, _, _, List.mem_of_getElem? (i := 4) rfl, rfl, rfl⟩
  refine ⟨hrecords, fun j hj => ?_⟩
  exact (totp_steps_forward steppedEnv steppedEnv_later enrolledWorld_fresh
    (stepped_run steppedInTurn) .refl .refl
    hcond steppedInTurn_enrolled).2.1 1 j 3 hrecords hj

set_option maxRecDepth 4000 in
/-- Both requests hand out a pair for the code of one time step. -/
theorem stepped_at_once_twice :
    steppedEnv.StepsLater ∧
      FactorRun steppedEnv ⟨enrolledWorld, []⟩ (steppedTrace steppedAtOnce)
      (stepped steppedAtOnce) ∧ StaysEnrolled 1 (stepped steppedAtOnce) ∧
      AcceptsTotp (stepped steppedAtOnce) 0 6 ∧ AcceptsTotp (stepped steppedAtOnce) 1 6 ∧
      RecordsStep (steppedTrace steppedAtOnce) 0 1 2 ∧
      RecordsStep (steppedTrace steppedAtOnce) 1 1 2 := by
  refine ⟨steppedEnv_later, stepped_run steppedAtOnce, fun i password p hp => ?_,
    ⟨3, {}, _, _, _, _, rfl⟩, ⟨5, {}, _, _, _, _, rfl⟩, ?_, ?_⟩
  · match i with
    | 0 => cases hp
    | 1 => cases hp
    | i + 2 => cases hp
  · exact ⟨_, _, _, List.mem_of_getElem? (i := 14) rfl, rfl, rfl⟩
  · exact ⟨_, _, _, List.mem_of_getElem? (i := 4) rfl, rfl, rfl⟩

end Sample

end SaasBackend
