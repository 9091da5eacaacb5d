import SaasBackend.FactorRequests

set_option autoImplicit false

namespace SaasBackend
open Keyed Handler

def Stmt.leavesEnrolment : Stmt → Bool
  | .userCreate u => !u.twoFactorEnabled
  | .userUpdate _ d | .killSessions _ d =>
    d.twoFactorEnabled.isNone && d.twoFactorSecret.isNone && d.twoFactorBackupCodes.isNone
  | _ => true

inductive EnrolmentRequest where
  | setup (userId : Id)
  | enable (userId : Id) (code : Nat)
  | disable (userId : Id) (password : String)
  /-- any other handler, none of which touches these columns -/
  | other (p : Req Reply) (leaves : p.Sends (fun l => l.leavesEnrolment = true))

def EnrolmentRequest.prog (env : Env) : EnrolmentRequest → Req Reply
  | .setup userId => SaasBackend.setup userId
  | .enable userId code => SaasBackend.enable env userId code
  | .disable userId password => SaasBackend.disable env userId password
  | .other p _ => p

abbrev EnrolmentEvent := Event EnrolmentRequest World Stmt

abbrev EnrolmentConfig := Config EnrolmentRequest World Err Stmt Reply

abbrev EnrolmentRun (env : Env) : EnrolmentConfig → List EnrolmentEvent → EnrolmentConfig → Prop :=
  Steps (Step Stmt.exec (EnrolmentRequest.prog env) (fun _ => True) (fun _ _ => True))

def World.factorOn (w : World) (u : Id) : Bool := (w.users.get? u).any (·.twoFactorEnabled)

def Stmt.turnsOn (u : Id) : Stmt → Bool
  | .killSessions id d => id == u && d.twoFactorEnabled == some true
  | _ => false

def enabledSince (u : Id) : List EnrolmentEvent → List Nat
  | [] => []
  | .arrive _ :: tr => enabledSince u tr
  | .fire i l w w' :: tr =>
    if w'.factorOn u then
      match l.exec w with
      | .ok _ => if l.turnsOn u then i :: enabledSince u tr else enabledSince u tr
      | .error _ => enabledSince u tr
    else []

def secretRead (u : Id) (i : Nat) (tr : List EnrolmentEvent) : Option (Option (Sealed Nat)) :=
  (own Stmt.exec i tr).getLast?.bind (fun e => (e.2.users.get? u).map (·.twoFactorSecret))

structure EnabledBy (env : Env) (u : Id) (tr : List EnrolmentEvent) (c : EnrolmentConfig) (x : User)
    (i : Nat) :
    Prop where
  /-- it verified its code against the stored secret, which it read first -/
  secret : ∃ code p secret, c.pool[i]? = some (.enable u code, p) ∧
    secretRead u i tr = some (some secret) ∧ x.twoFactorSecret = some secret ∧
      ∃ w, (.read, w) ∈ own Stmt.exec i tr ∧
      (env.otpVerify (decryptSecret secret) code w.now none).isSome = true
  /-- and has returned the codes whose hashes are stored -/
  codes : ∃ r messageKey codes, c.pool[i]? = some (r, .ret (.backupCodes messageKey codes)) ∧
    x.twoFactorBackupCodes = codes.map (fun raw => .sha256 (hashToken raw))

/-- A second factor that is on was turned on by one request, and is the one it confirmed. -/
def EnrolmentConfirmed (env : Env) (u : Id) (tr : List EnrolmentEvent)
    (c : EnrolmentConfig) : Prop :=
  ∀ x, c.store.users.get? u = some x → x.twoFactorEnabled = true →
    ∃ i, enabledSince u tr = [i] ∧ EnabledBy env u tr c x i

/-- What the write of a setup and the transaction of an enable meet, after the run before
them: the flag still off and, for the enable, the secret that it read. -/
def readsStand (u : Id) (tr : List EnrolmentEvent) : EnrolmentEvent → Bool
  | .fire _ (.userUpdate id d) w _ => id != u || d.twoFactorSecret.isNone || !w.factorOn u
  | .fire i (.killSessions id d) w _ => id != u || d.twoFactorEnabled != some true ||
    (!w.factorOn u && decide (secretRead u i tr = (w.users.get? u).map (·.twoFactorSecret)))
  | _ => true

inductive EnrolmentRequest.Writes (env : Env) : EnrolmentRequest → Own → Stmt → Prop where
  | leaves {r : EnrolmentRequest} {own : Own} {l : Stmt} : l.leavesEnrolment = true →
      Writes env r own l
  | stores {id : Id} {own : Own} {secret : Nat} :
      Writes env (.setup id) own
        (.userUpdate id { twoFactorSecret := some (some (encryptSecret secret)) })
  | enrols {id : Id} {code : Nat} {own : Own} {w w' : World} {x : User} {secret : Sealed Nat}
      {codes : List Nat} :
      own.getLast? = some (.read, w) → w.users.get? id = some x → x.twoFactorSecret = some secret →
      (.read, w') ∈ own → (env.otpVerify (decryptSecret secret) code w'.now none).isSome = true →
      Writes env (.enable id code) own (.killSessions id
        { twoFactorEnabled := some true
          twoFactorBackupCodes := some (codes.map (fun raw => .sha256 (hashToken raw))) })
  | removes {id : Id} {password : String} {own : Own} {d : UserPatch} : d.twoFactorEnabled =
      some false → Writes env (.disable id password) own (.killSessions id d)

/-- After its transaction an enable returns the codes that the transaction stored. -/
def EnrolmentRequest.Returns : EnrolmentRequest → Stmt → (World → Req Reply) → Prop
  | .enable .., .killSessions _ d, n => ∃ codes : List Nat,
    d.twoFactorBackupCodes = some (codes.map (fun raw => .sha256 (hashToken raw))) ∧
      ∀ w, n w = .ret (.backupCodes "messages.twoFactorEnabled" codes)
  | _, _, _ => True

section Requests

variable {env : Env}

theorem setup_writes (userId : Id) : (setup userId).Along Stmt.exec
    (EnrolmentRequest.Writes env (.setup userId)) (fun _ _ => True) [] := by
  refine Prog.along_send_bind.mpr ⟨.leaves rfl, fun w₁ _ _ => ?_⟩
  split
  · exact .throw
  · split
    · exact .throw
    · refine Prog.along_send_bind.mpr ⟨.leaves rfl, fun w₂ _ _ => ?_⟩
      exact Prog.along_send_bind.mpr ⟨.stores, fun _ _ _ => trivial⟩

theorem enable_writes (userId : Id) (code : Nat) : (enable env userId code).Along Stmt.exec
    (EnrolmentRequest.Writes env (.enable userId code)) (fun _ _ => True) [] := by
  refine Prog.along_send_bind.mpr ⟨.leaves rfl, fun w₁ _ _ => ?_⟩
  split
  · exact .throw
  · rename_i x hfound
    split
    · exact .throw
    · split
      · exact .throw
      · rename_i secret hsecret
        refine Prog.along_send_bind.mpr ⟨.leaves rfl, fun w₂ _ _ => ?_⟩
        split
        · exact .throw
        · rename_i hvalid
          refine .bind (drawBackupCodes_sends (fun _ => .leaves rfl) _) fun codes own hown => ?_
          refine Prog.along_send_bind.mpr ⟨.enrols (getLast?_of_suffix rfl hown)
            (Option.filter_eq_some_iff.mp hfound).1 hsecret (hown.mem (.head _))
            (Option.isSome_iff_ne_none.mpr (by simpa using hvalid)), fun _ _ _ => trivial⟩

theorem disable_writes (userId : Id) (password : String) :
    (disable env userId password).Along Stmt.exec
    (EnrolmentRequest.Writes env (.disable userId password)) (fun _ _ => True) [] := by
  refine Prog.along_send_bind.mpr ⟨.leaves rfl, fun w₁ _ _ => ?_⟩
  split
  · exact .throw
  · split
    · exact .throw
    · split
      · exact .throw
      · refine Prog.along_send_bind.mpr ⟨.leaves rfl, fun w₂ _ _ => ?_⟩
        split
        · exact .throw
        · exact Prog.along_send_bind.mpr ⟨.removes rfl, fun _ _ _ => trivial⟩

theorem EnrolmentRequest.along (r : EnrolmentRequest) :
    (r.prog env).Along Stmt.exec (r.Writes env) (fun _ _ => True) [] := by
  cases r with
  | setup userId => exact setup_writes userId
  | enable userId code => exact enable_writes userId code
  | disable userId password => exact disable_writes userId password
  | other p leaves => exact .of_history (leaves.mono fun _ hl _ => .leaves hl) fun _ _ _ => trivial

theorem enable_returns (userId : Id) (code : Nat) :
    (enable env userId code).Continues (EnrolmentRequest.Returns (.enable userId code)) := by
  refine Prog.continues_send_bind.mpr ⟨trivial, fun w₁ => ?_⟩
  split
  · trivial
  · split
    · trivial
    · split
      · trivial
      · refine Prog.continues_send_bind.mpr ⟨trivial, fun w₂ => ?_⟩
        split
        · trivial
        · refine .bind (drawBackupCodes_sends (fun _ => trivial) _) fun codes => ?_
          exact Prog.continues_send_bind.mpr ⟨⟨codes, rfl, fun _ => rfl⟩, fun _ => trivial⟩

theorem EnrolmentRequest.continues (r : EnrolmentRequest) : (r.prog env).Continues r.Returns := by
  cases r with
  | enable userId code => exact enable_returns userId code
  | setup userId => exact .of_sends (.of_forall (fun _ _ => trivial) _)
  | disable userId password => exact .of_sends (.of_forall (fun _ _ => trivial) _)
  | other p leaves => exact .of_sends (.of_forall (fun _ _ => trivial) _)

end Requests

structure SameEnrolment (x x' : User) : Prop where
  enabled : x'.twoFactorEnabled = x.twoFactorEnabled
  secret : x'.twoFactorSecret = x.twoFactorSecret
  codes : x'.twoFactorBackupCodes = x.twoFactorBackupCodes

theorem SameEnrolment.refl (x : User) : SameEnrolment x x := ⟨rfl, rfl, rfl⟩

section Statements

variable {l : Stmt} {w w' : World} {u : Id} {x x' : User}

theorem factorOn_eq (h : w.users.get? u = some x) : w.factorOn u = x.twoFactorEnabled := by
  simp [World.factorOn, h]

theorem leavesEnrolment_step (hl : l.leavesEnrolment = true) (h : UserStep u l x x') :
    SameEnrolment x x' := by
  have hpatch : ∀ d : UserPatch, (d.twoFactorEnabled.isNone && d.twoFactorSecret.isNone &&
      d.twoFactorBackupCodes.isNone) = true → SameEnrolment x (d.apply x) := by
    intro d hd
    simp only [Bool.and_eq_true, Option.isNone_iff_eq_none] at hd
    obtain ⟨⟨henabled, hsecret⟩, hcodes⟩ := hd
    exact ⟨by simp [UserPatch.apply, henabled], by simp [UserPatch.apply, hsecret],
      by simp [UserPatch.apply, hcodes]⟩
  cases h with
  | same => exact .refl x
  | update d => exact hpatch d hl
  | kill d =>
    obtain ⟨henabled, hsecret, hcodes⟩ := hpatch d hl
    exact ⟨henabled, hsecret, hcodes⟩
  | reuse => exact ⟨rfl, rfl, rfl⟩

theorem leavesEnrolment_turnsOn (hl : l.leavesEnrolment = true) : l.turnsOn u = false := by
  cases l with
  | killSessions id d =>
    simp only [Stmt.leavesEnrolment, Bool.and_eq_true, Option.isNone_iff_eq_none] at hl
    simp [Stmt.turnsOn, hl.1.1]
  | _ => rfl

end Statements

section Run

variable {env : Env} {u : Id} {w₀ : World} {tr : List EnrolmentEvent}
    {c : EnrolmentConfig} {i : Nat}

theorem enabledSince_off {l : Stmt} {w w' : World} (h : w'.factorOn u = false) :
    enabledSince u (.fire i l w w' :: tr) = [] := by
  simp [enabledSince, h]

theorem enabledSince_same {l : Stmt} {w w' : World} (h : w'.factorOn u = true)
    (hl : l.turnsOn u = false ∨ ∃ e, l.exec w = .error e) :
    enabledSince u (.fire i l w w' :: tr) = enabledSince u tr := by
  rcases hl with hl | ⟨e, herr⟩
  · cases hexec : l.exec w <;> simp [enabledSince, h, hl, hexec]
  · simp [enabledSince, h, herr]

theorem own_suffix (e : EnrolmentEvent) : own Stmt.exec i tr <:+ own Stmt.exec i (e :: tr) :=
  ⟨own Stmt.exec i [e], (own_append tr [e]).symm⟩

theorem secretRead_later {s : Option (Sealed Nat)} (h : secretRead u i tr = some s)
    (e : EnrolmentEvent) :
    secretRead u i (e :: tr) = some s := by
  obtain ⟨r, hlast, hs⟩ := Option.bind_eq_some_iff.mp h
  rw [secretRead, getLast?_of_suffix hlast (own_suffix e)]
  exact hs

theorem EnabledBy.later {x x' : User} {c' : EnrolmentConfig} (h : EnabledBy env u tr c x i)
    (e : EnrolmentEvent) (hsame : SameEnrolment x x')
    (hpool : ∀ r a, c.pool[i]? = some (r, .ret a) → c'.pool[i]? = some (r, .ret a)) :
    EnabledBy env u (e :: tr) c' x' i := by
  obtain ⟨⟨code, p, secret, hp, hread, hstored, w, hmem, hvalid⟩, r, messageKey, codes, hr,
    hcodes⟩ := h
  rw [hr] at hp
  cases hp
  exact ⟨⟨code, _, secret, hpool _ _ hr, secretRead_later hread e, hsame.secret.trans hstored, w,
    (own_suffix e).mem hmem, hvalid⟩, _, messageKey, codes, hpool _ _ hr, hsame.codes.trans hcodes⟩

/-- One statement, of a request that agrees with its own history, met as it has to be. -/
theorem EnrolmentConfirmed.fire (hrun : EnrolmentRun env ⟨w₀, []⟩ tr c)
    (hoff : c.store.factorOn u = false → enabledSince u tr = [])
    (hcoh : EnrolmentConfirmed env u tr c) {r : EnrolmentRequest} {l : Stmt} {n : World → Req Reply}
    {k : Err → Req Reply} (hi : c.pool[i]? = some (r, .stmt l n k))
    (hnow : readsStand u tr (.fire i l c.store (c.advance Stmt.exec i).store) = true) :
    EnrolmentConfirmed env u (.fire i l c.store (c.advance Stmt.exec i).store :: tr)
      (c.advance Stmt.exec i) := by
  intro x' hx' hon
  have hon' : (c.advance Stmt.exec i).store.factorOn u = true := by rw [factorOn_eq hx', hon]
  -- a request that is done is not the one that fires
  have hpool : ∀ (j : Nat) (q : EnrolmentRequest) (a : Reply), c.pool[j]? = some (q, .ret a) →
      (c.advance Stmt.exec i).pool[j]? = some (q, .ret a) := by
    intro j q a hj
    rw [Config.advance_pool_of_ne]
    · exact hj
    · rintro rfl
      rw [hi] at hj
      cases hj
  have hkeep : (l.turnsOn u = false ∨ ∃ e, l.exec c.store = .error e) →
      (∃ x, c.store.users.get? u = some x ∧ SameEnrolment x x') →
        ∃ j, enabledSince u (.fire i l c.store (c.advance Stmt.exec i).store :: tr) = [j] ∧
          EnabledBy env u (.fire i l c.store (c.advance Stmt.exec i).store :: tr)
            (c.advance Stmt.exec i) x' j := by
    intro hl ⟨x, hx, hsame⟩
    obtain ⟨j, hj, hby⟩ := hcoh x hx (hsame.enabled.symm.trans hon)
    exact ⟨j, (enabledSince_same hon' hl).trans hj, hby.later _ hsame (hpool j)⟩
  cases hexec : l.exec c.store with
  | error e =>
    rw [Config.advance_error _ hi hexec] at hx'
    exact hkeep (.inr ⟨e, hexec⟩) ⟨x', hx', .refl x'⟩
  | ok w =>
    have hadvance := Config.advance_ok Stmt.exec hi hexec
    rw [hadvance] at hx'
    have hwrites := ((Recalled.steps (fun r _ => r.along) hrun).pool i _ hi).1
    rcases (exec_effect hexec).user_back hx' with ⟨x, hx, hstep⟩ | ⟨y, rfl, _, rfl⟩
    · cases hwrites with
      | leaves hl =>
        exact hkeep (.inl (leavesEnrolment_turnsOn hl)) ⟨x, hx, leavesEnrolment_step hl hstep⟩
      | stores =>
        cases hstep with
        | same => exact hkeep (.inl rfl) ⟨_, hx, .refl _⟩
        | update =>
          have hflag : c.store.factorOn u = false := by simpa [readsStand] using hnow
          rw [factorOn_eq hx] at hflag
          simp [UserPatch.apply, hflag] at hon
      | @enrols id code _ w₁ w₂ x₁ secret codes hlast hx₁ hsecret hmem hvalid =>
        by_cases hid : id = u
        · subst hid
          obtain ⟨hflag, hsame⟩ : c.store.factorOn id = false ∧
              secretRead id i tr = (c.store.users.get? id).map (·.twoFactorSecret) := by
            simpa [readsStand] using hnow
          cases hstep with
          | same =>
            rw [factorOn_eq hx, hon] at hflag
            cases hflag
          | kill =>
            have hread : secretRead id i tr = some (some secret) := by
              simp [secretRead, hlast, hx₁, hsecret]
            have hstored : x.twoFactorSecret = some secret := by
              rw [hread, hx] at hsame
              exact (Option.some.inj hsame).symm
            obtain ⟨codes', hcodes, hreturn⟩ := (Steps.continues (fun r _ => r.continues) hrun hi).1
            have hdone : (c.advance Stmt.exec i).pool[i]? = some (.enable id code,
                .ret (.backupCodes "messages.twoFactorEnabled" codes')) := by
              rw [hadvance, ← hreturn c.store]
              exact List.getElem?_set_self (List.getElem?_eq_some_iff.mp hi).1
            refine ⟨i, by simp [enabledSince, hon', hexec, Stmt.turnsOn, hoff hflag], ?_, _, _,
              codes', hdone, ?_⟩
            · exact ⟨code, _, secret, hdone, secretRead_later hread _,
                by simpa [UserPatch.apply] using hstored, w₂, (own_suffix _).mem hmem, hvalid⟩
            · simpa [UserPatch.apply] using hcodes
        · cases hstep with
          | same => exact hkeep (.inl (by simp [Stmt.turnsOn, hid])) ⟨_, hx, .refl _⟩
          | kill => exact absurd rfl hid
      | removes hremoves =>
        cases hstep with
        | same => exact hkeep (.inl (by simp [Stmt.turnsOn, hremoves])) ⟨_, hx, .refl _⟩
        | kill => simp [UserPatch.apply, hremoves] at hon
    · cases hwrites with
      | leaves hl =>
        simp only [Stmt.leavesEnrolment, Bool.not_eq_true'] at hl
        rw [hl] at hon
        cases hon

/-- As long as what was read stands when it is written, every state of a run is confirmed. -/
theorem EnrolmentRun.coherent (h₀ : w₀.factorOn u = false) (hrun : EnrolmentRun env ⟨w₀, []⟩ tr c)
    (hcond : checkEvents (readsStand u) tr = true) :
    (c.store.factorOn u = false → enabledSince u tr = []) ∧ EnrolmentConfirmed env u tr c := by
  induction hrun with
  | refl =>
    refine ⟨fun _ => rfl, fun x hx hon => ?_⟩
    rw [factorOn_eq hx, hon] at h₀
    cases h₀
  | @snoc tr c c' e hbefore hstep ih =>
    simp only [checkEvents, Bool.and_eq_true] at hcond
    obtain ⟨hoff, hcoh⟩ := ih hcond.2
    cases hstep with
    | @arrive r hr =>
      refine ⟨hoff, fun x hx hon => ?_⟩
      obtain ⟨i, hi, hby⟩ := hcoh x hx hon
      refine ⟨i, hi, hby.later _ (.refl x) fun q a hq => ?_⟩
      rw [Config.arrive, List.getElem?_append_left (List.getElem?_eq_some_iff.mp hq).1]
      exact hq
    | fire hi _ => exact ⟨enabledSince_off, EnrolmentConfirmed.fire hbefore hoff hcoh hi hcond.1⟩

end Run

/-- While every setup writes and every enable enrols with the flag still off, and every enable
for the secret it read, a second factor that is on is the one that its only enable since the
flag was off has confirmed, with the backup codes it returned. -/
theorem enrolment_coherent (env : Env) {u : Id} {w₀ : World} (h₀ : w₀.factorOn u = false)
    {tr : List EnrolmentEvent} {c : EnrolmentConfig} (hrun : EnrolmentRun env ⟨w₀, []⟩ tr c)
    (hcond : checkEvents (readsStand u) tr = true) :
    EnrolmentConfirmed env u tr c :=
  (EnrolmentRun.coherent h₀ hrun hcond).2

section Sample

def preparedWorld : World where
  users := (∅ : Table User).insert 1
    { email := "a@x.io", password := some "pw", twoFactorSecret := some (encryptSecret 4) }
  nonce := 6

def enrolledInTurn : List (EnrolmentRequest ⊕ Nat) :=
  .inl (.enable 1 5) :: List.replicate 13 (.inr 0) ++ .inl (.disable 1 "pw") :: List.replicate 3
    (.inr 1) ++
    .inl (.setup 1) :: List.replicate 3 (.inr 2) ++ .inl
      (.enable 1 17) :: List.replicate 13 (.inr 3)

def setUpLate : List (EnrolmentRequest ⊕ Nat) :=
  .inl (.setup 1) :: .inl (.enable 1 5) :: .inr 0 :: List.replicate 13
    (.inr 1) ++ List.replicate 2 (.inr 0)

def enabledTwice : List (EnrolmentRequest ⊕ Nat) :=
  .inl (.enable 1 5) :: .inl (.enable 1 5) :: .inr 0 :: List.replicate 13
    (.inr 1) ++ List.replicate 12 (.inr 0)

def enrolment (sched : List (EnrolmentRequest ⊕ Nat)) : EnrolmentConfig :=
  Config.play Stmt.exec (EnrolmentRequest.prog sampleEnv) ⟨preparedWorld, []⟩ sched

def enrolmentTrace (sched : List (EnrolmentRequest ⊕ Nat)) : List EnrolmentEvent :=
  Config.trace Stmt.exec (EnrolmentRequest.prog sampleEnv) ⟨preparedWorld, []⟩ sched []

theorem enrolment_run (sched : List (EnrolmentRequest ⊕ Nat)) :
    EnrolmentRun sampleEnv ⟨preparedWorld, []⟩ (enrolmentTrace sched) (enrolment sched) :=
  Config.trace_steps Stmt.exec _ sched (fun _ _ => trivial) .refl

theorem enrolment_coherent_in_turn :
    (enrolment enrolledInTurn).store.factorOn 1 = true ∧
    enabledSince 1 (enrolmentTrace enrolledInTurn) = [3] ∧
      EnrolmentConfirmed sampleEnv 1 (enrolmentTrace enrolledInTurn) (enrolment enrolledInTurn) :=
  ⟨by decide +kernel, by decide +kernel,
    enrolment_coherent sampleEnv (by decide) (enrolment_run enrolledInTurn) (by decide +kernel)⟩

/-- The late setup leaves a secret no one verified a code against, and the second enable has
overwritten the codes of the first. -/
theorem enrolment_incoherent :
    preparedWorld.factorOn 1 = false ∧
      (EnrolmentRun sampleEnv ⟨preparedWorld, []⟩ (enrolmentTrace setUpLate) (enrolment setUpLate) ∧
        ¬ EnrolmentConfirmed sampleEnv 1 (enrolmentTrace setUpLate) (enrolment setUpLate)) ∧
      EnrolmentRun sampleEnv ⟨preparedWorld, []⟩ (enrolmentTrace enabledTwice)
      (enrolment enabledTwice) ∧
        ¬ EnrolmentConfirmed sampleEnv 1 (enrolmentTrace enabledTwice)
        (enrolment enabledTwice) := by
  refine ⟨by decide, ⟨enrolment_run setUpLate, fun hcoh => ?_⟩, enrolment_run enabledTwice,
    fun hcoh => ?_⟩
  · have hon : (enrolment setUpLate).store.factorOn 1 = true := by decide +kernel
    have hsince : enabledSince 1 (enrolmentTrace setUpLate) = [1] := by decide +kernel
    have hdiffer : ((enrolment setUpLate).store.users.get? 1).map (·.twoFactorSecret) ≠
        secretRead 1 1 (enrolmentTrace setUpLate) := by decide +kernel
    obtain ⟨x, hx, hon⟩ := (Option.any_eq_true _ _).mp hon
    obtain ⟨i, hi, hby⟩ := hcoh x hx hon
    rw [hsince] at hi
    cases hi
    obtain ⟨_, _, secret, _, hread, hstored, _⟩ := hby.secret
    rw [hread, hx, Option.map_some, hstored] at hdiffer
    exact hdiffer rfl
  · have hon : (enrolment enabledTwice).store.factorOn 1 = true := by decide +kernel
    have hsince : enabledSince 1 (enrolmentTrace enabledTwice) = [0, 1] := by decide +kernel
    obtain ⟨x, hx, hon⟩ := (Option.any_eq_true _ _).mp hon
    obtain ⟨i, hi, _⟩ := hcoh x hx hon
    rw [hsince] at hi
    cases hi

end Sample

end SaasBackend
