import SaasBackend.Footprints
import SaasBackend.HandlerRecall

set_option autoImplicit false

namespace SaasBackend
open Keyed Handler

def Stmt.leavesFactor : Stmt → Bool
  | .userCreate u => u.twoFactorBackupCodes.isEmpty && u.lastTotpTimeStep.isNone
  | .userUpdate _ d | .killSessions _ d =>
      d.twoFactorBackupCodes.isNone && d.lastTotpTimeStep.isNone
  | _ => true

inductive FactorRequest where
  | verifyChallenge (challengeToken code : Nat) (client : ClientInfo)
  | enable (userId : Id) (code : Nat)
  | disable (userId : Id) (password : String)
  /-- any other handler, none of which touches these columns -/
  | other (p : Req Reply) (leaves : p.Sends (fun l => l.leavesFactor = true))

def FactorRequest.prog (env : Env) : FactorRequest → Req Reply
  | .verifyChallenge challengeToken code client =>
      SaasBackend.verifyChallenge env challengeToken code client
  | .enable userId code => SaasBackend.enable env userId code
  | .disable userId password => SaasBackend.disable env userId password
  | .other p _ => p

abbrev Own := List (Stmt × World)

/-- The user row that a verification read with its challenge, and what its code turned out
to be at the instant of the check. -/
structure Judged (env : Env) (code : Nat) (own : Own) (id : Id) (x : User)
    (matched : CodeMatch) : Prop where
  read : ∃ w, own.getLast? = some (.read, w) ∧ w.users.get? id = some x
  check : ∃ challengeId w, (.codeCheck challengeId, w) ∈ own ∧ matchCode env x code w.now = matched

theorem Judged.suffix {env : Env} {code : Nat} {own own' : Own} {id : Id} {x : User}
    {matched : CodeMatch} (h : Judged env code own id x matched) (hsuffix : own <:+ own') :
    Judged env code own' id x matched := by
  obtain ⟨w, hlast, hx⟩ := h.read
  obtain ⟨challengeId, w', hmem, hmatched⟩ := h.check
  exact ⟨⟨w, getLast?_of_suffix hlast hsuffix, hx⟩, challengeId, w', hsuffix.mem hmem, hmatched⟩

def Drawn (own : Own) (c : Nat) : Prop := ∃ w, (.random, w) ∈ own ∧ w.nonce = c

/-- What a request may write: a verification the row it read without the code it matched,
or the step it matched; an enrolment the hashes of codes it drew; a removal no codes. -/
inductive FactorRequest.Writes (env : Env) : FactorRequest → Own → Stmt → Prop where
  | leaves {r : FactorRequest} {own : Own} {l : Stmt} : l.leavesFactor = true → Writes env r own l
  | verifies {challengeToken code : Nat} {client : ClientInfo} {own : Own} {id : Id} {d : UserPatch}
      {x : User} {matched : CodeMatch} : Judged env code own id x matched →
      (∀ codes, d.twoFactorBackupCodes = some codes →
        ∃ hashed, matched = .backup hashed ∧ codes = x.twoFactorBackupCodes.filter (· != hashed)) →
      (∀ step, d.lastTotpTimeStep = some step → ∃ s, matched = .totp s ∧ step = some s) →
      Writes env (.verifyChallenge challengeToken code client) own (.userUpdate id d)
  | enrols {userId : Id} {code : Nat} {own : Own} {d : UserPatch} {codes : List Nat} :
      d.lastTotpTimeStep = none → (∀ c ∈ codes, Drawn own c) →
      d.twoFactorBackupCodes = some (codes.map (fun raw => .sha256 (hashToken raw))) →
      Writes env (.enable userId code) own (.killSessions userId d)
  | removes {userId : Id} {password : String} {own : Own} {d : UserPatch} :
      d.twoFactorBackupCodes = some [] →
        Writes env (.disable userId password) own (.killSessions userId d)

def VerifyReturns (own : Own) (a : Reply) : Prop :=
  ∀ user token refreshToken dev backup, a = .session user token refreshToken dev backup →
    ∃ id d w, (.userUpdate id d, w) ∈ own ∧
      if backup then d.twoFactorBackupCodes.isSome = true else d.lastTotpTimeStep.isSome = true

def EnableReturns (own : Own) (a : Reply) : Prop :=
  ∀ messageKey codes, a = .backupCodes messageKey codes → ∀ c ∈ codes, Drawn own c

def FactorRequest.Answers : FactorRequest → Own → Reply → Prop
  | .verifyChallenge _ _ _, own, a => VerifyReturns own a
  | .enable _ _, own, a => EnableReturns own a
  | _, _, _ => True

abbrev FactorEvent := Event FactorRequest World Stmt

abbrev FactorConfig := Config FactorRequest World Err Stmt Reply

abbrev FactorRun (env : Env) : FactorConfig → List FactorEvent → FactorConfig → Prop :=
  Steps (Step Stmt.exec (FactorRequest.prog env) (fun _ => True) (fun _ _ => True))

def firstRead (i : Nat) (tr : List FactorEvent) : Option World :=
  (own Stmt.exec i tr).getLast?.map (·.2)

section Along

variable {env : Env}

theorem completeChallenge_along {challengeToken code : Nat} {client : ClientInfo}
    {id : Id} {x : User} {matched : CodeMatch} {own : Own}
    (hjudged : Judged env code own id x matched) (hmatched : matched ≠ .invalid) :
    (completeChallenge env id x matched client).Along Stmt.exec
      (FactorRequest.Writes env (.verifyChallenge challengeToken code client)) VerifyReturns
        own := by
  have hissue : ∀ (own : Own) (updated : User) (backup : Bool),
      (∃ id d w, (Stmt.userUpdate id d, w) ∈ own ∧
        if backup then d.twoFactorBackupCodes.isSome = true else d.lastTotpTimeStep.isSome = true) →
      ((createRefreshTokenRecord env id client).bind fun refreshToken =>
        (signToken env id x.email x.role x.tokenVersion).bind fun token =>
          .ret (.session (some (safeUser id updated)) token refreshToken none backup)).Along
          Stmt.exec
        (FactorRequest.Writes env (.verifyChallenge challengeToken code client)) VerifyReturns
          own := by
    intro own updated backup ⟨i, d, w, hmem, hwrites⟩
    refine .bind ?_ fun refreshToken own' hsuffix => .bind ?_ fun token own'' hsuffix' => ?_
    · exact .bind (.send fun _ => .leaves rfl) fun _ => .bind (.send fun _ => .leaves rfl) fun _ =>
        .bind (.send fun _ => .leaves rfl) fun _ => .ret
    · exact .bind (.send fun _ => .leaves rfl) fun _ => .ret
    · rintro _ _ _ _ _ ⟨⟩
      exact ⟨i, d, w, (hsuffix.trans hsuffix').mem hmem, hwrites⟩
  cases matched with
  | invalid => exact absurd rfl hmatched
  | backup hashed =>
    refine Prog.along_send_bind.mpr ⟨.verifies hjudged ?_ fun _ h => (by cases h), fun w₁ _ _ => ?_⟩
    · rintro _ ⟨⟩
      exact ⟨hashed, rfl, rfl⟩
    · refine Prog.along_send_bind.mpr ⟨.leaves rfl, fun w₂ _ _ => ?_⟩
      refine Prog.along_send_bind.mpr ⟨.leaves rfl, fun w₃ _ _ => ?_⟩
      exact hissue _ _ true ⟨id, _, w₁, .tail _ (.tail _ (.head _)), rfl⟩
  | totp s =>
    refine Prog.along_send_bind.mpr ⟨.leaves rfl, fun w₂ _ _ => ?_⟩
    refine Prog.along_send_bind.mpr
      ⟨.verifies (hjudged.suffix (List.suffix_cons _ _)) (fun _ h => (by cases h)) ?_,
      fun w₃ _ _ => ?_⟩
    · rintro _ ⟨⟩
      exact ⟨s, rfl, rfl⟩
    · exact hissue _ _ false ⟨id, _, w₃, .head _, rfl⟩

/-- Before it looks at the code a verification sends nothing but reads, unless it deletes the
challenge. -/
theorem verifyChallenge_along_of {P : Own → Stmt → Prop} {R : Own → Reply → Prop}
    {challengeToken code : Nat} {client : ClientInfo} (hread : ∀ own, P own .read)
    (hdelete : ∀ own id, P own (.challengeDelete id)) (hanswer : ∀ own w challengeId stored user,
      own.getLast? = some (.read, w) → (∀ e ∈ own, e.1 = .read) →
      w.twoFactorChallenges.get? challengeId = some stored →
      stored.token = hashToken challengeToken →
        w.users.get? stored.userId = some user → stored.attempts < maxChallengeAttempts →
          (answerChallenge env challengeId stored user code client).Along Stmt.exec P R own) :
    (verifyChallenge env challengeToken code client).Along Stmt.exec P R [] := by
  rw [verifyChallenge_eq]
  refine Prog.along_send_bind.mpr ⟨hread [], fun w _ _ => ?_⟩
  split
  · exact .throw
  rename_i challengeId stored user hfound
  obtain ⟨hstored, hpresented, huser⟩ := challenge_found hfound
  refine whenAnswerable_rule (T := fun _ => True) (Q := fun p => ∀ own,
    own.getLast? = some (.read, w) →
    (∀ e ∈ own, e.1 = .read) → p.Along Stmt.exec P R own) (fun _ _ _ _ => .throw)
    (fun _ own _ _ => ?_)
    (fun k hk own hlast hreads => ?_) (fun h own hlast hreads => ?_) [(.read, w)] rfl (by simp)
  · exact Prog.along_send_bind.mpr ⟨hdelete own challengeId, fun _ _ _ => .throw⟩
  · refine Prog.along_send_bind.mpr ⟨hread own, fun w' _ _ => hk w'.now trivial _ ?_ ?_⟩
    · exact getLast?_of_suffix hlast (List.suffix_cons _ _)
    · exact List.forall_mem_cons.mpr ⟨rfl, hreads⟩
  · exact hanswer own w challengeId stored user hlast hreads hstored hpresented huser h.attempts

theorem verifyChallenge_along (challengeToken code : Nat) (client : ClientInfo) :
    (verifyChallenge env challengeToken code client).Along Stmt.exec
      (FactorRequest.Writes env (.verifyChallenge challengeToken code client)) VerifyReturns
        [] := by
  refine verifyChallenge_along_of (fun _ => .leaves rfl) (fun _ _ => .leaves rfl)
    fun own w challengeId stored user hlast _ _ _ huser _ => ?_
  refine Prog.along_send_bind.mpr ⟨.leaves rfl, fun w₄ _ _ => ?_⟩
  split
  · refine Prog.along_send_bind.mpr ⟨.leaves rfl, fun _ _ _ => ?_⟩
    split <;> exact .throw
  · rename_i hmatched
    refine Prog.along_send_bind.mpr ⟨.leaves rfl, fun w₅ _ _ => ?_⟩
    split
    · exact .throw
    · refine completeChallenge_along ⟨⟨w, ?_, huser⟩, challengeId, w₄, .tail _ (.head _), rfl⟩
        hmatched
      exact getLast?_of_suffix hlast ((List.suffix_cons _ _).trans (List.suffix_cons _ _))

theorem drawBackupCodes_along {α : Type} {Q : Own → Stmt → Prop} {R : Own → α → Prop}
    (hQ : ∀ own, Q own .random) (n : Nat) {k : List Nat → Req α} {own : Own}
    (hk : ∀ codes own', own <:+ own' → (∀ c ∈ codes, Drawn own' c) →
      (k codes).Along Stmt.exec Q R own') :
    ((drawBackupCodes n).bind k).Along Stmt.exec Q R own := by
  induction n generalizing own k with
  | zero => exact hk [] own List.suffix_rfl (by simp)
  | succ n ih =>
    simp only [drawBackupCodes, Prog.bind_eq, Prog.bind_assoc]
    refine Prog.along_send_bind.mpr ⟨hQ _, fun w _ _ => ih fun codes own' hsuffix hdrawn => ?_⟩
    refine hk _ own' ((List.suffix_cons _ _).trans hsuffix) fun c hc => ?_
    rcases List.mem_cons.mp hc with rfl | hc
    · exact ⟨w, hsuffix.mem (.head _), rfl⟩
    · exact hdrawn c hc

theorem enable_along (userId : Id) (code : Nat) :
    (enable env userId code).Along Stmt.exec (FactorRequest.Writes env (.enable userId code))
      EnableReturns [] := by
  refine Prog.along_send_bind.mpr ⟨.leaves rfl, fun w₁ _ _ => ?_⟩
  split
  · exact .throw
  · split
    · exact .throw
    · split
      · exact .throw
      · refine Prog.along_send_bind.mpr ⟨.leaves rfl, fun w₂ _ _ => ?_⟩
        split
        · exact .throw
        · refine drawBackupCodes_along (fun _ => .leaves rfl) _ fun codes own _ hdrawn => ?_
          refine Prog.along_send_bind.mpr ⟨.enrols rfl hdrawn rfl, fun w₃ _ _ => ?_⟩
          rintro _ _ ⟨⟩ c hc
          obtain ⟨w, hmem, hw⟩ := hdrawn c hc
          exact ⟨w, .tail _ hmem, hw⟩

theorem disable_along (userId : Id) (password : String) :
    (disable env userId password).Along Stmt.exec
      (FactorRequest.Writes env (.disable userId password)) (fun _ _ => True) [] := by
  refine Prog.along_send_bind.mpr ⟨.leaves rfl, fun w₁ _ _ => ?_⟩
  split
  · exact .throw
  · split
    · exact .throw
    · split
      · exact .throw
      · refine Prog.along_send_bind.mpr ⟨.leaves rfl, fun w₂ _ _ => ?_⟩
        split
        · exact .throw
        · exact Prog.along_send_bind.mpr ⟨.removes rfl, fun w₃ _ _ => trivial⟩

theorem FactorRequest.along (r : FactorRequest) :
    (r.prog env).Along Stmt.exec (r.Writes env) r.Answers [] := by
  cases r with
  | verifyChallenge challengeToken code client =>
    exact verifyChallenge_along challengeToken code client
  | enable userId code => exact enable_along userId code
  | disable userId password => exact disable_along userId password
  | other p leaves =>
    exact .of_sends (leaves.mono fun _ hl _ => .leaves hl) ((Prog.returns_true p).mono fun _ _ _ =>
      trivial) []

theorem FactorRun.recalled {w₀ : World} {tr : List FactorEvent} {c : FactorConfig}
    (hrun : FactorRun env ⟨w₀, []⟩ tr c) :
    Recalled Stmt.exec (FactorRequest.Writes env) FactorRequest.Answers tr c :=
  Recalled.steps (fun r _ => r.along) hrun

end Along

theorem login_leaves (env : Env) (email password : String) (client : ClientInfo) :
    (login env email password client).Sends (fun l => l.leavesFactor = true) := by
  refine .bind (.send rfl) fun found => ?_
  split
  · exact .bind (.send rfl) fun _ => .throw
  · refine .bind (.send rfl) fun _ => .bind (.send rfl) fun _ => ?_
    refine .bind ?_ fun _ => .bind ?_ fun valid => ?_
    · unfold SaasBackend.when
      split
      · exact .send rfl
      · exact .ret
    · unfold checkPassword
      split
      · exact .send rfl
      · exact .bind (.send rfl) fun _ => .ret
    · split
      · refine .bind ?_ fun _ => .throw
        unfold SaasBackend.when
        split
        · refine .bind (.send rfl) fun _ => ?_
          split
          · exact .bind (.send rfl) fun _ => .send rfl
          · exact .ret
        · exact .ret
      · split
        · exact .throw
        · refine .bind (.send rfl) fun now => ?_
          split
          · exact .throw
          · split
            · exact .bind (.bind (.send rfl) fun _ => .bind (.send rfl) fun _ =>
                .bind (.send rfl) fun _ => .ret)
                fun _ => .ret
            · refine .bind (.bind (.send rfl) fun _ => .bind (.send rfl) fun _ =>
                .bind (.send rfl) fun _ => .ret)
                fun _ => .bind (.send rfl) fun _ => ?_
              exact .bind (.send rfl) fun _ => .bind (.bind (.send rfl) fun _ => .ret) fun _ => .ret

end SaasBackend
