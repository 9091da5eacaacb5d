import SaasBackend.ReferentialIntegrity
import SaasBackend.AuditService
import SaasBackend.NotificationService

set_option autoImplicit false

namespace SaasBackend
open Keyed Handler

/-- The controller of `deleteAccount`. Its entry names the user as the target only, who
is not there any more. `id` is the cuid drawn for the entry. -/
def deleteAccountRoute (env : Env) (header : AuthHeader) (client : ClientInfo) (id : Id)
    (password : String) : Act (String × String) := do
  let caller ← (authenticate header).lift
  let data ← (deleteAccount env caller.id password).lift
  auditLog id
    { action := .userDataDeleted, targetUserId := some caller.id
      ipAddress := client.ipAddress, userAgent := client.userAgent
      metadata := .obj [("email", .str data.2)] }
  return data

inductive ErasureRequest where
  | deleteAccount (header : AuthHeader) (client : ClientInfo) (id : Id) (password : String)
  | other (p : Act Unit)

def ErasureRequest.prog (env : Env) : ErasureRequest → Act Unit
  | .deleteAccount header client id password =>
    (deleteAccountRoute env header client id password).bind fun _ => .ret ()
  | .other p => p

abbrev ErasureConfig := Config ErasureRequest Backend Err BackendStmt Unit
abbrev ErasureEvent := Event ErasureRequest Backend BackendStmt

abbrev ErasureRun (env : Env) : ErasureConfig → List ErasureEvent → ErasureConfig → Prop :=
  Steps (Step BackendStmt.exec (ErasureRequest.prog env) (fun _ => True) (fun _ _ => True))

/-- Nothing is left of user `u`: no row that the account owns or created, no name in the
audit log, and no token that is still good. -/
structure Backend.Erased (b : Backend) (u : Id) : Prop where
  users : b.world.users.get? u = none
  refreshTokens : ∀ k t, b.world.refreshTokens.get? k = some t → t.userId ≠ u
  twoFactorChallenges : ∀ k c, b.world.twoFactorChallenges.get? k = some c → c.userId ≠ u
  organizations : ∀ k o, b.world.organizations.get? k = some o → o.ownerId ≠ u
  members : ∀ k m, b.world.members.get? k = some m → m.userId ≠ u
  invitations : ∀ k i, b.world.invitations.get? k = some i → i.inviterId ≠ u
  projects : ∀ k p, b.world.projects.get? k = some p → p.createdById ≠ u
  subscriptions : ∀ k s, b.world.subscriptions.get? k = some s → s.userId ≠ some u
  apiKeys : ∀ k a, b.world.apiKeys.get? k = some a → a.userId ≠ u
  notifications : ∀ k n, b.notifications.get? k = some n → n.userId ≠ u
  preferences : ∀ k p, b.notificationPreferences.get? k = some p → p.userId ≠ u
  auditLogs : ∀ k a, b.auditLogs.get? k = some a → a.userId ≠ some u
  refused : ∀ header, header.bearerId = some u →
    ∃ key, ((authenticate header).runs b.world).1 = .error (httpError key 401)

def Backend.Gone (b : Backend) (u : Id) : Prop :=
  b.world.users.get? u = none ∧ u < b.world.nonce

section Statements

variable {b b' : Backend} {l : BackendStmt} {u : Id}

theorem Backend.Sound.exec (hb : b.Sound) (h : l.exec b = .ok b') : b'.Sound := by
  refine ⟨hb.refers.exec hb.drawn h, ?_, ?_⟩
  · rcases exec_world h with ⟨l₀, _, hexec⟩ | ⟨events, hworld⟩
    · exact hb.fresh.exec hexec
    · rw [hworld]
      exact ⟨hb.fresh.users, hb.fresh.refreshTokens⟩
  · rcases exec_world h with ⟨l₀, _, hexec⟩ | ⟨events, hworld⟩
    · exact hb.drawn.exec hexec
    · rw [hworld]
      exact hb.drawn

theorem Backend.Gone.exec (hgone : b.Gone u) (h : l.exec b = .ok b') : b'.Gone u := by
  rcases exec_world h with ⟨l₀, _, hexec⟩ | ⟨events, hworld⟩
  · have heff := exec_effect hexec
    refine ⟨?_, Nat.lt_of_lt_of_le hgone.2 heff.nonce_le⟩
    cases hu : b'.world.users.get? u with
    | none => rfl
    | some x =>
      rcases heff.user_back hu with ⟨y, hy, _⟩ | ⟨y, _, hdrawn, _⟩
      · rw [hgone.1] at hy
        cases hy
      · exact absurd hdrawn (Nat.ne_of_lt hgone.2)
  · unfold Backend.Gone
    rw [hworld]
    exact hgone

theorem gone_of_delete (hb : b.Sound) (h : (BackendStmt.core (.userDelete u)).exec b = .ok b') :
    b'.Gone u := by
  have hexec := core_world h
  have heff := exec_effect hexec
  simp only [Stmt.exec] at hexec
  obtain ⟨_, x, hx⟩ := require_ok hexec
  refine ⟨?_, Nat.lt_of_lt_of_le (hb.fresh.users u x hx) heff.nonce_le⟩
  rw [heff.users]
  simp [Stmt.usersAfter]

theorem authenticate_gone {header : AuthHeader} {w : World} (hu : header.bearerId = some u)
    (hgone : w.users.get? u = none) :
    ∃ key, ((authenticate header).runs w).1 = .error (httpError key 401) := by
  cases header with
  | missing => cases hu
  | malformed => cases hu
  | bearer token =>
    cases hu
    simp only [authenticate, Prog.bind_eq, runs_date_bind]
    split
    · exact ⟨_, rfl⟩
    · simp only [findUserById, runs_query_bind, hgone]
      exact ⟨_, rfl⟩

/-- What refers to a row of a user cannot refer to one that is gone. -/
theorem refers_gone {α : Type} {t : Table α} {fk : α → Option Id} {s : Table User}
    (h : t.Refers fk s) (hgone : s.get? u = none) :
    ∀ k a, t.get? k = some a → fk a ≠ some u := by
  intro k a hk hfk
  have hsome := h k a u hk hfk
  simp [hgone] at hsome

theorem erased_of_gone (hb : b.Referential) (hgone : b.Gone u) : b.Erased u := by
  have hrow : ∀ {α : Type} {t : Table α} {f : α → Id},
      t.Refers (fun a => some (f a)) b.world.users → ∀ k a, t.get? k = some a → f a ≠ u := by
    intro α t f h k a hk heq
    exact refers_gone h hgone.1 k a hk (congrArg some heq)
  have hw := hb.world
  exact {
    users := hgone.1
    refreshTokens := hrow hw.tokenUser
    twoFactorChallenges := hrow hw.challengeUser
    organizations := hrow hw.owner
    members := hrow hw.memberUser
    invitations := hrow hw.inviter
    projects := hrow hw.projectCreator
    subscriptions := refers_gone hw.subscriptionUser hgone.1
    apiKeys := hrow hw.apiKeyUser
    notifications := hrow hb.notificationUser
    preferences := hrow hb.preferenceUser
    auditLogs := refers_gone hb.auditUser hgone.1
    refused := fun _ hu => authenticate_gone hu hgone.1 }

end Statements

section Requests

variable {env : Env} {u : Id}

theorem deleteAccount_needs (env : Env) (u : Id) (password : String) :
    (deleteAccount env u password).Needs (· = .userDelete u) := by
  have hany : ∀ {α : Type} (p : Req α), p.Returns (fun _ => True) := Prog.returns_true
  refine .bind (hany _) fun found _ => ?_
  split
  · exact .throw
  · split
    · exact .throw
    · refine .bind (hany _) fun valid _ => ?_
      split
      · exact .throw
      · refine .bind (hany _) fun last _ => ?_
        split
        · exact .throw
        · refine .bind (hany _) fun blocking _ => ?_
          split
          · exact .throw
          · exact .bind (hany _) fun _ _ => .first (.send rfl)

theorem deleteAccountRoute_needs {header : AuthHeader} (hu : header.bearerId = some u)
    (client : ClientInfo) (id : Id) (password : String) :
    (deleteAccountRoute env header client id password).Needs
      (· = .core (.userDelete u)) := by
  refine .bind (authenticate_returns header).embed fun caller hcaller => ?_
  rw [hu] at hcaller
  cases hcaller
  refine .first ((deleteAccount_needs env caller.id password).embed fun l hl => ?_)
  rw [hl]

def ErasureRequest.Deleted (r : ErasureRequest) (h : List (BackendStmt × Backend)) (_ : Unit) :
    Prop :=
  ∀ u header client id password, r = .deleteAccount header client id password →
    header.bearerId = some u → ∃ b b', (.core (.userDelete u), b) ∈ h ∧
      (BackendStmt.core (.userDelete u)).exec b = .ok b'

theorem ErasureRequest.along (r : ErasureRequest) :
    (r.prog env).Along BackendStmt.exec (fun _ _ => True) r.Deleted [] := by
  cases r with
  | other p =>
    refine .of_history (.of_forall (fun _ _ => trivial) p) fun a own _ => ?_
    intro u header client id password heq
    cases heq
  | deleteAccount header client id password =>
    cases hu : header.bearerId with
    | none =>
      refine .of_history (.of_forall (fun _ _ => trivial) _) fun a own _ => ?_
      intro v header' client' id' password' heq hv
      cases heq
      rw [hu] at hv
      cases hv
    | some u =>
      refine ((deleteAccountRoute_needs hu client id password).along []).andThen ?_
      rintro data own ⟨_, b, b', rfl, hmem, hexec⟩ v header' client' id' password' heq hv
      cases heq
      rw [hu] at hv
      cases hv
      exact ⟨b, b', hmem, hexec⟩

end Requests

theorem ErasureRun.sound {env : Env} {b₀ : Backend} {tr : List ErasureEvent} {c : ErasureConfig}
    (hb : b₀.Sound) (hrun : ErasureRun env ⟨b₀, []⟩ tr c) :
    c.store.Sound ∧ ∀ i l b b', .fire i l b b' ∈ tr → b.Sound :=
  Recalled.invariant Backend.Sound (fun r _ => ErasureRequest.along r)
    (fun _ _ _ _ _ _ _ hsound _ hexec => hsound.exec hexec) hb hrun

/-- Whatever else runs, during and after: once a deletion of the account of `u` has
answered, nothing of `u` is left, and every reference is to a row that is there. -/
theorem erased_for_good (env : Env) {b₀ : Backend} {tr : List ErasureEvent} {c : ErasureConfig}
    (hb : b₀.Sound) (hrun : ErasureRun env ⟨b₀, []⟩ tr c) {i : Nat} {header : AuthHeader}
    {client : ClientInfo} {id : Id} {password : String} {u : Id}
    (hi : c.pool[i]? = some (.deleteAccount header client id password, .ret ()))
    (hu : header.bearerId = some u) : c.store.Erased u ∧ c.store.Referential := by
  have hrecalled := Recalled.steps (fun r _ => ErasureRequest.along r) hrun
  obtain ⟨b, b', hown, hexec⟩ := hrecalled.pool i _ hi u header client id password rfl hu
  obtain ⟨b'', hfire, _⟩ := mem_own hown
  obtain ⟨hsound, hbefore⟩ := hrun.sound hb
  have hgone : c.store.Gone u := by
    obtain ⟨tr₂, tr₁, htr⟩ := List.append_of_mem hfire
    subst htr
    have hb' : b''.Gone u := by
      rcases (hrecalled.events tr₁ tr₂ i _ b b'' rfl).1 with hok | ⟨⟨e, herr⟩, _⟩
      · exact gone_of_delete (hbefore i _ b b'' hfire) hok
      · rw [hexec] at herr
        cases herr
    obtain ⟨_, c₂, _, _, _, rfl, hafter⟩ := Steps.at_fire hrun
    exact (Steps.since (r := fun b b' => b.Gone u → b'.Gone u) (fun _ h => h)
      (fun _ _ _ h₁ h₂ h => h₂ (h₁ h)) (fun _ _ _ hexec h => h.exec hexec) hafter).1 hb'
  exact ⟨erased_of_gone hsound.refers hgone, hsound.refers⟩

section Sample

def sharedBackend : Backend where
  world := sharedWorld

theorem sharedBackend_sound : sharedBackend.Sound where
  refers := by
    refine ⟨?_, by decide, by decide, by decide⟩
    constructor <;> decide
  fresh := ⟨Table.bounded_of_all rfl, Table.bounded_of_all rfl⟩
  drawn := Table.bounded_of_all rfl

def erases : List (ErasureRequest ⊕ Nat) :=
  .inl (.deleteAccount (bearer 2 "b@x.io") {} 20 "pw") ::
    .inl (.other ((createNotification 21 2 .team "Hi" "Welcome" .null).bind fun _ => .ret ())) ::
      .inr 1 :: List.replicate 14 (.inr 0) ++ [.inr 1]

def erased : ErasureConfig :=
  Config.play BackendStmt.exec (ErasureRequest.prog sampleEnv) ⟨sharedBackend, []⟩ erases

def erasedTrace : List ErasureEvent :=
  Config.trace BackendStmt.exec (ErasureRequest.prog sampleEnv) ⟨sharedBackend, []⟩ erases []

theorem erased_run : ErasureRun sampleEnv ⟨sharedBackend, []⟩ erasedTrace erased :=
  Config.trace_steps BackendStmt.exec _ erases (fun _ _ => trivial) .refl

theorem erased_for_good_at_once : erased.store.Erased 2 ∧ erased.store.Referential :=
  erased_for_good sampleEnv sharedBackend_sound erased_run (i := 0) rfl rfl

end Sample

end SaasBackend
