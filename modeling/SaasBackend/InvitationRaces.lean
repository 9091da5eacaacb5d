import SaasBackend.HandlerRecall
import SaasBackend.OrganizationService
import SaasBackend.StatementEffects

set_option autoImplicit false

namespace SaasBackend
open Keyed Handler

inductive InvitationRequest where
  | accept (userId : Id) (token : Nat)
  | decline (userId : Id) (token : Nat)
  | cancel (orgId invitationId : Id)
  | wait (d : Time)
  deriving DecidableEq, Repr

def InvitationRequest.prog : InvitationRequest → Req OrgReply
  | .accept userId token => acceptInvitation userId token
  | .decline userId token => declineInvitation userId token
  | .cancel orgId invitationId => cancelInvitation orgId invitationId
  | .wait d => (execute (.tick d)).bind fun _ => .ret (.message "")

/-- The request, when it succeeds, promises that nobody joins any more. -/
def InvitationRequest.closes : InvitationRequest → Bool
  | .decline .. | .cancel .. => true
  | _ => false

abbrev InvitationConfig := Config InvitationRequest World Err Stmt OrgReply
abbrev InvitationEvent := Event InvitationRequest World Stmt

abbrev InvitationRun : InvitationConfig → List InvitationEvent → InvitationConfig → Prop :=
  Steps (Step Stmt.exec InvitationRequest.prog (fun _ => True) (fun _ _ => True))

def World.invitationStatus (w : World) (id : Id) : Option InvitationStatus :=
  (w.invitations.get? id).map (·.status)

def Stmt.settles (id : Id) : Stmt → Option InvitationStatus
  | .invitationUpdate i d | .invitationAccept i d _ _ _ => if i = id then some d.status else none
  | _ => none

def Stmt.joins (id : Id) : Stmt → Bool
  | .invitationAccept i .. => i == id
  | _ => false

def World.Reported (id : Id) (c : InvitationConfig) : Prop :=
  ∃ (i : Nat) (r : InvitationRequest) (v : InvitationView),
    c.pool[i]? = some (r, .ret (.invitation v)) ∧ r.closes = true ∧ v.id = id

/-- Of a run from `w₀`: invitation `id` leaves PENDING once and for all, those who join by it
find it ACCEPTED for ever, and nobody joins by it after a success of a refusal was reported. -/
structure SettlesOnce (w₀ : World) (id : Id) (tr : List InvitationEvent)
    (c : InvitationConfig) : Prop where
  once : ∀ i l w w', .fire i l w w' ∈ tr → w.invitationStatus id ≠ some .pending →
    w'.invitationStatus id = w.invitationStatus id
  joined : ∀ tr₁ tr₂ i l w w', tr = tr₂ ++ .fire i l w w' :: tr₁ → l.joins id = true →
    l.exec w = .ok w' →
    w'.invitationStatus id = some .accepted ∧ c.store.invitationStatus id = some .accepted ∧
      ∀ j m v v', .fire j m v v' ∈ tr₂ → v.invitationStatus id = some .accepted
  refused : ∀ tr₁ tr₂ c₁, tr = tr₂ ++ tr₁ → InvitationRun ⟨w₀, []⟩ tr₁ c₁ → InvitationRun c₁ tr₂ c →
    World.Reported id c₁ → ∀ i l w w', .fire i l w w' ∈ tr₂ → l.joins id = true → l.exec w ≠ .ok w'

/-- Each write of the status that goes through meets what its request has read, a pending
invitation, or one that has the status already. -/
def Timely (id : Id) (tr : List InvitationEvent) : Prop :=
  ∀ i l w w', .fire i l w w' ∈ tr → ∀ s, l.settles id = some s → l.exec w = .ok w' →
    w.invitationStatus id = some .pending ∨ w.invitationStatus id = some s

def Stmt.Invites (l : Stmt) : Prop :=
  l = .read ∨ (∃ d, l = .tick d) ∨ (∃ id d, l = .invitationUpdate id d) ∨
    ∃ id d orgId userId role, l = .invitationAccept id d orgId userId role ∧ d.status = .accepted

section Statements

variable {l : Stmt} {w w' : World} {id : Id}

theorem Stmt.Invites.status (hl : l.Invites) (hexec : l.exec w = .ok w') :
    w'.invitationStatus id = (l.settles id).or (w.invitationStatus id) := by
  have hupdated : ∀ (i : Id) (d : InvitationPatch) (hi : (w.invitations.get? i).isSome = true),
      ((w.invitations.update i (fun i => { d.apply i with updatedAt := w.now })).get? id).map
        (·.status) =
        (if i = id then some d.status else none).or ((w.invitations.get? id).map (·.status)) := by
    intro i d hi
    rw [Table.get?_update]
    by_cases hid : i = id
    · subst hid
      obtain ⟨x, hx⟩ := Option.isSome_iff_exists.mp hi
      simp [hx, InvitationPatch.apply]
    · simp [hid, Ne.symm hid]
  rcases hl with rfl | ⟨d, rfl⟩ | ⟨i, d, rfl⟩ | ⟨i, d, orgId, userId, role, rfl, -⟩
  · cases hexec
    rfl
  · cases hexec
    rfl
  · have hsome : (w.invitations.get? i).isSome = true :=
      Option.isSome_iff_exists.mpr (invitationUpdate_ok hexec).1
    rw [World.invitationStatus, (exec_effect hexec).invitations]
    exact hupdated i d hsome
  · have hsome : (w.invitations.get? i).isSome = true :=
      Option.isSome_iff_exists.mpr (invitationAccept_ok hexec).1
    rw [World.invitationStatus, (exec_effect hexec).invitations]
    exact hupdated i d hsome

theorem Stmt.Invites.joins_settles (hl : l.Invites) (hjoins : l.joins id = true) :
    l.settles id = some .accepted := by
  rcases hl with rfl | ⟨d, rfl⟩ | ⟨i, d, rfl⟩ | ⟨i, d, orgId, userId, role, rfl, hstatus⟩
  · cases hjoins
  · cases hjoins
  · cases hjoins
  · simpa [Stmt.settles, Stmt.joins, hstatus] using hjoins

end Statements

section Services

theorem savedInvitation_id {w : World} {id : Id} {data : InvitationPatch} {v : InvitationView}
    (h : w.savedInvitation id data = .invitation v) : v.id = id := by
  unfold World.savedInvitation at h
  cases hi : w.invitations.get? id with
  | none =>
    rw [hi] at h
    cases h
  | some i =>
    rw [hi] at h
    cases h
    rfl

def Refused (h : List (Stmt × World)) (id : Id) : Prop :=
  ∃ l w s, (l, w) ∈ h ∧ l.settles id = some s ∧ s ≠ .pending ∧ s ≠ .accepted

/-- What a request has done when it ends with a reply. -/
def InvitationRequest.Ended (r : InvitationRequest) (h : List (Stmt × World)) (a : OrgReply) :
    Prop :=
  r.closes = true → ∀ v, a = .invitation v → Refused h v.id

theorem saveInvitation_along {r : InvitationRequest} {id : Id} {data : InvitationPatch}
    {h : List (Stmt × World)} (hpending : data.status ≠ .pending)
    (haccepted : data.status ≠ .accepted) :
    (saveInvitation id data).Along Stmt.exec (fun _ l => l.Invites) r.Ended h := by
  refine ⟨.inr (.inr (.inl ⟨_, _, rfl⟩)), fun w w' _ _ v hv => ?_, fun _ => trivial⟩
  rw [savedInvitation_id hv]
  exact ⟨_, w, data.status, .head _, if_pos rfl, hpending, haccepted⟩

theorem InvitationRequest.along (r : InvitationRequest) :
    r.prog.Along Stmt.exec (fun _ l => l.Invites) r.Ended [] := by
  cases r with
  | accept userId token =>
    refine .of_sends
      (acceptInvitation_sends (fun _ => .inl rfl) (fun _ _ _ _ => .inr (.inr (.inl ⟨_, _, rfl⟩)))
      (fun _ _ _ _ _ h _ => .inr (.inr (.inr ⟨_, _, _, _, _, rfl, h⟩))) userId token) ?_ []
    exact (Prog.returns_true _).mono fun _ _ _ hcloses => by cases hcloses
  | decline userId token =>
    refine .bind (openInvitation_sends (fun _ => .inl rfl)
      (fun _ _ _ _ => .inr (.inr (.inl ⟨_, _, rfl⟩))) userId token)
      fun ⟨id, _⟩ own _ => ?_
    refine .bind (.send fun _ => .inl rfl) fun now own' _ => ?_
    exact saveInvitation_along (fun h => by cases h) fun h => by cases h
  | cancel orgId invitationId =>
    refine .bind (.send fun _ => .inl rfl) fun found own _ => ?_
    split
    · exact .throw
    split
    · exact .throw
    refine .bind (.send fun _ => .inl rfl) fun now own' _ => ?_
    exact saveInvitation_along (fun h => by cases h) fun h => by cases h
  | wait d =>
    refine .bind (.send fun _ => .inr (.inl ⟨d, rfl⟩)) fun _ own _ => ?_
    exact fun hcloses => by cases hcloses

end Services

section Runs

variable {id : Id} {w₀ : World} {tr tr₁ tr₂ : List InvitationEvent} {c c₁ : InvitationConfig}

theorem InvitationRun.event (hrun : InvitationRun ⟨w₀, []⟩ tr c) {i : Nat} {l : Stmt} {w w' : World}
    (hmem : .fire i l w w' ∈ tr) :
    l.Invites ∧ (l.exec w = .ok w' ∨ (∀ v, l.exec w ≠ .ok v) ∧ w' = w) := by
  have hrecalled := Recalled.steps (fun r _ => InvitationRequest.along r) hrun
  obtain ⟨tr₂, tr₁, rfl⟩ := List.append_of_mem hmem
  obtain ⟨hstore, _, _, hl⟩ := hrecalled.events tr₁ tr₂ i l w w' rfl
  refine ⟨hl, hstore.imp id ?_⟩
  rintro ⟨⟨e, he⟩, rfl⟩
  exact ⟨fun v hv => by simp [he] at hv, rfl⟩

theorem Timely.once (htimely : Timely id tr) (hrun : InvitationRun ⟨w₀, []⟩ tr c) {i : Nat}
    {l : Stmt} {w w' : World} (hmem : .fire i l w w' ∈ tr)
    (hsettled : w.invitationStatus id ≠ some .pending) :
    w'.invitationStatus id = w.invitationStatus id := by
  obtain ⟨hl, hexec | ⟨_, rfl⟩⟩ := InvitationRun.event hrun hmem
  · rw [hl.status hexec]
    cases hs : l.settles id with
    | none => rfl
    | some s => exact ((htimely i l w w' hmem s hs hexec).resolve_left hsettled).symm
  · rfl

theorem Timely.kept (htimely : Timely id (tr₂ ++ tr₁)) (hbefore : InvitationRun ⟨w₀, []⟩ tr₁ c₁)
    {s : InvitationStatus} (hs : c₁.store.invitationStatus id = some s) (hpending : s ≠ .pending)
    (hafter : InvitationRun c₁ tr₂ c) :
    c.store.invitationStatus id = some s ∧ ∀ i l w w', .fire i l w w' ∈ tr₂ →
      w.invitationStatus id = some s := by
  induction hafter with
  | refl => exact ⟨hs, fun _ _ _ _ hmem => (by cases hmem)⟩
  | @snoc tr₂ c₂ c₃ e hupto hstep ih =>
    obtain ⟨hnow, hmet⟩ := ih fun i l w w' hmem => htimely i l w w' (.tail _ hmem)
    cases hstep with
    | arrive hr =>
      refine ⟨hnow, fun i l w w' hmem => ?_⟩
      rcases List.mem_cons.mp hmem with heq | hold
      · cases heq
      · exact hmet i l w w' hold
    | @fire i r l n k hi hcond =>
      have hall := Steps.trans hbefore (.snoc hupto (.fire hi hcond))
      refine ⟨?_, fun j m w w' hmem => ?_⟩
      · rw [htimely.once hall (.head _) (by rw [hnow]; exact fun h => hpending (Option.some.inj h)),
          hnow]
      · rcases List.mem_cons.mp hmem with heq | hold
        · cases heq
          exact hnow
        · exact hmet j m w w' hold

/-- A success that was reported is the work of a statement of the run so far. -/
theorem World.Reported.refused (hreported : World.Reported id c)
    (hrun : InvitationRun ⟨w₀, []⟩ tr c) :
    ∃ i l w w' s, .fire i l w w' ∈ tr ∧ l.exec w = .ok w' ∧ l.settles id = some s ∧ s ≠ .pending ∧
      s ≠ .accepted := by
  obtain ⟨i, r, v, hi, hcloses, hid⟩ := hreported
  have hrecalled := Recalled.steps (fun r _ => InvitationRequest.along r) hrun
  have hended : r.Ended (own Stmt.exec i tr) (.invitation v) := hrecalled.pool i _ hi
  obtain ⟨l, w, s, hmem, hsettles, hne⟩ := hended hcloses v rfl
  obtain ⟨w', hfire, w'', hexec⟩ := mem_own hmem
  obtain ⟨_, hok | ⟨hfails, _⟩⟩ := InvitationRun.event hrun hfire
  · exact ⟨i, l, w, w', s, hfire, hok, hid ▸ hsettles, hne⟩
  · exact absurd hexec (hfails w'')

theorem Timely.joined (htimely : Timely id tr) (hrun : InvitationRun ⟨w₀, []⟩ tr c)
    {i : Nat} {l : Stmt} {w w' : World} (htr : tr = tr₂ ++ .fire i l w w' :: tr₁)
    (hjoins : l.joins id = true) (hexec : l.exec w = .ok w') :
    w'.invitationStatus id = some .accepted ∧ c.store.invitationStatus id = some .accepted ∧
      ∀ j m v v', .fire j m v v' ∈ tr₂ → v.invitationStatus id = some .accepted := by
  subst htr
  obtain ⟨c₁, c₂, _, _, hupto, rfl, hafter⟩ := Steps.at_fire hrun
  obtain ⟨hl, _⟩ := InvitationRun.event hrun (List.mem_append_right _ (.head _))
  have haccepted : c₂.store.invitationStatus id = some .accepted := by
    rw [hl.status hexec, hl.joins_settles hjoins]
    rfl
  exact ⟨haccepted, Timely.kept htimely hupto haccepted (fun h => by cases h) hafter⟩

theorem Timely.refused (htimely : Timely id (tr₂ ++ tr₁)) (hbefore : InvitationRun ⟨w₀, []⟩ tr₁ c₁)
    (hafter : InvitationRun c₁ tr₂ c) (hreported : World.Reported id c₁) {i : Nat} {l : Stmt}
    {w w' : World} (hmem : .fire i l w w' ∈ tr₂) (hjoins : l.joins id = true) :
    l.exec w ≠ .ok w' := by
  intro hexec
  obtain ⟨j, m, v, v', s, hfire, hok, hsettles, hpending, haccepted⟩ := hreported.refused hbefore
  obtain ⟨hm, _⟩ := InvitationRun.event hbefore hfire
  obtain ⟨tr₁₂, tr₁₁, rfl⟩ := List.append_of_mem hfire
  obtain ⟨_, c₂, _, _, hupto, rfl, hrest⟩ := Steps.at_fire hbefore
  have hrefused : c₂.store.invitationStatus id = some s := by
    rw [hm.status hok, hsettles]
    rfl
  have hcut : tr₂ ++ (tr₁₂ ++ .fire j m v c₂.store :: tr₁₁) = (tr₂ ++ tr₁₂) ++
      .fire j m v c₂.store :: tr₁₁ :=
    (List.append_assoc ..).symm
  have hmet := (Timely.kept (hcut ▸ htimely) hupto hrefused hpending (Steps.trans hrest hafter)).2 i
    l w w'
    (List.mem_append_left _ hmem)
  have hl := (InvitationRun.event (Steps.trans hbefore hafter) (List.mem_append_left _ hmem)).1
  rcases htimely i l w w' (List.mem_append_left _ hmem) _ (hl.joins_settles hjoins) hexec with
    hstill | hjoined
  · rw [hmet] at hstill
    exact hpending (Option.some.inj hstill)
  · rw [hmet] at hjoined
    exact haccepted (Option.some.inj hjoined)

end Runs

/-- An invitation settles once exactly in the runs in which every write of its status is timely. -/
theorem settles_once_iff {w₀ : World} (id : Id) {tr : List InvitationEvent} {c : InvitationConfig}
    (hrun : InvitationRun ⟨w₀, []⟩ tr c) : SettlesOnce w₀ id tr c ↔ Timely id tr := by
  constructor
  · intro h i l w w' hmem s hs hexec
    by_cases hpending : w.invitationStatus id = some .pending
    · exact .inl hpending
    · have hl := (InvitationRun.event hrun hmem).1
      refine .inr ?_
      rw [← h.once i l w w' hmem hpending, hl.status hexec, hs]
      rfl
  · intro htimely
    refine ⟨fun i l w w' hmem => htimely.once hrun hmem, fun tr₁ tr₂ i l w w' htr =>
      htimely.joined hrun htr, ?_⟩
    rintro tr₁ tr₂ c₁ rfl hbefore hafter hreported i l w w' hmem
    exact htimely.refused hbefore hafter hreported hmem

section Sample

def invitedWorld : World where
  users := ((∅ : Table User).insert 1 { email := "a@x.io" }).insert 2 { email := "b@x.io" }
  organizations :=
    (∅ : Table Organization).insert 3 { name := "Acme", slug := "acme", ownerId := 1 }
  members := (∅ : Table OrganizationMember).insert 4 ⟨3, 1, .owner, 0⟩
  invitations := (∅ : Table OrganizationInvitation).insert 5
    { organizationId := 3, inviterId := 1, inviteeEmail := "b@x.io", token := hashToken 7,
      expiresAt := 100 }
  nonce := 8

def invited (sched : List (InvitationRequest ⊕ Nat)) : InvitationConfig :=
  Config.play Stmt.exec InvitationRequest.prog ⟨invitedWorld, []⟩ sched

def invitedTrace (sched : List (InvitationRequest ⊕ Nat)) : List InvitationEvent :=
  Config.trace Stmt.exec InvitationRequest.prog ⟨invitedWorld, []⟩ sched []

theorem invited_run (sched : List (InvitationRequest ⊕ Nat)) :
    InvitationRun ⟨invitedWorld, []⟩ (invitedTrace sched) (invited sched) :=
  Config.trace_steps Stmt.exec _ sched (fun _ _ => trivial) .refl

def acceptedInTurn : List (InvitationRequest ⊕ Nat) :=
  .inl (.accept 2 7) :: List.replicate 6 (.inr 0) ++ .inl (.cancel 3 5) :: List.replicate 3 (.inr 1)

def canceledMeanwhile : List (InvitationRequest ⊕ Nat) :=
  .inl (.accept 2 7) :: List.replicate 5 (.inr 0) ++ .inl (.cancel 3 5) :: List.replicate 3 (.inr 1)

theorem settles_once_in_turn :
    SettlesOnce invitedWorld 5 (invitedTrace acceptedInTurn) (invited acceptedInTurn) ↔
      Timely 5 (invitedTrace acceptedInTurn) :=
  settles_once_iff 5 (invited_run acceptedInTurn)

/-- The canceled invitation, its cancellation reported, is accepted, and the invitee joins by it. -/
theorem joined_by_canceled :
    World.Reported 5 (invited canceledMeanwhile) ∧
      (invited canceledMeanwhile).store.invitationStatus 5 = some .canceled ∧
      (invited (canceledMeanwhile ++ [.inr 0])).store.invitationStatus 5 = some .accepted ∧
      ((invited (canceledMeanwhile ++ [.inr 0])).store.membership 3 2).isSome = true ∧
      ¬ SettlesOnce invitedWorld 5 (invitedTrace (canceledMeanwhile ++ [.inr 0]))
      (invited (canceledMeanwhile ++ [.inr 0])) := by
  refine ⟨⟨1, .cancel 3 5, _, rfl, rfl, rfl⟩, by decide +kernel, by decide +kernel,
    by decide +kernel, fun h => ?_⟩
  have hkept := h.once 0 _ _ _ (.head _) (by decide +kernel)
  exact absurd hkept (by decide +kernel)

end Sample

end SaasBackend
