import SaasBackend.AccountDeletion
import SaasBackend.GoogleLinking

set_option autoImplicit false

namespace SaasBackend
open Keyed Handler

def SentBy (e : TenancyEntry) (u : Id) (route : OrgRoute) : Prop :=
  ∃ token x, e.req = .org (.bearer token) route ∧ token.id = u ∧ AccessStands e.pre token x

structure FoundedBy (e : TenancyEntry) (k : Id) (m : OrganizationMember) : Prop where
  sent : ∃ name slug, SentBy e m.userId (.createOrganization name slug)
  founded : e.pre.organizations.get? m.organizationId = none
  owner : ∃ org, e.post.organizations.get? m.organizationId = some org ∧ org.ownerId = m.userId
  new : e.pre.members.get? k = none

/-- Invitation `id`, which says what `i` says, was created by one who was OWNER or ADMIN then. -/
structure InvitedAt (env : Env) (e : TenancyEntry) (id : Id)
    (i : OrganizationInvitation) : Prop where
  sent : ∃ email role, SentBy e i.inviterId (.createInvitation i.organizationId email role) ∧
    i.inviteeEmail = normalizeEmail env email ∧ i.role = role.role
  admitted : ∃ k m, e.pre.membership i.organizationId i.inviterId = some (k, m) ∧
    (m.role = .owner ∨ m.role = .admin)
  new : e.pre.invitations.get? id = none
  notOwner : i.role ≠ .owner

/-- The user of membership `k` has joined by accepting invitation `id`, as it was then: pending,
not expired, and addressed to the email address that the user had; with the role it names. -/
structure AcceptedAt (e : TenancyEntry) (k : Id) (m : OrganizationMember) (id : Id)
    (i : OrganizationInvitation) :
    Prop where
  sent : ∃ token, SentBy e m.userId (.acceptInvitation token) ∧ i.token = hashToken token
  stored : e.pre.invitations.get? id = some i
  pending : i.status = .pending
  unexpired : e.pre.now ≤ i.expiresAt
  addressed : ∃ x, e.pre.users.get? m.userId = some x ∧ x.live = true ∧ x.email = i.inviteeEmail
  organization : i.organizationId = m.organizationId
  new : e.pre.members.get? k = none
  joined : ∃ m', e.post.members.get? k = some m' ∧ m'.organizationId = m.organizationId ∧
    m'.userId = m.userId ∧ m'.role = i.role

/-- How membership `k` came about, by a history with its newest entry first. -/
def HasOrigin (env : Env) (h : List TenancyEntry) (k : Id) (m : OrganizationMember) : Prop :=
  (∃ e ∈ h, FoundedBy e k m) ∨
    ∃ h₁ h₂ e id i, h = h₂ ++ e :: h₁ ∧ AcceptedAt e k m id i ∧ ∃ e' ∈ h₁, InvitedAt env e' id i

structure World.Untenanted (w : World) : Prop where
  organizations : ∀ o, w.organizations.get? o = none
  members : ∀ k, w.members.get? k = none
  invitations : ∀ id, w.invitations.get? id = none

def World.OrganizationsDrawn (w : World) : Prop :=
  ∀ o org, w.organizations.get? o = some org → o < w.nonce

section Origins

variable {env : Env} {h : List TenancyEntry} {e : TenancyEntry} {k id : Id}
    {m m' : OrganizationMember}
  {i i' : OrganizationInvitation}

theorem FoundedBy.same (h : FoundedBy e k m) (ho : m'.organizationId = m.organizationId)
    (hu : m'.userId = m.userId) :
    FoundedBy e k m' :=
  ⟨hu ▸ h.sent, ho ▸ h.founded, ho ▸ hu ▸ h.owner, h.new⟩

theorem AcceptedAt.same (h : AcceptedAt e k m id i) (ho : m'.organizationId = m.organizationId)
    (hu : m'.userId = m.userId) : AcceptedAt e k m' id i :=
  ⟨hu ▸ h.sent, h.stored, h.pending, h.unexpired, hu ▸ h.addressed, ho ▸ h.organization, h.new,
    ho ▸ hu ▸ h.joined⟩

theorem InvitedAt.same (h : InvitedAt env e id i) (hterms : SameTerms i i') :
    InvitedAt env e id i' := by
  obtain ⟨hsent, hadmitted, hnew, hrole⟩ := h
  rw [← hterms.inviterId, ← hterms.organizationId] at hadmitted
  rw [← hterms.inviterId, ← hterms.organizationId, ← hterms.inviteeEmail, ← hterms.role] at hsent
  exact ⟨hsent, hadmitted, hnew, hterms.role ▸ hrole⟩

theorem HasOrigin.same (h₀ : HasOrigin env h k m) (ho : m'.organizationId = m.organizationId)
    (hu : m'.userId = m.userId) : HasOrigin env h k m' := by
  rcases h₀ with ⟨e, he, hfounded⟩ | ⟨h₁, h₂, e, id, i, heq, haccepted, hinvited⟩
  · exact .inl ⟨e, he, hfounded.same ho hu⟩
  · exact .inr ⟨h₁, h₂, e, id, i, heq, haccepted.same ho hu, hinvited⟩

theorem HasOrigin.cons (h₀ : HasOrigin env h k m) (e : TenancyEntry) :
    HasOrigin env (e :: h) k m := by
  rcases h₀ with ⟨e', he', hfounded⟩ | ⟨h₁, h₂, e', id, i, rfl, hrest⟩
  · exact .inl ⟨e', .tail _ he', hfounded⟩
  · exact .inr ⟨h₁, e :: h₂, e', id, i, rfl, hrest⟩

end Origins

def Stmt.grants : Stmt → Bool
  | .organizationCreate .. | .invitationAccept .. | .invitationCreate _ => true
  | _ => false

structure World.Grew (w w' : World) : Prop where
  organizations : ∀ o org', w'.organizations.get? o = some org' → ∃ org,
    w.organizations.get? o = some org
  members : ∀ k m', w'.members.get? k = some m' → ∃ m, w.members.get? k = some m ∧
    m'.organizationId = m.organizationId ∧ m'.userId = m.userId
  invitations : ∀ id i', w'.invitations.get? id = some i' →
    ∃ i, w.invitations.get? id = some i ∧ SameTerms i i'

section Statements

variable {l : Stmt} {w w' w₁ w₂ w₃ : World}

theorem World.Grew.refl (w : World) : w.Grew w :=
  ⟨fun _ _ h => ⟨_, h⟩, fun _ m h => ⟨m, h, rfl, rfl⟩, fun _ i h => ⟨i, h, .refl i⟩⟩

theorem World.Grew.trans (h₁ : w₁.Grew w₂) (h₂ : w₂.Grew w₃) : w₁.Grew w₃ := by
  refine ⟨fun o org' ho => ?_, fun k m' hk => ?_, fun id i' hid => ?_⟩
  · obtain ⟨org, horg⟩ := h₂.organizations o org' ho
    exact h₁.organizations o org horg
  · obtain ⟨m, hm, ho, hu⟩ := h₂.members k m' hk
    obtain ⟨m₀, hm₀, ho₀, hu₀⟩ := h₁.members k m hm
    exact ⟨m₀, hm₀, ho.trans ho₀, hu.trans hu₀⟩
  · obtain ⟨i, hi, hterms⟩ := h₂.invitations id i' hid
    obtain ⟨i₀, hi₀, hterms₀⟩ := h₁.invitations id i hi
    exact ⟨i₀, hi₀, hterms₀.trans hterms⟩

theorem World.Grew.exec (hl : l.grants = false) (hexec : l.exec w = .ok w') : w.Grew w' := by
  have heff := exec_effect hexec
  refine ⟨fun o org' ho => ?_, fun k m' hk => ?_, fun id i' hid => ?_⟩
  · rcases heff.organization_back ho with ⟨org, horg, _⟩ | ⟨_, _, rfl, _⟩
    · exact ⟨org, horg⟩
    · cases hl
  · rcases heff.member_back hk with ⟨m, hm, hstep⟩ | ⟨_, _, _, rfl, _⟩ | ⟨_, _, _, _, _, rfl, _⟩
    · exact ⟨m, hm, hstep.organizationId, hstep.userId⟩
    · cases hl
    · cases hl
  · rcases heff.invitation_terms hid with hold | ⟨_, _, rfl, _⟩
    · exact hold
    · cases hl

theorem grew_of_sends {α : Type} {p : Req α} (hp : p.Sends (fun l => l.grants = false))
    (w : World) :
    p.Ends Stmt.exec (fun _ w' => w.Grew w') w :=
  hp.run (R := World.Grew) .refl (fun _ _ _ => .trans) (fun _ _ _ => .exec) w

theorem grants_of_within {α : Type} {areas : List Area} {p : Req α} (hp : Within areas p)
    (hareas : areas ⊆ [.routine, .kill, .signIn, .challenge]) :
    p.Sends (fun l => l.grants = false) := by
  refine Prog.Sends.mono (Within.mono hp hareas) fun l hl => ?_
  cases l with
  | invitationCreate i =>
    simp only [Stmt.area] at hl
    split at hl <;> cases hl
  | organizationCreate | invitationAccept => cases hl
  | _ => rfl

theorem World.OrganizationsDrawn.exec (hw : w.OrganizationsDrawn) (hexec : l.exec w = .ok w') :
    w'.OrganizationsDrawn := by
  intro o org' ho
  have heff := exec_effect hexec
  rcases heff.organization_back ho with ⟨org, horg, _⟩ | ⟨name, slug, rfl, rfl⟩
  · exact Nat.lt_of_lt_of_le (hw o org horg) heff.nonce_le
  · rw [heff.nonce]
    exact Nat.lt_add_of_pos_right (by decide)

end Statements

structure Accounts (env : Env) (e : TenancyEntry) : Prop where
  members : ∀ k m', e.post.members.get? k = some m' →
    (∃ m, e.pre.members.get? k = some m ∧ m'.organizationId = m.organizationId ∧
      m'.userId = m.userId) ∨ FoundedBy e k m' ∨ ∃ id i, AcceptedAt e k m' id i
  invitations : ∀ id i', e.post.invitations.get? id = some i' →
    (∃ i, e.pre.invitations.get? id = some i ∧ SameTerms i i') ∨ InvitedAt env e id i'

theorem World.Grew.accounts {env : Env} {e : TenancyEntry} (h : e.pre.Grew e.post) :
    Accounts env e :=
  ⟨fun k m' hk => .inl (h.members k m' hk), fun id i' hid => .inl (h.invitations id i' hid)⟩

section Routes

variable {env : Env} {w : World}

theorem ends_tenantWithRole_bind {β : Type} {post : Except Err β → World → Prop} {orgId : Id}
    {roles : List OrgRole} {caller : Caller} {k : Tenant → Req β} (herr : ∀ e, post (.error e) w)
    (hok : ∀ tenant id m, w.membership orgId caller.id = some (id, m) → m.role = tenant.role →
      tenant.id = orgId →
      roles.contains tenant.role = true → (k tenant).Ends Stmt.exec post w) :
    ((tenantWithRole orgId roles caller).bind k).Ends Stmt.exec post w := by
  simp only [tenantWithRole, requireTenant, Prog.bind_eq, Prog.bind_assoc, ends_query_bind]
  split
  · rename_i tenant hfound
    simp only [World.tenant] at hfound
    obtain ⟨⟨id, m⟩, hm, hjoin⟩ := Option.bind_eq_some_iff.mp hfound
    obtain ⟨o, ho, htenant⟩ := Option.map_eq_some_iff.mp hjoin
    obtain ⟨rfl, _⟩ := Prod.mk.inj htenant
    simp only [Prog.pure_eq, Prog.ret_bind, requireOrgRole]
    split
    · rename_i hrole
      exact hok _ id m hm rfl rfl hrole
    · exact herr _
  · exact herr _

structure Opens (w : World) (userId : Id) (token : Nat) (id : Id)
    (i : OrganizationInvitation) : Prop where
  found : w.invitations.find? (fun _ i => i.token == hashToken token) = some (id, i)
  pending : i.status = .pending
  unexpired : w.now ≤ i.expiresAt
  addressed : ∃ x, w.users.get? userId = some x ∧ x.live = true ∧ x.email = i.inviteeEmail

theorem Opens.stored {userId id : Id} {token : Nat} {i : OrganizationInvitation}
    (h : Opens w userId token id i) :
    w.invitations.get? id = some i := (Table.find?_some h.found).1

theorem Opens.presented {userId id : Id} {token : Nat} {i : OrganizationInvitation}
    (h : Opens w userId token id i) :
    i.token = hashToken token := by simpa using (Table.find?_some h.found).2

def World.Noted (w w' : World) : Prop :=
  w' = w ∨ ∃ id d, (Stmt.invitationUpdate id d).exec w = .ok w'

theorem World.Noted.grew {w w' : World} (h : w.Noted w') : w.Grew w' := by
  rcases h with rfl | ⟨id, d, hexec⟩
  · exact .refl w'
  · exact .exec rfl hexec

theorem openInvitation_ends (userId : Id) (token : Nat) :
    (openInvitation userId token).Ends Stmt.exec (fun r w' => w.Noted w' ∧
      ∀ x, r = .ok x → w' = w ∧ Opens w userId token x.1 x.2) w := by
  unfold openInvitation
  simp only [Prog.bind_eq, ends_query_bind]
  split
  · exact ⟨.inl rfl, fun _ h => (by cases h)⟩
  rename_i id invitation hfound
  split
  · exact ⟨.inl rfl, fun _ h => (by cases h)⟩
  rename_i hpending
  rw [ends_date_bind]
  split
  · rw [ends_execute_bind]
    cases hexec : (Stmt.invitationUpdate id { status := .expired }).exec w with
    | error e => exact ⟨.inl rfl, fun _ h => (by cases h)⟩
    | ok w' => exact ⟨.inr ⟨_, _, hexec⟩, fun _ h => (by cases h)⟩
  rename_i hunexpired
  rw [findUserById, ends_query_bind]
  split
  · exact ⟨.inl rfl, fun _ h => (by cases h)⟩
  rename_i haddressed
  refine ⟨.inl rfl, fun x hx => ?_⟩
  cases hx
  refine ⟨rfl, hfound, not_not.mp hpending, Nat.not_lt.mp hunexpired, ?_⟩
  cases huser : (w.users.get? userId).filter User.live with
  | none => simp [huser] at haddressed
  | some x =>
    obtain ⟨hx, hlive⟩ := Option.filter_eq_some_iff.mp huser
    exact ⟨x, hx, hlive, by simpa [huser] using haddressed⟩

/-- An acceptance either lets nobody in, or the user by the invitation that the token opens. -/
theorem acceptInvitation_ends (userId : Id) (token : Nat) :
    (acceptInvitation userId token).Ends Stmt.exec (fun _ w' => w.Noted w' ∨ ∃ id i d,
      Opens w userId token id i ∧
      (Stmt.invitationAccept id d i.organizationId userId i.role).exec w = .ok w') w := by
  refine Ends.bind (openInvitation_ends userId token) ?_ fun _ w' h => .inl h.1
  rintro ⟨id, i⟩ w' ⟨_, h⟩
  obtain ⟨rfl, hopens⟩ := h _ rfl
  simp only [findMembership, Prog.bind_eq, ends_query_bind, ends_date_bind]
  split
  · rw [ends_execute_bind]
    split
    · rename_i w'' hexec
      exact .inl (.inr ⟨_, _, hexec⟩)
    · exact .inl (.inl rfl)
  · rw [send, Prog.ends_send]
    split
    · rename_i w'' hexec
      exact .inr ⟨id, i, _, hopens, hexec⟩
    · exact .inl (.inl rfl)

theorem createInvitation_ends (tenant : Tenant) (inviterId : Id) (email : String)
    (role : AssignableRole) :
    (createInvitation env tenant inviterId email role).Ends Stmt.exec
      (fun _ w' => w'.members = w.members ∧
      ∀ id i', w'.invitations.get? id = some i' →
      (∃ i, w.invitations.get? id = some i ∧ SameTerms i i') ∨
        w.invitations.get? id = none ∧ i'.organizationId = tenant.id ∧ i'.inviterId = inviterId ∧
          i'.inviteeEmail = normalizeEmail env email ∧ i'.role = role.role) w := by
  unfold createInvitation
  simp only [Prog.bind_eq, ends_query_bind]
  split
  · exact ⟨rfl, fun id i' h => .inl ⟨i', h, .refl i'⟩⟩
  rw [ends_query_bind]
  split
  · exact ⟨rfl, fun id i' h => .inl ⟨i', h, .refl i'⟩⟩
  rw [ends_randomBytes_bind, ends_date_bind, Prog.tryCatch_eq, ends_tryCatch_bind]
  split
  · rename_i w' hexec
    have heff := exec_effect hexec
    rw [Prog.tryCatch_eq, ends_tryCatch_execute_bind]
    refine ⟨heff.members, fun id i' (hid : w'.invitations.get? id = some i') => ?_⟩
    refine (heff.invitation_terms hid).imp_right ?_
    rintro ⟨hnew, i, hl, hterms⟩
    cases hl
    exact ⟨hnew, hterms.organizationId, hterms.inviterId, hterms.inviteeEmail, hterms.role⟩
  · split <;> exact ⟨rfl, fun id i' h => .inl ⟨i', h, .refl i'⟩⟩

theorem createOrganization_ends (userId : Id) (name slug : String) :
    (createOrganization userId name slug).Ends Stmt.exec (fun _ w' => w.Grew w' ∨
      (Stmt.organizationCreate (trim name) slug userId).exec w = .ok w') w := by
  unfold createOrganization
  simp only [findLiveSlug, Prog.bind_eq, ends_query_bind]
  split
  · exact .inl (.refl w)
  rw [Prog.tryCatch_eq, Prog.ends_tryCatch, send, Prog.ends_send]
  cases hexec : (Stmt.organizationCreate (trim name) slug userId).exec w with
  | ok w' => exact .inr rfl
  | error e =>
    simp only [slugTaken]
    split <;> exact .inl (.refl w)

theorem orgRoute_grants {caller : Caller} {route : OrgRoute}
    (hcreate : ∀ name slug, route ≠ .createOrganization name slug)
    (hinvite : ∀ orgId email role, route ≠ .createInvitation orgId email role)
    (haccept : ∀ token, route ≠ .acceptInvitation token) :
    (route.serve env caller).Sends (fun l => l.grants = false) := by
  have htenant : ∀ orgId roles,
      (tenantWithRole orgId roles caller).Sends (fun l => l.grants = false) :=
    fun orgId roles => .bind (grants_of_within (requireTenant_within orgId caller) (by decide))
      fun tenant =>
      .bind (grants_of_within (requireOrgRole_within roles tenant) (by decide)) fun _ => .ret
  cases route with
  | createOrganization name slug => exact absurd rfl (hcreate name slug)
  | getOrganization orgId =>
    refine .bind (grants_of_within (requireTenant_within orgId caller) (by decide)) fun _ =>
      .bind (.send rfl) fun found => ?_
    split
    · exact .throw
    · exact .ret
  | updateOrganization orgId name slug =>
    refine .bind (htenant _ _) fun tenant => .bind ?_ fun conflict => ?_
    · unfold slugConflict
      split
      · exact .ret
      · split
        · exact .ret
        · exact .bind (.send rfl) fun _ => .ret
    · split
      · exact .throw
      · refine .tryCatch (.send rfl) fun err => ?_
        unfold slugTaken
        split <;> exact .throw
  | deleteOrganization orgId =>
    refine .bind (htenant _ _) fun tenant => .bind ?_ fun _ => .bind (.send rfl) fun _ =>
      .bind (.send rfl) fun _ => .ret
    unfold when
    split
    · refine .bind (.send rfl) fun live =>
        .bind (grants_of_within (cancelAtStripe_within _) (by decide)) fun _ => ?_
      split
      · exact .bind (.send rfl) fun _ => .send rfl
      · exact .ret
    · exact .ret
  | restoreOrganization orgId =>
    refine .bind (.bind (.send rfl) fun found => ?_) fun tenant => ?_
    · split
      · exact .ret
      · exact .throw
    · refine .bind (grants_of_within (requireOrgRole_within _ tenant) (by decide)) fun _ =>
        .bind (.send rfl) fun found => ?_
      split
      · exact .throw
      · exact .bind (.send rfl) fun _ => .ret
  | transferOwnership orgId newOwnerId =>
    refine .bind (htenant _ _) fun tenant => ?_
    unfold SaasBackend.transferOwnership
    split
    · exact .throw
    · refine .bind (.send rfl) fun found => ?_
      split
      · exact .throw
      · exact .send rfl
  | updateMemberRole orgId userId role =>
    refine .bind (htenant _ _) fun tenant => .bind (.send rfl) fun found => ?_
    split
    · exact .throw
    · split
      · exact .throw
      · exact .send rfl
  | removeMember orgId userId =>
    refine .bind (htenant _ _) fun tenant => .bind (.send rfl) fun found => ?_
    split
    · exact .throw
    · split
      · exact .throw
      · exact .bind (.send rfl) fun _ => .ret
  | createInvitation orgId email role => exact absurd rfl (hinvite orgId email role)
  | cancelInvitation orgId invitationId =>
    refine .bind (htenant _ _) fun tenant => .bind (.send rfl) fun found => ?_
    split
    · exact .throw
    · split
      · exact .throw
      · exact .bind (.send rfl) fun _ => .send rfl
  | acceptInvitation token => exact absurd rfl (haccept token)
  | declineInvitation token =>
    refine .bind (.bind (.send rfl) fun found => ?_) fun _ => .bind (.send rfl) fun _ => .send rfl
    split
    · exact .throw
    · split
      · exact .throw
      · refine .bind (.send rfl) fun now => ?_
        split
        · exact .bind (.send rfl) fun _ => .throw
        · refine .bind (.send rfl) fun user => ?_
          split
          · exact .throw
          · exact .ret

variable {token : AccessToken} {x : User}

theorem createOrganization_accounts (hw : w.OrganizationsDrawn) (hx : AccessStands w token x)
    (name slug : String) :
    (createOrganization token.id name slug).Ends Stmt.exec (fun _ w' =>
      ∀ res, Accounts env ⟨.org (.bearer token) (.createOrganization name slug), w, res,
        w'⟩) w := by
  refine (createOrganization_ends token.id name slug).weaken fun _ w' h res => ?_
  rcases h with hgrew | hexec
  · exact hgrew.accounts
  have heff := exec_effect hexec
  have hfree : w.organizations.get? w.nonce = none := Table.get?_of_bound hw (Nat.le_refl _)
  refine ⟨fun k m' hk => ?_, fun id i' hid => .inl ⟨i', ?_, .refl i'⟩⟩
  · cases hold : w.members.get? k with
    | some m =>
      have hkept : w'.members.get? k = some m := by
        rw [heff.members]
        exact Table.get?_insert_of_some hold
      cases hkept.symm.trans hk
      exact .inl ⟨_, rfl, rfl, rfl⟩
    | none =>
      rcases heff.member_back hk with ⟨m, hm, _⟩ | ⟨_, _, _, hl, _, rfl⟩ | ⟨_, _, _, _, _, hl, _⟩
      · rw [hm] at hold
        cases hold
      · cases hl
        have horg := Table.get?_insert_self
          { name := trim name, slug, ownerId := token.id, createdAt := w.now, updatedAt := w.now }
            hfree
        rw [show w.organizations.insert _ _ = w'.organizations from heff.organizations.symm] at horg
        exact .inr (.inl ⟨⟨name, slug, token, x, rfl, rfl, hx⟩, hfree, ⟨_, horg, rfl⟩, hold⟩)
      · cases hl
  · rwa [show w'.invitations = w.invitations from heff.invitations] at hid

theorem acceptInvitation_accounts (hx : AccessStands w token x) (raw : Nat) :
    (acceptInvitation token.id raw).Ends Stmt.exec (fun _ w' =>
      ∀ res, Accounts env ⟨.org (.bearer token) (.acceptInvitation raw), w, res, w'⟩) w := by
  refine (acceptInvitation_ends token.id raw).weaken fun _ w' h res => ?_
  rcases h with hnoted | ⟨id, i, d, hopens, hexec⟩
  · exact hnoted.grew.accounts
  have heff := exec_effect hexec
  refine ⟨fun k m' hk => ?_, fun id' i' hid => ?_⟩
  · cases hold : w.members.get? k with
    | some m =>
      have hkept : w'.members.get? k = some m := by
        rw [heff.members]
        exact Table.get?_insert_of_some hold
      cases hkept.symm.trans hk
      exact .inl ⟨_, rfl, rfl, rfl⟩
    | none =>
      have hrow := hk
      rcases heff.member_back hk with ⟨m, hm, _⟩ | ⟨_, _, _, hl, _⟩ | ⟨_, _, _, _, _, hl, _, rfl⟩
      · rw [hm] at hold
        cases hold
      · cases hl
      · cases hl
        exact .inr (.inr ⟨id, i, ⟨raw, ⟨token, x, rfl, rfl, hx⟩, hopens.presented⟩, hopens.stored,
          hopens.pending, hopens.unexpired, hopens.addressed, rfl, hold, ⟨_, hrow, rfl, rfl, rfl⟩⟩)
  · rcases heff.invitation_terms hid with hkept | ⟨_, _, hl, _⟩
    · exact .inl hkept
    · cases hl

theorem createInvitation_accounts (hx : AccessStands w token x) (orgId : Id) (email : String)
    (role : AssignableRole) :
    (OrgRoute.serve env (token.caller x) (.createInvitation orgId email role)).Ends Stmt.exec
      (fun _ w' =>
      ∀ res, Accounts env ⟨.org (.bearer token) (.createInvitation orgId email role), w, res,
        w'⟩) w := by
  refine ends_tenantWithRole_bind (fun e res => World.Grew.accounts (.refl w))
    fun tenant id m hm hrole hid hallowed => ?_
  subst hid
  refine (createInvitation_ends tenant token.id email role).weaken fun _ w' ⟨hmembers,
    hinvitations⟩ res => ?_
  refine ⟨fun k m' hk => .inl ⟨m', hmembers ▸ hk, rfl, rfl⟩, fun id' i' hid' => ?_⟩
  rcases hinvitations id' i' hid' with hkept | ⟨hnew, ho, hinviter, hemail, hr⟩
  · exact .inl hkept
  · refine .inr ⟨⟨email, role, ?_, hemail, hr⟩, ⟨id, m, ?_, ?_⟩, hnew, hr ▸ role.notOwner⟩
    · rw [ho, hinviter]
      exact ⟨token, x, rfl, rfl, hx⟩
    · rw [ho, hinviter]
      exact hm
    · rw [hrole]
      simpa using hallowed

theorem TenancyRequest.accounts (hw : w.OrganizationsDrawn) (r : TenancyRequest) :
    (r.prog env).Ends Stmt.exec (fun res w' => Accounts env ⟨r, w, res, w'⟩) w := by
  cases r with
  | org header route =>
    refine Ends.bind (Q := fun _ w' => ∀ res, Accounts env ⟨.org header route, w, res, w'⟩) ?_
      (fun _ _ h => h _)
      fun _ _ h => h _
    refine ends_authenticate_bind (fun _ e res => World.Grew.accounts (.refl w))
      fun token x hheader hx => ?_
    subst hheader
    by_cases hgrants : (∀ name slug, route ≠ .createOrganization name slug) ∧
        (∀ orgId email role, route ≠ .createInvitation orgId email role) ∧ ∀ raw,
          route ≠ .acceptInvitation raw
    · exact (grew_of_sends (orgRoute_grants hgrants.1 hgrants.2.1 hgrants.2.2) w).weaken
        fun _ w' h res => World.Grew.accounts h
    · cases route with
      | createOrganization name slug => exact createOrganization_accounts hw hx name slug
      | createInvitation orgId email role => exact createInvitation_accounts hx orgId email role
      | acceptInvitation raw => exact acceptInvitation_accounts hx raw
      | _ => simp at hgrants
  | deleteAccount header password =>
    refine (grew_of_sends (.bind ?_ fun caller => .bind ?_ fun _ => .ret) w).weaken fun _ _ h =>
      World.Grew.accounts h
    · exact grants_of_within (authenticate_within header) (by decide)
    · refine (deleteAccount_calls caller.id password).mono fun l hl => ?_
      cases l with
      | organizationCreate | invitationAccept | invitationCreate => cases hl
      | _ => rfl
  | other p apart =>
    exact (grew_of_sends (grants_of_within apart (by decide)) w).weaken fun _ _ h =>
      World.Grew.accounts h

end Routes

structure Accounted (env : Env) (h : List TenancyEntry) (w : World) : Prop where
  drawn : w.OrganizationsDrawn
  members : ∀ k m, w.members.get? k = some m → HasOrigin env h k m
  invitations : ∀ id i, w.invitations.get? id = some i → ∃ e ∈ h, InvitedAt env e id i

theorem Accounts.extend {env : Env} {h : List TenancyEntry} {e : TenancyEntry} (he : Accounts env e)
    (hdrawn : e.post.OrganizationsDrawn) (hI : Accounted env h e.pre) :
    Accounted env (e :: h) e.post := by
  refine ⟨hdrawn, fun k m' hk => ?_, fun id i' hid => ?_⟩
  · rcases he.members k m' hk with ⟨m, hm, ho, hu⟩ | hfounded | ⟨id, i, haccepted⟩
    · exact ((hI.members k m hm).same ho hu).cons e
    · exact .inl ⟨e, .head _, hfounded⟩
    · obtain ⟨e', he', hinvited⟩ := hI.invitations id i haccepted.stored
      exact .inr ⟨h, [], e, id, i, rfl, haccepted, e', he', hinvited⟩
  · rcases he.invitations id i' hid with ⟨i, hi, hterms⟩ | hinvited
    · obtain ⟨e', he', hinvited⟩ := hI.invitations id i hi
      exact ⟨e', .tail _ he', hinvited.same hterms⟩
    · exact ⟨e, .head _, hinvited⟩

theorem Accounted.history {env : Env} {w₀ w : World} {h : List TenancyEntry} (hw₀ : w₀.Untenanted)
    (hrun : TenancyHistory env w₀ h w) : Accounted env h w := by
  refine Served.invariant (Accounted env) ⟨fun o org ho => ?_, fun k m hk => ?_,
    fun id i hid => ?_⟩ ?_ hrun
  · rw [hw₀.organizations o] at ho
    cases ho
  · rw [hw₀.members k] at hk
    cases hk
  · rw [hw₀.invitations id] at hid
    cases hid
  · intro h w r hI _
    have hdrawn : ((r.prog env).run Stmt.exec w).2.OrganizationsDrawn :=
      Prog.Maintains.of_exec (fun _ _ _ hexec hw => hw.exec hexec) (r.prog env) w hI.drawn
    exact Accounts.extend (r.accounts hI.drawn) hdrawn hI

/-- In every run of whole requests from an empty database, every membership is of a user who
founded the organization or who accepted, while it was pending and unexpired and addressed to
the user's email address, an invitation of one who was OWNER or ADMIN when it was created. The
role on joining was the invitation's, which is never OWNER. -/
theorem membership_has_origin (env : Env) {w₀ w : World} {h : List TenancyEntry}
    (hw₀ : w₀.Untenanted) (hrun : TenancyHistory env w₀ h w) {k : Id} {m : OrganizationMember}
    (hk : w.members.get? k = some m) :
    HasOrigin env h k m :=
  (Accounted.history hw₀ hrun).members k m hk

section Sample

def untenantedWorld : World where
  users := ((∅ : Table User).insert 1 { email := "a@x.io" }).insert 2 { email := "b@x.io" }
  nonce := 3

theorem untenantedWorld_untenanted :
    untenantedWorld.Untenanted := ⟨fun _ => rfl, fun _ => rfl, fun _ => rfl⟩

def settled : List TenancyRequest :=
  [.org (bearer 1 "a@x.io") (.createOrganization "Acme" "acme"),
    .org (bearer 1 "a@x.io") (.createInvitation 3 "b@x.io" ⟨.member, OrgRole.member_ne_owner⟩),
    .org (bearer 2 "b@x.io") (.acceptInvitation 5)]

def settlement : List TenancyEntry × World :=
  serveAll Stmt.exec (TenancyRequest.prog sampleEnv) settled ([], untenantedWorld)

theorem membership_has_origin_settled :
    ∃ m, settlement.2.members.get? 7 = some m ∧ m.userId = 2 ∧
    HasOrigin sampleEnv settlement.1 7 m :=
  ⟨_, rfl, rfl, membership_has_origin sampleEnv untenantedWorld_untenanted
    (serveAll_steps settled (fun _ _ _ => trivial) [] .refl) rfl⟩

end Sample

end SaasBackend
