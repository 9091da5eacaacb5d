import SaasBackend.RequestGuards
import SaasBackend.AccountService

/-! src/modules/org: organizations, members and invitations, and the routes that guard
them. The listings are in OrganizationListings, the billing routes in OrganizationBilling. -/

set_option autoImplicit false

namespace SaasBackend
open Keyed Handler

/-- orgSelect -/
structure OrgView where
  id : Id
  name : String
  slug : String
  ownerId : Id
  createdAt : Time
  updatedAt : Time
  deriving DecidableEq, Repr

def orgView (id : Id) (o : Organization) : OrgView :=
  ⟨id, o.name, o.slug, o.ownerId, o.createdAt, o.updatedAt⟩

/-- A user as memberSelect, invitationSelect and projectSelect nest it. -/
structure UserView where
  id : Id
  name : Option String
  email : String
  deriving DecidableEq, Repr

def World.userView (w : World) (id : Id) : Option UserView :=
  (w.users.get? id).map (fun u => ⟨id, u.name, u.email⟩)

/-- memberSelect -/
structure MemberView where
  id : Id
  role : OrgRole
  createdAt : Time
  user : Option UserView
  deriving DecidableEq, Repr

/-- invitationSelect -/
structure InvitationView where
  id : Id
  role : OrgRole
  status : InvitationStatus
  expiresAt : Time
  acceptedAt : Option Time
  declinedAt : Option Time
  canceledAt : Option Time
  createdAt : Time
  updatedAt : Time
  inviteeEmail : String
  inviteeId : Option Id
  organization : Option (Id × String × String)
  inviter : Option UserView
  deriving DecidableEq, Repr

def World.invitationView (w : World) (id : Id) (i : OrganizationInvitation) : InvitationView :=
  ⟨id, i.role, i.status, i.expiresAt, i.acceptedAt, i.declinedAt, i.canceledAt, i.createdAt,
    i.updatedAt, i.inviteeEmail, i.inviteeId,
    (w.organizations.get? i.organizationId).map (fun o => (i.organizationId, o.name, o.slug)),
    w.userView i.inviterId⟩

inductive OrgReply where
  | organization (organization : OrgView)
  | member (member : MemberView)
  | invitation (invitation : InvitationView)
  | message (messageKey : String)
  deriving DecidableEq, Repr

/-- ADMIN or MEMBER: what the schemas of role changes and invitations let through. -/
structure AssignableRole where
  role : OrgRole
  notOwner : role ≠ .owner

theorem OrgRole.member_ne_owner : OrgRole.member ≠ .owner := by decide

def invitationTtlMs : Nat := 7 * 24 * 60 * 60 * 1000

def slugTaken (err : Err) : Req OrgReply :=
  if err = .prisma .P2002 then throw (httpError "errors.slugAlreadyTaken" 409) else throw err

/-- `findFirst({ where: { slug, deletedAt: null } })` -/
def findLiveSlug (slug : String) : Req (Option Id) :=
  query (fun w =>
    (w.organizations.find? (fun _ o => o.slug == slug && o.deletedAt.isNone)).map (·.1))

def createOrganization (userId : Id) (name slug : String) : Req OrgReply := do
  let existing ← findLiveSlug slug
  if existing.isSome then throw (httpError "errors.slugAlreadyTaken" 409)
  else
    tryCatch
      (send (.organizationCreate (trim name) slug userId) (fun w =>
        .organization ⟨w.nonce, trim name, slug, userId, w.now, w.now⟩))
      slugTaken

def getOrganization (orgId : Id) : Req OrgReply := do
  let found ← query (fun w => (w.organizations.get? orgId).filter (fun o => o.deletedAt.isNone))
  match found with
  | none => throw (httpError "errors.organizationNotFound" 404)
  | some o => return .organization (orgView orgId o)

/-- The slug check of `updateOrganization`: an empty slug is not looked up. -/
def slugConflict (orgId : Id) : Option String → Req Bool
  | none => return false
  | some slug =>
    if slug = "" then return false
    else do
      let existing ← findLiveSlug slug
      return existing.any (· != orgId)

def updateOrganization (orgId : Id) (name slug : Option String) : Req OrgReply := do
  let conflict ← slugConflict orgId slug
  if conflict then throw (httpError "errors.slugAlreadyTaken" 409)
  else
    let data : OrganizationPatch := { name := name.map trim, slug }
    tryCatch
      (send (.organizationUpdate orgId data) (fun w =>
        .organization (((w.organizations.get? orgId).map
          (fun o => orgView orgId { data.apply o with updatedAt := w.now })).getD
            ⟨orgId, "", "", 0, 0, 0⟩)))
      slugTaken

def deleteOrganization (env : Env) (orgId : Id) : Req OrgReply := do
  when env.stripeConfigured (do
    let liveSubscriptions ← query (fun w => w.subscriptions.filter (fun _ s =>
      s.organizationId == some orgId && liveSubscriptionStatuses.contains s.status))
    cancelAtStripe liveSubscriptions
    when (!liveSubscriptions.isEmpty) (do
      let now ← date
      execute (.subscriptionCancel (liveSubscriptions.map (·.1)) now)))
  let now ← date
  execute (.organizationUpdate orgId { deletedAt := some (some now) })
  return .message "messages.organizationDeletedSuccessfully"

def restoreOrganization (orgId : Id) : Req OrgReply := do
  let found ← query (fun w => (w.organizations.get? orgId).filter (fun o => o.deletedAt.isSome))
  match found with
  | none => throw (httpError "errors.deletedOrganizationNotFound" 404)
  | some _ => do
    execute (.organizationUpdate orgId { deletedAt := some none })
    return .message "messages.organizationRestoredSuccessfully"

def findMembership (orgId userId : Id) : Req (Option (Id × OrganizationMember)) :=
  query (·.membership orgId userId)

def updateMemberRole (orgId targetUserId : Id) (role : AssignableRole) : Req OrgReply := do
  let found ← findMembership orgId targetUserId
  match found with
  | none => throw (httpError "errors.memberNotFound" 404)
  | some (id, membership) =>
    if membership.role = .owner then throw (httpError "errors.cannotChangeOwnerRole" 400)
    else
      send (.memberUpdate id role.role) (fun w =>
        ((w.members.get? id).map (fun m =>
          OrgReply.member ⟨id, role.role, m.createdAt, w.userView m.userId⟩)).getD (.message ""))

def transferOwnership (orgId currentOwnerId newOwnerId : Id) : Req OrgReply := do
  if newOwnerId = currentOwnerId then throw (httpError "errors.cannotTransferToSelf" 400)
  else do
    let targetMembership ← findMembership orgId newOwnerId
    match targetMembership with
    | none => throw (httpError "errors.memberNotFound" 404)
    | some _ =>
      send (.transferOwnership orgId newOwnerId currentOwnerId) (fun w =>
        .organization (((w.organizations.get? orgId).map
          (fun o => orgView orgId { o with ownerId := newOwnerId, updatedAt := w.now })).getD
            ⟨orgId, "", "", 0, 0, 0⟩))

def removeMember (orgId targetUserId : Id) : Req OrgReply := do
  let found ← findMembership orgId targetUserId
  match found with
  | none => throw (httpError "errors.memberNotFound" 404)
  | some (id, membership) =>
    if membership.role = .owner then throw (httpError "errors.cannotRemoveOwner" 400)
    else do
      execute (.memberDelete id)
      return .message "messages.memberRemovedSuccessfully"

def createInvitation (env : Env) (tenant : Tenant) (inviterId : Id) (email : String)
    (role : AssignableRole) : Req OrgReply := do
  let inviteeEmail := normalizeEmail env email
  let existingMember ← query (fun w =>
    (w.users.find? (fun _ u => u.email == inviteeEmail && u.live)).map
      (fun r => (r.1, (w.membership tenant.id r.1).isSome)))
  if existingMember.any (·.2) then throw (httpError "errors.userAlreadyMember" 409)
  else do
    let existingInvitation ← query (fun w => w.invitations.any (fun _ i =>
      i.organizationId == tenant.id && i.inviteeEmail == inviteeEmail && i.status == .pending))
    if existingInvitation then throw (httpError "errors.pendingInvitationExists" 409)
    else do
      let token ← randomBytes
      let now ← date
      let row : OrganizationInvitation :=
        { organizationId := tenant.id, inviterId, inviteeEmail,
          inviteeId := existingMember.map (·.1)
          role := role.role, token := hashToken token, expiresAt := now + invitationTtlMs }
      let invitation ← tryCatch
        (send (.invitationCreate row) (fun w =>
          w.invitationView w.nonce { row with createdAt := w.now, updatedAt := w.now }))
        (fun err =>
          if err = .prisma .P2002 then throw (httpError "errors.pendingInvitationExists" 409)
          else throw err)
      -- the queue is not waited for, and its failure is only logged
      tryCatch (execute (.enqueue (.orgInvitation inviteeEmail tenant.name role.role token)))
        (fun _ => return ())
      return .invitation invitation

def World.savedInvitation (w : World) (id : Id) (data : InvitationPatch) : OrgReply :=
  ((w.invitations.get? id).map (fun i =>
    OrgReply.invitation (w.invitationView id { data.apply i with updatedAt := w.now }))).getD
      (.message "")

def saveInvitation (id : Id) (data : InvitationPatch) : Req OrgReply :=
  send (.invitationUpdate id data) (·.savedInvitation id data)

/-- The checks `acceptInvitation` and `declineInvitation` share: pending, not expired,
addressed to the caller. -/
def openInvitation (userId : Id) (token : Nat) : Req (Id × OrganizationInvitation) := do
  let found ← query (fun w => w.invitations.find? (fun _ i => i.token == hashToken token))
  match found with
  | none => throw (httpError "errors.invitationNotFound" 404)
  | some (id, invitation) =>
    if invitation.status ≠ .pending then throw (httpError "errors.invitationNotPending" 400)
    else do
      let now ← date
      if invitation.expiresAt < now then do
        execute (.invitationUpdate id { status := .expired })
        throw (httpError "errors.invitationExpired" 400)
      else do
        let user ← findUserById userId
        if user.all (fun u => u.email != invitation.inviteeEmail) then
          throw (httpError "errors.invitationNotForYou" 403)
        else return (id, invitation)

def acceptInvitation (userId : Id) (token : Nat) : Req OrgReply := do
  let (id, invitation) ← openInvitation userId token
  let existingMember ← findMembership invitation.organizationId userId
  let now ← date
  let data : InvitationPatch :=
    { status := .accepted, acceptedAt := some now, inviteeId := some userId }
  if existingMember.isSome then do
    execute (.invitationUpdate id data)
    throw (httpError "errors.alreadyMember" 409)
  else
    send (.invitationAccept id data invitation.organizationId userId invitation.role)
      (·.savedInvitation id data)

def declineInvitation (userId : Id) (token : Nat) : Req OrgReply := do
  let (id, _) ← openInvitation userId token
  let now ← date
  saveInvitation id { status := .declined, declinedAt := some now }

def cancelInvitation (orgId invitationId : Id) : Req OrgReply := do
  let found ← query (fun w =>
    (w.invitations.get? invitationId).filter (fun i => i.organizationId == orgId))
  match found with
  | none => throw (httpError "errors.invitationNotFound" 404)
  | some invitation =>
    if invitation.status ≠ .pending then throw (httpError "errors.invitationNotPending" 400)
    else do
      let now ← date
      saveInvitation invitationId { status := .canceled, canceledAt := some now }

section Sends

variable {P : Stmt → Prop}

theorem openInvitation_sends (hread : P .read)
    (hupdate : ∀ id data, data.status ≠ .pending → P (.invitationUpdate id data)) (userId : Id)
    (token : Nat) :
    (openInvitation userId token).Sends P := by
  refine .bind (.send hread) fun found => ?_
  split
  · exact .throw
  split
  · exact .throw
  refine .bind (.send hread) fun now => ?_
  split
  · exact .bind (.send (hupdate _ _ (fun h => by cases h))) fun _ => .throw
  refine .bind (.send hread) fun user => ?_
  split
  · exact .throw
  · exact .ret

theorem acceptInvitation_sends (hread : P .read)
    (hupdate : ∀ id data, data.status ≠ .pending → P (.invitationUpdate id data))
    (haccept : ∀ id data orgId user role, data.status = .accepted →
      P (.invitationAccept id data orgId user role))
    (userId : Id) (token : Nat) : (acceptInvitation userId token).Sends P := by
  refine .bind (openInvitation_sends hread hupdate userId token) fun ⟨id, invitation⟩ => ?_
  refine .bind (.send hread) fun existingMember => .bind (.send hread) fun now => ?_
  dsimp only
  split
  · exact .bind (.send (hupdate _ _ (fun h => by cases h))) fun _ => .throw
  · exact .send (haccept _ _ _ _ _ rfl)

theorem declineInvitation_sends (hread : P .read)
    (hupdate : ∀ id data, data.status ≠ .pending → P (.invitationUpdate id data)) (userId : Id)
    (token : Nat) :
    (declineInvitation userId token).Sends P := by
  refine .bind (openInvitation_sends hread hupdate userId token) fun _ =>
    .bind (.send hread) fun now => ?_
  exact .send (hupdate _ _ (fun h => by cases h))

theorem cancelInvitation_sends (hread : P .read)
    (hupdate : ∀ id data, data.status ≠ .pending → P (.invitationUpdate id data))
    (orgId invitationId : Id) :
    (cancelInvitation orgId invitationId).Sends P := by
  refine .bind (.send hread) fun found => ?_
  split
  · exact .throw
  split
  · exact .throw
  · exact .bind (.send hread) fun now => .send (hupdate _ _ (fun h => by cases h))

theorem createInvitation_sends {env : Env} {tenant : Tenant} {role : AssignableRole}
    (hread : P .read) (hrandom : P .random) (hqueue : ∀ mail, P (.enqueue mail))
    (hcreate : ∀ row, row.organizationId = tenant.id → row.role = role.role →
      P (.invitationCreate row))
    (inviterId : Id) (email : String) :
    (createInvitation env tenant inviterId email role).Sends P := by
  refine .bind (.send hread) fun existingMember => ?_
  split
  · exact .throw
  refine .bind (.send hread) fun existingInvitation => ?_
  split
  · exact .throw
  refine .bind (.send hrandom) fun token => .bind (.send hread) fun now => ?_
  refine .bind (.tryCatch (.send (hcreate _ rfl rfl)) fun err => ?_) fun invitation => ?_
  · split <;> exact .throw
  · exact .bind (.tryCatch (.send (hqueue _)) fun _ => .ret) fun _ => .ret

end Sends

/-- The routes of org.router.js and invitation.router.js, past validation. -/
inductive OrgRoute where
  | createOrganization (name slug : String)
  | getOrganization (orgId : Id)
  | updateOrganization (orgId : Id) (name slug : Option String)
  | deleteOrganization (orgId : Id)
  | restoreOrganization (orgId : Id)
  | transferOwnership (orgId newOwnerId : Id)
  | updateMemberRole (orgId userId : Id) (role : AssignableRole)
  | removeMember (orgId userId : Id)
  | createInvitation (orgId : Id) (email : String) (role : AssignableRole)
  | cancelInvitation (orgId invitationId : Id)
  | acceptInvitation (token : Nat)
  | declineInvitation (token : Nat)

/-- `requireTenant`, then `requireOrgRole(...roles)`. -/
def tenantWithRole (orgId : Id) (roles : List OrgRole) (caller : Caller) : Req Tenant := do
  let tenant ← requireTenant orgId caller
  requireOrgRole roles tenant
  return tenant

def OrgRoute.serve (env : Env) (caller : Caller) : OrgRoute → Req OrgReply
  | .createOrganization name slug => SaasBackend.createOrganization caller.id name slug
  | .getOrganization orgId => do
    let tenant ← requireTenant orgId caller
    SaasBackend.getOrganization tenant.id
  | .updateOrganization orgId name slug => do
    let tenant ← tenantWithRole orgId [.owner, .admin] caller
    SaasBackend.updateOrganization tenant.id name slug
  | .deleteOrganization orgId => do
    let tenant ← tenantWithRole orgId [.owner] caller
    SaasBackend.deleteOrganization env tenant.id
  | .restoreOrganization orgId => do
    let tenant ← requireTenantIncludeDeleted orgId caller
    requireOrgRole [.owner] tenant
    SaasBackend.restoreOrganization tenant.id
  | .transferOwnership orgId newOwnerId => do
    let tenant ← tenantWithRole orgId [.owner] caller
    SaasBackend.transferOwnership tenant.id caller.id newOwnerId
  | .updateMemberRole orgId userId role => do
    let tenant ← tenantWithRole orgId [.owner, .admin] caller
    SaasBackend.updateMemberRole tenant.id userId role
  | .removeMember orgId userId => do
    let tenant ← tenantWithRole orgId [.owner, .admin] caller
    SaasBackend.removeMember tenant.id userId
  | .createInvitation orgId email role => do
    let tenant ← tenantWithRole orgId [.owner, .admin] caller
    SaasBackend.createInvitation env tenant caller.id email role
  | .cancelInvitation orgId invitationId => do
    let tenant ← tenantWithRole orgId [.owner, .admin] caller
    SaasBackend.cancelInvitation tenant.id invitationId
  | .acceptInvitation token => SaasBackend.acceptInvitation caller.id token
  | .declineInvitation token => SaasBackend.declineInvitation caller.id token

def OrgRoute.handle (env : Env) (header : AuthHeader) (route : OrgRoute) : Req OrgReply := do
  let caller ← authenticate header
  route.serve env caller

end SaasBackend
