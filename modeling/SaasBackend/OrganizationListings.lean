import SaasBackend.ProjectService

/-! The listings of org.service.js and invitation.service.js, and their routes. -/

set_option autoImplicit false

namespace SaasBackend
open Keyed Handler

structure ListParams (S : Type) where
  sort : S
  page : Nat := 1
  limit : Nat := 20
  order : SortOrder := .desc
  search : Option String := none
  pagePos : 1 ≤ page := by decide
  limitPos : 1 ≤ limit := by decide
  limitMax : limit ≤ 100 := by decide

variable {S α β : Type}

/-- Rows that are equal on the sort key stay in table order, which the database leaves open. -/
def sortRows (le : α → α → Bool) (order : SortOrder) (rows : List α) : List α :=
  rows.mergeSort (fun a b =>
    match order with
    | .asc => le a b
    | .desc => le b a)

/-- buildSearch: the text is contained in one of the columns; an empty text is none. -/
def matchesSearch (env : Env) (search : Option String) (columns : List String) : Bool :=
  (search.filter (· ≠ "")).all (fun text => columns.any (env.containsInsensitive · text))

/-- The page of the sorted rows, as `view` shows them, and the count of all. -/
def listing (le : α → α → Bool) (q : ListParams S) (rows : World → List α) (view : World → α → β) :
    Req (List β × PageMeta) := do
  let page ← query (fun w => (paginate q.page q.limit (sortRows le q.order (rows w))).map (view w))
  let total ← query (fun w => (rows w).length)
  return (page, paginationMeta q.page q.limit total)

inductive ListingReply where
  | organizations (organizations : List (OrgView × OrgRole)) (page : PageMeta)
  | members (members : List MemberView) (page : PageMeta)
  | invitations (invitations : List InvitationView) (page : PageMeta)
  deriving DecidableEq, Repr

inductive OrganizationSort where
  | createdAt | name | slug
  deriving DecidableEq, Repr

def OrganizationSort.le (env : Env) (sort : OrganizationSort)
    (a b : OrganizationMember × Organization) : Bool :=
  match sort with
  | .createdAt => decide (a.2.createdAt ≤ b.2.createdAt)
  | .name => env.textLe a.2.name b.2.name
  | .slug => env.textLe a.2.slug b.2.slug

/-- `{ userId, organization: { deletedAt: null } }` -/
def World.organizationsOf (w : World) (userId : Id) : List (OrganizationMember × Organization) :=
  (w.members.filter (fun _ m => m.userId == userId)).filterMap (fun r =>
    ((w.organizations.get? r.2.organizationId).filter (fun o => o.deletedAt.isNone)).map
      (fun o => (r.2, o)))

def listOrganizations (env : Env) (userId : Id)
    (q : ListParams OrganizationSort) : Req ListingReply := do
  let (organizations, page) ← listing (q.sort.le env) q
    (fun w => (w.organizationsOf userId).filter
      (fun r => matchesSearch env q.search [r.2.name, r.2.slug]))
    (fun _ r => (orgView r.1.organizationId r.2, r.1.role))
  return .organizations organizations page

inductive MemberSort where
  | createdAt | role
  deriving DecidableEq, Repr

def OrgRole.rank : OrgRole → Nat
  | .owner => 0
  | .admin => 1
  | .member => 2

abbrev MemberRow := Id × OrganizationMember × User

def MemberSort.le (sort : MemberSort) (a b : MemberRow) : Bool :=
  match sort with
  | .createdAt => decide (a.2.1.createdAt ≤ b.2.1.createdAt)
  | .role => decide (a.2.1.role.rank ≤ b.2.1.role.rank)

def World.liveMembers (w : World) (orgId : Id) : List MemberRow :=
  (w.members.filter (fun _ m => m.organizationId == orgId)).filterMap (fun r =>
    ((w.users.get? r.2.userId).filter User.live).map (fun u => (r.1, r.2, u)))

def listMembers (env : Env) (orgId : Id) (q : ListParams MemberSort) : Req ListingReply := do
  let (members, page) ← listing q.sort.le q
    (fun w => (w.liveMembers orgId).filter
      (fun r => matchesSearch env q.search (r.2.2.name.toList ++ [r.2.2.email])))
    (fun w r => (⟨r.1, r.2.1.role, r.2.1.createdAt, w.userView r.2.1.userId⟩ : MemberView))
  return .members members page

inductive InvitationSort where
  | createdAt | status | expiresAt
  deriving DecidableEq, Repr

def InvitationStatus.rank : InvitationStatus → Nat
  | .pending => 0
  | .accepted => 1
  | .declined => 2
  | .expired => 3
  | .canceled => 4

def InvitationSort.le (sort : InvitationSort) (a b : Id × OrganizationInvitation) : Bool :=
  match sort with
  | .createdAt => decide (a.2.createdAt ≤ b.2.createdAt)
  | .status => decide (a.2.status.rank ≤ b.2.status.rank)
  | .expiresAt => decide (a.2.expiresAt ≤ b.2.expiresAt)

def World.inviterColumns (w : World) (i : OrganizationInvitation) : List String :=
  (w.users.get? i.inviterId).elim [] (fun u => u.name.toList ++ [u.email])

def World.organizationColumns (w : World) (i : OrganizationInvitation) : List String :=
  (w.organizations.get? i.organizationId).elim [] (fun o => [o.name, o.slug])

def listInvitations (env : Env) (orgId : Id)
    (q : ListParams InvitationSort) : Req ListingReply := do
  let (invitations, page) ← listing q.sort.le q
    (fun w => (w.invitations.filter (fun _ i => i.organizationId == orgId)).filter (fun r =>
      matchesSearch env q.search (r.2.inviteeEmail :: w.inviterColumns r.2)))
    (fun w r => w.invitationView r.1 r.2)
  return .invitations invitations page

/-- `sort` is never the status here. -/
def listMyInvitations (env : Env) (userId : Id)
    (q : ListParams InvitationSort) : Req ListingReply := do
  let user ← findUserById userId
  match user with
  | none => throw (httpError "errors.userNotFound" 404)
  | some user => do
    let (invitations, page) ← listing q.sort.le q
      (fun w => (w.invitations.filter
        (fun _ i => i.inviteeEmail == user.email && i.status == .pending)).filter
        (fun r => matchesSearch env q.search (w.organizationColumns r.2)))
      (fun w r => w.invitationView r.1 r.2)
    return .invitations invitations page

inductive ListingRoute where
  | listOrganizations (q : ListParams OrganizationSort)
  | listMembers (orgId : Id) (q : ListParams MemberSort)
  | listInvitations (orgId : Id) (q : ListParams InvitationSort)
  | listMyInvitations (q : ListParams InvitationSort)

def ListingRoute.serve (env : Env) (caller : Caller) : ListingRoute → Req ListingReply
  | .listOrganizations q => SaasBackend.listOrganizations env caller.id q
  | .listMembers orgId q => do
    let tenant ← requireTenant orgId caller
    SaasBackend.listMembers env tenant.id q
  | .listInvitations orgId q => do
    let tenant ← tenantWithRole orgId [.owner, .admin] caller
    SaasBackend.listInvitations env tenant.id q
  | .listMyInvitations q => do
    requireVerifiedEmail caller
    SaasBackend.listMyInvitations env caller.id q

def ListingRoute.handle (env : Env) (header : AuthHeader)
    (route : ListingRoute) : Req ListingReply := do
  let caller ← authenticate header
  route.serve env caller

end SaasBackend
