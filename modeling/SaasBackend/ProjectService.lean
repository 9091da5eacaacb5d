import SaasBackend.OrganizationService

/-! src/modules/project: the tenant-scoped resource, its service and its two routers. -/

set_option autoImplicit false

namespace SaasBackend
open Keyed Handler

/-- projectSelect -/
structure ProjectView where
  id : Id
  name : String
  description : Option String
  status : ProjectStatus
  organizationId : Id
  createdAt : Time
  updatedAt : Time
  createdBy : Option UserView
  deriving DecidableEq, Repr

def World.projectView (w : World) (id : Id) (p : Project) : ProjectView :=
  ⟨id, p.name, p.description, p.status, p.organizationId, p.createdAt, p.updatedAt,
    w.userView p.createdById⟩

inductive ProjectSort where
  | createdAt | updatedAt | name | status
  deriving DecidableEq, Repr

inductive SortOrder where
  | asc | desc
  deriving DecidableEq, Repr

structure ListQuery where
  page : Nat := 1
  limit : Nat := 20
  sort : ProjectSort := .createdAt
  order : SortOrder := .desc
  search : Option String := none
  status : Option ProjectStatus := none
  pagePos : 1 ≤ page := by decide
  limitPos : 1 ≤ limit := by decide
  limitMax : limit ≤ 100 := by decide

/-- paginationMeta -/
structure PageMeta where
  page : Nat
  limit : Nat
  total : Nat
  totalPages : Nat
  hasNext : Bool
  hasPrev : Bool
  deriving DecidableEq, Repr

def paginationMeta (page limit total : Nat) : PageMeta :=
  ⟨page, limit, total, (total + limit - 1) / limit, decide (page * limit < total),
    decide (1 < page)⟩

/-- `skip: (page - 1) * limit, take: limit` -/
def paginate {α : Type} (page limit : Nat) (rows : List α) : List α :=
  (rows.drop ((page - 1) * limit)).take limit

inductive ProjectReply where
  | projects (projects : List ProjectView) (page : PageMeta)
  | project (project : ProjectView) (messageKey : Option String)
  | message (messageKey : String)
  | exported (projects : List ProjectView) (exportedAt : Time) (messageKey : String)
  | analytics (total : Nat) (byStatus : List (ProjectStatus × Nat))
  deriving DecidableEq, Repr

def ProjectStatus.rank : ProjectStatus → Nat
  | .active => 0
  | .archived => 1

def ProjectSort.le (env : Env) (sort : ProjectSort) (a b : Project) : Bool :=
  match sort with
  | .createdAt => decide (a.createdAt ≤ b.createdAt)
  | .updatedAt => decide (a.updatedAt ≤ b.updatedAt)
  | .name => env.textLe a.name b.name
  | .status => decide (a.status.rank ≤ b.status.rank)

/-- Rows that are equal on the column keep the order of the table. -/
def orderBy (env : Env) (sort : ProjectSort) (order : SortOrder) (rows : List (Id × Project)) :
    List (Id × Project) :=
  rows.mergeSort (fun a b =>
    match order with
    | .asc => sort.le env a.2 b.2
    | .desc => sort.le env b.2 a.2)

/-- `{ organizationId, deletedAt: null }` -/
def World.liveProjects (w : World) (organizationId : Id) : List (Id × Project) :=
  w.projects.filter (fun _ p => p.organizationId == organizationId && p.deletedAt.isNone)

def matchesQuery (env : Env) (q : ListQuery) (p : Project) : Bool :=
  q.status.all (fun status => p.status == status) &&
    (q.search.filter (· ≠ "")).all (fun text =>
      env.containsInsensitive p.name text || p.description.any (env.containsInsensitive · text))

def findLive (organizationId projectId : Id) : Req ProjectView := do
  let found ← query (fun w =>
    ((w.projects.get? projectId).filter (fun p =>
      p.organizationId == organizationId && p.deletedAt.isNone)).map (w.projectView projectId))
  match found with
  | none => throw (httpError "errors.projectNotFound" 404)
  | some project => return project

def listProjects (env : Env) (organizationId : Id) (q : ListQuery) : Req ProjectReply := do
  let projects ← query (fun w =>
    (paginate q.page q.limit (orderBy env q.sort q.order
      ((w.liveProjects organizationId).filter (matchesQuery env q ·.2)))).map
        (fun r => w.projectView r.1 r.2))
  let total ← query (fun w =>
    ((w.liveProjects organizationId).filter (matchesQuery env q ·.2)).length)
  return .projects projects (paginationMeta q.page q.limit total)

def getProject (organizationId projectId : Id) : Req ProjectReply := do
  let project ← findLive organizationId projectId
  return .project project none

def createProject (organizationId userId : Id) (name : String) (description : Option String) :
    Req ProjectReply := do
  let row : Project :=
    { organizationId, createdById := userId, name := trim name,
      description := description.map trim }
  let project ← send (.projectCreate row) (fun w =>
    w.projectView w.nonce { row with createdAt := w.now, updatedAt := w.now })
  return .project project (some "messages.projectCreated")

def World.savedProject (w : World) (projectId : Id) (data : ProjectPatch) : Option ProjectView :=
  (w.projects.get? projectId).map (fun p =>
    w.projectView projectId { data.apply p with updatedAt := w.now })

structure UpdateProjectBody where
  name : Option String := none
  description : Option (Option String) := none
  status : Option ProjectStatus := none
  deriving DecidableEq, Repr

def updateProject (organizationId projectId : Id)
    (body : UpdateProjectBody) : Req ProjectReply := do
  let _ ← findLive organizationId projectId
  let data : ProjectPatch :=
    { name := body.name.map trim, description := body.description.map (·.map trim),
      status := body.status }
  let project ← send (.projectUpdate projectId data) (·.savedProject projectId data)
  match project with
  | none => throw (.prisma .P2025)
  | some project => return .project project (some "messages.projectUpdated")

def deleteProject (organizationId projectId : Id) : Req ProjectReply := do
  let _ ← findLive organizationId projectId
  let now ← date
  execute (.projectUpdate projectId { deletedAt := some (some now) })
  return .message "messages.projectDeleted"

def exportProjects (env : Env) (organizationId : Id) : Req ProjectReply := do
  let projects ← query (fun w =>
    (orderBy env .createdAt .desc (w.liveProjects organizationId)).map
      (fun r => w.projectView r.1 r.2))
  let now ← date
  return .exported projects now "messages.projectsExported"

def getProjectAnalytics (organizationId : Id) : Req ProjectReply := do
  let total ← query (fun w => (w.liveProjects organizationId).length)
  let byStatus ← query (fun w =>
    ([ProjectStatus.active, .archived].map (fun status =>
      (status, ((w.liveProjects organizationId).filter (·.2.status == status)).length))).filter
        (·.2 ≠ 0))
  return .analytics total byStatus

inductive ProjectRoute where
  | listProjects (q : ListQuery)
  | exportProjects (first : NewestFirst)
  | projectAnalytics (first : NewestFirst)
  | getProject (projectId : Id)
  | createProject (name : String) (description : Option String)
  | updateProject (projectId : Id) (body : UpdateProjectBody)
  | deleteProject (projectId : Id)

def ProjectRoute.serve (env : Env) (caller : Caller) (tenant : Tenant) : ProjectRoute →
    Req ProjectReply
  | .listProjects q => SaasBackend.listProjects env tenant.id q
  | .exportProjects first => do
    let subscription ← requireSubscription first caller
    requirePlan ["pro", "enterprise"] subscription
    let _ ← requireFeatureFlag env "projects_export" tenant (some subscription)
    SaasBackend.exportProjects env tenant.id
  | .projectAnalytics first => do
    let subscription ← requireOrgSubscription first tenant
    requirePlan ["pro", "enterprise"] subscription
    getProjectAnalytics tenant.id
  | .getProject projectId => SaasBackend.getProject tenant.id projectId
  | .createProject name description => do
    requireOrgRole [.owner, .admin] tenant
    SaasBackend.createProject tenant.id caller.id name description
  | .updateProject projectId body => do
    requireOrgRole [.owner, .admin] tenant
    SaasBackend.updateProject tenant.id projectId body
  | .deleteProject projectId => do
    requireOrgRole [.owner] tenant
    SaasBackend.deleteProject tenant.id projectId

/-- /api/organizations/:orgId/projects -/
def ProjectRoute.handle (env : Env) (header : AuthHeader) (orgId : Id) (route : ProjectRoute) :
    Req ProjectReply := do
  let caller ← authenticate header
  requireVerifiedEmail caller
  let tenant ← requireTenant orgId caller
  route.serve env caller tenant

inductive ApiKeyRoute where
  | listProjects (q : ListQuery)
  | getProject (projectId : Id)

def ApiKeyRoute.serve (env : Env) (tenant : Tenant) : ApiKeyRoute → Req ProjectReply
  | .listProjects q => SaasBackend.listProjects env tenant.id q
  | .getProject projectId => SaasBackend.getProject tenant.id projectId

/-- /api/integrations/organizations/:orgId/projects -/
def ApiKeyRoute.handle (env : Env) (header : ApiKeyHeader) (orgId : Id) (route : ApiKeyRoute) :
    Req ProjectReply := do
  let (apiKey, caller) ← authenticateApiKey header
  requireScope ["projects:read"] apiKey
  let tenant ← requireTenant orgId caller
  route.serve env tenant

end SaasBackend
