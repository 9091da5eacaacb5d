import SaasBackend.Footprints

/-! The other half of src/modules/featureflag: what administrators do to flags and overrides,
the evaluation endpoint, and the routes. The listing is left out. -/

set_option autoImplicit false

namespace SaasBackend
open Keyed Handler

/-- flagSelect -/
structure FlagView where
  id : Id
  key : String
  name : String
  description : Option String
  type : FeatureFlagType
  value : Json
  active : Bool
  createdAt : Time
  updatedAt : Time

def flagView (id : Id) (f : FeatureFlag) : FlagView :=
  ⟨id, f.key, f.name, f.description, f.type, f.value, f.active, f.createdAt, f.updatedAt⟩

structure OverrideView where
  id : Id
  featureFlagId : Id
  organizationId : Id
  enabled : Bool
  value : Json
  createdAt : Time
  updatedAt : Time

def overrideView (id : Id) (o : OrganizationFeatureFlag) : OverrideView :=
  ⟨id, o.featureFlagId, o.organizationId, o.enabled, o.value, o.createdAt, o.updatedAt⟩

inductive FlagReply where
  | flag (flag : Option FlagView)
  | flagWithOverrides (flag : FlagView) (overrides : List OverrideView)
  | override (override : Option OverrideView)
  | result (result : FlagResult)
  | message (messageKey : String)

def featureFlagNotFound : Err := httpError "errors.featureFlagNotFound" 404

structure CreateFlagBody where
  key : String
  name : String
  description : Option String := none
  type : FeatureFlagType
  value : Json
  active : Bool := true

def createFlag (body : CreateFlagBody) : Req FlagReply := do
  let existing ← query (fun w => w.featureFlags.find? (fun _ f => f.key == body.key))
  if existing.isSome then throw (httpError "errors.flagKeyAlreadyExists" 409)
  else do
    let row : FeatureFlag :=
      { key := body.key, name := body.name, description := body.description, type := body.type,
        value := body.value
        active := body.active }
    let flag ← send (.flagCreate row)
      (fun w => flagView w.nonce { row with createdAt := w.now, updatedAt := w.now })
    return .flag (some flag)

def getFlag (flagId : Id) : Req FlagReply := do
  let found ← query (fun w => (w.featureFlags.get? flagId).map (fun f =>
    (f, w.featureFlagOverrides.filter (fun _ o => o.featureFlagId == flagId))))
  match found with
  | none => throw featureFlagNotFound
  | some (flag, overrides) =>
    return .flagWithOverrides (flagView flagId flag) (overrides.map (fun r => overrideView r.1 r.2))

def updateFlag (flagId : Id) (data : FeatureFlagPatch) : Req FlagReply := do
  let found ← query (·.featureFlags.get? flagId)
  if found.isNone then throw featureFlagNotFound
  else do
    let updated ← send (.flagUpdate flagId data) (fun w =>
      (w.featureFlags.get? flagId).map
        (fun f => flagView flagId { data.apply f with updatedAt := w.now }))
    return .flag updated

def deleteFlag (flagId : Id) : Req FlagReply := do
  let found ← query (·.featureFlags.get? flagId)
  if found.isNone then throw featureFlagNotFound
  else do
    execute (.flagDelete flagId)
    return .message "messages.featureFlagDeletedSuccessfully"

def World.savedOverride (w : World) (flagId orgId : Id) (enabled : Bool)
    (value : Json) : OverrideView :=
  match w.overrideOf flagId orgId with
  | some (id, o) => overrideView id { o with enabled, value, updatedAt := w.now }
  | none => ⟨w.nonce, flagId, orgId, enabled, value, w.now, w.now⟩

def setOverride (flagId orgId : Id) (enabled : Bool) (value : Json) : Req FlagReply := do
  let flag ← query (·.featureFlags.get? flagId)
  if flag.isNone then throw featureFlagNotFound
  else do
    let org ← query (fun w => (w.organizations.get? orgId).filter (fun o => o.deletedAt.isNone))
    if org.isNone then throw (httpError "errors.organizationNotFoundForFlag" 404)
    else do
      let override ← send (.overrideUpsert flagId orgId enabled value)
        (·.savedOverride flagId orgId enabled value)
      return .override (some override)

def removeOverride (flagId orgId : Id) : Req FlagReply := do
  let found ← query (·.overrideOf flagId orgId)
  match found with
  | none => throw (httpError "errors.overrideNotFound" 404)
  | some (id, _) => do
    execute (.overrideDelete id)
    return .message "messages.overrideRemovedSuccessfully"

/-- `user: { ownedOrganizations: { some: { id: orgId } } }` -/
def World.ownerSubscribes (w : World) (orgId : Id) (s : Subscription) : Bool :=
  (w.organizations.get? orgId).any (fun o => s.userId == some o.ownerId)

/-- The plan code that featureflag.controller.js evaluates with: the organization's own
subscription, else the personal one of its owner. -/
def organizationPlanCode (orgFirst ownerFirst : NewestFirst) (orgId : Id) :
    Req (Option String) := do
  let orgSub ← query (·.activeSubscription orgFirst (fun s => s.organizationId == some orgId))
  match orgSub with
  | some orgSub => return some orgSub.planCode
  | none => do
    let ownerSub ← query (fun w => w.activeSubscription ownerFirst (w.ownerSubscribes orgId))
    return ownerSub.map (·.planCode)

def World.planCodeFor (w : World) (orgFirst ownerFirst : NewestFirst) (orgId : Id) :
    Option String :=
  match w.activeSubscription orgFirst (fun s => s.organizationId == some orgId) with
  | some s => some s.planCode
  | none => (w.activeSubscription ownerFirst (w.ownerSubscribes orgId)).map (·.planCode)

theorem organizationPlanCode_runs (w : World) (orgFirst ownerFirst : NewestFirst) (orgId : Id) :
    (organizationPlanCode orgFirst ownerFirst orgId).runs w =
      (.ok (w.planCodeFor orgFirst ownerFirst orgId), w) := by
  simp only [organizationPlanCode, World.planCodeFor, Prog.bind_eq, runs_query_bind]
  cases w.activeSubscription orgFirst (fun s => s.organizationId == some orgId) <;> rfl

/-- GET /api/feature-flags/evaluate, past `authenticate` -/
def evaluateFlagFor (env : Env) (key : String) (orgId : Option Id)
    (orgFirst ownerFirst : NewestFirst) : Req FlagReply := do
  let planCode ← match orgId with
    | none => pure none
    | some orgId => organizationPlanCode orgFirst ownerFirst orgId
  let result ← evaluateFlag env key orgId planCode
  return .result result

inductive FlagRoute where
  | evaluateFlag (key : String) (orgId : Option Id) (orgFirst ownerFirst : NewestFirst)
  | createFlag (body : CreateFlagBody)
  | getFlag (flagId : Id)
  | updateFlag (flagId : Id) (data : FeatureFlagPatch)
  | deleteFlag (flagId : Id)
  | setOverride (flagId orgId : Id) (enabled : Bool) (value : Json)
  | removeOverride (flagId orgId : Id)

def FlagRoute.adminOnly : FlagRoute → Bool
  | .evaluateFlag .. => false
  | _ => true

def FlagRoute.serve (env : Env) : FlagRoute → Req FlagReply
  | .evaluateFlag key orgId orgFirst ownerFirst =>
      evaluateFlagFor env key orgId orgFirst ownerFirst
  | .createFlag body => SaasBackend.createFlag body
  | .getFlag flagId => SaasBackend.getFlag flagId
  | .updateFlag flagId data => SaasBackend.updateFlag flagId data
  | .deleteFlag flagId => SaasBackend.deleteFlag flagId
  | .setOverride flagId orgId enabled value => SaasBackend.setOverride flagId orgId enabled value
  | .removeOverride flagId orgId => SaasBackend.removeOverride flagId orgId

def FlagRoute.handle (env : Env) (header : AuthHeader) (route : FlagRoute) : Req FlagReply := do
  let caller ← authenticate header
  when route.adminOnly (authorize [.admin] caller)
  route.serve env

theorem evaluateFlagFor_reads {env : Env} (key : String) (orgId : Option Id)
    (orgFirst ownerFirst : NewestFirst) :
    (evaluateFlagFor env key orgId orgFirst ownerFirst).Sends (fun l => l = .read) := by
  cases orgId with
  | none => exact .bind .ret fun planCode => .bind (evaluateFlag_reads ..) fun _ => .ret
  | some orgId =>
    refine .bind (.bind (.send rfl) fun orgSub => ?_) fun planCode =>
      .bind (evaluateFlag_reads ..) fun _ => .ret
    split
    · exact .ret
    · exact .bind (.send rfl) fun _ => .ret

end SaasBackend
