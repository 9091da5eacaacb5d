import SaasBackend.AuthTokens

/-! The evaluation half of src/modules/featureflag/featureflag.service.js. Flag values
are whatever JSON an administrator stored, so the conversions of JavaScript show. -/

set_option autoImplicit false

namespace SaasBackend
open Keyed Handler

/-- A property read, `value?.name`; `none` is undefined. -/
def Json.field (name : String) : Json → Option Json
  | .obj fields => fields.lookup name
  | _ => none

/-- `x ?? fallback` -/
def Json.nullish (v : Option Json) (fallback : Json) : Json :=
  match v with
  | none | some .null => fallback
  | some v => v

def Json.truthy : Option Json → Bool
  | none | some .null => false
  | some (.bool b) => b
  | some (.num q) => q != 0
  | some (.str s) => s != ""
  | some (.arr _) | some (.obj _) => true

/-- Thrown where the code calls something that is no function. -/
def typeError : Err := .outage "TypeError"

/-- `ToPrimitive` of an element or operand, as text. An object whose own toString is
not a function has no primitive value. -/
def Json.toText (numberText : Rat → String) : Json → Except Err String
  | .null => .ok "null"
  | .bool b => .ok (if b then "true" else "false")
  | .num q => .ok (numberText q)
  | .str s => .ok s
  | .obj fields =>
      if (fields.lookup "toString").isSome then .error typeError else .ok "[object Object]"
  | .arr items => do
    let texts ← items.attach.mapM fun item =>
      match item with
      | ⟨.null, _⟩ => .ok ""
      | ⟨other, _⟩ => other.toText numberText
    .ok (",".intercalate texts)

def Json.toNumber (env : Env) : Json → Except Err JsNumber
  | .null => .ok (.finite 0)
  | .bool b => .ok (.finite (if b then 1 else 0))
  | .num q => .ok (.finite q)
  | .str s => .ok (env.textNumber s)
  | other => (other.toText env.numberText).map env.textNumber

def JsNumber.atMost (n : JsNumber) (q : Rat) : Bool :=
  match n with
  | .nan => false
  | .infinite negative => negative
  | .finite x => decide (x ≤ q)

def JsNumber.atLeast (n : JsNumber) (q : Rat) : Bool :=
  match n with
  | .nan => false
  | .infinite negative => !negative
  | .finite x => decide (q ≤ x)

def JsNumber.above (n : JsNumber) (q : Rat) : Bool :=
  match n with
  | .nan => false
  | .infinite negative => !negative
  | .finite x => decide (q < x)

/-- `plans.length === 0`, then `planCode ? plans.includes(planCode) : false` -/
def planListed (plans : Json) (planCode : Option String) : Except Err Bool :=
  match plans with
  | .arr [] | .str "" => .ok true
  | .arr items => .ok (planCode.any (fun code => items.any (fun i =>
      match i with
      | .str s => s == code
      | _ => false)))
  | .str s => .ok (planCode.any (fun code => decide (code.toList <:+: s.toList)))
  | other =>
    match other.field "length" with
    | some (.num 0) => .ok true
    | _ => if planCode.isSome then .error typeError else .ok false

def evaluateByType (env : Env) (type : FeatureFlagType) (value : Json) (enabled : Bool)
    (planCode : Option String) (flagKey : String) (orgId : Option Id) : Except Err Bool :=
  if !enabled then .ok false
  else
    match type with
    | .boolean => .ok (Json.truthy (value.field "enabled"))
    | .percentage => do
      let pct ← (Json.nullish (value.field "percentage") (.num 0)).toNumber env
      if pct.atMost 0 then .ok false
      else if pct.atLeast 100 then .ok true
      else .ok (pct.above (env.deterministicBucket flagKey orgId))
    | .plan =>
      planListed (Json.nullish (value.field "plans") (.arr [])) (planCode.filter (· ≠ ""))

inductive FlagReason where
  | flagNotFoundOrInactive | override | default
  deriving DecidableEq, Repr

structure FlagResult where
  key : String
  enabled : Bool
  reason : FlagReason
  deriving DecidableEq, Repr

def orThrow {α : Type} : Except Err α → Req α
  | .ok a => return a
  | .error e => throw e

def evaluateFlag (env : Env) (key : String) (orgId : Option Id) (planCode : Option String) :
    Req FlagResult := do
  let found ← query (fun w => w.featureFlags.find? (fun _ f => f.key == key))
  match found with
  | none => return { key, enabled := false, reason := .flagNotFoundOrInactive }
  | some (flagId, flag) =>
    if !flag.active then return { key, enabled := false, reason := .flagNotFoundOrInactive }
    else do
      let override ←
        match orgId with
        | none => pure none
        | some id => query (fun w => w.featureFlagOverrides.find? (fun _ o =>
            o.featureFlagId == flagId && o.organizationId == id))
      match override with
      | some (_, o) => do
        let enabled ← orThrow (evaluateByType env flag.type o.value o.enabled planCode key orgId)
        return { key, enabled, reason := .override }
      | none => do
        let enabled ← orThrow (evaluateByType env flag.type flag.value true planCode key orgId)
        return { key, enabled, reason := .default }

end SaasBackend
