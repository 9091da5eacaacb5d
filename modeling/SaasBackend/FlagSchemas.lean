import SaasBackend.AuthSchemas
import SaasBackend.FeatureFlagRoutes

/-! src/modules/featureflag/featureflag.schema.js. Three schemas write the column `value`, and
only createFlagSchema looks at what it writes. -/

set_option autoImplicit false

namespace SaasBackend

/-- What zod has read of a value and the checks that it fails, or the issues of a wrong type. Only
these keep the refinements of the body from running. -/
abbrev Parsed (α : Type) := Except (List Issue) (α × List Issue)

/-- Zod's own words have blanks in them, and `validate` translates no such message. -/
def zodWords (text : String) : IssueMessage := .i18n text

section Fields

variable {α β : Type}

def Parsed.both (a : Parsed α) (b : Parsed β) : Parsed (α × β) :=
  match a, b with
  | .ok (x, is), .ok (y, js) => .ok ((x, y), is ++ js)
  | .ok (_, is), .error js | .error is, .ok (_, js) | .error is, .error js => .error (is ++ js)

def StringField.read (f : StringField) (body : Json) : Parsed String :=
  match body.field f.key with
  | some (.str s) =>
      .ok (s, (f.checks.filter (fun c => !c.holds s)).map fun c =>
      ⟨["body", f.key], .i18n c.message⟩)
  | _ => .error [⟨["body", f.key], f.typeMessage⟩]

def optionalField (read : Json → Parsed α) (key : String) (body : Json) : Parsed (Option α) :=
  match body.field key with
  | none => .ok (none, [])
  | some _ => (read body).map fun (x, issues) => (some x, issues)

/-- `z.boolean()` -/
def readBoolean (key : String) (body : Json) : Parsed Bool :=
  match body.field key with
  | some (.bool b) => .ok (b, [])
  | _ => .error [⟨["body", key], .invalidType "boolean"⟩]

/-- `z.enum(['BOOLEAN', 'PERCENTAGE', 'PLAN'])` -/
def readFlagType (body : Json) : Parsed FeatureFlagType :=
  match body.field "type" with
  | some (.str "BOOLEAN") => .ok (.boolean, [])
  | some (.str "PERCENTAGE") => .ok (.percentage, [])
  | some (.str "PLAN") => .ok (.plan, [])
  | _ =>
      .error [⟨["body", "type"],
      zodWords "Invalid option: expected one of \"BOOLEAN\"|\"PERCENTAGE\"|\"PLAN\""⟩]

end Fields

def tooBig (n : Nat) : String := s!"Too big: expected string to have <={n} characters"
def tooSmall (n : Nat) : String := s!"Too small: expected string to have >={n} characters"

/-- `[a-z0-9]` -/
def isKeyEdge (c : Char) : Bool := ('a' ≤ c && c ≤ 'z') || ('0' ≤ c && c ≤ '9')

/-- `/^[a-z0-9](?:[a-z0-9_:.-]*[a-z0-9])?$/` -/
def isFlagKey (s : String) : Bool :=
  match s.toList with
  | [] => false
  | first :: rest => isKeyEdge first && rest.getLast?.all isKeyEdge &&
      rest.all fun c => isKeyEdge c || ['_', ':', '.', '-'].contains c

def flagKeyField : StringField :=
  { key := "key"
    checks :=
      [.min 2 "validation.keyMinLength", .max 100 (tooBig 100),
      ⟨isFlagKey, "validation.keyFormat"⟩] }

def flagNameField (minMessage : String) : StringField :=
  { key := "name", checks := [.min 2 minMessage, .max 200 (tooBig 200)] }

def flagDescriptionField : StringField :=
  { key := "description", checks := [.max 1000 (tooBig 1000)] }

def createFlagFields : Json → Parsed CreateFlagBody :=
  parseObject fun body =>
    (flagKeyField.read body
      |>.both ((flagNameField "validation.nameMinLength").read body)
      |>.both (optionalField flagDescriptionField.read "description" body)
      |>.both (readFlagType body)
      |>.both (optionalField (readBoolean "active") "active" body)).map
      fun (((((key, name), description), type), active), issues) =>
        ({ key, name, description, type, value := (body.field "value").getD (.obj []),
           active := active.getD true },
          issues)

/-- `Object.keys(value).length` -/
def objectKeys : Json → Except Err Nat
  | .null => .error typeError
  | .bool _ | .num _ => .ok 0
  | .str s => .ok (jsLength s)
  | .arr items => .ok items.length
  | .obj fields => .ok fields.length

def Json.isString : Json → Bool
  | .str _ => true
  | _ => false

/-- An issue of the refinement. Its path is taken from the body, so `body` comes twice. -/
def valueIssue (key : String) : List Issue := [⟨["body", "body", "value"], .i18n key⟩]

def booleanValueIssues (value : Json) : Except Err (List Issue) :=
  match value.field "enabled" with
  | some (.bool _) => .ok []
  | _ =>
      (objectKeys value).map fun n => if 0 < n then
      valueIssue "validation.booleanFlagFormat" else []

def percentageValueIssues (value : Json) : List Issue :=
  match value.field "percentage" with
  | none => []
  | some (.num q) => if q < 0 ∨ 100 < q then valueIssue "validation.percentageFlagFormat" else []
  | some _ => valueIssue "validation.percentageFlagFormat"

def planValueIssues (value : Json) : List Issue :=
  match value.field "plans" with
  | none => []
  | some (.arr items) =>
      if items.all Json.isString then [] else valueIssue "validation.planFlagFormat"
  | some _ => valueIssue "validation.planFlagFormat"

/-- The `superRefine` of createFlagSchema. -/
def flagValueIssues (type : FeatureFlagType) (value : Json) : Except Err (List Issue) :=
  match type with
  | .boolean => booleanValueIssues value
  | .percentage => .ok (percentageValueIssues value)
  | .plan => .ok (planValueIssues value)

/-- `safeParse` gives back what was parsed or its issues; it does not catch what a refinement
throws. -/
def createFlagSchema (body : Json) : Except Err (Except (List Issue) CreateFlagBody) :=
  match createFlagFields body with
  | .error issues => .ok (.error issues)
  | .ok (data, issues) => (flagValueIssues data.type data.value).map fun more =>
    if issues ++ more = [] then .ok data else .error (issues ++ more)

def updateFlagFields : Json → Parsed FeatureFlagPatch :=
  parseObject fun body =>
    (optionalField (flagNameField (tooSmall 2)).read "name" body
      |>.both (optionalField flagDescriptionField.read "description" body)
      |>.both (optionalField readFlagType "type" body)
      |>.both (optionalField (readBoolean "active") "active" body)).map
      fun ((((name, description), type), active), issues) =>
        ({ name, description, type, value := body.field "value", active }, issues)

/-- `Object.keys(data).length > 0` -/
def FeatureFlagPatch.hasField (d : FeatureFlagPatch) : Bool :=
  d.name.isSome || d.description.isSome || d.type.isSome || d.value.isSome || d.active.isSome

def updateFlagSchema (body : Json) : Except (List Issue) FeatureFlagPatch := do
  let (data, issues) ← updateFlagFields body
  let more := if data.hasField then [] else [⟨["body"], .i18n "validation.atLeastOneField"⟩]
  if issues ++ more = [] then return data else .error (issues ++ more)

def setOverrideSchema : Json → Except (List Issue) (Bool × Json) :=
  parseObject fun body =>
    (optionalField (readBoolean "enabled") "enabled" body).map fun (enabled, _) =>
      (enabled.getD true, (body.field "value").getD (.obj []))

section Refinement

variable {body value : Json} {type : FeatureFlagType} {data : CreateFlagBody} {issues : List Issue}

theorem map_returns {ε α β : Type} {x : Except ε α} {f : α → β} : (∃ b, x.map f = .ok b) ↔
    ∃ a, x = .ok a := by
  cases x with
  | error e => exact iff_of_false (fun ⟨_, h⟩ => by cases h) fun ⟨_, h⟩ => by cases h
  | ok a => exact iff_of_true ⟨_, rfl⟩ ⟨a, rfl⟩

theorem objectKeys_ok_iff : (∃ n, objectKeys value = .ok n) ↔ value ≠ .null := by
  cases value <;> simp [objectKeys]

/-- The refinement throws over a BOOLEAN flag with null for a value, and over no other. -/
theorem flagValueIssues_ok_iff : (∃ issues, flagValueIssues type value = .ok issues) ↔
    ¬ (type = .boolean ∧ value = .null) := by
  cases type with
  | boolean =>
    rw [and_iff_right rfl, ← ne_eq, ← objectKeys_ok_iff]
    dsimp only [flagValueIssues, booleanValueIssues]
    split
    · rename_i hfield
      refine iff_of_true ⟨_, rfl⟩ (objectKeys_ok_iff.mpr ?_)
      rintro rfl
      cases hfield
    · exact map_returns
  | percentage | plan => exact iff_of_true ⟨_, rfl⟩ fun h => by cases h.1

theorem createFlagSchema_ok_iff : (∃ result, createFlagSchema body = .ok result) ↔
    ∀ data issues, createFlagFields body = .ok (data, issues) →
      ¬ (data.type = .boolean ∧ data.value = .null) := by
  unfold createFlagSchema
  cases createFlagFields body with
  | error issues => exact iff_of_true ⟨_, rfl⟩ fun _ _ h => by cases h
  | ok r =>
    obtain ⟨data, issues⟩ := r
    refine map_returns.trans
      (flagValueIssues_ok_iff.trans ⟨fun h _ _ heq => ?_, fun h => h data issues rfl⟩)
    cases heq
    exact h

theorem createFlagSchema_accepts (h : createFlagSchema body = .ok (.ok data)) :
    flagValueIssues data.type data.value = .ok [] := by
  unfold createFlagSchema at h
  split at h
  · cases h
  · rename_i data' issues hfields
    cases hvalue : flagValueIssues data'.type data'.value with
    | error e =>
      rw [hvalue] at h
      cases h
    | ok more =>
      rw [hvalue] at h
      have h := Except.ok.inj h
      dsimp only at h
      split at h
      · rename_i hnone
        rw [← Except.ok.inj h, hvalue, (List.append_eq_nil_iff.mp hnone).2]
      · cases h

theorem texts_of_isString {items : List Json} (h : items.all Json.isString = true) :
    ∃ texts : List String, items = texts.map .str := by
  induction items with
  | nil => exact ⟨[], rfl⟩
  | cons item items ih =>
    obtain ⟨hitem, hrest⟩ := Bool.and_eq_true_iff.mp h
    obtain ⟨texts, rfl⟩ := ih hrest
    cases item with
    | str s => exact ⟨s :: texts, rfl⟩
    | null | bool _ | num _ | arr _ | obj _ => cases hitem

theorem planValueIssues_nil (h : planValueIssues value = []) {plans : Json}
    (hplans : value.field "plans" = some plans) :
    ∃ texts : List String, plans = .arr (texts.map .str) := by
  unfold planValueIssues at h
  rw [hplans] at h
  split at h
  · rename_i hnone
    cases hnone
  · rename_i items hitems
    split at h
    · rename_i hall
      obtain ⟨texts, rfl⟩ := texts_of_isString hall
      exact ⟨texts, Option.some.inj hitems⟩
    · cases h
  · cases h

theorem percentageValueIssues_nil (h : percentageValueIssues value = []) :
    value.field "percentage" = none ∨ ∃ q, value.field "percentage" = some (.num q) := by
  unfold percentageValueIssues at h
  split at h
  · rename_i hnone
    exact .inl hnone
  · rename_i q hq
    exact .inr ⟨q, hq⟩
  · cases h

end Refinement

end SaasBackend
