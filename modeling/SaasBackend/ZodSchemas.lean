import SaasBackend.OpenApiConverter

/-! stripTransforms and zodToOpenApi of src/modules/docs/openapi.converter.js, over what
`z.toJSONSchema()` reports. -/

set_option autoImplicit false

namespace SaasBackend
open JsonSchema

/-- What an object schema does with fields that it does not name. -/
inductive Strictness where
  /-- `z.object` drops them -/
  | default
  | loose
  | strict
  deriving DecidableEq, Repr

def Strictness.additionalProperties : Strictness → Bool ⊕ Schema Json
  | loose => .inr {}
  | default | strict => .inl false

/-- Zod schemas over `L`, the strings, numbers and enums with their checks. The fields of an
object are its own keys, without `__proto__`. -/
inductive ZodSchema (L : Type) where
  | leaf : L → ZodSchema L
  | object (shape : List (String × ZodSchema L)) (strictness : Strictness)
  | array (element : ZodSchema L) (min max : Option Nat)
  | optional (innerType : ZodSchema L)
  | nullable (innerType : ZodSchema L)
  | default (innerType : ZodSchema L) (defaultValue : Json)
  | union (options : List (ZodSchema L))
  | pipe (input output : ZodSchema L)
  | transform

variable {L : Type}

namespace ZodSchema

theorem sizeOf_field_lt [SizeOf L] {shape : List (String × ZodSchema L)} {strictness : Strictness}
    {p : String × ZodSchema L} (hp : p ∈ shape) :
    sizeOf p.2 < sizeOf (object shape strictness) := by
  have hlt := List.sizeOf_lt_of_mem hp
  have hpair : sizeOf p = 1 + sizeOf p.1 + sizeOf p.2 := Prod.mk.sizeOf_spec _ _
  rw [object.sizeOf_spec]
  omega

/-- Containers are built anew; a pipe with a transform and one without are both replaced by their
input. -/
def stripTransforms (schema : ZodSchema L) : ZodSchema L :=
  match schema with
  | pipe input _ => stripTransforms input
  | object shape _ => object (shape.attach.map fun ⟨p, _⟩ => (p.1, stripTransforms p.2)) .default
  | optional innerType => optional (stripTransforms innerType)
  | nullable innerType => nullable (stripTransforms innerType)
  | default innerType defaultValue => default (stripTransforms innerType) defaultValue
  | array element _ _ => array (stripTransforms element) none none
  | leaf l => leaf l
  | union options => union options
  | transform => transform
termination_by schema
decreasing_by
  · simp only [pipe.sizeOf_spec]
    omega
  · exact sizeOf_field_lt ‹_›
  all_goals
    simp
    try omega

def isOptional : ZodSchema L → Bool
  | optional _ => true
  | nullable innerType => isOptional innerType
  | union options => options.attach.any fun ⟨option, _⟩ => isOptional option
  | pipe _ output => isOptional output
  | leaf _ | object _ _ | array _ _ _ | default _ _ | transform => false

def requiredNames (shape : List (String × ZodSchema L)) : Option (List String) :=
  let names := (shape.filter (!·.2.isOptional)).map (·.1)
  if names.isEmpty then none else some names

end ZodSchema

def bounds (min max : Option Nat) : List (String × Json) :=
  (min.toList.map fun n : Nat => ("minItems", Json.num n)) ++ max.toList.map fun n : Nat =>
    ("maxItems", Json.num n)

/-- What `toJSONSchema` reports of objects, arrays and wrappers, from what it reports of their
parts. -/
structure Reports (toJSONSchema : ZodSchema L → Schema Json) : Prop where
  object : ∀ shape strictness, toJSONSchema (.object shape strictness) =
    { type := some .object
      properties := some (shape.map fun p => (p.1, toJSONSchema p.2))
      required := ZodSchema.requiredNames shape
      additionalProperties := some strictness.additionalProperties }
  array : ∀ element min max, toJSONSchema (.array element min max) =
    { type := some .array, items := some (toJSONSchema element), other := bounds min max }
  optional : ∀ innerType, toJSONSchema (.optional innerType) = toJSONSchema innerType
  nullable : ∀ innerType, toJSONSchema (.nullable innerType) =
    { anyOf := some [toJSONSchema innerType, { type := some .null }] }
  default : ∀ innerType defaultValue, toJSONSchema (.default innerType defaultValue) =
    { toJSONSchema innerType with
      other := (toJSONSchema innerType).other.filter (·.1 ≠ "default") ++
      [("default", defaultValue)] }

def zodToOpenApi (toJSONSchema : ZodSchema L → Schema Json) (schema : ZodSchema L) : Schema Json :=
  convertNode (toJSONSchema schema.stripTransforms)

/-- A schema without pipes and transforms; a union stays as it is, whatever its options are. -/
inductive Plainly : ZodSchema L → Prop
  | leaf (l : L) : Plainly (.leaf l)
  | object {shape : List (String × ZodSchema L)} {strictness : Strictness} (fields : ∀ p ∈ shape,
      Plainly p.2) :
      Plainly (.object shape strictness)
  | array {e : ZodSchema L} {min max : Option Nat} (element : Plainly e) :
      Plainly (.array e min max)
  | optional {z : ZodSchema L} (innerType : Plainly z) : Plainly (.optional z)
  | nullable {z : ZodSchema L} (innerType : Plainly z) : Plainly (.nullable z)
  | default {z : ZodSchema L} {defaultValue : Json} (innerType : Plainly z) :
      Plainly (.default z defaultValue)
  | union {options : List (ZodSchema L)} : Plainly (.union options)

inductive Unbounded : ZodSchema L → Prop
  | leaf (l : L) : Unbounded (.leaf l)
  | object {shape : List (String × ZodSchema L)} {strictness : Strictness}
      (strictness_ne : strictness ≠ .loose)
      (fields : ∀ p ∈ shape, Unbounded p.2) : Unbounded (.object shape strictness)
  | array {e : ZodSchema L} (element : Unbounded e) : Unbounded (.array e none none)
  | optional {z : ZodSchema L} (innerType : Unbounded z) : Unbounded (.optional z)
  | nullable {z : ZodSchema L} (innerType : Unbounded z) : Unbounded (.nullable z)
  | default {z : ZodSchema L} {defaultValue : Json} (innerType : Unbounded z) :
      Unbounded (.default z defaultValue)
  | union {options : List (ZodSchema L)} : Unbounded (.union options)

section Stripping

variable {toJSONSchema : ZodSchema L → Schema Json} {z : ZodSchema L}
  {shape : List (String × ZodSchema L)}

theorem stripTransforms_object (shape : List (String × ZodSchema L)) (strictness : Strictness) :
    (ZodSchema.object shape strictness).stripTransforms =
      .object (shape.map fun p => (p.1, p.2.stripTransforms)) .default := by
  rw [ZodSchema.stripTransforms]
  exact congrArg (ZodSchema.object · .default)
    (List.attach_map_val (f := fun p : String × ZodSchema L => (p.1, p.2.stripTransforms)))

theorem isOptional_stripTransforms (hz : Plainly z) :
    z.stripTransforms.isOptional = z.isOptional := by
  induction hz with
  | leaf => rw [ZodSchema.stripTransforms]
  | object => rw [stripTransforms_object, ZodSchema.isOptional, ZodSchema.isOptional]
  | array => rw [ZodSchema.stripTransforms, ZodSchema.isOptional, ZodSchema.isOptional]
  | optional => rw [ZodSchema.stripTransforms, ZodSchema.isOptional, ZodSchema.isOptional]
  | nullable _ ih => rw [ZodSchema.stripTransforms, ZodSchema.isOptional, ZodSchema.isOptional, ih]
  | default => rw [ZodSchema.stripTransforms, ZodSchema.isOptional, ZodSchema.isOptional]
  | union => rw [ZodSchema.stripTransforms]

theorem requiredNames_stripTransforms (hshape : ∀ p ∈ shape, Plainly p.2) :
    ZodSchema.requiredNames (shape.map fun p => (p.1, p.2.stripTransforms)) =
      ZodSchema.requiredNames shape := by
  have hnames :
    ((shape.map fun p => (p.1, p.2.stripTransforms)).filter (!·.2.isOptional)).map (·.1) =
      (shape.filter (!·.2.isOptional)).map (·.1) := by
    induction shape with
    | nil => rfl
    | cons p shape ih =>
      obtain ⟨hp, hrest⟩ := List.forall_mem_cons.mp hshape
      have ih := ih hrest
      rw [List.map_cons, List.filter_cons, List.filter_cons, isOptional_stripTransforms hp]
      split
      · rw [List.map_cons, List.map_cons, ih]
      · exact ih
  rw [ZodSchema.requiredNames, hnames, ZodSchema.requiredNames]

theorem report_of_unbounded (h : Reports toJSONSchema) (hz : Plainly z) (hunbounded : Unbounded z) :
    toJSONSchema z.stripTransforms = toJSONSchema z := by
  induction hz with
  | leaf | union => rw [ZodSchema.stripTransforms]
  | @object shape strictness hfields ih =>
    cases hunbounded with
    | object hstrictness hkept =>
      have hproperties : (shape.map fun p => (p.1, p.2.stripTransforms)).map
        (fun p => (p.1, toJSONSchema p.2)) =
          shape.map fun p => (p.1, toJSONSchema p.2) := by
        rw [List.map_map]
        exact List.map_congr_left fun p hp => congrArg (Prod.mk p.1) (ih p hp (hkept p hp))
      rw [stripTransforms_object, h.object, h.object, requiredNames_stripTransforms hfields,
        hproperties]
      cases strictness with
      | default | strict => rfl
      | loose => exact absurd rfl hstrictness
  | array _ ih =>
    cases hunbounded with
    | array helement => rw [ZodSchema.stripTransforms, h.array, h.array, ih helement]
  | optional _ ih =>
    cases hunbounded with
    | optional hinner => rw [ZodSchema.stripTransforms, h.optional, h.optional, ih hinner]
  | nullable _ ih =>
    cases hunbounded with
    | nullable hinner => rw [ZodSchema.stripTransforms, h.nullable, h.nullable, ih hinner]
  | default _ ih =>
    cases hunbounded with
    | default hinner => rw [ZodSchema.stripTransforms, h.default, h.default, ih hinner]

def containerKeywords (n : Schema Json) :=
  (n.properties, n.items, n.additionalProperties, n.other.filter (·.1 ≠ "default"))

theorem containerKeywords_other_of_const {n : Schema Json} {other : List (String × Json)}
    (hc : n.const = none)
    (hother : other.filter (·.1 ≠ "default") = n.other.filter (·.1 ≠ "default")) :
    containerKeywords (convertNode { n with other := other }) =
      containerKeywords (convertNode n) := by
  have hc' : ({ n with other := other } : Schema Json).const = none := hc
  cases hu : nullUnion n with
  | none =>
    have hu' : nullUnion { n with other := other } = none := hu
    rw [convertNode_plain hc hu, convertNode_plain hc' hu']
    simp only [containerKeywords, Schema.mapParts, hother]
  | some union =>
    obtain ⟨key, remaining⟩ := union
    have hu' : nullUnion { n with other := other } = some (key, remaining) := hu
    rcases remaining with _ | ⟨only, _ | ⟨second, rest⟩⟩
    · rw [convertNode_nothing hc hu, convertNode_nothing hc' hu']
    · rw [convertNode_only hc hu, convertNode_only hc' hu']
    · rw [convertNode_several hc hu, convertNode_several hc' hu']

theorem containerKeywords_other {n : Schema Json} {other : List (String × Json)}
    (hother : other.filter (·.1 ≠ "default") = n.other.filter (·.1 ≠ "default")) :
    containerKeywords (convertNode { n with other := other }) =
      containerKeywords (convertNode n) := by
  by_cases hc : n.const = none
  · exact containerKeywords_other_of_const hc hother
  · obtain ⟨c, hc⟩ := Option.ne_none_iff_exists'.mp hc
    have hc' : ({ n with other := other } : Schema Json).const = some c := hc
    have hrest : ({ n with const := none } : Schema Json).const = none := rfl
    rw [convertNode_const hc, convertNode_const hc']
    exact containerKeywords_other_of_const hrest hother

theorem containerKeywords_nullable {n : Schema Json} (htype : n.type ≠ some .null) :
    containerKeywords (convertNode { anyOf := some [n, { type := some .null }] }) =
      containerKeywords (convertNode n) := by
  have hnull : isNullSchema n = false := by simpa [isNullSchema] using htype
  have herase : List.eraseP isNullSchema [n, { type := some .null }] = [n] := by
    rw [List.eraseP_cons_of_neg (by simp [hnull]), List.eraseP_cons_of_pos rfl]
  have hunion : nullUnion { anyOf := some [n, { type := some .null }] } = some (.anyOf, [n]) := by
    simp [nullUnion, UnionKeyword.variants, isNullSchema, herase]
  rw [convertNode_only rfl hunion]
  rfl

/-- A schema that stays as it is, or one whose container shows whether something is lost. -/
theorem stripTransforms_cases (h : Reports toJSONSchema) (hz : Plainly z) :
    z.stripTransforms = z ∧ Unbounded z ∨
    (toJSONSchema z).type ≠ some .null ∧ (toJSONSchema z.stripTransforms).type ≠ some .null ∧
      (containerKeywords (convertNode (toJSONSchema z.stripTransforms)) = containerKeywords
        (convertNode (toJSONSchema z)) →
        Unbounded z) := by
  induction hz with
  | leaf l => exact .inl ⟨by rw [ZodSchema.stripTransforms], .leaf l⟩
  | union => exact .inl ⟨by rw [ZodSchema.stripTransforms], .union⟩
  | @object shape strictness hfields ih =>
    refine .inr ?_
    rw [stripTransforms_object, h.object, h.object, convertNode_plain rfl rfl,
      convertNode_plain rfl rfl]
    refine ⟨by simp, by simp, fun heq => ?_⟩
    simp only [containerKeywords, Schema.mapParts, Prod.mk.injEq, Option.map_some,
      Option.some.injEq, List.map_map, List.map_inj_left, Function.comp_apply, true_and] at heq
    obtain ⟨hfields, hadditional, _⟩ := heq
    refine .object ?_ fun p hp => ?_
    · rintro rfl
      cases hadditional
    · rcases ih p hp with ⟨_, hunbounded⟩ | ⟨_, _, hseen⟩
      · exact hunbounded
      · exact hseen (congrArg containerKeywords (hfields p hp))
  | @array e min max _ ih =>
    refine .inr ?_
    rw [ZodSchema.stripTransforms, h.array, h.array, convertNode_plain rfl rfl,
      convertNode_plain rfl rfl]
    refine ⟨by simp, by simp, fun heq => ?_⟩
    simp only [containerKeywords, Schema.mapParts, Prod.mk.injEq, Option.map_some,
      Option.some.injEq] at heq
    obtain ⟨_, hitems, _, hbounds⟩ := heq
    have helement : Unbounded e := by
      rcases ih with ⟨_, hunbounded⟩ | ⟨_, _, hseen⟩
      · exact hunbounded
      · exact hseen (congrArg containerKeywords hitems)
    cases min <;> cases max <;> simp [bounds] at hbounds
    exact .array helement
  | optional _ ih =>
    rw [ZodSchema.stripTransforms, h.optional, h.optional]
    rcases ih with ⟨hsame, hunbounded⟩ | ⟨htype, htype', hseen⟩
    · exact .inl ⟨by rw [hsame], .optional hunbounded⟩
    · exact .inr ⟨htype, htype', fun heq => .optional (hseen heq)⟩
  | nullable _ ih =>
    rw [ZodSchema.stripTransforms, h.nullable, h.nullable]
    rcases ih with ⟨hsame, hunbounded⟩ | ⟨htype, htype', hseen⟩
    · exact .inl ⟨by rw [hsame], .nullable hunbounded⟩
    · rw [containerKeywords_nullable htype, containerKeywords_nullable htype']
      exact .inr ⟨by simp, by simp, fun heq => .nullable (hseen heq)⟩
  | default _ ih =>
    have hfilter : ∀ (other : List (String × Json)) (v : Json),
        (other.filter (·.1 ≠ "default") ++ [("default", v)]).filter (·.1 ≠ "default") =
          other.filter (·.1 ≠ "default") := by
      intro other v
      simp
    rw [ZodSchema.stripTransforms, h.default, h.default]
    rcases ih with ⟨hsame, hunbounded⟩ | ⟨htype, htype', hseen⟩
    · exact .inl ⟨by rw [hsame], .default hunbounded⟩
    · rw [containerKeywords_other (hfilter _ _), containerKeywords_other (hfilter _ _)]
      exact .inr ⟨htype, htype', fun heq => .default (hseen heq)⟩

theorem zodToOpenApi_eq_iff (h : Reports toJSONSchema) (hz : Plainly z) :
    zodToOpenApi toJSONSchema z = convertNode (toJSONSchema z) ↔ Unbounded z := by
  constructor
  · intro heq
    rcases stripTransforms_cases h hz with ⟨_, hunbounded⟩ | ⟨_, _, hseen⟩
    · exact hunbounded
    · exact hseen (congrArg containerKeywords heq)
  · intro hunbounded
    rw [zodToOpenApi, report_of_unbounded h hz hunbounded]

def typedReport (z : ZodSchema TypeName) : Schema Json :=
  match z with
  | .leaf type => { type := some type }
  | .object shape strictness =>
    { type := some .object
      properties := some (shape.attach.map fun ⟨p, _⟩ => (p.1, typedReport p.2))
      required := ZodSchema.requiredNames shape
      additionalProperties := some strictness.additionalProperties }
  | .array element min max =>
    { type := some .array, items := some (typedReport element), other := bounds min max }
  | .optional innerType => typedReport innerType
  | .nullable innerType => { anyOf := some [typedReport innerType, { type := some .null }] }
  | .default innerType defaultValue =>
    let inner := typedReport innerType
    { inner with other := inner.other.filter (·.1 ≠ "default") ++ [("default", defaultValue)] }
  | .union options => { anyOf := some (options.attach.map fun ⟨option, _⟩ => typedReport option) }
  | .pipe _ output => typedReport output
  | .transform => {}
termination_by z
decreasing_by
  · exact ZodSchema.sizeOf_field_lt ‹_›
  all_goals
    simp
    try omega
  have hlt := List.sizeOf_lt_of_mem ‹option ∈ options›
  omega

theorem typedReport_reports : Reports typedReport where
  object shape strictness := by
    rw [typedReport,
      List.attach_map_val (f := fun p : String × ZodSchema TypeName => (p.1, typedReport p.2))]
  array element min max := by rw [typedReport]
  optional innerType := by rw [typedReport]
  nullable innerType := by rw [typedReport]
  default innerType defaultValue := by rw [typedReport]

def taggedNote : ZodSchema TypeName :=
  .object [("tags", .array (.leaf .string) none none),
    ("note", .optional (.nullable (.leaf .string)))] .default

theorem taggedNote_in_sync :
    zodToOpenApi typedReport taggedNote = convertNode (typedReport taggedNote) := by
  refine (zodToOpenApi_eq_iff typedReport_reports (.object fun p hp => ?_)).mpr
    (.object nofun fun p hp => ?_)
  · rcases List.mem_pair.mp hp with rfl | rfl
    · exact .array (.leaf _)
    · exact .optional (.nullable (.leaf _))
  · rcases List.mem_pair.mp hp with rfl | rfl
    · exact .array (.leaf _)
    · exact .optional (.nullable (.leaf _))

/-- `z.array(z.string()).max(3)` loses its bound. -/
theorem bound_lost : zodToOpenApi typedReport (.array (.leaf .string) none (some 3)) ≠
    convertNode (typedReport (.array (.leaf .string) none (some 3))) := by
  intro heq
  have hother := congrArg Schema.other heq
  rw [zodToOpenApi, ZodSchema.stripTransforms, typedReport_reports.array, typedReport_reports.array,
    convertNode_plain rfl rfl, convertNode_plain rfl rfl] at hother
  cases hother

end Stripping

end SaasBackend
