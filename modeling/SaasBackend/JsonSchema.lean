import Mathlib.Data.List.Basic

set_option autoImplicit false

namespace JsonSchema

inductive TypeName where
  | null | boolean | object | array | number | integer | string
  deriving DecidableEq, Repr

structure Values (V : Type) where
  null : V
  isNull : V → Bool
  fields : V → Option (List (String × V))
  items : V → Option (List V)
  same : V → V → Bool
  admits : TypeName → V → Bool
  /-- what any other keyword asks, by its name and its value -/
  meets : String → V → V → Bool
  isNull_iff : ∀ v, isNull v = true ↔ v = null
  admits_null : ∀ v, admits .null v = isNull v

structure Schema (V : Type) where
  dollarSchema : Option String := none
  type : Option TypeName := none
  const : Option V := none
  enum : Option (List V) := none
  properties : Option (List (String × Schema V)) := none
  required : Option (List String) := none
  items : Option (Schema V) := none
  additionalProperties : Option (Bool ⊕ Schema V) := none
  anyOf : Option (List (Schema V)) := none
  oneOf : Option (List (Schema V)) := none
  allOf : Option (List (Schema V)) := none
  not : Option (Schema V) := none
  nullable : Bool := false
  description : Option String := none
  exampleValue : Option V := none
  /-- the keywords that are not named here -/
  other : List (String × V) := []

inductive Dialect where
  | jsonSchema
  /-- with `nullable`, without `const` -/
  | openApi
  deriving DecidableEq, Repr

namespace Schema

variable {V : Type} {n s : Schema V}

def parts (n : Schema V) : List (Schema V) :=
  (n.properties.getD []).map (·.2) ++ n.items.toList ++
    (n.additionalProperties.bind Sum.getRight?).toList ++
    n.anyOf.getD [] ++ n.oneOf.getD [] ++ n.allOf.getD [] ++ n.not.toList

theorem mem_parts :
    s ∈ n.parts ↔ (∃ properties, n.properties = some properties ∧ ∃ p ∈ properties, p.2 = s) ∨
    n.items = some s ∨ n.additionalProperties = some (.inr s) ∨
    (∃ variants, n.anyOf = some variants ∧ s ∈ variants) ∨
      (∃ variants, n.oneOf = some variants ∧ s ∈ variants) ∨
    (∃ schemas, n.allOf = some schemas ∧ s ∈ schemas) ∨ n.not = some s := by
  have hlist : ∀ {α : Type} (o : Option (List α)) (a : α), a ∈ o.getD [] ↔
      ∃ l, o = some l ∧ a ∈ l := by
    intro α o a
    cases o <;> simp
  simp only [parts, List.mem_append, List.mem_map, Option.mem_toList, Option.bind_eq_some_iff,
    Sum.getRight?_eq_some_iff, hlist, or_assoc]
  grind

theorem sizeOf_lt [SizeOf V] (h : s ∈ n.parts) : sizeOf s < sizeOf n := by
  have hlist : ∀ {l : List (Schema V)}, s ∈ l → sizeOf s < sizeOf (some l) := by
    intro l hs
    have hlt := List.sizeOf_lt_of_mem hs
    rw [Option.some.sizeOf_spec]
    omega
  rcases mem_parts.mp h with ⟨properties, heq, p, hp, rfl⟩ | heq | heq | ⟨l, heq, hs⟩ | ⟨l, heq,
    hs⟩ | ⟨l, heq, hs⟩ | heq <;>
    cases n <;> cases heq <;> rw [Schema.mk.sizeOf_spec]
  · have hlt := List.sizeOf_lt_of_mem hp
    have hpair : sizeOf p = 1 + sizeOf p.1 + sizeOf p.2 := Prod.mk.sizeOf_spec _ _
    rw [Option.some.sizeOf_spec properties]
    omega
  · rw [Option.some.sizeOf_spec s]
    omega
  · rw [Option.some.sizeOf_spec (Sum.inr s), Sum.inr.sizeOf_spec]
    omega
  · have hlt := hlist hs
    omega
  · have hlt := hlist hs
    omega
  · have hlt := hlist hs
    omega
  · rw [Option.some.sizeOf_spec s]
    omega

variable (reading : Values V) (d : Dialect)

/-- `nullable` adds null to the type that is named beside it. -/
def typeMeets (n : Schema V) (v : V) : Bool :=
  n.type.all fun t => reading.admits t v || (d == .openApi && n.nullable && reading.isNull v)

def constMeets (n : Schema V) (v : V) : Bool := d == .openApi || n.const.all (reading.same v)

def enumMeets (n : Schema V) (v : V) : Bool := n.enum.all fun values => values.any (reading.same v)

def requiredMeets (n : Schema V) (v : V) : Bool :=
  n.required.all fun names => (reading.fields v).all fun fields => names.all fun k =>
    (fields.lookup k).isSome

def otherMeets (n : Schema V) (v : V) : Bool :=
    n.other.all fun keyword => reading.meets keyword.1 keyword.2 v

def declares (n : Schema V) (name : String) : Bool := ((n.properties.getD []).lookup name).isSome

def valid (n : Schema V) (v : V) : Bool :=
  typeMeets reading d n v && constMeets reading d n v && enumMeets reading n v &&
    requiredMeets reading n v &&
  otherMeets reading n v &&
  (n.properties.attach.all fun ⟨properties, _⟩ => (reading.fields v).all fun fields =>
    properties.attach.all fun ⟨p, _⟩ => (fields.lookup p.1).all fun w => valid p.2 w) &&
  (n.items.attach.all fun ⟨s, _⟩ => (reading.items v).all fun items => items.all fun w =>
    valid s w) &&
  (n.additionalProperties.attach.all fun a => (reading.fields v).all fun fields =>
    fields.all fun field =>
    n.declares field.1 || match a with
      | ⟨.inl allowed, _⟩ => allowed
      | ⟨.inr s, _⟩ => valid s field.2) &&
  (n.anyOf.attach.all fun ⟨variants, _⟩ => variants.attach.any fun ⟨s, _⟩ => valid s v) &&
  (n.oneOf.attach.all fun ⟨variants, _⟩ => variants.attach.countP (fun ⟨s, _⟩ => valid s v) == 1) &&
  (n.allOf.attach.all fun ⟨schemas, _⟩ => schemas.attach.all fun ⟨s, _⟩ => valid s v) &&
  (n.not.attach.all fun ⟨s, _⟩ => !valid s v)
termination_by n
decreasing_by
  · exact sizeOf_lt (mem_parts.mpr (.inl ⟨_, ‹_›, _, ‹_›, rfl⟩))
  all_goals exact sizeOf_lt (mem_parts.mpr (by simp_all))

/-- The keywords other than `type`, `const` and `enum`, with `f` for the schemas in them. -/
def restMeets (f : Schema V → V → Bool) (n : Schema V) (v : V) : Bool :=
  requiredMeets reading n v &&
  otherMeets reading n v &&
  (n.properties.all fun properties => (reading.fields v).all fun fields =>
    properties.all fun p => (fields.lookup p.1).all fun w => f p.2 w) &&
  (n.items.all fun s => (reading.items v).all fun items => items.all fun w => f s w) &&
  (n.additionalProperties.all fun a => (reading.fields v).all fun fields => fields.all fun field =>
    n.declares field.1 || match a with
      | .inl allowed => allowed
      | .inr s => f s field.2) &&
  (n.anyOf.all fun variants => variants.any fun s => f s v) &&
  (n.oneOf.all fun variants => variants.countP (fun s => f s v) == 1) &&
  (n.allOf.all fun schemas => schemas.all fun s => f s v) &&
  (n.not.all fun s => !f s v)

theorem valid_eq (n : Schema V) (v : V) : valid reading d n v =
    (typeMeets reading d n v && constMeets reading d n v && enumMeets reading n v &&
      restMeets reading (valid reading d) n v) := by
  have hoption : ∀ {α : Type} {o : Option α} {f : {a // o = some a} → Bool} {g : α → Bool},
      (∀ a h, f ⟨a, h⟩ = g a) → o.attach.all f = o.all g := by
    intro α o f g hf
    cases o with
    | none => rfl
    | some a => exact hf a rfl
  rw [valid]
  generalize valid reading d = f
  simp only [restMeets, Bool.and_assoc]
  refine congrArg₂ and rfl
    (congrArg₂ and rfl (congrArg₂ and rfl (congrArg₂ and rfl (congrArg₂ and rfl (congrArg₂ and ?_
    (congrArg₂ and ?_
      (congrArg₂ and ?_ (congrArg₂ and ?_ (congrArg₂ and ?_ (congrArg₂ and ?_ ?_))))))))))
  · refine hoption fun properties _ => congrArg (Option.all · (reading.fields v))
      (funext fun fields => ?_)
    rw [List.all_subtype (g := fun p => (fields.lookup p.1).all fun w => f p.2 w) fun _ _ => rfl,
      List.unattach_attach]
  · exact hoption fun s _ => rfl
  · exact hoption fun a _ => by cases a <;> rfl
  · refine hoption fun variants _ => ?_
    simp
  · refine hoption fun variants _ => ?_
    change (variants.attach.countP (fun s => f s.1 v) == 1) = _
    rw [List.countP_attach (p := fun s => f s v)]
  · refine hoption fun schemas _ => ?_
    simp
  · exact hoption fun s _ => rfl

section Keywords

variable {reading d} {v : V}

/-! Each keyword has its condition. -/

theorem typeMeets_jsonSchema :
    typeMeets reading .jsonSchema n v = n.type.all (reading.admits · v) := by
  have hdialect : (Dialect.jsonSchema == Dialect.openApi) = false := rfl
  simp [typeMeets, hdialect]

theorem valid_empty : ({} : Schema V).valid reading d v = true := by
  rw [valid_eq]
  simp [typeMeets, constMeets, enumMeets, restMeets, requiredMeets, otherMeets]

theorem valid_named (t : TypeName) :
    ({ type := some t } : Schema V).valid reading d v = reading.admits t v := by
  rw [valid_eq]
  simp [typeMeets, constMeets, enumMeets, restMeets, requiredMeets, otherMeets]

theorem valid_const : valid reading .jsonSchema n v =
    (n.const.all (reading.same v) && valid reading .jsonSchema { n with const := none } v) := by
  have hconst : constMeets reading .jsonSchema n v = n.const.all (reading.same v) := Bool.false_or _
  rw [valid_eq, valid_eq, hconst]
  change _ = (_ && (typeMeets reading .jsonSchema n v && true && enumMeets reading n v &&
    restMeets reading (valid reading .jsonSchema) n v))
  rw [Bool.and_true]
  ac_rfl

theorem valid_enum :
    valid reading d n v = (enumMeets reading n v && valid reading d { n with enum := none } v) := by
  rw [valid_eq, valid_eq]
  change _ = (_ && (typeMeets reading d n v && constMeets reading d n v && true &&
    restMeets reading (valid reading d) n v))
  rw [Bool.and_true]
  ac_rfl

theorem valid_enum_singleton {c : V} : valid reading d { n with enum := some [c] } v =
    (reading.same v c && valid reading d { n with enum := none } v) := by
  rw [valid_enum]
  simp [enumMeets]

theorem valid_anyOf : valid reading d n v =
    ((n.anyOf.all fun variants => variants.any (valid reading d · v)) &&
      valid reading d { n with anyOf := none } v) := by
  rw [valid_eq, valid_eq]
  simp only [typeMeets, constMeets, enumMeets, restMeets, requiredMeets, otherMeets, declares,
    Option.all_none, Bool.and_true]
  ac_rfl

theorem valid_oneOf :
    valid reading d n v =
    ((n.oneOf.all fun variants => variants.countP (valid reading d · v) == 1) &&
    valid reading d { n with oneOf := none } v) := by
  rw [valid_eq, valid_eq]
  simp only [typeMeets, constMeets, enumMeets, restMeets, requiredMeets, otherMeets, declares,
    Option.all_none, Bool.and_true]
  ac_rfl

theorem valid_annotated (dollarSchema description : Option String) (exampleValue : Option V) :
    valid reading d { n with
      dollarSchema := dollarSchema, description := description, exampleValue := exampleValue } v =
      valid reading d n v := by
  rw [valid_eq, valid_eq]
  rfl

theorem nullable_self (h : n.nullable = true) : { n with nullable := true } = n := by
  cases n
  cases h
  rfl

theorem valid_nullable {nullable : Bool} (hv : reading.isNull v = false) :
    valid reading d { n with nullable := nullable } v = valid reading d n v := by
  have htype : typeMeets reading d { n with nullable := nullable } v = typeMeets reading d n v := by
    simp [typeMeets, hv]
  rw [valid_eq, valid_eq, htype]
  rfl

end Keywords

def mapParts (g : Schema V → Schema V) (n : Schema V) : Schema V :=
  { n with
    properties := n.properties.map fun properties => properties.map fun p => (p.1, g p.2)
    items := n.items.map g
    additionalProperties := n.additionalProperties.map (Sum.map id g)
    anyOf := n.anyOf.map (·.map g)
    oneOf := n.oneOf.map (·.map g)
    allOf := n.allOf.map (·.map g)
    not := n.not.map g }

theorem parts_mapParts (g : Schema V → Schema V) (n : Schema V) :
    (n.mapParts g).parts = n.parts.map g := by
  have hlist : ∀ o : Option (List (Schema V)), (o.map (·.map g)).getD [] = (o.getD []).map g := by
    rintro (_ | l) <;> rfl
  have hproperties : ((n.mapParts g).properties.getD []).map (·.2) =
      ((n.properties.getD []).map (·.2)).map g := by
    cases h : n.properties <;> simp [mapParts, h]
  have hadditional : ((n.mapParts g).additionalProperties.bind Sum.getRight?).toList =
      (n.additionalProperties.bind Sum.getRight?).toList.map g := by
    rcases h : n.additionalProperties with _ | _ | _ <;> simp [mapParts, h]
  simp only [parts, hproperties, hadditional, List.map_append]
  simp only [mapParts, hlist, Option.toList_map]

theorem declares_mapParts (g : Schema V → Schema V) (n : Schema V) (name : String) :
    (n.mapParts g).declares name = n.declares name := by
  have hlookup : ∀ ps : List (String × Schema V),
      ((ps.map fun p => (p.1, g p.2)).lookup name).isSome = (ps.lookup name).isSome := by
    intro ps
    induction ps with
    | nil => rfl
    | cons p ps ih =>
      rw [List.map_cons, List.lookup_cons, List.lookup_cons]
      split <;> simp_all
  cases h : n.properties <;> simp [declares, mapParts, h, hlookup]

theorem restMeets_mapParts {f f' : Schema V → V → Bool} {g : Schema V → Schema V}
    (hparts : ∀ s ∈ n.parts, ∀ w, f' (g s) w = f s w) (v : V) :
    restMeets reading f' (n.mapParts g) v = restMeets reading f n v := by
  have hlist : ∀ l : List (Schema V), (∀ s ∈ l, s ∈ n.parts) →
    (l.map g).any (f' · v) = l.any (f · v) ∧
      (l.map g).countP (f' · v) = l.countP (f · v) ∧ (l.map g).all (f' · v) = l.all (f · v) := by
    intro l hl
    induction l with
    | nil => exact ⟨rfl, rfl, rfl⟩
    | cons s l ih =>
      obtain ⟨hs, hl⟩ := List.forall_mem_cons.mp hl
      obtain ⟨hany, hcount, hall⟩ := ih hl
      simp [List.countP_cons, hparts s hs v, ← hany, ← hcount, ← hall]
  have hproperties : ∀ ps : List (String × Schema V), (∀ p ∈ ps, p.2 ∈ n.parts) →
    ∀ fields : List (String × V),
      ((ps.map fun p => (p.1, g p.2)).all fun p => (fields.lookup p.1).all fun w => f' p.2 w) =
        ps.all fun p => (fields.lookup p.1).all fun w => f p.2 w := by
    intro ps hps fields
    induction ps with
    | nil => rfl
    | cons p ps ih =>
      obtain ⟨hp, hps⟩ := List.forall_mem_cons.mp hps
      rw [List.map_cons, List.all_cons, List.all_cons, ih hps]
      simp only [hparts p.2 hp]
  unfold restMeets
  simp only [Bool.and_assoc]
  refine congrArg₂ and rfl
    (congrArg₂ and rfl (congrArg₂ and ?_ (congrArg₂ and ?_ (congrArg₂ and ?_ (congrArg₂ and ?_
    (congrArg₂ and ?_ (congrArg₂ and ?_ ?_)))))))
  · cases h : n.properties with
    | none => simp [mapParts, h]
    | some ps =>
      have hps : ∀ p ∈ ps, p.2 ∈ n.parts := fun p hp => mem_parts.mpr (.inl ⟨ps, h, p, hp, rfl⟩)
      simp only [mapParts, h, Option.map_some, Option.all_some, hproperties ps hps]
  · cases h : n.items with
    | none => simp [mapParts, h]
    | some s =>
      simp only [mapParts, h, Option.map_some, Option.all_some,
        hparts s (mem_parts.mpr (.inr (.inl h)))]
  · rcases h : n.additionalProperties with _ | allowed | s
    · simp [mapParts, h]
    · simp only [declares_mapParts]
      simp [mapParts, h]
    · simp only [declares_mapParts]
      simp only [mapParts, h, Option.map_some, Option.all_some, Sum.map_inr,
        hparts s (mem_parts.mpr (.inr (.inr (.inl h))))]
  · cases h : n.anyOf with
    | none => simp [mapParts, h]
    | some l =>
      have hl : ∀ s ∈ l, s ∈ n.parts :=
        fun s hs => mem_parts.mpr (.inr (.inr (.inr (.inl ⟨l, h, hs⟩))))
      simp only [mapParts, h, Option.map_some, Option.all_some, (hlist l hl).1]
  · cases h : n.oneOf with
    | none => simp [mapParts, h]
    | some l =>
      have hl : ∀ s ∈ l, s ∈ n.parts :=
        fun s hs => mem_parts.mpr (.inr (.inr (.inr (.inr (.inl ⟨l, h, hs⟩)))))
      simp only [mapParts, h, Option.map_some, Option.all_some, (hlist l hl).2.1]
  · cases h : n.allOf with
    | none => simp [mapParts, h]
    | some l =>
      have hl : ∀ s ∈ l, s ∈ n.parts :=
        fun s hs => mem_parts.mpr (.inr (.inr (.inr (.inr (.inr (.inl ⟨l, h, hs⟩))))))
      simp only [mapParts, h, Option.map_some, Option.all_some, (hlist l hl).2.2]
  · cases h : n.not with
    | none => simp [mapParts, h]
    | some s =>
      simp only [mapParts, h, Option.map_some, Option.all_some,
        hparts s (mem_parts.mpr (.inr (.inr (.inr (.inr (.inr (.inr h)))))))]

end Schema

end JsonSchema
