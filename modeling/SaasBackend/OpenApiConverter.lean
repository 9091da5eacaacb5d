import SaasBackend.JsonSchema
import SaasBackend.FeatureFlagService

/-! convertNode of src/modules/docs/openapi.converter.js. -/

set_option autoImplicit false

namespace SaasBackend
open JsonSchema

mutual

/-- Equality of JSON values; the order of an object's fields does not count. -/
def Json.same : Json → Json → Bool
  | .null, .null => true
  | .bool a, .bool b => a == b
  | .num a, .num b => a == b
  | .str a, .str b => a == b
  | .arr a, .arr b => sameItems a b
  | .obj a, .obj b => a.length == b.length && sameFields a b
  | _, _ => false

def sameItems : List Json → List Json → Bool
  | [], [] => true
  | a :: as, b :: bs => a.same b && sameItems as bs
  | _, _ => false

def sameFields : List (String × Json) → List (String × Json) → Bool
  | [], _ => true
  | (name, a) :: as, bs => (bs.lookup name).any a.same && sameFields as bs

end

/-- JSON values as a schema sees them; `meets` is the meaning of the keywords that the conversion
does not name. -/
def jsonValues (meets : String → Json → Json → Bool) : Values Json where
  null := .null
  isNull | .null => true | _ => false
  fields | .obj fields => some fields | _ => none
  items | .arr items => some items | _ => none
  same := Json.same
  meets := meets
  admits
    | .null, .null | .boolean, .bool _ | .object, .obj _ | .array, .arr _ | .number,
        .num _ | .string, .str _ => true
    | .integer, .num q => q.den == 1
    | _, _ => false
  isNull_iff v := by cases v <;> simp
  admits_null v := by cases v <;> rfl

theorem Json.sizeOf_pos (v : Json) : 0 < sizeOf v := by
  cases v <;> simp only [Json.null.sizeOf_spec, Json.bool.sizeOf_spec, Json.num.sizeOf_spec,
    Json.str.sizeOf_spec, Json.arr.sizeOf_spec, Json.obj.sizeOf_spec] <;> omega

inductive UnionKeyword where
  | anyOf | oneOf
  deriving DecidableEq, Repr

def UnionKeyword.variants (key : UnionKeyword) (node : Schema Json) : Option (List (Schema Json)) :=
  match key with
  | .anyOf => node.anyOf
  | .oneOf => node.oneOf

def isNullSchema (node : Schema Json) : Bool := node.type == some .null

/-- The first union with a null variant, and its remaining variants. -/
def nullUnion (node : Schema Json) : Option (UnionKeyword × List (Schema Json)) :=
  [UnionKeyword.anyOf, .oneOf].findSome? fun key =>
    (key.variants node).bind fun variants =>
      if variants.any isNullSchema then some (key, variants.eraseP isNullSchema) else none

theorem nullUnion_eq_some {node : Schema Json} {key : UnionKeyword} {remaining : List (Schema Json)}
    (h : nullUnion node = some (key, remaining)) :
    ∃ variants, key.variants node = some variants ∧ variants.any isNullSchema = true ∧
      remaining = variants.eraseP isNullSchema := by
  obtain ⟨k, _, hk⟩ := List.exists_of_findSome?_eq_some h
  obtain ⟨variants, hvariants, hsome⟩ := Option.bind_eq_some_iff.mp hk
  split at hsome
  · rename_i hany
    cases hsome
    exact ⟨variants, hvariants, hany, rfl⟩
  · cases hsome

theorem mem_parts_of_variants {node s : Schema Json} {key : UnionKeyword}
    {variants : List (Schema Json)} (h : key.variants node = some variants) (hs : s ∈ variants) :
    s ∈ node.parts := by
  cases key with
  | anyOf => exact Schema.mem_parts.mpr (.inr (.inr (.inr (.inl ⟨variants, h, hs⟩))))
  | oneOf => exact Schema.mem_parts.mpr (.inr (.inr (.inr (.inr (.inl ⟨variants, h, hs⟩)))))

theorem mem_parts_of_nullUnion {node s : Schema Json} {key : UnionKeyword}
    {remaining : List (Schema Json)} (h : nullUnion node = some (key, remaining))
    (hs : s ∈ remaining) : s ∈ node.parts := by
  obtain ⟨variants, hvariants, _, rfl⟩ := nullUnion_eq_some h
  exact mem_parts_of_variants hvariants (List.mem_of_mem_eraseP hs)

theorem sizeOf_strip {node : Schema Json} {c : Json} (h : node.const = some c) :
    sizeOf { node with const := none } < sizeOf node := by
  cases node
  cases h
  have hpos := c.sizeOf_pos
  simp only [Schema.mk.sizeOf_spec, Option.some.sizeOf_spec c, Option.none.sizeOf_spec]
  omega

def UnionKeyword.schema (key : UnionKeyword) (variants : List (Schema Json)) : Schema Json :=
  match key with
  | .anyOf => { anyOf := some variants }
  | .oneOf => { oneOf := some variants }

def convertNode (node : Schema Json) : Schema Json :=
  match _hconst : node.const with
  | some c => { convertNode { node with const := none } with enum := some [c] }
  | none =>
    -- collapseNullableUnion
    match _hunion : nullUnion node with
    | some (_, []) => { nullable := true }
    | some (_, [only]) =>
      let converted := convertNode only
      { converted with
        nullable := true
        description :=
        if node.description.getD "" = "" then converted.description else node.description
        exampleValue := node.exampleValue.or converted.exampleValue }
    | some (key, remaining) =>
      { key.schema (remaining.attach.map fun ⟨s, _⟩ => convertNode s) with nullable := true }
    | none =>
      { node with
        dollarSchema := none
        properties := node.properties.attach.map fun ⟨properties, _⟩ =>
          properties.attach.map fun ⟨p, _⟩ => (p.1, convertNode p.2)
        items := node.items.attach.map fun ⟨s, _⟩ => convertNode s
        additionalProperties := node.additionalProperties.attach.map fun
          | ⟨.inl allowed, _⟩ => .inl allowed
          | ⟨.inr s, _⟩ => .inr (convertNode s)
        anyOf := node.anyOf.attach.map fun ⟨variants, _⟩ => variants.attach.map fun ⟨s, _⟩ =>
        convertNode s
        oneOf := node.oneOf.attach.map fun ⟨variants, _⟩ => variants.attach.map fun ⟨s, _⟩ =>
        convertNode s
        allOf := node.allOf.attach.map fun ⟨schemas, _⟩ => schemas.attach.map fun ⟨s, _⟩ =>
        convertNode s
        not := node.not.attach.map fun ⟨s, _⟩ => convertNode s }
termination_by node
decreasing_by
  · exact sizeOf_strip ‹_›
  · exact Schema.sizeOf_lt (mem_parts_of_nullUnion ‹_› (.head _))
  · exact Schema.sizeOf_lt (mem_parts_of_nullUnion ‹_› ‹_›)
  · exact Schema.sizeOf_lt (Schema.mem_parts.mpr (.inl ⟨_, ‹_›, _, ‹_›, rfl⟩))
  all_goals exact Schema.sizeOf_lt (Schema.mem_parts.mpr (by simp_all))

section Equations

variable {node only : Schema Json} {c : Json} {key : UnionKeyword} {remaining : List (Schema Json)}

theorem convertNode_const (hc : node.const = some c) :
    convertNode node = { convertNode { node with const := none } with enum := some [c] } := by
  rw [convertNode]
  split
  · rename_i c' hc'
    obtain rfl : c = c' := Option.some.inj (hc.symm.trans hc')
    rfl
  · rename_i hc'
    cases hc.symm.trans hc'

theorem convertNode_nothing (hc : node.const = none) (hu : nullUnion node = some (key, [])) :
    convertNode node = { nullable := true } := by
  rw [convertNode]
  split
  · rename_i hc'
    cases hc.symm.trans hc'
  · split <;> rename_i hu' <;> cases hu.symm.trans hu'
    · rfl
    · simp_all

theorem convertNode_only (hc : node.const = none) (hu : nullUnion node = some (key, [only])) :
    convertNode node =
      { convertNode only with
        nullable := true
        description :=
        if node.description.getD "" = "" then (convertNode only).description else node.description
        exampleValue := node.exampleValue.or (convertNode only).exampleValue } := by
  rw [convertNode]
  split
  · rename_i hc'
    cases hc.symm.trans hc'
  · split <;> rename_i hu' <;> cases hu.symm.trans hu'
    · rfl
    · simp_all

theorem convertNode_several {second : Schema Json} (hc : node.const = none)
    (hu : nullUnion node = some (key, only :: second :: remaining)) :
    convertNode node =
      { key.schema ((only :: second :: remaining).map convertNode) with nullable := true } := by
  rw [convertNode]
  split
  · rename_i hc'
    cases hc.symm.trans hc'
  · split <;> rename_i hu' <;> cases hu.symm.trans hu'
    simp

theorem convertNode_plain (hc : node.const = none) (hu : nullUnion node = none) :
    convertNode node = { node.mapParts convertNode with dollarSchema := none } := by
  have hoption : ∀ {α β : Type} {o : Option α} {f : {a // o = some a} → β} {g : α → β},
      (∀ a h, f ⟨a, h⟩ = g a) → o.attach.map f = o.map g := by
    intro α β o f g hf
    cases o with
    | none => rfl
    | some a => exact congrArg some (hf a rfl)
  rw [convertNode]
  split
  · rename_i hc'
    cases hc.symm.trans hc'
  · split
    · rename_i hu'
      cases hu.symm.trans hu'
    · rename_i hu'
      cases hu.symm.trans hu'
    · rename_i hu'
      cases hu.symm.trans hu'
    · generalize convertNode = g
      unfold Schema.mapParts
      congr 1
      · exact hoption fun properties _ =>
          List.attach_map_val (f := fun p : String × Schema Json => (p.1, g p.2))
      · exact hoption fun s _ => rfl
      · exact hoption fun a _ => by cases a <;> rfl
      · refine hoption fun variants _ => ?_
        simp
      · refine hoption fun variants _ => ?_
        simp
      · refine hoption fun schemas _ => ?_
        simp
      · exact hoption fun s _ => rfl

end Equations

section Meaning

variable (reading : Values Json)

def UnionKeyword.meets (key : UnionKeyword) (f : Schema Json → Bool)
    (variants : List (Schema Json)) : Bool :=
  match key with
  | .anyOf => variants.any f
  | .oneOf => variants.countP f == 1

def UnionKeyword.beside (key : UnionKeyword) (node : Schema Json) : Schema Json :=
  match key with
  | .anyOf => { node with anyOf := none }
  | .oneOf => { node with oneOf := none }

def keptEnum (node : Schema Json) : Option (List Json) :=
  match node.const with
  | some c => some [c]
  | none =>
    match _hunion : nullUnion node with
    | some (_, [only]) => keptEnum only
    | some _ => none
    | none => node.enum
termination_by node
decreasing_by exact Schema.sizeOf_lt (mem_parts_of_nullUnion ‹_› (.head _))

def meetsNull (node : Schema Json) : Bool :=
  let values := if node.const.isSome then none else node.enum
  let untyped :=
    if (nullUnion node).isSome then node else { node with type := none, enum := values }
  untyped.valid reading .jsonSchema reading.null

inductive IsOpenApi : Schema Json → Prop
  | intro {node : Schema Json} (dollarSchema : node.dollarSchema = none) (const : node.const = none)
      (type : node.type ≠ some .null) (parts : ∀ s ∈ node.parts, IsOpenApi s) : IsOpenApi node

structure Preserved (node : Schema Json) : Prop where
  valid : ∀ v, node.valid reading .jsonSchema v = (convertNode node).valid reading .openApi v
  isOpenApi : IsOpenApi (convertNode node)

/-- Whether null is valid in the object that a union becomes. Several variants have no type to be
made nullable. -/
def foldMeetsNull (key : UnionKeyword) : List (Schema Json) → Bool
  | [only] => meetsNull reading only
  | remaining => key.meets (·.valid reading .jsonSchema reading.null) remaining

/-- What folding a null union into the remaining variants rests on. -/
structure Folds (node : Schema Json) (key : UnionKeyword)
  (remaining : List (Schema Json)) : Prop where
  remaining_ne : remaining ≠ []
  /-- the keywords beside the union ask no more than the union -/
  beside : ∀ v, reading.isNull v = false →
    key.meets (·.valid reading .jsonSchema v) remaining = true →
    (key.beside node).valid reading .jsonSchema v = true
  null : node.valid reading .jsonSchema reading.null = foldMeetsNull reading key remaining

def unlisted (nullable : Bool) (node : Schema Json) (v : Json) : Bool :=
  match _hconst : node.const with
  | some _ => unlisted nullable { node with const := none } v
  | none =>
    match _hunion : nullUnion node with
    | some (_, []) => true
    | some (_, [only]) => unlisted true only v
    | some (key, first :: second :: rest) =>
      key.meets (·.valid reading .jsonSchema v) (first :: second :: rest)
    | none =>
      let type := if nullable && reading.isNull v then none else node.type
      ({ node with type, enum := none } : Schema Json).valid reading .jsonSchema v
termination_by node
decreasing_by
  · exact sizeOf_strip ‹_›
  · exact Schema.sizeOf_lt (mem_parts_of_nullUnion ‹_› (.head _))

/-- What replaces an enum is one of its values, if the other keywords take it. -/
def ConstStands (node : Schema Json) (c : Json) : Prop :=
  ∀ v, reading.same v c = true → unlisted reading false { node with const := none } v = true →
    ∀ values ∈ keptEnum { node with const := none }, values.any (reading.same v) = true

def Converts (node : Schema Json) : Prop :=
  match node.const with
  | some c => ConstStands reading node c
  | none =>
    match nullUnion node with
    | some (key, remaining) => Folds reading node key remaining
    | none => node.type ≠ some .null

def visited (node : Schema Json) : List (Schema Json) :=
  match node.const with
  | some _ => [{ node with const := none }]
  | none =>
    match nullUnion node with
    | some (_, remaining) => remaining
    | none => node.parts

/-- At the node and at every schema that its conversion comes to. -/
inductive Throughout (P : Schema Json → Prop) : Schema Json → Prop
  | intro {node : Schema Json} (here : P node) (next : ∀ s ∈ visited node, Throughout P s) :
      Throughout P node

end Meaning

section Preservation

variable {reading : Values Json} {node s only : Schema Json} {key : UnionKeyword}
  {variants remaining : List (Schema Json)}

theorem convertNode_enum (node : Schema Json) : (convertNode node).enum = keptEnum node := by
  fun_induction keptEnum node with
  | case1 node c hc => rw [convertNode_const hc]
  | case2 node hc key only hu ih => rw [convertNode_only hc hu, ← ih]
  | case3 node hc union hne hu =>
    obtain ⟨key, remaining⟩ := union
    match remaining, hu with
    | [], hu => rw [convertNode_nothing hc hu]
    | [only], _ => exact absurd rfl (hne key only)
    | _ :: _ :: _, hu => rw [convertNode_several hc hu]; cases key <;> rfl
  | case4 node hc hu =>
    rw [convertNode_plain hc hu]
    rfl

theorem meets_singleton (f : Schema Json → Bool) : key.meets f [s] = f s := by
  cases key with
  | anyOf => simp [UnionKeyword.meets]
  | oneOf => cases hf : f s <;> simp [UnionKeyword.meets, hf]

theorem meets_map {f f' : Schema Json → Bool} {g : Schema Json → Schema Json}
    (h : ∀ s ∈ remaining, f' (g s) = f s) :
    key.meets f' (remaining.map g) = key.meets f remaining := by
  have hany : (remaining.map g).any f' = remaining.any f ∧ (remaining.map g).countP f' =
      remaining.countP f := by
    induction remaining with
    | nil => exact ⟨rfl, rfl⟩
    | cons s l ih =>
      obtain ⟨hs, hl⟩ := List.forall_mem_cons.mp h
      obtain ⟨hany, hcount⟩ := ih hl
      simp only [List.map_cons, List.any_cons, List.countP_cons, hs, hany, hcount, and_self]
  cases key with
  | anyOf => exact hany.1
  | oneOf => exact congrArg (· == 1) hany.2

/-- A variant that takes the value for none of the union's is as good as none. -/
theorem meets_eraseP {f : Schema Json → Bool} (hf : ∀ s, isNullSchema s = true → f s = false) :
    key.meets f (variants.eraseP isNullSchema) = key.meets f variants := by
  by_cases hany : ∃ s ∈ variants, isNullSchema s = true
  · obtain ⟨s, hs, hnull⟩ := hany
    obtain ⟨a, before, after, _, ha, hsplit, herase⟩ := List.exists_of_eraseP hs hnull
    rw [herase, hsplit]
    cases key <;> simp [UnionKeyword.meets, hf a ha]
  · rw [List.eraseP_of_forall_not fun s hs hnull => hany ⟨s, hs, hnull⟩]

theorem valid_isNullSchema (h : isNullSchema s = true) {v : Json} (hv : reading.isNull v = false) :
    s.valid reading .jsonSchema v = false := by
  have htype : Schema.typeMeets reading .jsonSchema s v = false := by
    simp [Schema.typeMeets, eq_of_beq h, reading.admits_null, hv]
  rw [Schema.valid_eq, htype]
  rfl

theorem valid_schema (v : Json) :
    ({ key.schema variants with nullable := true } : Schema Json).valid reading .openApi v =
    key.meets (·.valid reading .openApi v) variants := by
  rw [Schema.valid_eq]
  cases key <;> simp [UnionKeyword.schema, UnionKeyword.meets, Schema.typeMeets, Schema.constMeets,
    Schema.enumMeets, Schema.restMeets, Schema.requiredMeets, Schema.otherMeets]

theorem valid_union (h : key.variants node = some variants) (v : Json) :
    node.valid reading .jsonSchema v =
    (key.meets (·.valid reading .jsonSchema v) variants &&
      (key.beside node).valid reading .jsonSchema v) := by
  cases key with
  | anyOf =>
    rw [Schema.valid_anyOf, show node.anyOf = some variants from h]
    rfl
  | oneOf =>
    rw [Schema.valid_oneOf, show node.oneOf = some variants from h]
    rfl

theorem convertNode_eq (hu : nullUnion node = none) : convertNode node =
    { node.mapParts convertNode with
      dollarSchema := none
      const := none
      enum := node.const.elim node.enum fun c => some [c] } := by
  cases hc : node.const with
  | none =>
    rw [convertNode_plain hc hu]
    unfold Schema.mapParts
    rw [hc]
    rfl
  | some c =>
    have hu' : nullUnion { node with const := none } = none := hu
    rw [convertNode_const hc, convertNode_plain rfl hu']
    rfl

/-- A node without a null union, as it is read after the conversion of its parts. -/
theorem valid_convertNode (hu : nullUnion node = none)
    (hparts : ∀ s ∈ node.parts, ∀ v,
      s.valid reading .jsonSchema v = (convertNode s).valid reading .openApi v)
    (nullable : Bool) (v : Json) :
    ({ convertNode node with nullable := nullable } : Schema Json).valid reading .openApi v =
      ((node.type.all fun t => reading.admits t v || (nullable && reading.isNull v)) &&
        ((node.const.elim node.enum fun c => some [c]).all fun values =>
          values.any (reading.same v)) &&
        node.restMeets reading (Schema.valid reading .jsonSchema) v) := by
  have hrest := Schema.restMeets_mapParts reading (fun s hs w => (hparts s hs w).symm) v
  rw [Schema.valid_eq, convertNode_eq hu, ← hrest]
  exact congrArg (· && _) (congrArg (· && _) (Bool.and_true _))

theorem nullable_of_nullUnion (hc : node.const = none)
    (hu : nullUnion node = some (key, remaining)) :
    (convertNode node).nullable = true := by
  match remaining, hu with
  | [], hu => rw [convertNode_nothing hc hu]
  | [only], hu => rw [convertNode_only hc hu]
  | _ :: _ :: _, hu => rw [convertNode_several hc hu]

theorem valid_null (hnode : Preserved reading node)
    (hparts : nullUnion node = none → ∀ s ∈ node.parts, Preserved reading s) :
    ({ convertNode node with nullable := true } : Schema Json).valid reading .openApi reading.null =
      meetsNull reading node := by
  cases hu : nullUnion node with
  | none =>
    have hnull : reading.isNull reading.null = true := (reading.isNull_iff _).mpr rfl
    have htype : (node.type.all fun t => reading.admits t reading.null ||
        (true && reading.isNull reading.null)) = true := by
      simp [hnull]
    have hvalues : ((node.const.elim node.enum fun c => some [c]).all fun values =>
      values.any (reading.same reading.null)) =
        (node.const.all (reading.same reading.null) &&
          ((if node.const.isSome then none else node.enum).all fun values =>
            values.any (reading.same reading.null))) := by
      cases node.const <;> simp
    rw [valid_convertNode hu fun s hs => (hparts hu s hs).valid, htype, hvalues, meetsNull, hu,
      Schema.valid_eq]
    rfl
  | some union =>
    obtain ⟨key, remaining⟩ := union
    have hnullable : (convertNode node).nullable = true := by
      cases hc : node.const with
      | none => exact nullable_of_nullUnion hc hu
      | some c =>
        rw [convertNode_const hc]
        have hu' : nullUnion { node with const := none } = some (key, remaining) := hu
        exact nullable_of_nullUnion rfl hu'
    rw [Schema.nullable_self hnullable, ← hnode.valid, meetsNull, hu]
    rfl

section Visited

variable {P : Schema Json → Prop}

theorem visited_const {c : Json} (hc : node.const = some c) :
    visited node = [{ node with const := none }] := by
  rw [visited, hc]

theorem visited_union (hc : node.const = none) (hu : nullUnion node = some (key, remaining)) :
    visited node = remaining := by
  rw [visited, hc, hu]

theorem visited_plain (hc : node.const = none) (hu : nullUnion node = none) :
    visited node = node.parts := by
  rw [visited, hc, hu]

theorem sizeOf_visited (hs : s ∈ visited node) : sizeOf s < sizeOf node := by
  cases hc : node.const with
  | some c =>
    rw [visited_const hc, List.mem_singleton] at hs
    rw [hs]
    exact sizeOf_strip hc
  | none =>
    cases hu : nullUnion node with
    | some union =>
      rw [visited_union hc hu] at hs
      exact Schema.sizeOf_lt (mem_parts_of_nullUnion hu hs)
    | none =>
      rw [visited_plain hc hu] at hs
      exact Schema.sizeOf_lt hs

theorem Throughout.here (h : Throughout P node) : P node := by
  cases h with
  | intro here _ => exact here

theorem Throughout.next (h : Throughout P node) : ∀ s ∈ visited node, Throughout P s := by
  cases h with
  | intro _ next => exact next

theorem Throughout.const {c : Json} (h : Throughout P node) (hc : node.const = some c) :
    Throughout P { node with const := none } := by
  have hnext := h.next
  rw [visited_const hc] at hnext
  exact hnext _ (.head _)

theorem Throughout.union (h : Throughout P node) (hc : node.const = none)
    (hu : nullUnion node = some (key, remaining)) : ∀ s ∈ remaining, Throughout P s := by
  have hnext := h.next
  rwa [visited_union hc hu] at hnext

theorem Throughout.parts (h : Throughout P node) (hu : nullUnion node = none) :
    ∀ s ∈ node.parts, Throughout P s := by
  cases hc : node.const with
  | some c =>
    have hvisited : visited { node with const := none } = node.parts := visited_plain rfl hu
    have hnext := (h.const hc).next
    rwa [hvisited] at hnext
  | none =>
    have hnext := h.next
    rwa [visited_plain hc hu] at hnext

end Visited

theorem valid_unlisted (hnullable : Throughout (fun s => s.nullable = false) node)
    (hnode : Throughout (Preserved reading) node) (nullable : Bool) (v : Json) :
    ({ convertNode node with nullable := nullable || (convertNode node).nullable, enum := none } :
      Schema Json).valid
      reading .openApi v = unlisted reading nullable node v := by
  fun_induction unlisted reading nullable node v with
  | case1 nullable node c hc ih =>
    rw [convertNode_const hc]
    exact ih (hnullable.const hc) (hnode.const hc)
  | case2 nullable node hc key hu =>
    rw [convertNode_nothing hc hu, Schema.valid_eq]
    rfl
  | case3 nullable node hc key only hu ih =>
    rw [convertNode_only hc hu, Bool.or_true,
      ← ih (hnullable.union hc hu only (.head _)) (hnode.union hc hu only (.head _))]
    exact Schema.valid_annotated
      (n := { convertNode only with nullable := true, enum := none }) _ _ _
  | case4 nullable node hc key first second rest hu =>
    have hparts := hnode.union hc hu
    rw [convertNode_several hc hu, Bool.or_true]
    have hfolded :
      ({ key.schema ((first :: second :: rest).map convertNode) with nullable := true } :
      Schema Json).valid
        reading .openApi v = key.meets (·.valid reading .openApi v)
          ((first :: second :: rest).map convertNode) :=
      valid_schema v
    rw [meets_map fun s hs => ((hparts s hs).here.valid v).symm] at hfolded
    rw [← hfolded]
    cases key <;> rfl
  | case5 nullable node hc hu type =>
    have hparts := fun s hs => (hnode.parts hu s hs).here.valid
    have hconverted :
      ({ convertNode node with nullable := nullable || (convertNode node).nullable, enum := none } :
        Schema Json) = { convertNode { node with enum := none } with nullable := nullable } := by
      have hplain : convertNode { node with enum := none } =
          { ({ node with enum := none } : Schema Json).mapParts convertNode with dollarSchema :=
            none } :=
        convertNode_plain hc hu
      rw [convertNode_plain hc hu, hplain]
      unfold Schema.mapParts
      rw [hnullable.here, Bool.or_false]
    have htype : (node.type.all fun t => reading.admits t v || (nullable && reading.isNull v)) =
        type.all (reading.admits · v) := by
      unfold type
      cases nullable && reading.isNull v <;> simp
    have hvalid := @valid_convertNode reading { node with enum := none } hu hparts nullable v
    rw [hconverted, hvalid, htype, Schema.valid_eq, Schema.typeMeets_jsonSchema]
    simp only [Schema.constMeets, Schema.enumMeets, hc, Option.elim_none, Option.all_none,
      Bool.or_true, Bool.and_true]
    rfl

theorem preserved_const_iff {c : Json} (hc : node.const = some c)
    (hnullable : Throughout (fun s => s.nullable = false) { node with const := none })
    (hrest : Throughout (Preserved reading) { node with const := none }) :
    Preserved reading node ↔ ConstStands reading node c := by
  generalize hr : ({ node with const := none } : Schema Json) = rest at *
  have hnode : ∀ v, node.valid reading .jsonSchema v = (reading.same v c &&
      ((keptEnum rest).all (fun values => values.any (reading.same v)) &&
        unlisted reading false rest v)) := by
    intro v
    rw [Schema.valid_const, hc, Option.all_some, hr, hrest.here.valid, Schema.valid_enum,
      Schema.enumMeets, convertNode_enum, ← valid_unlisted hnullable hrest]
    rfl
  have hconverted : ∀ v, (convertNode node).valid reading .openApi v =
      (reading.same v c && unlisted reading false rest v) := by
    intro v
    rw [convertNode_const hc, hr, Schema.valid_enum_singleton, ← valid_unlisted hnullable hrest]
    rfl
  constructor
  · intro h v hsame htaken values hvalues
    rw [hr] at htaken hvalues
    have hvalid := h.valid v
    rw [hnode, hconverted, hsame, htaken, Bool.true_and, Bool.true_and, Bool.and_true,
      Option.all_eq_true] at hvalid
    exact hvalid values hvalues
  · intro hstands
    constructor
    · intro v
      rw [hnode, hconverted]
      cases hsame : reading.same v c with
      | false => rfl
      | true =>
        cases htaken : unlisted reading false rest v with
        | false => rw [Bool.and_false]
        | true =>
          subst hr
          have hlisted := (Option.all_eq_true _ _).mpr (hstands v hsame htaken)
          rw [hlisted]
          rfl
    · rw [convertNode_const hc, hr]
      cases hrest.here.isOpenApi with
      | intro dollarSchema const type parts => exact .intro dollarSchema const type parts

theorem valid_of_nullUnion (hu : nullUnion node = some (key, remaining)) {v : Json}
    (hv : reading.isNull v = false) :
    node.valid reading .jsonSchema v =
      (key.meets (·.valid reading .jsonSchema v) remaining &&
        (key.beside node).valid reading .jsonSchema v) := by
  obtain ⟨variants, hvariants, _, rfl⟩ := nullUnion_eq_some hu
  rw [valid_union hvariants, meets_eraseP fun s hs => valid_isNullSchema hs hv]

theorem valid_folded (hc : node.const = none) (hu : nullUnion node = some (key, remaining))
    (hne : remaining ≠ []) (hremaining : ∀ s ∈ remaining, Preserved reading s) {v : Json}
    (hv : reading.isNull v = false) :
    (convertNode node).valid reading .openApi v = key.meets (·.valid reading .jsonSchema v)
      remaining := by
  match remaining, hne with
  | [only], _ =>
    rw [convertNode_only hc hu, meets_singleton, (hremaining only (.head _)).valid]
    exact (Schema.valid_annotated (n := { convertNode only with nullable := true }) _ _ _).trans
      (Schema.valid_nullable hv)
  | _ :: _ :: _, _ =>
    rw [convertNode_several hc hu, valid_schema, meets_map fun s hs =>
      ((hremaining s hs).valid v).symm]

theorem valid_null_folded (hc : node.const = none) (hu : nullUnion node = some (key, remaining))
    (hne : remaining ≠ []) (hremaining : ∀ s ∈ remaining, Preserved reading s)
    (hparts : ∀ s ∈ remaining, nullUnion s = none → ∀ t ∈ s.parts, Preserved reading t) :
    (convertNode node).valid reading .openApi reading.null =
      foldMeetsNull reading key remaining := by
  match remaining, hne with
  | [only], _ =>
    rw [convertNode_only hc hu, foldMeetsNull,
      ← valid_null (hremaining only (.head _)) (hparts only (.head _))]
    exact Schema.valid_annotated (n := { convertNode only with nullable := true }) _ _ _
  | _ :: _ :: _, _ =>
    rw [convertNode_several hc hu, valid_schema, meets_map fun s hs =>
      ((hremaining s hs).valid _).symm]
    rfl

theorem isOpenApi_folded (hc : node.const = none) (hu : nullUnion node = some (key, remaining))
    (hremaining : ∀ s ∈ remaining, Preserved reading s) : IsOpenApi (convertNode node) := by
  match remaining with
  | [] =>
    rw [convertNode_nothing hc hu]
    exact .intro rfl rfl nofun nofun
  | [only] =>
    rw [convertNode_only hc hu]
    cases (hremaining only (.head _)).isOpenApi with
    | intro dollarSchema const type parts => exact .intro dollarSchema const type parts
  | first :: second :: rest =>
    rw [convertNode_several hc hu]
    refine .intro ?_ ?_ ?_ fun s hs => ?_
    · cases key <;> rfl
    · cases key <;> rfl
    · cases key <;> exact nofun
    · have hs : s ∈ (first :: second :: rest).map convertNode := by
        cases key <;> simpa [Schema.parts, UnionKeyword.schema] using hs
      obtain ⟨t, ht, rfl⟩ := List.mem_map.mp hs
      exact (hremaining t ht).isOpenApi

/-- Once its remaining variants are preserved, a null union is preserved if and only if it folds. -/
theorem preserved_union_iff (hc : node.const = none) (hu : nullUnion node = some (key, remaining))
    (hremaining : ∀ s ∈ remaining, Preserved reading s)
    (hparts : ∀ s ∈ remaining, nullUnion s = none → ∀ t ∈ s.parts, Preserved reading t) :
    Preserved reading node ↔ Folds reading node key remaining := by
  constructor
  · intro hnode
    have hne : remaining ≠ [] := by
      rintro rfl
      -- the object that is left takes everything
      obtain ⟨v, hv⟩ : ∃ v, reading.isNull v = false := by
        by_contra hnone
        have hnull : ∀ v, v = reading.null :=
          fun v => (reading.isNull_iff v).mp (by simpa using mt (Exists.intro v) hnone)
        cases (hnull (.bool true)).trans (hnull (.bool false)).symm
      have htaken : ({ nullable := true } : Schema Json).valid reading .openApi v = true := by
        rw [Schema.valid_eq]
        rfl
      have hvalid := hnode.valid v
      rw [valid_of_nullUnion hu hv, convertNode_nothing hc hu, htaken] at hvalid
      cases key <;> cases hvalid
    refine ⟨hne, fun v hv hmeets => ?_, ?_⟩
    · have hvalid := hnode.valid v
      rwa [valid_of_nullUnion hu hv, valid_folded hc hu hne hremaining hv, hmeets,
        Bool.true_and] at hvalid
    · rw [hnode.valid, valid_null_folded hc hu hne hremaining hparts]
  · intro hfolds
    refine ⟨fun v => ?_, isOpenApi_folded hc hu hremaining⟩
    cases hv : reading.isNull v with
    | true =>
      obtain rfl := (reading.isNull_iff v).mp hv
      rw [hfolds.null, valid_null_folded hc hu hfolds.remaining_ne hremaining hparts]
    | false =>
      rw [valid_of_nullUnion hu hv, valid_folded hc hu hfolds.remaining_ne hremaining hv]
      cases hmeets : key.meets (·.valid reading .jsonSchema v) remaining with
      | true => exact hfolds.beside v hv hmeets
      | false => rfl

/-- Once its parts are preserved, any other node is preserved if and only if its type is not
null. -/
theorem preserved_plain_iff (hc : node.const = none) (hu : nullUnion node = none)
    (hnullable : node.nullable = false) (hparts : ∀ s ∈ node.parts, Preserved reading s) :
    Preserved reading node ↔ node.type ≠ some .null := by
  constructor
  · intro hnode
    have hopen := hnode.isOpenApi
    rw [convertNode_plain hc hu] at hopen
    cases hopen with
    | intro _ _ type _ => exact type
  · intro htype
    constructor
    · intro v
      have hsame : ({ convertNode node with nullable := false } : Schema Json) =
          convertNode node := by
        rw [convertNode_plain hc hu]
        unfold Schema.mapParts
        rw [hnullable]
      rw [← hsame, valid_convertNode hu fun s hs => (hparts s hs).valid, Schema.valid_eq]
      simp [Schema.typeMeets, Schema.constMeets, Schema.enumMeets, hc, hnullable]
    · rw [convertNode_plain hc hu]
      refine .intro rfl hc htype fun s hs => ?_
      have hs : s ∈ (node.mapParts convertNode).parts := hs
      rw [Schema.parts_mapParts] at hs
      obtain ⟨t, ht, rfl⟩ := List.mem_map.mp hs
      exact (hparts t ht).isOpenApi

/-- Once all that its conversion comes to is preserved, a node is preserved if and only if it
converts. -/
theorem preserved_iff (hnullable : Throughout (fun s => s.nullable = false) node)
    (hnext : ∀ s ∈ visited node, Throughout (Preserved reading) s) : Preserved reading node ↔
      Converts reading node := by
  unfold Converts
  cases hc : node.const with
  | some c =>
    rw [visited_const hc] at hnext
    exact preserved_const_iff hc (hnullable.const hc) (hnext _ (.head _))
  | none =>
    cases hu : nullUnion node with
    | some union =>
      rw [visited_union hc hu] at hnext
      exact preserved_union_iff hc hu (fun s hs => (hnext s hs).here)
        fun s hs hplain t ht => ((hnext s hs).parts hplain t ht).here
    | none =>
      rw [visited_plain hc hu] at hnext
      exact preserved_plain_iff hc hu hnullable.here fun s hs => (hnext s hs).here

/-- The conversion preserves a tree and all that it comes to in it if and only if it goes well at
each of these. -/
theorem convertNode_preserves_iff (hnullable : Throughout (fun s => s.nullable = false) node) :
    Throughout (Preserved reading) node ↔ Throughout (Converts reading) node := by
  induction hsize : sizeOf node using Nat.strongRecOn generalizing node with
  | ind size ih =>
    subst hsize
    have hsmaller : ∀ s ∈ visited node,
        (Throughout (Preserved reading) s ↔ Throughout (Converts reading) s) :=
      fun s hs => ih _ (sizeOf_visited hs) (hnullable.next s hs) rfl
    constructor
    · intro h
      exact .intro ((preserved_iff hnullable h.next).mp h.here) fun s hs =>
        (hsmaller s hs).mp (h.next s hs)
    · intro h
      have hnext : ∀ s ∈ visited node, Throughout (Preserved reading) s :=
        fun s hs => (hsmaller s hs).mpr (h.next s hs)
      exact .intro ((preserved_iff hnullable hnext).mpr h.here) hnext

def nullableValue : Schema Json :=
  { type := some .object
    properties :=
    some [("value", { anyOf := some [{ type := some .string }, { type := some .null }] })]
    required := some ["value"]
    additionalProperties := some (.inl false) }

theorem nullableValue_preserved :
    Throughout (Preserved (jsonValues fun _ _ _ => true)) nullableValue := by
  let value : Schema Json := { anyOf := some [{ type := some .string }, { type := some .null }] }
  have hvariants : UnionKeyword.anyOf.variants value =
    some [{ type := some .string }, { type := some .null }] := rfl
  have hbeside : UnionKeyword.anyOf.beside value = {} := rfl
  -- the string, the union, the object
  have hthroughout : ∀ {P : Schema Json → Prop}, P { type := some .string } → P value →
    P nullableValue →
      Throughout P nullableValue := by
    intro P hstring hvalue hobject
    refine .intro hobject fun s hs => ?_
    obtain rfl : s = value := List.mem_singleton.mp hs
    refine .intro hvalue fun s hs => ?_
    obtain rfl : s = { type := some .string } := List.mem_singleton.mp hs
    exact .intro hstring nofun
  have hfolds : Folds (jsonValues fun _ _ _ => true) value .anyOf [{ type := some .string }] := by
    refine ⟨nofun, fun v _ _ => ?_, ?_⟩
    · rw [hbeside, Schema.valid_empty]
    · have hnull : meetsNull (jsonValues fun _ _ _ => true) { type := some .string } = true :=
        Schema.valid_empty
      rw [valid_union hvariants, hbeside, Schema.valid_empty, foldMeetsNull, hnull]
      simp only [UnionKeyword.meets, List.any_cons, Schema.valid_named]
      rfl
  exact (convertNode_preserves_iff (hthroughout rfl rfl rfl)).mpr (hthroughout nofun hfolds nofun)

def severalVariants : Schema Json :=
  { anyOf := some [{ type := some .string }, { type := some .number }, { type := some .null }] }

theorem null_lost : severalVariants.valid (jsonValues fun _ _ _ => true) .jsonSchema .null = true ∧
    (convertNode severalVariants).valid (jsonValues fun _ _ _ => true) .openApi .null = false := by
  have hunion : nullUnion severalVariants =
    some (.anyOf, [{ type := some .string }, { type := some .number }]) := rfl
  have hvariants : UnionKeyword.anyOf.variants severalVariants =
    some [{ type := some .string }, { type := some .number }, { type := some .null }] := rfl
  have hbeside : UnionKeyword.anyOf.beside severalVariants = {} := rfl
  have hnamed : ∀ t, convertNode { type := some t } = { type := some t } :=
    fun t => convertNode_plain rfl rfl
  constructor
  · rw [valid_union hvariants, hbeside, Schema.valid_empty]
    simp only [UnionKeyword.meets, List.any_cons, Schema.valid_named]
    rfl
  · rw [convertNode_several rfl hunion, valid_schema]
    simp only [UnionKeyword.meets, List.map_cons, hnamed, List.any_cons, Schema.valid_named]
    rfl

end Preservation

end SaasBackend
