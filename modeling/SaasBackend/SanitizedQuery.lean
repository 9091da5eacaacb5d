import SaasBackend.SanitizedInput

set_option autoImplicit false

namespace SaasBackend

mutual

/-- Everything below the eleventh level is copied as it is. -/
def sanitizeValue : Json → Nat → Json
  | .str s, depth => if depth > 10 then .str s else .str (sanitizeString s)
  | .arr items, depth => if depth > 10 then .arr items else .arr (sanitizeValues items (depth + 1))
  | .obj fields, depth =>
    if depth > 10 then .obj fields else .obj (sanitizeEntries fields (depth + 1))
  | v, _ => v

def sanitizeValues : List Json → Nat → List Json
  | [], _ => []
  | item :: items, depth => sanitizeValue item depth :: sanitizeValues items depth

def sanitizeEntries : List (String × Json) → Nat → List (String × Json)
  | [], _ => []
  | entry :: entries, depth =>
    if strippedKey entry.1 then sanitizeEntries entries depth
    else sanitizeEntry entry depth :: sanitizeEntries entries depth

def sanitizeEntry : String × Json → Nat → String × Json
  | (key, v), depth => (key, sanitizeValue v depth)

end

def Json.isContainer : Json → Bool
  | .arr _ | .obj _ => true
  | _ => false

/-- `w` stands so many levels below `v`, under no stripped key. -/
inductive HeldAt : Nat → Json → Json → Prop where
  | here {v : Json} : HeldAt 0 v v
  | item {n : Nat} {items : List Json} {v w : Json} : v ∈ items → HeldAt n v w →
      HeldAt (n + 1) (.arr items) w
  | field {n : Nat} {fields : List (String × Json)} {key : String} {v w : Json} :
      (key, v) ∈ fields →
      strippedKey key = false → HeldAt n v w → HeldAt (n + 1) (.obj fields) w

section Copies

variable {v : Json} {depth n : Nat} {items : List Json} {fields : List (String × Json)}

theorem sanitizeValues_eq (items : List Json) (depth : Nat) :
    sanitizeValues items depth = items.map fun v => sanitizeValue v depth := by
  induction items with
  | nil => rfl
  | cons item items ih => simp [sanitizeValues, ih]

theorem sanitizeEntries_eq (fields : List (String × Json)) (depth : Nat) :
    sanitizeEntries fields depth =
    (fields.filter fun field => !strippedKey field.1).map fun field =>
      (field.1, sanitizeValue field.2 depth) := by
  induction fields with
  | nil => rfl
  | cons field fields ih =>
    obtain ⟨key, v⟩ := field
    simp only [sanitizeEntries, sanitizeEntry, ih, List.filter_cons]
    cases strippedKey key <;> rfl

theorem sanitizeValue_deep (hdepth : 10 < depth) : sanitizeValue v depth = v := by
  cases v <;> simp [sanitizeValue, hdepth]

theorem arr_agree_iff (hdepth : depth ≤ 10) :
    sanitizeInPlace (.arr items) depth = sanitizeValue (.arr items) depth ↔
      ∀ v ∈ items, sanitizeHeld depth v = sanitizeValue v (depth + 1) := by
  have hshallow : ¬ depth > 10 := Nat.not_lt.mpr hdepth
  rw [sanitizeInPlace, sanitizeValue, if_neg hshallow, if_neg hshallow, Json.arr.injEq,
    sanitizeItems_eq, sanitizeValues_eq, List.map_inj_left]

theorem obj_agree_iff (hdepth : depth ≤ 10) :
    sanitizeInPlace (.obj fields) depth = sanitizeValue (.obj fields) depth ↔
      ∀ key v, (key, v) ∈ fields → strippedKey key = false →
        sanitizeHeld depth v = sanitizeValue v (depth + 1) := by
  have hshallow : ¬ depth > 10 := Nat.not_lt.mpr hdepth
  rw [sanitizeInPlace, sanitizeValue, if_neg hshallow, if_neg hshallow, Json.obj.injEq,
    sanitizeFields_eq, sanitizeEntries_eq, List.map_inj_left]
  simp [List.mem_filter]

theorem heldAt_arr {w : Json} : HeldAt (n + 1) (.arr items) w ↔ ∃ v ∈ items, HeldAt n v w := by
  constructor
  · intro h
    cases h with
    | item hv h => exact ⟨_, hv, h⟩
  · rintro ⟨v, hv, h⟩
    exact .item hv h

theorem heldAt_obj {w : Json} : HeldAt (n + 1) (.obj fields) w ↔
    ∃ key v, (key, v) ∈ fields ∧ strippedKey key = false ∧ HeldAt n v w := by
  constructor
  · intro h
    cases h with
    | field hv hkey h => exact ⟨_, _, hv, hkey, h⟩
  · rintro ⟨key, v, hv, hkey, h⟩
    exact .field hv hkey h

/-- What a container at the depth holds comes out of the two alike, unless a text that must be
cleaned stands on the eleventh level. The induction is on how far up from it the container is. -/
theorem held_agree_iff (hdepth : depth + n = 10) :
    sanitizeHeld depth v = sanitizeValue v (depth + 1) ↔
    ∀ s, HeldAt n v (.str s) → Clean s.toList := by
  induction n generalizing depth v with
  | zero =>
    have hdeep : 10 < depth + 1 := by omega
    rw [sanitizeValue_deep hdeep]
    cases v with
    | str s =>
      simp only [sanitizeHeld, Json.str.injEq, sanitizeString_eq_self_iff]
      refine ⟨fun h s' hs' => ?_, fun h => h s .here⟩
      cases hs'
      exact h
    | null | bool _ | num _ | arr _ | obj _ =>
      refine iff_of_true ?_ fun s hs => (by cases hs)
      simp only [sanitizeHeld, sanitizeInPlace_deep hdeep]
  | succ n ih =>
    have hlevel : depth + 1 + n = 10 := by omega
    cases v with
    | str s =>
      have hshallow : ¬ depth + 1 > 10 := by omega
      refine iff_of_true ?_ fun s hs => (by cases hs)
      rw [sanitizeHeld, sanitizeValue, if_neg hshallow]
    | arr items =>
      change sanitizeInPlace (.arr items) (depth + 1) = _ ↔ _
      simp only [arr_agree_iff (show depth + 1 ≤ 10 by omega), ih hlevel, heldAt_arr]
      constructor
      · rintro h s ⟨v, hv, hs⟩
        exact h v hv s hs
      · exact fun h v hv s hs => h s ⟨v, hv, hs⟩
    | obj fields =>
      change sanitizeInPlace (.obj fields) (depth + 1) = _ ↔ _
      simp only [obj_agree_iff (show depth + 1 ≤ 10 by omega), ih hlevel, heldAt_obj]
      constructor
      · rintro h s ⟨key, v, hv, hkey, hs⟩
        exact h key v hv hkey s hs
      · exact fun h key v hv hkey s hs => h s ⟨key, v, hv, hkey, hs⟩
    | null | bool _ | num _ => exact iff_of_true rfl fun s hs => (by cases hs)

end Copies

/-- The two leave the same value, unless a text that must be cleaned stands on the eleventh level:
there it is cleaned in its container, and copied as it is. -/
theorem sanitizers_agree_iff {v : Json} (hv : v.isContainer = true) :
    sanitizeInPlace v 0 = sanitizeValue v 0 ↔ ∀ s, HeldAt 11 v (.str s) → Clean s.toList := by
  cases v with
  | arr items =>
    simp only [arr_agree_iff (Nat.zero_le 10), held_agree_iff (Nat.zero_add 10), heldAt_arr]
    exact ⟨fun h s ⟨v, hv, hs⟩ => h v hv s hs, fun h v hv s hs => h s ⟨v, hv, hs⟩⟩
  | obj fields =>
    simp only [obj_agree_iff (Nat.zero_le 10), held_agree_iff (Nat.zero_add 10), heldAt_obj]
    exact ⟨fun h s ⟨key, v, hv, hkey, hs⟩ => h key v hv hkey s hs,
      fun h key v hv hkey s hs => h s ⟨key, v, hv, hkey, hs⟩⟩
  | null | bool _ | num _ | str _ => cases hv

section Sample

theorem heldAt_nested {n k : Nat} {v w : Json} : HeldAt (n + k) (nested n v) w ↔ HeldAt k v w := by
  induction n with
  | zero => rw [Nat.zero_add, nested]
  | succ n ih =>
    have hkey : strippedKey "a" = false := by decide +kernel
    rw [Nat.add_right_comm, nested, heldAt_obj]
    simp [hkey, ih]

def namedDeep (name : String) : Json := nested 10 (.obj [("name", .str name)])

theorem sanitizers_agree_ann : (namedDeep "Ann").isContainer = true ∧
    sanitizeInPlace (namedDeep "Ann") 0 = sanitizeValue (namedDeep "Ann") 0 := by
  have hann : sanitizeString "Ann" = "Ann" := by decide +kernel
  refine ⟨rfl, (sanitizers_agree_iff rfl).mpr fun s hs => ?_⟩
  have hlast : HeldAt 1 (.obj [("name", .str "Ann")]) (.str s) := (heldAt_nested (n := 10)).mp hs
  obtain ⟨key, v, hv, _, hs⟩ := heldAt_obj.mp hlast
  cases hs
  obtain ⟨_, hs⟩ := Prod.mk.inj (List.mem_singleton.mp hv)
  rw [Json.str.inj hs]
  exact sanitizeString_eq_self_iff.mp hann

/-- The name is cleaned in place and not in the copy. -/
theorem copied_unsanitized : (namedDeep "<b>Ann").isContainer = true ∧
    sanitizeInPlace (namedDeep "<b>Ann") 0 = namedDeep "Ann" ∧
    sanitizeValue (namedDeep "<b>Ann") 0 = namedDeep "<b>Ann" ∧
      namedDeep "Ann" ≠ namedDeep "<b>Ann" := by
  have hann : sanitizeString "<b>Ann" = "Ann" := by decide +kernel
  refine ⟨rfl, ?_, rfl, fun h => ?_⟩
  · exact congrArg namedDeep hann
  · have hnames := congrArg (fun v => v.at (List.replicate 10 (.key "a") ++ [.key "name"])) h
    exact absurd (Json.str.inj (Option.some.inj hnames)) (by decide)

end Sample

end SaasBackend
