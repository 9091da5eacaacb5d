import SaasBackend.RegexGaps
import SaasBackend.Sanitizer

/-! How far the sanitizer of src/middleware/sanitize.middleware.js goes: into a text, which it
passes over once for each pattern, and into a body, of which it visits eleven levels. -/

set_option autoImplicit false

namespace SaasBackend
open Regex

section Texts

/-- A tag, once there is a letter: any `>` behind closes it. -/
def tagOpening : Opening Char where
  pattern := HTML_TAG_RE
  head := .seqs [char '<', .orElse (char '/') .empty, .one isLetter]
  tail := .seqs [anyBut '>', char '>']
  splits := Pattern.lang_seqs_append [char '<', .orElse (char '/') .empty, .one isLetter] _
  long := by decide
  lasting t ht y hty := by
    have hclosed : '>' ∈ y := by
      obtain ⟨u, _, v, ⟨w, ⟨c, hc, rfl⟩, _, rfl, rfl⟩, rfl⟩ := ht
      exact hty.subset (by simp_all)
    obtain ⟨u, v, rfl, hfirst⟩ := List.eq_append_cons_of_mem hclosed
    refine ⟨u ++ ['>'], ?_, v, by simp⟩
    refine Language.append_mem_mul (fun c hc => ?_) ⟨['>'], ⟨'>', by decide, rfl⟩, [], rfl, rfl⟩
    exact bne_iff_ne.mpr fun heq => hfirst (heq ▸ hc)

def uriOpening : Opening Char where
  pattern := JS_URI_RE
  head := JS_URI_RE
  tail := .empty
  splits := (mul_one _).symm
  long := by decide
  lasting _ _ y _ := ⟨[], Language.nil_mem_one, List.nil_prefix⟩

/-- An event handler, up to the `=`: any value will do, also none. -/
def eventOpening : Opening Char where
  pattern := ON_EVENT_RE
  head := .seqs [.one isJsSpace, letter 'o', letter 'n', .one isWordChar, .many isWordChar,
    .many isJsSpace, char '=']
  tail := .seqs [.many isJsSpace,
    .orElse (quoted '\x22') (.orElse (quoted '\x27') (.many fun c => !isJsSpace c))]
  splits := Pattern.lang_seqs_append [.one isJsSpace, letter 'o', letter 'n', .one isWordChar,
    .many isWordChar, .many isJsSpace, char '='] _
  long := by decide
  lasting _ _ y _ := by
    refine ⟨[], Language.append_mem_mul (a := []) (b := []) ?_ ?_, List.nil_prefix⟩
    · exact fun c hc => by cases hc
    · exact Language.append_mem_mul (a := []) (b := []) (.inr (.inr fun c hc => by cases hc)) rfl

def sanitizerOpenings : List (Opening Char) := [tagOpening, uriOpening, eventOpening]

/-- The passes leave a text clean, and then a second time change nothing, where no tag, no
`javascript:` and no event handler begins only once something inside of its opening is gone. -/
theorem sanitizeString_clean (s : String) (h : ¬ Interrupted sanitizerOpenings s.toList) :
    Clean (sanitizeString s).toList ∧ sanitizeString (sanitizeString s) = sanitizeString s := by
  have hchars : (sanitizeString s).toList =
      eraseAll (sanitizerOpenings.map (·.pattern)) s.toList := by
    rw [sanitizeString, String.toList_ofList]
    rfl
  have hclean : Clean (sanitizeString s).toList := by
    intro r hr t ht
    obtain ⟨o, ho, rfl⟩ : ∃ o ∈ sanitizerOpenings, o.pattern = r := List.mem_map.mp hr
    exact eraseAll_clean h ho (hchars ▸ ht)
  exact ⟨hclean, sanitizeString_eq_self_iff.mpr hclean⟩

theorem tags_clean : Clean (sanitizeString "<b>Ann</b>").toList ∧
    sanitizeString (sanitizeString "<b>Ann</b>") = sanitizeString "<b>Ann</b>" := by
  have hinner : Clean "b>Ann</b".toList := sanitizeString_eq_self_iff.mp (by decide +kernel)
  refine sanitizeString_clean "<b>Ann</b>" (not_interrupted fun o ho => ?_)
  exact hinner o.pattern (List.mem_map_of_mem (f := Opening.pattern) ho)

/-- A tag around a tag. -/
theorem tag_joined : sanitizeString "<<a>b>" = "<b>" ∧ ¬ Clean (sanitizeString "<<a>b>").toList ∧
    sanitizeString (sanitizeString "<<a>b>") ≠ sanitizeString "<<a>b>" := by
  have hjoined : sanitizeString "<<a>b>" = "<b>" := by decide +kernel
  have hagain : sanitizeString "<b>" ≠ "<b>" := by decide +kernel
  rw [hjoined, ← sanitizeString_eq_self_iff]
  exact ⟨rfl, hagain, hagain⟩

example : sanitizeString "javajavascript:script:" = "javascript:" := by decide +kernel

example : sanitizeString " o onx=\"\"nload=1" = " onload=1" := by decide +kernel

end Texts

inductive Place where
  | item (i : Nat)
  | key (name : String)

def Json.child : Json → Place → Option Json
  | .arr items, .item i => items[i]?
  | .obj fields, .key name => fields.lookup name
  | _, _ => none

/-- The value at the end of a path. What a path of length n leads to stands at depth n. -/
def Json.at (v : Json) : List Place → Option Json
  | [] => some v
  | place :: path => (v.child place).bind fun w => w.at path

def Place.stripped : Place → Bool
  | .item _ => false
  | .key name => strippedKey name

def sanitizeHeld (depth : Nat) : Json → Json
  | .str s => .str (sanitizeString s)
  | v => sanitizeInPlace v (depth + 1)

section Bodies

variable {v w : Json} {depth : Nat} {place : Place}

theorem sanitizeItems_eq (items : List Json) (depth : Nat) :
    sanitizeItems items depth = items.map (sanitizeHeld depth) := by
  induction items with
  | nil => rfl
  | cons item items ih => cases item <;> simp [sanitizeItems, sanitizeHeld, ih]

theorem sanitizeFields_eq (fields : List (String × Json)) (depth : Nat) :
    sanitizeFields fields depth =
    (fields.filter fun field => !strippedKey field.1).map fun field =>
      (field.1, sanitizeHeld depth field.2) := by
  induction fields with
  | nil => rfl
  | cons field fields ih =>
    obtain ⟨key, v⟩ := field
    have hfield : sanitizeField (key, v) depth = (key, sanitizeHeld depth v) := by
      cases v <;> rfl
    simp only [sanitizeFields, ih, hfield, List.filter_cons]
    cases strippedKey key <;> rfl

theorem lookup_kept (fields : List (String × Json)) (f : Json → Json) (name : String) :
    ((fields.filter fun field => !strippedKey field.1).map fun field =>
      (field.1, f field.2)).lookup name =
      if strippedKey name then none else (fields.lookup name).map f := by
  induction fields with
  | nil => simp
  | cons field fields ih =>
    obtain ⟨key, v⟩ := field
    rw [List.filter_cons]
    cases hkey : strippedKey key with
    | true =>
      simp only [Bool.not_true, Bool.false_eq_true, if_false, ih]
      split
      · rfl
      · rename_i hname
        have hne : (name == key) = false := beq_eq_false_iff_ne.mpr fun heq => hname (heq ▸ hkey)
        rw [List.lookup_cons, hne]
    | false =>
      simp only [Bool.not_false, if_true, List.map_cons, List.lookup_cons, ih]
      cases hname : name == key with
      | true =>
        rw [beq_iff_eq.mp hname, hkey]
        rfl
      | false => rfl

theorem sanitizeInPlace_deep (hdepth : 10 < depth) : sanitizeInPlace v depth = v := by
  cases v <;> simp [sanitizeInPlace, hdepth]

theorem sanitizeInPlace_child (hdepth : depth ≤ 10) : (sanitizeInPlace v depth).child place =
    if place.stripped then none else (v.child place).map (sanitizeHeld depth) := by
  have hshallow : ¬ depth > 10 := Nat.not_lt.mpr hdepth
  cases v with
  | arr items =>
    rw [sanitizeInPlace, if_neg hshallow, sanitizeItems_eq]
    cases place with
    | item i => simp [Json.child, Place.stripped]
    | key name => simp [Json.child]
  | obj fields =>
    rw [sanitizeInPlace, if_neg hshallow, sanitizeFields_eq]
    cases place with
    | item i => simp [Json.child]
    | key name => exact lookup_kept fields (sanitizeHeld depth) name
  | null | bool _ | num _ | str _ => simp [sanitizeInPlace, Json.child]

theorem Json.at_singleton : v.at [place] = v.child place := by
  cases h : v.child place <;> simp [Json.at, h]

theorem sanitizeHeld_at (path : List Place) :
    (sanitizeHeld depth v).at (path ++ [place]) = (sanitizeInPlace v (depth + 1)).at
      (path ++ [place]) := by
  cases path <;> cases v <;> rfl

theorem sanitizeHeld_str {s : String} (h : sanitizeHeld depth v = .str s) :
    ∃ raw, v = .str raw ∧ s = sanitizeString raw := by
  cases v with
  | str raw => exact ⟨raw, rfl, (Json.str.inj h).symm⟩
  | null | bool _ | num _ | arr _ | obj _ => cases sanitizeInPlace_str.mp h

theorem sanitizeHeld_obj {fields : List (String × Json)} (h : sanitizeHeld depth v = .obj fields) :
    sanitizeInPlace v (depth + 1) = .obj fields := by
  cases v with
  | str raw => cases h
  | null | bool _ | num _ | arr _ | obj _ => exact h

theorem sanitizeInPlace_at_cons {first : Place} {path : List Place} (hdepth : depth ≤ 10) :
    (sanitizeInPlace v depth).at (first :: (path ++ [place])) =
      if first.stripped then none
      else (v.child first).bind fun u => (sanitizeInPlace u (depth + 1)).at (path ++ [place]) := by
  rw [Json.at, sanitizeInPlace_child hdepth]
  split
  · rfl
  · simp only [Option.bind_map, Function.comp_def, sanitizeHeld_at]

theorem sanitizeInPlace_at {path : List Place} (hpath : depth + path.length ≤ 10)
    (h : (sanitizeInPlace v depth).at (path ++ [place]) = some w) :
    ∃ raw, v.at (path ++ [place]) = some raw ∧ w = sanitizeHeld (depth + path.length) raw := by
  induction path generalizing v depth with
  | nil =>
    have hdepth : depth ≤ 10 := hpath
    rw [List.nil_append, Json.at_singleton, sanitizeInPlace_child hdepth] at h
    split at h
    · cases h
    · obtain ⟨raw, hraw, rfl⟩ := Option.map_eq_some_iff.mp h
      exact ⟨raw, Json.at_singleton.trans hraw, rfl⟩
  | cons first path ih =>
    rw [List.length_cons] at hpath
    rw [List.cons_append, sanitizeInPlace_at_cons (by omega)] at h
    split at h
    · cases h
    · obtain ⟨u, hu, hw⟩ := Option.bind_eq_some_iff.mp h
      obtain ⟨raw, hraw, hwraw⟩ := ih (by omega) hw
      refine ⟨raw, ?_, ?_⟩
      · rw [List.cons_append, Json.at, hu]
        exact hraw
      · rw [hwraw, List.length_cons, Nat.add_assoc, Nat.add_comm 1]

theorem sanitizeInPlace_at_deep {path : List Place} (hpath : 10 < depth + path.length)
    (h : (sanitizeInPlace v depth).at (path ++ [place]) = some w) :
    v.at (path ++ [place]) = some w := by
  induction path generalizing v depth with
  | nil =>
    have hdepth : 10 < depth := hpath
    rwa [sanitizeInPlace_deep hdepth] at h
  | cons first path ih =>
    by_cases hdepth : 10 < depth
    · rwa [sanitizeInPlace_deep hdepth] at h
    rw [List.length_cons] at hpath
    rw [List.cons_append, sanitizeInPlace_at_cons (by omega)] at h
    split at h
    · cases h
    · obtain ⟨u, hu, hw⟩ := Option.bind_eq_some_iff.mp h
      rw [List.cons_append, Json.at, hu]
      exact ih (by omega) hw

theorem sanitizeInPlace_obj {fields : List (String × Json)} (hdepth : depth ≤ 10)
    (h : sanitizeInPlace v depth = .obj fields) :
    ∀ field ∈ fields, strippedKey field.1 = false := by
  cases v with
  | obj sent =>
    rw [sanitizeInPlace, if_neg (Nat.not_lt.mpr hdepth), sanitizeFields_eq] at h
    cases h
    intro field hfield
    obtain ⟨old, hold, rfl⟩ := List.mem_map.mp hfield
    simpa using (List.mem_filter.mp hold).2
  | arr items =>
    simp only [sanitizeInPlace] at h
    split at h <;> cases h
  | null | bool _ | num _ | str _ => cases h

end Bodies

/-- Down to the tenth level no object has a dangerous key, and every text that is held there is the
sanitized one of what was sent in that place. Below it everything is as it was sent. -/
theorem sanitizeRequest_reaches (body : Json) (path : List Place) :
    (path.length ≤ 10 → ∀ fields, (sanitizeRequest body).at path = some (.obj fields) →
      ∀ field ∈ fields, strippedKey field.1 = false) ∧
    (path.length ≤ 10 → ∀ place s, (sanitizeRequest body).at (path ++ [place]) = some (.str s) →
      ∃ raw, body.at (path ++ [place]) = some (.str raw) ∧ s = sanitizeString raw) ∧
    (10 < path.length → ∀ place v, (sanitizeRequest body).at (path ++ [place]) = some v →
      body.at (path ++ [place]) = some v) := by
  refine ⟨fun hpath fields hfields => ?_, fun hpath place s hs => ?_, fun hpath place v hv => ?_⟩
  · induction path using List.reverseRecOn with
    | nil => exact sanitizeInPlace_obj (Nat.zero_le 10) (Option.some.inj hfields)
    | append_singleton path place _ =>
      rw [List.length_append, List.length_singleton] at hpath
      obtain ⟨raw, _, hheld⟩ := sanitizeInPlace_at (by omega) hfields
      exact sanitizeInPlace_obj (by omega) (sanitizeHeld_obj hheld.symm)
  · obtain ⟨held, hheld, hs⟩ := sanitizeInPlace_at (by omega) hs
    obtain ⟨raw, rfl, hraw⟩ := sanitizeHeld_str hs.symm
    exact ⟨raw, hheld, hraw⟩
  · exact sanitizeInPlace_at_deep (by omega) hv

section Sample

def nested : Nat → Json → Json
  | 0, v => v
  | n + 1, v => .obj [("a", nested n v)]

/-- The eleventh level is not visited. -/
theorem below_unsanitized :
    (sanitizeRequest (nested 11 (.obj [("$where", .str "<b>")]))).at
    (List.replicate 11 (.key "a")) =
      some (.obj [("$where", .str "<b>")]) ∧ strippedKey "$where" = true ∧
      sanitizeString "<b>" ≠ "<b>" :=
  ⟨rfl, by decide +kernel, by decide +kernel⟩

/-- In an object on the tenth level and in one below it. -/
theorem sanitizeRequest_reaches_tenth :
    let body := nested 10
      (.obj [("name", .str "<b>Ann"), ("$where", .str "1"),
        ("below", .obj [("name", .str "<b>Ann")])])
    let path := List.replicate 10 (Place.key "a")
    (∃ raw, body.at (path ++ [.key "name"]) = some (.str raw) ∧ "Ann" = sanitizeString raw) ∧
      (∀ field ∈ [("name", Json.str "Ann"), ("below", .obj [("name", .str "<b>Ann")])],
        strippedKey field.1 = false) ∧
      body.at (path ++ [.key "below"] ++ [.key "name"]) = some (.str "<b>Ann") := by
  intro body path
  have hname : sanitizeString "<b>Ann" = "Ann" := by decide +kernel
  have htenth := sanitizeRequest_reaches body path
  have hbelow := sanitizeRequest_reaches body (path ++ [.key "below"])
  refine ⟨htenth.2.1 (by decide) (.key "name") "Ann" ?_, htenth.1 (by decide) _ ?_,
    hbelow.2.2 (by decide) (.key "name") _ ?_⟩
  · exact congrArg (fun s => some (Json.str s)) hname
  · exact congrArg
      (fun s => some (Json.obj [("name", .str s), ("below", .obj [("name", .str "<b>Ann")])])) hname
  · rfl

end Sample

end SaasBackend
