import SaasBackend.RegexErase
import SaasBackend.FeatureFlagService

/-! src/middleware/sanitize.middleware.js: what is taken out of every text of a request body. -/

set_option autoImplicit false

namespace SaasBackend
open Regex

def DANGEROUS_KEYS : List String := ["__proto__", "constructor", "prototype"]

def isLetter (c : Char) : Bool := c.isAlpha
def isWordChar (c : Char) : Bool := c.isAlphanum || c == '_'

def letter (c : Char) : Pattern Char := .one (fun d => d.toLower == c)
def char (c : Char) : Pattern Char := .one (· == c)
def anyBut (c : Char) : Pattern Char := .many (· != c)

/-- `/<\/?[a-zA-Z][^>]*>/` -/
def HTML_TAG_RE : Pattern Char :=
  .seqs [char '<', .orElse (char '/') .empty, .one isLetter, anyBut '>', char '>']

/-- `/javascript:/i` -/
def JS_URI_RE : Pattern Char :=
  .seqs [letter 'j', letter 'a', letter 'v', letter 'a', letter 's', letter 'c', letter 'r',
    letter 'i', letter 'p', letter 't', char ':']

def quoted (q : Char) : Pattern Char := .seqs [char q, anyBut q, char q]

/-- `/\son\w+\s*=\s*(?:"[^"]*"|'[^']*'|[^\s]*)/i` -/
def ON_EVENT_RE : Pattern Char :=
  .seqs [.one isJsSpace, letter 'o', letter 'n', .one isWordChar, .many isWordChar,
    .many isJsSpace, char '=',
    .many isJsSpace, .orElse (quoted '\x22')
      (.orElse (quoted '\x27') (.many fun c => !isJsSpace c))]

def sanitizeChars (s : List Char) : List Char :=
  ON_EVENT_RE.erase (JS_URI_RE.erase (HTML_TAG_RE.erase s))

def sanitizeString (str : String) : String := String.ofList (sanitizeChars str.toList)

def strippedKey (key : String) : Bool :=
  DANGEROUS_KEYS.contains key || "$".toList.isPrefixOf key.toList

mutual

/-- Objects and arrays below the eleventh level are left as they are. -/
def sanitizeInPlace : Json → Nat → Json
  | .arr items, depth => if depth > 10 then .arr items else .arr (sanitizeItems items depth)
  | .obj fields, depth => if depth > 10 then .obj fields else .obj (sanitizeFields fields depth)
  | v, _ => v

def sanitizeItems : List Json → Nat → List Json
  | [], _ => []
  | .str s :: items, depth => .str (sanitizeString s) :: sanitizeItems items depth
  | v :: items, depth => sanitizeInPlace v (depth + 1) :: sanitizeItems items depth

def sanitizeFields : List (String × Json) → Nat → List (String × Json)
  | [], _ => []
  | field :: fields, depth =>
    if strippedKey field.1 then sanitizeFields fields depth
    else sanitizeField field depth :: sanitizeFields fields depth

def sanitizeField : String × Json → Nat → String × Json
  | (key, .str s), _ => (key, .str (sanitizeString s))
  | (key, v), depth => (key, sanitizeInPlace v (depth + 1))

end

/-- On `req.body`. -/
def sanitizeRequest (body : Json) : Json := sanitizeInPlace body 0

theorem nil_notMem_patterns : ∀ r ∈ [HTML_TAG_RE, JS_URI_RE, ON_EVENT_RE], [] ∉ r.lang := by
  simp only [List.forall_mem_cons]
  exact ⟨Pattern.nil_notMem_seqs_one, Pattern.nil_notMem_seqs_one,
    Pattern.nil_notMem_seqs_one, by simp⟩

/-- No part of the text is an HTML tag, a `javascript:` URI or an event handler. -/
def Clean (s : List Char) : Prop :=
  ∀ r ∈ [HTML_TAG_RE, JS_URI_RE, ON_EVENT_RE], ∀ t, t <:+: s → t ∉ r.lang

theorem sanitizeChars_eq_self_iff {s : List Char} : sanitizeChars s = s ↔ Clean s := by
  have htag := Pattern.erase_eq_self_iff (s := s) (nil_notMem_patterns HTML_TAG_RE (by simp))
  have huri := Pattern.erase_eq_self_iff (s := s) (nil_notMem_patterns JS_URI_RE (by simp))
  have hevent := Pattern.erase_eq_self_iff (s := s) (nil_notMem_patterns ON_EVENT_RE (by simp))
  simp only [Clean, List.forall_mem_cons, ← htag, ← huri, ← hevent]
  unfold sanitizeChars
  constructor
  · intro h
    -- each stage only shortens, so a text that comes out whole went through whole
    have h₁ := (HTML_TAG_RE.erase_sublist s).length_le
    have h₂ := (JS_URI_RE.erase_sublist (HTML_TAG_RE.erase s)).length_le
    have h₃ := (ON_EVENT_RE.erase_sublist (JS_URI_RE.erase (HTML_TAG_RE.erase s))).length_le
    rw [h] at h₃
    have hs₁ : HTML_TAG_RE.erase s = s := (HTML_TAG_RE.erase_sublist s).eq_of_length (by omega)
    rw [hs₁] at h h₂ h₃
    have hs₂ : JS_URI_RE.erase s = s := (JS_URI_RE.erase_sublist s).eq_of_length (by omega)
    rw [hs₂] at h
    exact ⟨hs₁, hs₂, h, by simp⟩
  · rintro ⟨h₁, h₂, h₃, _⟩
    rw [h₁, h₂, h₃]

theorem sanitizeString_eq_self_iff {s : String} : sanitizeString s = s ↔ Clean s.toList := by
  rw [← sanitizeChars_eq_self_iff, sanitizeString, ← String.toList_inj, String.toList_ofList]

section Fields

variable {key : String} {s : String} {depth : Nat}

theorem sanitizeInPlace_str {v : Json} : sanitizeInPlace v depth = .str s ↔ v = .str s := by
  cases v <;> simp only [sanitizeInPlace] <;> split <;> simp

theorem sanitizeField_snd {field : String × Json} :
    (sanitizeField field depth).2 = .str s ↔ ∃ raw, field.2 = .str raw ∧
      s = sanitizeString raw := by
  obtain ⟨key, v⟩ := field
  cases v <;> simp [sanitizeField, sanitizeInPlace_str, eq_comm]

theorem sanitizeField_fst (field : String × Json) (depth : Nat) :
    (sanitizeField field depth).1 = field.1 := by
  obtain ⟨key, v⟩ := field
  cases v <;> rfl

theorem lookup_sanitizeFields {fields : List (String × Json)} (hkey : strippedKey key = false) :
    (sanitizeFields fields depth).lookup key = some (.str s) ↔
      ∃ raw, fields.lookup key = some (.str raw) ∧ s = sanitizeString raw := by
  induction fields with
  | nil => simp [sanitizeFields]
  | cons field fields ih =>
    obtain ⟨key', v⟩ := field
    have hfst := sanitizeField_fst (key', v) depth
    have hsnd : (sanitizeField (key', v) depth).2 = .str s ↔
        ∃ raw, v = .str raw ∧ s = sanitizeString raw :=
      sanitizeField_snd
    simp only [sanitizeFields]
    split
    · rename_i hstripped
      have hne : (key == key') = false := by
        simp only [beq_eq_false_iff_ne]
        intro heq
        rw [heq, hstripped] at hkey
        cases hkey
      rw [ih, List.lookup_cons, hne]
    · rcases hcleaned : sanitizeField (key', v) depth with ⟨k, cleaned⟩
      rw [hcleaned] at hfst hsnd
      simp only at hfst hsnd
      subst hfst
      rw [List.lookup_cons, List.lookup_cons]
      split
      · simp [hsnd]
      · exact ih

theorem field_sanitizeRequest {body : Json} (hkey : strippedKey key = false) :
    (sanitizeRequest body).field key = some (.str s) ↔
      ∃ raw, body.field key = some (.str raw) ∧ s = sanitizeString raw := by
  cases body with
  | obj fields => exact lookup_sanitizeFields hkey
  | arr items => simp [sanitizeRequest, sanitizeInPlace, Json.field]
  | _ => simp [sanitizeRequest, sanitizeInPlace, Json.field]

end Fields

end SaasBackend
