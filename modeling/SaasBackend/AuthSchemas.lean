import Mathlib.Algebra.Ring.Nat
import SaasBackend.Sanitizer
import SaasBackend.AuthService

/-! src/middleware/validate.middleware.js and the password schemas of
src/modules/auth/auth.schema.js. -/

set_option autoImplicit false

namespace SaasBackend

/-- An i18n key of the schema, or zod's own words for a value of another type. -/
inductive IssueMessage where
  | i18n (key : String)
  | invalidType (expected : String)
  deriving DecidableEq, Repr

structure Issue where
  path : List String
  message : IssueMessage
  deriving DecidableEq, Repr

structure StringCheck where
  holds : String → Bool
  message : String

/-- `str.length` -/
def jsLength (s : String) : Nat := (s.toList.map fun c => if c.toNat < 0x10000 then 1 else 2).sum

def StringCheck.min (n : Nat) (message : String) : StringCheck :=
  ⟨fun s => decide (n ≤ jsLength s), message⟩
def StringCheck.max (n : Nat) (message : String) : StringCheck :=
  ⟨fun s => decide (jsLength s ≤ n), message⟩
def StringCheck.regex (p : Char → Bool) (message : String) : StringCheck :=
  ⟨fun s => s.toList.any p, message⟩

structure StringField where
  key : String
  checks : List StringCheck
  typeMessage : IssueMessage := .invalidType "string"

def StringField.parse (f : StringField) (body : Json) : Except (List Issue) String :=
  match body.field f.key with
  | some (.str s) =>
    match f.checks.filter (fun c => !c.holds s) with
    | [] => .ok s
    | failed => .error (failed.map fun c => ⟨["body", f.key], .i18n c.message⟩)
  | _ => .error [⟨["body", f.key], f.typeMessage⟩]

def both {α β : Type} (a : Except (List Issue) α) (b : Except (List Issue) β) :
    Except (List Issue) (α × β) :=
  match a, b with
  | .ok x, .ok y => .ok (x, y)
  | .error is, .ok _ => .error is
  | .ok _, .error js => .error js
  | .error is, .error js => .error (is ++ js)

/-- `z.object` -/
def parseObject {α : Type} (fields : Json → Except (List Issue) α) : Json → Except (List Issue) α
  | .obj members => fields (.obj members)
  | _ => .error [⟨["body"], .invalidType "object"⟩]

/-- `fieldErrors` as `validate` rebuilds them. -/
def fieldKey : List String → String
  | [] => "_"
  | [container] => container
  | _ :: path => ".".intercalate path

def pushError (errors : List (String × List IssueMessage)) (issue : Issue) :
    List (String × List IssueMessage) :=
  if errors.any (fun e => e.1 == fieldKey issue.path) then
    errors.map fun e => if e.1 == fieldKey issue.path then (e.1, e.2 ++ [issue.message]) else e
  else errors ++ [(fieldKey issue.path, [issue.message])]

/-- The errors are the body of a 400; their keys are translated for the client. -/
def validate {α : Type} (schema : Json → Except (List Issue) α) (body : Json) :
    Except (List (String × List IssueMessage)) α :=
  (schema body).mapError fun issues => issues.foldl pushError []

def emailField (isEmail : String → Bool) (key : String) : StringField :=
  { key, checks := [⟨isEmail, "validation.invalidEmail"⟩],
    typeMessage := .i18n "validation.invalidEmail" }

def newPasswordField (key : String) : StringField :=
  { key
    checks := [.min 8 "validation.passwordMinLength", .max 72 "validation.passwordMaxLength",
      .regex Char.isUpper "validation.passwordUppercase",
        .regex Char.isDigit "validation.passwordNumber"] }

def passwordField (key required : String) : StringField :=
  { key, checks := [.min 1 required, .max 72 "validation.passwordMaxLength"] }

def registerSchema (isEmail : String → Bool) : Json →
    Except (List Issue) (String × String × String) :=
  parseObject fun body =>
    both ({ key := "name", checks := [.min 2 "validation.nameMinLength"] : StringField }.parse body)
      (both ((emailField isEmail "email").parse body) ((newPasswordField "password").parse body))

def loginSchema (isEmail : String → Bool) : Json → Except (List Issue) (String × String) :=
  parseObject fun body =>
    both ((emailField isEmail "email").parse body)
      ((passwordField "password" "validation.passwordRequired").parse body)

def changePasswordSchema : Json → Except (List Issue) (String × String) :=
  parseObject fun body =>
    both ((passwordField "currentPassword" "validation.currentPasswordRequired").parse body)
      ((newPasswordField "newPassword").parse body)

def resetPasswordSchema : Json → Except (List Issue) (String × String) :=
  parseObject fun body =>
    both
      (({ key := "token", checks := [.min 1 "validation.resetTokenRequired"] } :
        StringField).parse body)
      ((newPasswordField "newPassword").parse body)

section Accepted

variable {α β : Type} {f : StringField} {body : Json} {s : String}

theorem StringField.parse_eq_ok : f.parse body = .ok s ↔
    body.field f.key = some (.str s) ∧ ∀ c ∈ f.checks, c.holds s = true := by
  unfold parse
  split
  · rename_i s' hs'
    simp only [hs', Option.some.injEq, Json.str.injEq]
    split
    · rename_i hnone
      have hall : ∀ c ∈ f.checks, c.holds s' = true := by simpa using hnone
      simp only [Except.ok.injEq]
      exact ⟨fun h => ⟨h, h ▸ hall⟩, fun h => h.1⟩
    · rename_i hfailed
      simp only [reduceCtorEq, false_iff, not_and]
      rintro rfl hall
      exact hfailed (by simpa using hall)
  · rename_i hother
    simp only [reduceCtorEq, false_iff, not_and]
    exact fun h => absurd h (hother s)

@[simp] theorem both_eq_ok {a : Except (List Issue) α} {b : Except (List Issue) β} {x : α} {y : β} :
    both a b = .ok (x, y) ↔ a = .ok x ∧ b = .ok y := by
  cases a <;> cases b <;> simp [both]

theorem parseObject_ok {fields : Json → Except (List Issue) α} {x : α}
    (h : parseObject fields body = .ok x) :
    fields body = .ok x := by
  cases body <;> first | exact h | cases h

theorem validate_eq_ok {schema : Json → Except (List Issue) α} {x : α} :
    validate schema body = .ok x ↔ schema body = .ok x := by
  unfold validate
  cases schema body <;> simp [Except.mapError]

theorem validated {schema : Json → Except (List Issue) α} {handler : α → β} {b : β}
    (h : (validate schema body).map handler = .ok b) :
    ∃ x, schema body = .ok x ∧ b = handler x := by
  cases hvalid : validate schema body with
  | error errors =>
    rw [hvalid] at h
    cases h
  | ok x =>
    rw [hvalid] at h
    exact ⟨x, validate_eq_ok.mp hvalid, (Except.ok.inj h).symm⟩

end Accepted

end SaasBackend
