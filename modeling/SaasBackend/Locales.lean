import SaasBackend.Sanitizer
import SaasBackend.TextReplace

/-! src/i18n/index.js: translations by key, with their placeholders. Of the locale files only the
texts of the e-mails are kept. -/

set_option autoImplicit false

namespace SaasBackend
open TextReplace

def SUPPORTED_LOCALES : List String := ["en", "fr"]
def DEFAULT_LOCALE : String := "en"

/-- locales/en.json -/
def en : Json := .obj [("emails", .obj [
  ("verification", .obj [
    ("subject", .str "Verify your email address"),
    ("heading", .str "Verify your email address"),
    ("greeting", .str "Hi\x7bname\x7d"),
    ("body", .str "Please confirm your email address by clicking the button below:"),
    ("button", .str "Verify Email"),
    ("copyLink", .str "Or copy this link into your browser:"),
    ("footer", .str
      "This link expires in 24 hours. If you didn't create an account, you can safely ignore this email.")]),
  ("passwordReset", .obj [
    ("subject", .str "Reset your password"),
    ("heading", .str "Reset your password"),
    ("greeting", .str "Hi\x7bname\x7d"),
    ("body", .str
      "We received a request to reset your password. Click the button below to choose a new one:"),
    ("button", .str "Reset Password"),
    ("copyLink", .str "Or copy this link into your browser:"),
    ("footer", .str
      "This link expires in 1 hour. If you didn't request a password reset, you can safely ignore this email.")]),
  ("orgInvitation", .obj [
    ("subject", .str "You're invited to join \x7borgName\x7d"),
    ("heading", .str "You're invited to join \x7borgName\x7d"),
    ("body", .str "\x7binviterName\x7d has invited you to join \x7borgName\x7d as a \x7brole\x7d."),
    ("button", .str "Accept Invitation"),
    ("copyLink", .str "Or copy this link into your browser:"),
    ("footer", .str "This invitation expires in 7 days. If you weren't expecting this invitation, you can safely ignore this email.")])])]

/-- locales/fr.json -/
def fr : Json := .obj [("emails", .obj [
  ("verification", .obj [
    ("subject", .str "Vérifiez votre adresse e-mail"),
    ("heading", .str "Vérifiez votre adresse e-mail"),
    ("greeting", .str "Bonjour\x7bname\x7d"),
    ("body", .str "Veuillez confirmer votre adresse e-mail en cliquant sur le bouton ci-dessous :"),
    ("button", .str "Vérifier l'e-mail"),
    ("copyLink", .str "Ou copiez ce lien dans votre navigateur :"),
    ("footer", .str
      "Ce lien expire dans 24 heures. Si vous n'avez pas créé de compte, vous pouvez ignorer cet e-mail.")]),
  ("passwordReset", .obj [
    ("subject", .str "Réinitialisez votre mot de passe"),
    ("heading", .str "Réinitialisez votre mot de passe"),
    ("greeting", .str "Bonjour\x7bname\x7d"),
    ("body", .str "Nous avons reçu une demande de réinitialisation de votre mot de passe. Cliquez sur le bouton ci-dessous pour en choisir un nouveau :"),
    ("button", .str "Réinitialiser le mot de passe"),
    ("copyLink", .str "Ou copiez ce lien dans votre navigateur :"),
    ("footer", .str
      "Ce lien expire dans 1 heure. Si vous n'avez pas demandé de réinitialisation, vous pouvez ignorer cet e-mail.")]),
  ("orgInvitation", .obj [
    ("subject", .str "Vous êtes invité à rejoindre \x7borgName\x7d"),
    ("heading", .str "Vous êtes invité à rejoindre \x7borgName\x7d"),
    ("body", .str
      "\x7binviterName\x7d vous a invité à rejoindre \x7borgName\x7d en tant que \x7brole\x7d."),
    ("button", .str "Accepter l'invitation"),
    ("copyLink", .str "Ou copiez ce lien dans votre navigateur :"),
    ("footer", .str "Cette invitation expire dans 7 jours. Si vous n'attendiez pas cette invitation, vous pouvez ignorer cet e-mail.")])])]

def locales (lang : String) : Json := if lang = "fr" then fr else en

def getPath (obj : Json) (key : String) : Option Json :=
  (key.toList.splitOn '.').foldl (fun acc part => acc.bind fun v =>
    v.field (String.ofList part)) (some obj)

/-- `/\{(\w+)\}/` with the parameter of that name, if there is one. -/
def placeholder (params : List (String × String)) : List Char → Option (Nat × List Char)
  | '\x7b' :: s =>
    let name := s.takeWhile isWordChar
    if name.isEmpty || (s.drop name.length).head? != some '\x7d' then none
    else some (name.length + 2, match params.lookup (String.ofList name) with
      | some value => value.toList
      | none => '\x7b' :: name ++ ['\x7d'])
  | _ => none

def interpolate (value : Json) (params : List (String × String)) : Json :=
  match value with
  | .str s => .str (String.ofList (replaceFrom (placeholder params) 0 s.toList))
  | v => v

def Json.words : Json → String
  | .str s => s
  | _ => ""

def t (key locale : String) (params : List (String × String)) : Json :=
  let lang := if SUPPORTED_LOCALES.contains locale then locale else DEFAULT_LOCALE
  interpolate (Json.nullish (getPath (locales lang) key)
    (Json.nullish (getPath (locales DEFAULT_LOCALE) key) (.str key))) params

theorem t_locale (key locale : String) (params : List (String × String)) :
    t key locale params = t key (if locale = "fr" then "fr" else "en") params := by
  split
  · rename_i hfr
    rw [hfr]
  · rename_i hfr
    have hen : locales (if SUPPORTED_LOCALES.contains locale then locale else DEFAULT_LOCALE) =
        en := by
      split
      · exact if_neg hfr
      · rfl
    unfold t
    simp only [hen]
    rfl

section Placeholders

variable {params : List (String × String)} {value : String}

theorem replaceFrom_placeholder {name after : List Char} (hname : name ≠ [])
    (hword : name.all isWordChar = true)
    (hvalue : params.lookup (String.ofList name) = some value) :
    replaceFrom (placeholder params) 0 ('\x7b' :: (name ++ '\x7d' :: after)) =
      value.toList ++ replaceFrom (placeholder params) 0 after := by
  have hend : isWordChar '\x7d' = false := by decide
  have htake : (name ++ '\x7d' :: after).takeWhile isWordChar = name := by
    rw [List.takeWhile_append_of_pos (List.all_eq_true.mp hword),
      List.takeWhile_cons_of_neg (by simp [hend]), List.append_nil]
  have hmatch : placeholder params ('\x7b' :: (name ++ '\x7d' :: after)) =
      some (name.length + 2, value.toList) := by
    simp [placeholder, htake, hname, hvalue]
  rw [replaceFrom, hmatch]
  simp only
  rw [replaceFrom_skip]
  simp

theorem words_interpolate {template : String} (before name after : List Char)
    (htemplate : template.toList = before ++ '\x7b' :: (name ++ '\x7d' :: after))
    (hbefore : '\x7b' ∉ before) (hname : name ≠ []) (hword : name.all isWordChar = true)
    (hvalue : params.lookup (String.ofList name) = some value) :
    (interpolate (.str template) params).words.toList =
      before ++ (value.toList ++ replaceFrom (placeholder params) 0 after) := by
  rw [interpolate, Json.words, String.toList_ofList, htemplate]
  clear htemplate
  induction before with
  | nil => exact replaceFrom_placeholder hname hword hvalue
  | cons c before ih =>
    obtain ⟨hc, hrest⟩ := List.ne_and_not_mem_of_not_mem_cons hbefore
    have hnone : placeholder params (c :: (before ++ '\x7b' :: (name ++ '\x7d' :: after))) =
        none := by
      unfold placeholder
      split
      · rename_i heq
        exact absurd (List.cons.inj heq).1.symm hc
      · rfl
    rw [List.cons_append, replaceFrom, hnone]
    simp only [ih hrest, List.cons_append]

end Placeholders

end SaasBackend
