import SaasBackend.Locales

/-! src/modules/shared/email.service.js: the two bodies of an e-mail, and what is left of the
values in them. -/

set_option autoImplicit false

namespace SaasBackend
open TextReplace

def escapeChars (s : List Char) : List Char :=
  let s := replaceAll ['&'] "&amp;".toList s
  let s := replaceAll ['<'] "&lt;".toList s
  let s := replaceAll ['>'] "&gt;".toList s
  let s := replaceAll ['\x22'] "&quot;".toList s
  replaceAll ['\x27'] "&#39;".toList s

def escapeHtml (value : String) : String := String.ofList (escapeChars value.toList)

def unescapeChars (s : List Char) : List Char :=
  let s := replaceAll "&amp;".toList ['&'] s
  let s := replaceAll "&lt;".toList ['<'] s
  let s := replaceAll "&gt;".toList ['>'] s
  let s := replaceAll "&quot;".toList ['\x22'] s
  replaceAll "&#39;".toList ['\x27'] s

def unescapeHtml (value : String) : String := String.ofList (unescapeChars value.toList)

structure EmailStrings where
  heading : String
  greeting : String
  body : String
  copyLink : String
  footer : String

def buildEmailHtml (strings : EmailStrings) (url button : String) : String :=
  String.join [
    "\n    <div style=\"font-family: Arial, sans-serif; max-width: 600px; margin: 0 auto; padding: 20px;\">",
    "\n      <h2>", strings.heading, "</h2>",
    "\n      <p>", strings.greeting, ",</p>",
    "\n      <p>", strings.body, "</p>",
    "\n      <a href=\"", url, "\"",
    "\n         style=\"display: inline-block; background: #4f46e5; color: #fff; padding: 12px 24px; ",
    "border-radius: 6px; text-decoration: none; margin: 16px 0;\">",
    "\n        ", button,
    "\n      </a>",
    "\n      <p>", strings.copyLink, "</p>",
    "\n      <p><a href=\"", url, "\">", url, "</a></p>",
    "\n      <p style=\"color: #6b7280; font-size: 14px; margin-top: 24px;\">",
    "\n        ", strings.footer,
    "\n      </p>",
    "\n    </div>\n  "]

def emailLines (strings : EmailStrings) (url button : String) : List String :=
  [strings.heading, if strings.greeting = "" then "" else strings.greeting ++ ",", strings.body,
    button ++ ": " ++ url, strings.copyLink, strings.footer]

def buildEmailText (strings : EmailStrings) (url button : String) : String :=
  "\n\n".intercalate (((emailLines strings url button).filter (· ≠ "")).map unescapeHtml)

structure Email where
  sender : String
  recipient : String
  subject : String
  html : String
  text : String

/-- FROM_EMAIL and APP_URL. -/
structure MailEnv where
  FROM : String
  APP_URL : String

def translate (mail part locale : String) (params : List (String × String)) : String :=
  (t ("emails." ++ mail ++ "." ++ part) locale params).words

/-- `name ? space + escapeHtml(name) : ''` -/
def greeted (name : Option String) : String :=
  match name with
  | none | some "" => ""
  | some name => " " ++ escapeHtml name

def accountEmail (mail page : String) (env : MailEnv) (recipient token : String)
    (name : Option String) (locale : String) :
    Email :=
  let url := env.APP_URL ++ page ++ token
  let strings : EmailStrings :=
    { heading := translate mail "heading" locale []
      greeting := translate mail "greeting" locale [("name", greeted name)]
      body := translate mail "body" locale []
      copyLink := translate mail "copyLink" locale []
      footer := translate mail "footer" locale [] }
  let button := translate mail "button" locale []
  { sender := env.FROM, recipient, subject := translate mail "subject" locale []
    html := buildEmailHtml strings url button, text := buildEmailText strings url button }

def sendVerificationEmail : MailEnv → String → String → Option String → String → Email :=
  accountEmail "verification" "/verify-email?token="

def sendPasswordResetEmail : MailEnv → String → String → Option String → String → Email :=
  accountEmail "passwordReset" "/reset-password?token="

def sendOrgInvitationEmail (env : MailEnv) (recipient orgName inviterName role token locale :
    String) : Email :=
  let url := env.APP_URL ++ "/invitations/accept?token=" ++ token
  let strings : EmailStrings :=
    { heading := translate "orgInvitation" "heading" locale [("orgName", escapeHtml orgName)]
      greeting := ""
      body := translate "orgInvitation" "body" locale
        [("inviterName", escapeHtml inviterName), ("orgName", escapeHtml orgName), ("role", role)]
      copyLink := translate "orgInvitation" "copyLink" locale []
      footer := translate "orgInvitation" "footer" locale [] }
  let button := translate "orgInvitation" "button" locale []
  { sender := env.FROM, recipient,
    subject := translate "orgInvitation" "subject" locale [("orgName", orgName)]
    html := buildEmailHtml strings url button, text := buildEmailText strings url button }

inductive EmailJob where
  | sendVerificationEmail (recipient token : String) (name : Option String) (locale : String)
  | sendPasswordResetEmail (recipient token : String) (name : Option String) (locale : String)
  | sendOrgInvitationEmail (recipient orgName inviterName role token locale : String)

def EmailJob.email (env : MailEnv) : EmailJob → Email
  | .sendVerificationEmail recipient token name locale =>
    SaasBackend.sendVerificationEmail env recipient token name locale
  | .sendPasswordResetEmail recipient token name locale =>
    SaasBackend.sendPasswordResetEmail env recipient token name locale
  | .sendOrgInvitationEmail recipient orgName inviterName role token locale =>
    SaasBackend.sendOrgInvitationEmail env recipient orgName inviterName role token locale

def EmailJob.typed : EmailJob → List String
  | .sendVerificationEmail _ _ name _ | .sendPasswordResetEmail _ _ name _ => name.toList
  | .sendOrgInvitationEmail _ orgName inviterName _ _ _ => [orgName, inviterName]

section Entities

def entities : List (Char × List Char) :=
  [('&', "&amp;".toList), ('<', "&lt;".toList), ('>', "&gt;".toList), ('\x22', "&quot;".toList),
    ('\x27', "&#39;".toList)]

def typedEntities : List (Char × List Char) := entities.tail

theorem escapeChars_eq (s : List Char) : escapeChars s = s.flatMap (encode entities) := by
  simp only [escapeChars, replaceAll_singleton, List.flatMap_assoc]
  refine List.flatMap_congr fun c _ => ?_
  simp only [entities, encode_cons]
  by_cases hamp : c = '&'
  · subst hamp
    decide +kernel
  by_cases hlt : c = '<'
  · subst hlt
    decide +kernel
  by_cases hgt : c = '>'
  · subst hgt
    decide +kernel
  by_cases hquot : c = '\x22'
  · subst hquot
    decide +kernel
  simp only [if_neg hamp, if_neg hlt, if_neg hgt, if_neg hquot, List.flatMap_singleton, encode,
    List.lookup_nil, Option.getD_none]

theorem unescapeChars_eq (s : List Char) :
    unescapeChars s = decode typedEntities (replaceAll "&amp;".toList ['&'] s) :=
  rfl

theorem typedEntities_coding : Coding '&' typedEntities where
  starts := by
    intro e he
    simp only [typedEntities, entities, List.tail_cons, List.mem_cons, List.not_mem_nil,
      or_false] at he
    rcases he with rfl | rfl | rfl | rfl <;> exact ⟨_, rfl, by decide +kernel, by decide +kernel⟩
  plain := by
    have hplain : (typedEntities.all fun e => e.2.all fun c => typedEntities.lookup c == none) =
        true := by
      decide +kernel
    simpa only [List.all_eq_true, beq_iff_eq] using hplain
  apart := by decide +kernel

/-- `&amp;` first: every ampersand of the text is one again, and the entities are as they were
typed. -/
theorem replaceAll_amp (s : List Char) :
    replaceAll "&amp;".toList ['&'] (s.flatMap (encode entities)) =
      s.flatMap (encode typedEntities) := by
  refine replaceAll_flatMap (by decide) (fun c => ?_) s
  by_cases hamp : c = '&'
  · subst hamp
    exact .inl (by decide)
  have hencode : encode entities c = encode typedEntities c := by
    rw [show entities = ('&', "&amp;".toList) :: typedEntities from rfl, encode_cons, if_neg hamp]
  refine .inr ⟨hencode, hencode ▸ ?_⟩
  have hwords : ∀ e ∈ typedEntities, Clear "&amp;".toList e.2 := by decide
  rcases encode_mem typedEntities c with hc | ⟨e, he, hc⟩
  · rw [hc]
    exact clear_singleton hamp
  · rw [hc]
    exact hwords e he

theorem unescape_escape (s : List Char) :
    unescapeChars (escapeChars s) = decode typedEntities s := by
  rw [escapeChars_eq, unescapeChars_eq, replaceAll_amp, decode_encode typedEntities_coding]

theorem unescape_escape_iff (s : List Char) :
    unescapeChars (escapeChars s) = s ↔ ∀ e ∈ typedEntities, ¬ e.2 <:+: s := by
  rw [unescape_escape, decode_eq_self_iff typedEntities_coding]

def Apart (c : Char) : Prop := ∀ e ∈ entities, c ∉ e.2

theorem apart_space : Apart ' ' := by
  unfold Apart
  decide +kernel

theorem apart_comma : Apart ',' := by
  unfold Apart
  decide +kernel

theorem unescape_append_cons {c : Char} (hc : Apart c) (s t : List Char) :
    unescapeChars (s ++ c :: t) = unescapeChars s ++ c :: unescapeChars t := by
  rw [unescapeChars_eq, replaceAll_append_cons (by decide) (hc _ (.head _)),
    decode_append_cons typedEntities_coding fun e he => hc e (.tail _ he)]
  rfl

/-- The value stands in the line with nothing beside it that an entity could reach over. -/
def Holds (line value : List Char) : Prop :=
  ∃ before after, line = before ++ value ++ after ∧
    (before = [] ∨ ∃ a c, before = a ++ [c] ∧ Apart c) ∧
      (after = [] ∨ ∃ c b, after = c :: b ∧ Apart c)

theorem Holds.unescape {line value : List Char} (h : Holds line value) :
    unescapeChars value <:+: unescapeChars line := by
  obtain ⟨before, after, rfl, hbefore, hafter⟩ := h
  have hleft : ∃ a, unescapeChars (before ++ value) = a ++ unescapeChars value := by
    rcases hbefore with rfl | ⟨a, c, rfl, hc⟩
    · exact ⟨[], rfl⟩
    · refine ⟨unescapeChars a ++ [c], ?_⟩
      rw [List.append_assoc, List.singleton_append, unescape_append_cons hc, List.append_assoc,
        List.singleton_append]
  obtain ⟨a, ha⟩ := hleft
  rcases hafter with rfl | ⟨c, b, rfl, hc⟩
  · rw [List.append_nil, ha]
    exact ⟨a, [], by simp⟩
  · rw [unescape_append_cons hc, ha]
    exact ⟨a, _, rfl⟩

end Entities

section Parts

variable {strings : EmailStrings} {url button line part : String}

theorem infix_intercalate {α : Type} {sep part : List α} {parts : List (List α)}
    (h : part ∈ parts) :
    part <:+: sep.intercalate parts := by
  induction parts with
  | nil => cases h
  | cons first rest ih =>
    cases rest with
    | nil =>
      rw [List.mem_singleton.mp h, List.intercalate_singleton]
    | cons second rest =>
      rw [List.intercalate_cons_cons]
      rcases List.mem_cons.mp h with rfl | h
      · exact ⟨[], sep ++ sep.intercalate (second :: rest), by simp⟩
      · exact (ih h).trans (List.suffix_append _ _).isInfix

theorem infix_of_line (h : line ∈ emailLines strings url button) :
    unescapeChars line.toList <:+: (buildEmailText strings url button).toList := by
  by_cases hempty : line = ""
  · rw [hempty]
    exact List.nil_infix
  · rw [buildEmailText, String.toList_intercalate]
    refine infix_intercalate
      (List.mem_map.mpr ⟨unescapeHtml line, List.mem_map_of_mem ?_, String.toList_ofList⟩)
    exact List.mem_filter.mpr ⟨h, by simpa using hempty⟩

theorem infix_of_part (h : part ∈ [strings.heading, strings.greeting, strings.body]) :
    part.toList <:+: (buildEmailHtml strings url button).toList := by
  rw [buildEmailHtml, String.toList_join, List.flatMap_def]
  refine List.infix_of_mem_flatten (List.mem_map_of_mem ?_)
  simp only [List.mem_cons, List.not_mem_nil, or_false] at h
  rcases h with rfl | rfl | rfl <;> simp

theorem greeting_toList {mail : String} (hmail : mail = "verification" ∨ mail = "passwordReset")
    (locale value : String) :
    ∃ hello, hello ≠ [] ∧ (translate mail "greeting" locale [("name", value)]).toList = hello ++
      value.toList := by
  have hgreeting : translate mail "greeting" locale [("name", value)] =
      (interpolate (.str (if locale = "fr" then "Bonjour\x7bname\x7d" else "Hi\x7bname\x7d"))
        [("name", value)]).words := by
    rw [translate, t_locale]
    rcases hmail with rfl | rfl <;> split <;> rfl
  have hwords : ∀ {hello : List Char} {template : String},
    template.toList = hello ++ "\x7bname\x7d".toList →
      '\x7b' ∉ hello → (interpolate (.str template) [("name", value)]).words.toList = hello ++
        value.toList := by
    intro hello template htemplate hplain
    rw [words_interpolate hello "name".toList [] htemplate hplain (by decide) (by decide) rfl,
      replaceFrom, List.append_nil]
  rw [hgreeting]
  split
  · exact ⟨"Bonjour".toList, by decide, hwords (by decide +kernel) (by decide)⟩
  · exact ⟨"Hi".toList, by decide, hwords (by decide +kernel) (by decide)⟩

theorem heading_toList (locale value : String) :
    ∃ before, (translate "orgInvitation" "heading" locale [("orgName", value)]).toList =
      before ++ ' ' :: value.toList := by
  have hheading : translate "orgInvitation" "heading" locale [("orgName", value)] =
      (interpolate (.str (if locale = "fr" then "Vous êtes invité à rejoindre \x7borgName\x7d"
        else "You're invited to join \x7borgName\x7d")) [("orgName", value)]).words := by
    rw [translate, t_locale]
    split <;> rfl
  have hwords : ∀ {before : List Char} {template : String},
      template.toList = before ++ [' '] ++ "\x7borgName\x7d".toList → '\x7b' ∉ before ++ [' '] →
        (interpolate (.str template) [("orgName", value)]).words.toList = before ++
          ' ' :: value.toList := by
    intro before template htemplate hplain
    rw [words_interpolate (before ++ [' ']) "orgName".toList [] htemplate hplain (by decide)
      (by decide) rfl, replaceFrom, List.append_nil, List.append_assoc, List.singleton_append]
  rw [hheading]
  split
  · exact ⟨"Vous êtes invité à rejoindre".toList, hwords (by decide +kernel) (by decide)⟩
  · exact ⟨"You're invited to join".toList, hwords (by decide +kernel) (by decide)⟩

theorem body_toList (locale value orgName role : String) :
    ∃ after, (translate "orgInvitation" "body" locale
      [("inviterName", value), ("orgName", orgName), ("role", role)]).toList = value.toList ++
      ' ' :: after := by
  let params := [("inviterName", value), ("orgName", orgName), ("role", role)]
  have hbody : translate "orgInvitation" "body" locale params =
    (interpolate (.str (if locale = "fr" then
      "\x7binviterName\x7d vous a invité à rejoindre \x7borgName\x7d en tant que \x7brole\x7d."
        else "\x7binviterName\x7d has invited you to join \x7borgName\x7d as a \x7brole\x7d."))
        params).words := by
    clear_value params
    rw [translate, t_locale]
    split <;> rfl
  have hwords : ∀ (template after : String), template.toList = "\x7binviterName\x7d".toList ++
    ' ' :: after.toList →
      ∃ after, (interpolate (.str template) params).words.toList = value.toList ++
        ' ' :: after := by
    intro template after htemplate
    have hspace : placeholder params (' ' :: after.toList) = none := rfl
    refine ⟨replaceFrom (placeholder params) 0 after.toList, ?_⟩
    rw [words_interpolate [] "inviterName".toList (' ' :: after.toList) htemplate (by simp)
      (by decide) (by decide) rfl, replaceFrom, hspace, List.nil_append]
  rw [hbody]
  split
  · exact hwords _ "vous a invité à rejoindre \x7borgName\x7d en tant que \x7brole\x7d."
      (by decide +kernel)
  · exact hwords _ "has invited you to join \x7borgName\x7d as a \x7brole\x7d." (by decide +kernel)

/-- A value that comes back from its escape stands as it was typed in the text part, and escaped in
the other. -/
def Email.Shows (email : Email) (value : String) : Prop :=
  value.toList <:+: email.text.toList ∧ (escapeHtml value).toList <:+: email.html.toList

theorem escapeHtml_toList (value : String) : (escapeHtml value).toList = escapeChars value.toList :=
    String.toList_ofList

theorem infix_of_holds {value : String} {whole : List Char}
    (hvalue : unescapeChars (escapeChars value.toList) = value.toList)
    (hholds : Holds line.toList (escapeChars value.toList))
    (hline : unescapeChars line.toList <:+: whole) :
    value.toList <:+: whole := by
  have h := hholds.unescape
  rw [hvalue] at h
  exact h.trans hline

theorem accountEmail_shows {mail : String} (hmail : mail = "verification" ∨ mail = "passwordReset")
    {name : String} (hname : unescapeChars (escapeChars name.toList) = name.toList) (page : String)
    (env : MailEnv) (recipient token locale : String) :
    (accountEmail mail page env recipient token (some name) locale).Shows name := by
  by_cases hempty : name = ""
  · subst hempty
    exact ⟨List.nil_infix, List.nil_infix⟩
  obtain ⟨hello, hne, hgreeting⟩ := greeting_toList hmail locale (greeted (some name))
  have hgreeted : (greeted (some name)).toList = ' ' :: escapeChars name.toList := by
    unfold greeted
    split
    · rename_i hnone
      cases hnone
    · rename_i hnone
      exact absurd (Option.some.inj hnone) hempty
    · rename_i hsome
      cases hsome
      rw [String.toList_append, escapeHtml_toList]
      rfl
  rw [hgreeted] at hgreeting
  have hnonempty : translate mail "greeting" locale [("name", greeted (some name))] ≠ "" := by
    intro h
    rw [h] at hgreeting
    exact hne (List.append_eq_nil_iff.mp hgreeting.symm).1
  have hline : (translate mail "greeting" locale [("name", greeted (some name))] ++ ",").toList =
      hello ++ [' '] ++ escapeChars name.toList ++ [','] := by
    rw [String.toList_append, hgreeting, List.append_assoc hello [' ']]
    rfl
  refine ⟨infix_of_holds hname ⟨_, _, hline, .inr ⟨_, _, rfl, apart_space⟩,
    .inr ⟨_, _, rfl, apart_comma⟩⟩
    (infix_of_line (.tail _ (List.mem_cons.mpr (.inl (if_neg hnonempty).symm)))), ?_⟩
  rw [escapeHtml_toList]
  refine List.IsInfix.trans ⟨hello ++ [' '], [], ?_⟩ (infix_of_part (.tail _ (.head _)))
  rw [List.append_nil, List.append_assoc, List.singleton_append]
  exact hgreeting.symm

theorem sendOrgInvitationEmail_shows {value : String}
    (hvalue : unescapeChars (escapeChars value.toList) = value.toList) (env : MailEnv)
    (recipient orgName inviterName role token locale : String)
    (h : value = orgName ∨ value = inviterName) :
    (sendOrgInvitationEmail env recipient orgName inviterName role token locale).Shows value := by
  obtain ⟨before, hheading⟩ := heading_toList locale (escapeHtml orgName)
  obtain ⟨after, hbody⟩ := body_toList locale (escapeHtml inviterName) (escapeHtml orgName) role
  rw [escapeHtml_toList] at hheading hbody
  unfold Email.Shows
  rw [escapeHtml_toList]
  rcases h with rfl | rfl
  · have hline :
      (translate "orgInvitation" "heading" locale [("orgName", escapeHtml value)]).toList =
        before ++ [' '] ++ escapeChars value.toList ++ [] := by
      rw [List.append_nil, List.append_assoc, List.singleton_append, hheading]
    exact ⟨infix_of_holds hvalue ⟨_, _, hline, .inr ⟨_, _, rfl, apart_space⟩, .inl rfl⟩
      (infix_of_line (.head _)), List.IsInfix.trans ⟨_, _, hline.symm⟩ (infix_of_part (.head _))⟩
  · have hline : (translate "orgInvitation" "body" locale
        [("inviterName", escapeHtml value), ("orgName", escapeHtml orgName),
          ("role", role)]).toList =
          [] ++ escapeChars value.toList ++ ' ' :: after := hbody
    exact ⟨infix_of_holds hvalue ⟨_, _, hline, .inl rfl, .inr ⟨_, _, rfl, apart_space⟩⟩
      (infix_of_line (.tail _ (.tail _ (.head _)))),
      List.IsInfix.trans ⟨_, _, hline.symm⟩ (infix_of_part (.tail _ (.tail _ (.head _))))⟩

end Parts

/-- A value comes back from its escape, and stands in the text part of each mail as it was typed
and in the other one escaped, iff it holds no entity but `&amp;`. -/
theorem text_shows_iff (env : MailEnv) (s : String) :
    (unescapeHtml (escapeHtml s) = s ∧ ∀ job : EmailJob, s ∈ job.typed → (job.email env).Shows s) ↔
      ∀ e ∈ typedEntities, ¬ e.2 <:+: s.toList := by
  rw [← unescape_escape_iff]
  have hback : unescapeHtml (escapeHtml s) = s ↔
      unescapeChars (escapeChars s.toList) = s.toList := by
    rw [unescapeHtml, escapeHtml_toList, ← String.toList_inj, String.toList_ofList]
  rw [hback]
  refine ⟨fun h => h.1, fun h => ⟨h, fun job hjob => ?_⟩⟩
  cases job with
  | sendVerificationEmail recipient token name locale =>
    obtain rfl := Option.mem_toList.mp hjob
    exact accountEmail_shows (.inl rfl) h _ env recipient token locale
  | sendPasswordResetEmail recipient token name locale =>
    obtain rfl := Option.mem_toList.mp hjob
    exact accountEmail_shows (.inr rfl) h _ env recipient token locale
  | sendOrgInvitationEmail recipient orgName inviterName role token locale =>
    exact sendOrgInvitationEmail_shows h env recipient orgName inviterName role token locale
      (by simpa [EmailJob.typed] using hjob)

/-- A name that is typed as an entity is shown as the character. -/
theorem entity_shown_decoded : unescapeHtml (escapeHtml "&lt;b&gt;") = "<b>" ∧
    unescapeHtml (escapeHtml "&lt;b&gt;") ≠ "&lt;b&gt;" := by
  have h : unescapeHtml (escapeHtml "&lt;b&gt;") = "<b>" := by decide +kernel
  exact ⟨h, by rw [h]; decide⟩

end SaasBackend
