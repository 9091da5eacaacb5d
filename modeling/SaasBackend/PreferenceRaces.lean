import SaasBackend.Mailboxes

set_option autoImplicit false

namespace SaasBackend
open Keyed Handler

/-- The statements that write no preferences; the deletion of an account only takes a
row away. -/
def BackendStmt.writesNoPreferences : BackendStmt → Bool
  | .preferenceCreate _ _ => false
  | .preferenceUpsert _ _ _ => false
  | _ => true

inductive PreferenceRequest where
  | route (header : AuthHeader) (route : NotificationRoute)
  | other (p : Act NotificationReply) (apart : p.Sends (fun l => l.writesNoPreferences = true))

def PreferenceRequest.prog (env : Env) : PreferenceRequest → Act NotificationReply
  | .route header r => r.handle env header
  | .other p _ => p

abbrev PreferenceEvent := Event PreferenceRequest Backend BackendStmt

abbrev PreferenceConfig := Config PreferenceRequest Backend Err BackendStmt NotificationReply

abbrev PreferenceRun (env : Env) :
    PreferenceConfig → List PreferenceEvent → PreferenceConfig → Prop :=
  Steps (Step BackendStmt.exec (PreferenceRequest.prog env) (fun _ => True) (fun _ _ => True))

def NotificationRoute.onPreferences : NotificationRoute → Bool
  | .getPreferences _ => true
  | .updatePreferences _ _ => true
  | _ => false

def PreferenceRequest.By (u : Id) (route : NotificationRoute) (r : PreferenceRequest) : Prop :=
  ∃ header, r = .route header route ∧ header.bearerId = some u ∧ route.onPreferences = true

def PreferenceRequest.Writes (r : PreferenceRequest) : BackendStmt → Prop
  | .preferenceCreate id u => r.By u (.getPreferences id)
  | .preferenceUpsert id u d => r.By u (.updatePreferences id d)
  | _ => True

/-- One of the statements in the history answered `a`, as the mailbox does. -/
def PreferenceRequest.Answered (env : Env) (r : PreferenceRequest)
    (h : List (BackendStmt × Backend)) (a : NotificationReply) : Prop :=
  ∀ u route, r.By u route → ∃ l b b', (l, b) ∈ h ∧ l.exec b = .ok b' ∧
    (b.mailbox u).route env route = (b'.mailbox u).answer a

section Requests

variable {env : Env}

theorem writes_of_apart {r : PreferenceRequest} {l : BackendStmt}
    (h : l.writesNoPreferences = true) : r.Writes l := by
  unfold BackendStmt.writesNoPreferences at h
  unfold PreferenceRequest.Writes
  split <;> simp_all

theorem answered_of_not {r : PreferenceRequest} {h : List (BackendStmt × Backend)}
    {a : NotificationReply} (hnot : ∀ u route, ¬ r.By u route) : r.Answered env h a :=
  fun u route hby => absurd hby (hnot u route)

theorem route_apart (env : Env) (userId : Id) {route : NotificationRoute}
    (hroute : route.onPreferences = false) :
    (route.serve env userId).Sends (fun l => l.writesNoPreferences = true) := by
  cases route with
  | list q =>
    exact .bind (.send rfl) fun _ => .bind (.send rfl) fun _ => .bind (.send rfl) fun _ => .ret
  | markAsRead id =>
    refine .bind (.send rfl) fun found => ?_
    split
    · exact .throw
    · split
      · exact .ret
      · exact .bind (.send rfl) fun _ => .bind (.send rfl) fun _ => .ret
  | markAllAsRead => exact .bind (.send rfl) fun _ => .bind (.send rfl) fun _ => .ret
  | delete id =>
    refine .bind (.send rfl) fun found => ?_
    split
    · exact .throw
    · exact .bind (.send rfl) fun _ => .ret
  | getPreferences id => cases hroute
  | updatePreferences id d => cases hroute

theorem authenticated_along {header : AuthHeader} {k : Caller → Act NotificationReply}
    {r : PreferenceRequest} (hk : ∀ caller own, header.bearerId = some caller.id →
      (k caller).Along BackendStmt.exec (fun _ => r.Writes) (r.Answered env) own) :
    (((authenticate header).lift).bind k).Along BackendStmt.exec (fun _ => r.Writes)
      (r.Answered env) [] := by
  refine Prog.Along.bind_sends (P := fun l => l = .core .read)
    (S := fun caller => header.bearerId = some caller.id)
    ((authenticate_reads header).embed fun l hl => by rw [hl])
    (authenticate_returns header).embed (fun l _ hl => by rw [hl]; trivial) ?_
  intro caller own hcaller _
  exact hk caller (own ++ []) hcaller

theorem getPreferences_along {header : AuthHeader} {id u : Id} (hu : header.bearerId = some u)
    (own : List (BackendStmt × Backend)) :
    (getPreferences id u).Along BackendStmt.exec
      (fun _ => (PreferenceRequest.route header (.getPreferences id)).Writes)
      ((PreferenceRequest.route header (.getPreferences id)).Answered env) own := by
  refine Prog.along_send_bind.mpr ⟨trivial, fun b b' hread => ?_⟩
  cases hread
  cases hpref : b.preferencesOf u with
  | some prefs =>
    rintro v route ⟨header', heq, hv, _⟩
    cases heq
    cases Option.some.inj (hu.symm.trans hv)
    refine ⟨.core .read, b, b, List.mem_cons_self, rfl, ?_⟩
    simp only [Mailbox.route, Mailbox.getPreferences, mailbox_preferences, hpref]
  | none =>
    refine Prog.along_send_bind.mpr ⟨⟨header, rfl, hu, rfl⟩, fun b₁ b₂ hcreate => ?_⟩
    rintro v route ⟨header', heq, hv, _⟩
    cases heq
    cases Option.some.inj (hu.symm.trans hv)
    exact ⟨_, b₁, b₂, List.mem_cons_self, hcreate, preferenceCreate_effect hcreate⟩

theorem updatePreferences_along {header : AuthHeader} {id u : Id} {d : PreferencePatch}
    (hu : header.bearerId = some u) (own : List (BackendStmt × Backend)) :
    (updatePreferences id u d).Along BackendStmt.exec
      (fun _ => (PreferenceRequest.route header (.updatePreferences id d)).Writes)
      ((PreferenceRequest.route header (.updatePreferences id d)).Answered env) own := by
  refine Prog.along_send_bind.mpr ⟨⟨header, rfl, hu, rfl⟩, fun b b' hupsert => ?_⟩
  rintro v route ⟨header', heq, hv, _⟩
  cases heq
  cases Option.some.inj (hu.symm.trans hv)
  exact ⟨_, b, b', List.mem_cons_self, hupsert, preferenceUpsert_effect hupsert⟩

theorem PreferenceRequest.along (r : PreferenceRequest) :
    (r.prog env).Along BackendStmt.exec (fun _ => r.Writes) (r.Answered env) [] := by
  cases r with
  | other p apart =>
    refine .of_sends (apart.mono fun l hl _ => writes_of_apart hl) ?_ []
    exact (Prog.returns_true p).mono fun a _ h => answered_of_not fun u route hby => by
      obtain ⟨header, heq, _⟩ := hby
      cases heq
  | route header route =>
    refine authenticated_along fun caller own hcaller => ?_
    cases hroute : route.onPreferences with
    | false =>
      refine .of_sends ((route_apart env caller.id hroute).mono fun l hl _ => writes_of_apart hl)
        ((Prog.returns_true _).mono fun a _ h => answered_of_not fun u route' hby => ?_) own
      obtain ⟨header', heq, _, hon⟩ := hby
      cases heq
      rw [hroute] at hon
      cases hon
    | true =>
      cases route with
      | getPreferences id => exact getPreferences_along hcaller own
      | updatePreferences id d => exact updatePreferences_along hcaller own
      | list q => cases hroute
      | markAsRead id => cases hroute
      | markAllAsRead => cases hroute
      | delete id => cases hroute

end Requests

theorem cascade_preferences {b' : Backend} {l : Stmt} {u : Id}
    (hchange : (b'.cascade l).preferencesOf u ≠ b'.preferencesOf u) : l = .userDelete u := by
  unfold Backend.cascade at hchange
  split at hchange
  · rename_i id
    by_contra hne
    have hid : id ≠ u := fun heq => hne (by rw [heq])
    refine hchange ?_
    simp only [Backend.preferencesOf, Backend.forget, Table.find?_eq_head?]
    rw [Table.filter_eraseWhere_apart]
    intro k p _ hp
    have howner : p.userId = u := by simpa using hp
    simp [howner, hid.symm]
  · exact absurd rfl hchange

theorem exec_preferences {b b' : Backend} {l : BackendStmt} {u : Id} (h : l.exec b = .ok b')
    (hchange : b'.preferencesOf u ≠ b.preferencesOf u) :
    l = .core (.userDelete u) ∨ (∃ id, l = .preferenceCreate id u) ∨
      ∃ id d, l = .preferenceUpsert id u d := by
  have hother : ∀ v, l.ofUser v b → v = u := fun v hl => by
    by_contra hne
    exact hchange (congrArg Mailbox.preferences (exec_apart hne hl h))
  cases l with
  | core l =>
    refine .inl (congrArg BackendStmt.core ?_)
    simp only [BackendStmt.exec] at h
    split at h
    · cases h
    · cases h
      exact cascade_preferences hchange
  | preferenceCreate id v => exact .inr (.inl ⟨id, by rw [hother v rfl]⟩)
  | preferenceUpsert id v d => exact .inr (.inr ⟨id, d, by rw [hother v rfl]⟩)
  | notificationCreate id n =>
    obtain ⟨_, rfl⟩ := notificationCreate_ok h
    exact absurd rfl hchange
  | notificationUpdate id readAt =>
    simp only [BackendStmt.exec] at h
    split at h <;> cases h
    exact absurd rfl hchange
  | notificationDelete id =>
    simp only [BackendStmt.exec] at h
    split at h <;> cases h
    exact absurd rfl hchange
  | auditCreate id row =>
    obtain ⟨_, _, _, rfl⟩ := insertNamed_ok (f := fun t => { b with auditLogs := t }) h
    exact absurd rfl hchange
  | failedJobCreate id row =>
    obtain ⟨_, _, _, rfl⟩ := insertNamed_ok (f := fun t => { b with failedJobs := t }) h
    exact absurd rfl hchange
  | notificationReadAll userId readAt => cases h; exact absurd rfl hchange
  | notificationCleanup before => cases h; exact absurd rfl hchange
  | auditCleanup before => cases h; exact absurd rfl hchange
  | failedJobCleanup before => cases h; exact absurd rfl hchange
  | webhookEventCleanup before => cases h; exact absurd rfl hchange

/-- Whatever else runs: a preference request that was answered took effect at one of its
statements as the mailbox does, and nothing but such a request of the user, or the
deletion of the account, changes a user's preferences. -/
theorem preferences_linearizable (env : Env) {b₀ : Backend} {tr : List PreferenceEvent}
    {c : PreferenceConfig} (hrun : PreferenceRun env ⟨b₀, []⟩ tr c) :
    (∀ i r u route a, c.pool[i]? = some (r, .ret a) → r.By u route →
      ∃ l b b', .fire i l b b' ∈ tr ∧
        (b.mailbox u).route env route = (b'.mailbox u).answer a) ∧
    ∀ i l b b' u, .fire i l b b' ∈ tr → b'.preferencesOf u ≠ b.preferencesOf u →
      l = .core (.userDelete u) ∨ ∃ r p route a, c.pool[i]? = some (r, p) ∧ r.By u route ∧
        (b.mailbox u).route env route = (b'.mailbox u).answer a := by
  have hrecalled := Recalled.steps (fun r _ => PreferenceRequest.along r) hrun
  refine ⟨fun i r u route a hi hby => ?_, fun i l b b' u hmem hchange => ?_⟩
  · obtain ⟨l, b, b', hown, hexec, hans⟩ := hrecalled.pool i _ hi u route hby
    obtain ⟨b'', hfire, _⟩ := mem_own hown
    obtain ⟨tr₂, tr₁, htr⟩ := List.append_of_mem hfire
    rcases (hrecalled.events tr₁ tr₂ i l b b'' htr).1 with hok | ⟨⟨e, herr⟩, _⟩
    · rw [hexec] at hok
      cases hok
      exact ⟨l, b, b', hfire, hans⟩
    · rw [hexec] at herr
      cases herr
  · obtain ⟨tr₂, tr₁, htr⟩ := List.append_of_mem hmem
    obtain ⟨hstore, q, hq, hwrites⟩ := hrecalled.events tr₁ tr₂ i l b b' htr
    rcases hstore with hok | ⟨_, rfl⟩
    · rcases exec_preferences hok hchange with hdel | ⟨id, rfl⟩ | ⟨id, d, rfl⟩
      · exact .inl hdel
      · exact .inr ⟨q.1, q.2, _, _, hq, hwrites, preferenceCreate_effect hok⟩
      · exact .inr ⟨q.1, q.2, _, _, hq, hwrites, preferenceUpsert_effect hok⟩
    · exact absurd rfl hchange

section Sample

def askedTwice : List (PreferenceRequest ⊕ Nat) :=
  [.inl (.route (bearer 1 "a@x.io") (.getPreferences 10)),
    .inl (.route (bearer 1 "a@x.io") (.getPreferences 11))] ++
    (List.replicate 8 [.inr 0, .inr 1]).flatten

def asked : PreferenceConfig :=
  Config.play BackendStmt.exec (PreferenceRequest.prog sampleEnv) ⟨emptyInboxes, []⟩ askedTwice

def askedTrace : List PreferenceEvent :=
  Config.trace BackendStmt.exec (PreferenceRequest.prog sampleEnv) ⟨emptyInboxes, []⟩ askedTwice []

theorem asked_run : PreferenceRun sampleEnv ⟨emptyInboxes, []⟩ askedTrace asked :=
  Config.trace_steps BackendStmt.exec _ askedTwice (fun _ _ => trivial) .refl

theorem asked_linearizable : ∃ l b b', .fire 0 l b b' ∈ askedTrace ∧
    (b.mailbox 1).route sampleEnv (.getPreferences 10) =
      (b'.mailbox 1).answer (.preferences (preferenceView 10 (defaultPreferences 1 0))) :=
  (preferences_linearizable sampleEnv asked_run).1 0
    (.route (bearer 1 "a@x.io") (.getPreferences 10)) 1 (.getPreferences 10) _ (by rfl)
    ⟨bearer 1 "a@x.io", rfl, rfl, rfl⟩

end Sample

end SaasBackend
