import SaasBackend.ColumnWrites
import SaasBackend.Footprints

set_option autoImplicit false

namespace SaasBackend
open Keyed Handler

def UpdateProjectBody.data (body : UpdateProjectBody) : ProjectPatch :=
  { name := body.name.map trim, description := body.description.map (·.map trim)
    status := body.status }

def organizationData (name slug : Option String) : OrganizationPatch :=
  { name := name.map trim, slug }

def ProjectPatch.edits (d : ProjectPatch) : Bool :=
  d.name.isSome || d.description.isSome || d.status.isSome

def OrganizationPatch.edits (d : OrganizationPatch) : Bool := d.name.isSome || d.slug.isSome

def Stmt.edits : Stmt → Bool
  | .projectUpdate _ d => d.edits
  | .organizationUpdate _ d => d.edits
  | _ => false

def Stmt.projectEdit (p : Id) : Stmt → Option ProjectPatch
  | .projectUpdate id d => if id = p ∧ d.edits = true then some d else none
  | _ => none

def Stmt.organizationEdit (o : Id) : Stmt → Option OrganizationPatch
  | .organizationUpdate id d => if id = o ∧ d.edits = true then some d else none
  | _ => none

inductive EditReply where
  | project (reply : ProjectReply)
  | organization (reply : OrgReply)
  | done

inductive EditRequest where
  | updateProject (header : AuthHeader) (orgId projectId : Id) (body : UpdateProjectBody)
  | updateOrganization (header : AuthHeader) (orgId : Id) (name slug : Option String)
  | other (p : Req Unit) (apart : p.Sends (fun l => l.edits = false))

def EditRequest.prog (env : Env) : EditRequest → Req EditReply
  | .updateProject header orgId projectId body =>
    (ProjectRoute.handle env header orgId (.updateProject projectId body)).bind
      fun reply => .ret (.project reply)
  | .updateOrganization header orgId name slug =>
    (OrgRoute.handle env header (.updateOrganization orgId name slug)).bind
      fun reply => .ret (.organization reply)
  | .other p _ => p.bind fun _ => .ret .done

abbrev EditEvent := Event EditRequest World Stmt

abbrev EditConfig := Config EditRequest World Err Stmt EditReply

abbrev EditRun (env : Env) : EditConfig → List EditEvent → EditConfig → Prop :=
  Steps (Step Stmt.exec (EditRequest.prog env) (fun _ => True) (fun _ _ => True))

def projectEdits (p : Id) : List EditEvent → List (Nat × ProjectPatch) :=
  written Stmt.exec (Stmt.projectEdit p)

def organizationEdits (o : Id) : List EditEvent → List (Nat × OrganizationPatch) :=
  written Stmt.exec (Stmt.organizationEdit o)

namespace Columns

def projectName : Column Project ProjectPatch String := ⟨Project.name, ProjectPatch.name⟩

def projectDescription : Column Project ProjectPatch (Option String) :=
  ⟨Project.description, ProjectPatch.description⟩

def projectStatus : Column Project ProjectPatch ProjectStatus :=
  ⟨Project.status, ProjectPatch.status⟩

def organizationName : Column Organization OrganizationPatch String :=
  ⟨Organization.name, OrganizationPatch.name⟩

def organizationSlug : Column Organization OrganizationPatch String :=
  ⟨Organization.slug, OrganizationPatch.slug⟩

end Columns

section Rows

variable {β : Type} {w w' : World} {l : Stmt} {p o : Id}

def ProjectColumn (col : Column Project ProjectPatch β) : Prop :=
  (∀ d a t, col.read { ProjectPatch.apply d a with updatedAt := t } =
    (col.sets d).getD (col.read a)) ∧ ∀ d, d.edits = false → col.sets d = none

def OrganizationColumn (col : Column Organization OrganizationPatch β) : Prop :=
  (∀ d a t, col.read { OrganizationPatch.apply d a with updatedAt := t } =
    (col.sets d).getD (col.read a)) ∧ (∀ d, d.edits = false → col.sets d = none) ∧
  ∀ a owner t, col.read { a with ownerId := owner, updatedAt := t } = col.read a

theorem projectColumn_name : ProjectColumn Columns.projectName :=
  ⟨fun _ _ _ => rfl, fun d h => by
    simp only [ProjectPatch.edits, Bool.or_eq_false_iff] at h
    simpa [Columns.projectName] using h.1.1⟩

theorem projectColumn_description : ProjectColumn Columns.projectDescription :=
  ⟨fun _ _ _ => rfl, fun d h => by
    simp only [ProjectPatch.edits, Bool.or_eq_false_iff] at h
    simpa [Columns.projectDescription] using h.1.2⟩

theorem projectColumn_status : ProjectColumn Columns.projectStatus :=
  ⟨fun _ _ _ => rfl, fun d h => by
    simp only [ProjectPatch.edits, Bool.or_eq_false_iff] at h
    simpa [Columns.projectStatus] using h.2⟩

theorem organizationColumn_name : OrganizationColumn Columns.organizationName :=
  ⟨fun _ _ _ => rfl, fun d h => by
    simp only [OrganizationPatch.edits, Bool.or_eq_false_iff] at h
    simpa [Columns.organizationName] using h.1, fun _ _ _ => rfl⟩

theorem organizationColumn_slug : OrganizationColumn Columns.organizationSlug :=
  ⟨fun _ _ _ => rfl, fun d h => by
    simp only [OrganizationPatch.edits, Bool.or_eq_false_iff] at h
    simpa [Columns.organizationSlug] using h.2, fun _ _ _ => rfl⟩

theorem drawn_kept (h : p < w.nonce) (hexec : l.exec w = .ok w') : p < w'.nonce :=
  Nat.lt_of_lt_of_le h (exec_effect hexec).nonce_le

theorem project_column {col : Column Project ProjectPatch β} (hcol : ProjectColumn col)
    (hp : p < w.nonce) (hexec : l.exec w = .ok w') {a' : Project}
    (ha : w'.projects.get? p = some a') : ∃ a, w.projects.get? p = some a ∧
      col.read a' = ((l.projectEdit p).bind col.sets).getD (col.read a) := by
  rw [(exec_effect hexec).projects] at ha
  cases l with
  | projectUpdate id d =>
    simp only [Stmt.projectsAfter, Table.get?_update] at ha
    by_cases hid : p = id
    · subst hid
      rw [if_pos rfl] at ha
      obtain ⟨a, hrow, rfl⟩ := Option.map_eq_some_iff.mp ha
      refine ⟨a, hrow, ?_⟩
      cases hd : d.edits with
      | true => simp [Stmt.projectEdit, hd, hcol.1]
      | false => simp [Stmt.projectEdit, hd, hcol.1, hcol.2 d hd]
    · rw [if_neg hid] at ha
      exact ⟨a', ha, by simp [Stmt.projectEdit, Ne.symm hid]⟩
  | projectCreate row =>
    rcases Table.get?_insert_cases ha with hold | ⟨rfl, _⟩
    · exact ⟨a', hold, rfl⟩
    · exact absurd hp (Nat.lt_irrefl _)
  | userDelete id =>
    obtain ⟨hold, _⟩ := Table.get?_eraseWhere_eq_some.mp ha
    exact ⟨a', hold, rfl⟩
  | _ => exact ⟨a', ha, rfl⟩

theorem organization_column {col : Column Organization OrganizationPatch β}
    (hcol : OrganizationColumn col) (ho : o < w.nonce) (hexec : l.exec w = .ok w')
    {a' : Organization} (ha : w'.organizations.get? o = some a') :
    ∃ a, w.organizations.get? o = some a ∧
      col.read a' = ((l.organizationEdit o).bind col.sets).getD (col.read a) := by
  rw [(exec_effect hexec).organizations] at ha
  cases l with
  | organizationUpdate id d =>
    simp only [Stmt.organizationsAfter, Table.get?_update] at ha
    by_cases hid : o = id
    · subst hid
      rw [if_pos rfl] at ha
      obtain ⟨a, hrow, rfl⟩ := Option.map_eq_some_iff.mp ha
      refine ⟨a, hrow, ?_⟩
      cases hd : d.edits with
      | true => simp [Stmt.organizationEdit, hd, hcol.1]
      | false => simp [Stmt.organizationEdit, hd, hcol.1, hcol.2.1 d hd]
    · rw [if_neg hid] at ha
      exact ⟨a', ha, by simp [Stmt.organizationEdit, Ne.symm hid]⟩
  | transferOwnership orgId newOwnerId currentOwnerId =>
    simp only [Stmt.organizationsAfter, Table.get?_update] at ha
    by_cases hid : o = orgId
    · rw [if_pos hid] at ha
      obtain ⟨a, hrow, rfl⟩ := Option.map_eq_some_iff.mp ha
      exact ⟨a, hrow, hcol.2.2 a _ _⟩
    · rw [if_neg hid] at ha
      exact ⟨a', ha, rfl⟩
  | organizationCreate name slug ownerId =>
    rcases Table.get?_insert_cases ha with hold | ⟨rfl, _⟩
    · exact ⟨a', hold, rfl⟩
    · exact absurd ho (Nat.lt_irrefl _)
  | userDelete id =>
    obtain ⟨hold, _⟩ := Table.get?_eraseWhere_eq_some.mp ha
    exact ⟨a', hold, rfl⟩
  | _ => exact ⟨a', ha, rfl⟩

theorem project_tracked {col : Column Project ProjectPatch β} (hcol : ProjectColumn col) (p : Id) :
    Tracked Stmt.exec (Stmt.projectEdit p) (fun w : World => w.projects.get? p)
      (fun w => p < w.nonce) col where
  kept _ _ _ := drawn_kept
  step _ _ _ _ hp hexec ha := project_column hcol hp hexec ha

theorem organization_tracked {col : Column Organization OrganizationPatch β}
    (hcol : OrganizationColumn col) (o : Id) :
    Tracked Stmt.exec (Stmt.organizationEdit o) (fun w : World => w.organizations.get? o)
      (fun w => o < w.nonce) col where
  kept _ _ _ := drawn_kept
  step _ _ _ _ ho hexec ha := organization_column hcol ho hexec ha

end Rows

section Requests

variable {env : Env}

/-- Only the two routes edit, each once, its own row with its own body. -/
def EditRequest.Writes (r : EditRequest) (h : List (Stmt × World)) (l : Stmt) : Prop :=
  l.edits = true → (∀ e ∈ h, e.1.edits = false) ∧
    ((∃ header orgId p body, r = .updateProject header orgId p body ∧
      l = .projectUpdate p body.data) ∨
    ∃ header o name slug, r = .updateOrganization header o name slug ∧
      l = .organizationUpdate o (organizationData name slug))

def EditRequest.Edited (r : EditRequest) (h : List (Stmt × World)) (_ : EditReply) : Prop :=
  (∀ header orgId p body, r = .updateProject header orgId p body →
    ∃ w, (.projectUpdate p body.data, w) ∈ h) ∧
  ∀ header o name slug, r = .updateOrganization header o name slug →
    ∃ w, (.organizationUpdate o (organizationData name slug), w) ∈ h

theorem edits_of_apart {r : EditRequest} {h : List (Stmt × World)} {l : Stmt}
    (hl : l.edits = false) : r.Writes h l := by
  simp [EditRequest.Writes, hl]

theorem requireOrgRole_sends {P : Stmt → Prop} (roles : List OrgRole) (tenant : Tenant) :
    (requireOrgRole roles tenant).Sends P := by
  unfold requireOrgRole
  split
  · exact .ret
  · exact .throw

theorem findLive_reads (organizationId projectId : Id) :
    (findLive organizationId projectId).Sends (fun l => l = .read) := by
  refine .bind (.send rfl) fun found => ?_
  split
  · exact .throw
  · exact .ret

theorem slugConflict_reads (orgId : Id) (slug : Option String) :
    (slugConflict orgId slug).Sends (fun l => l = .read) := by
  unfold slugConflict
  split
  · exact .ret
  · split
    · exact .ret
    · exact .bind (.send rfl) fun _ => .ret

theorem requireTenant_reads (orgId : Id) (caller : Caller) :
    (requireTenant orgId caller).Sends (fun l => l = .read) := by
  refine .bind (.send rfl) fun found => ?_
  split
  · exact .ret
  · exact .throw

theorem requireTenant_returns (orgId : Id) (caller : Caller) :
    (requireTenant orgId caller).Returns (fun tenant => tenant.id = orgId) := by
  refine ⟨fun w => ?_, fun _ => trivial⟩
  simp only [Prog.ret_bind]
  split
  · rename_i tenant hfound
    obtain ⟨⟨id, m⟩, _, hjoin⟩ := Option.bind_eq_some_iff.mp hfound
    obtain ⟨o, _, htenant⟩ := Option.map_eq_some_iff.mp hjoin
    obtain ⟨rfl, _⟩ := Prod.mk.inj htenant
    exact rfl
  · trivial

theorem along_of_reads {α β : Type} {r : EditRequest} {R : List (Stmt × World) → β → Prop}
    {S : α → Prop} {p : Req α} {k : α → Req β} {h : List (Stmt × World)}
    (hp : p.Sends (fun l => l = .read)) (hret : p.Returns S) (hh : ∀ e ∈ h, e.1.edits = false)
    (hk : ∀ a own, S a → (∀ e ∈ own, e.1.edits = false) → (k a).Along Stmt.exec r.Writes R own) :
    (p.bind k).Along Stmt.exec r.Writes R h := by
  refine .bind_sends hp hret
    (fun l _ hl => edits_of_apart (by rw [hl]; rfl)) fun a own ha hown => ?_
  refine hk a _ ha fun e he => ?_
  rcases List.mem_append.mp he with hnew | hold
  · rw [hown e hnew]
    rfl
  · exact hh e hold

theorem updateProject_along (header : AuthHeader) (orgId projectId : Id)
    (body : UpdateProjectBody) :
    (EditRequest.prog env (.updateProject header orgId projectId body)).Along Stmt.exec
      (EditRequest.updateProject header orgId projectId body).Writes
      (EditRequest.updateProject header orgId projectId body).Edited [] := by
  simp only [EditRequest.prog, ProjectRoute.handle, ProjectRoute.serve, updateProject,
    Prog.bind_eq, Prog.bind_assoc]
  refine along_of_reads (authenticate_reads header) (Prog.returns_true _) (by simp)
    fun caller _ _ h₁ =>
    along_of_reads (requireVerifiedEmail_reads caller) (Prog.returns_true _) h₁ fun _ _ _ h₂ =>
    along_of_reads (requireTenant_reads orgId caller) (Prog.returns_true _) h₂
      fun tenant _ _ h₃ =>
    along_of_reads (requireOrgRole_sends _ tenant) (Prog.returns_true _) h₃ fun _ _ _ h₄ =>
    along_of_reads (findLive_reads tenant.id projectId) (Prog.returns_true _) h₄
      fun _ own _ hown => ?_
  refine Prog.along_send_bind.mpr
    ⟨fun _ => ⟨hown, .inl ⟨header, orgId, projectId, body, rfl, rfl⟩⟩, fun w w' _ => ?_⟩
  split
  · exact .throw
  · refine .ret ⟨fun header' orgId' p body' heq => ?_, fun _ _ _ _ heq => by cases heq⟩
    cases heq
    exact ⟨w, List.mem_cons_self⟩

theorem updateOrganization_along (header : AuthHeader) (orgId : Id) (name slug : Option String) :
    (EditRequest.prog env (.updateOrganization header orgId name slug)).Along Stmt.exec
      (EditRequest.updateOrganization header orgId name slug).Writes
      (EditRequest.updateOrganization header orgId name slug).Edited [] := by
  simp only [EditRequest.prog, OrgRoute.handle, OrgRoute.serve, tenantWithRole,
    updateOrganization, Prog.bind_eq, Prog.bind_assoc, Prog.pure_eq, Prog.ret_bind]
  refine along_of_reads (authenticate_reads header) (Prog.returns_true _) (by simp)
    fun caller _ _ h₁ =>
    along_of_reads (requireTenant_reads orgId caller) (requireTenant_returns orgId caller) h₁
      fun tenant _ htenant h₂ =>
    along_of_reads (requireOrgRole_sends _ tenant) (Prog.returns_true _) h₂ fun _ _ _ h₃ =>
    along_of_reads (slugConflict_reads tenant.id slug) (Prog.returns_true _) h₃
      fun conflict own _ hown => ?_
  cases conflict with
  | true => exact .throw
  | false =>
    subst htenant
    refine Prog.along_tryCatch_bind.mpr
      ⟨fun _ => ⟨hown, .inr ⟨header, tenant.id, name, slug, rfl, rfl⟩⟩,
      fun w _ _ => .ret ⟨fun _ _ _ _ heq => (by cases heq), fun _ _ _ _ heq => ?_⟩, fun err => ?_⟩
    · cases heq
      exact ⟨w, List.mem_cons_self⟩
    · unfold slugTaken
      split
      · exact .throw
      · exact .throw

theorem EditRequest.along (r : EditRequest) :
    (r.prog env).Along Stmt.exec r.Writes r.Edited [] := by
  cases r with
  | updateProject header orgId p body => exact updateProject_along header orgId p body
  | updateOrganization header o name slug => exact updateOrganization_along header o name slug
  | other p apart =>
    refine .bind (apart.mono fun l hl _ => edits_of_apart hl) fun _ _ _ => .ret ⟨?_, ?_⟩
    · exact fun _ _ _ _ heq => by cases heq
    · exact fun _ _ _ _ heq => by cases heq

end Requests

section Runs

variable {env : Env} {w₀ : World} {tr : List EditEvent} {c : EditConfig}

def EditRequest.asksProject (p : Id) (d : ProjectPatch) : EditRequest → Prop
  | .updateProject _ _ id body => id = p ∧ body.data = d
  | _ => False

def EditRequest.asksOrganization (o : Id) (d : OrganizationPatch) : EditRequest → Prop
  | .updateOrganization _ id name slug => id = o ∧ organizationData name slug = d
  | _ => False

/-- The edits of a row are what requests ask for, each made once; that of an answered request
is among them. -/
structure Made {δ : Type} (asks : δ → EditRequest → Prop) (edits : δ → Bool) (c : EditConfig)
    (made : List (Nat × δ)) : Prop where
  once : (made.map (·.1)).Nodup
  asked : ∀ i d, (i, d) ∈ made → ∃ r q, c.pool[i]? = some (r, q) ∧ asks d r
  answered : ∀ i r reply d, c.pool[i]? = some (r, .ret reply) → asks d r → edits d = true →
    (i, d) ∈ made

theorem edits_of_projectEdit {p : Id} {l : Stmt} {d : ProjectPatch}
    (h : l.projectEdit p = some d) : l.edits = true ∧ l = .projectUpdate p d := by
  unfold Stmt.projectEdit at h
  split at h
  · split at h
    · rename_i hown
      obtain ⟨rfl, hedits⟩ := hown
      cases h
      exact ⟨hedits, rfl⟩
    · cases h
  · cases h

theorem edits_of_organizationEdit {o : Id} {l : Stmt} {d : OrganizationPatch}
    (h : l.organizationEdit o = some d) : l.edits = true ∧ l = .organizationUpdate o d := by
  unfold Stmt.organizationEdit at h
  split at h
  · split at h
    · rename_i hown
      obtain ⟨rfl, hedits⟩ := hown
      cases h
      exact ⟨hedits, rfl⟩
    · cases h
  · cases h

/-- Edits of any kind that only the requests make which ask for them, and every one of those. -/
theorem made_of_run {δ : Type} {patch : Stmt → Option δ} {asks : δ → EditRequest → Prop}
    {edits : δ → Bool} (hrun : EditRun env ⟨w₀, []⟩ tr c)
    (hedits : ∀ l d, patch l = some d → l.edits = true)
    (hasks : ∀ r h l d, r.Writes h l → patch l = some d → asks d r)
    (hmade : ∀ r h reply d, r.Edited h reply → asks d r → edits d = true →
      ∃ e ∈ h, patch e.1 = some d) : Made asks edits c (written Stmt.exec patch tr) := by
  have hrecalled := Recalled.steps (fun r _ => EditRequest.along r) hrun
  refine ⟨?_, fun i d hmem => ?_, fun i r reply d hi hr hd => ?_⟩
  · rw [written_fst]
    refine passed_nodup fun tr₁ tr₂ i l w w' htr hkind e he => ?_
    obtain ⟨d, hd⟩ := Option.isSome_iff_exists.mp hkind
    obtain ⟨_, q, _, hwrites⟩ := hrecalled.events tr₁ tr₂ _ _ _ _ htr
    have hnone := (hwrites (hedits l d hd)).1 e he
    cases hpatch : patch e.1 with
    | none => rfl
    | some d' =>
      rw [hedits e.1 d' hpatch] at hnone
      cases hnone
  · obtain ⟨⟨l, w⟩, hown, hl⟩ := mem_written.mp hmem
    obtain ⟨w', hfire, _⟩ := hrecalled.fired hown
    obtain ⟨tr₂, tr₁, htr⟩ := List.append_of_mem hfire
    obtain ⟨_, ⟨r, q⟩, hq, hwrites⟩ := hrecalled.events tr₁ tr₂ _ _ _ _ htr
    exact ⟨r, q, hq, hasks r _ l d hwrites hl⟩
  · exact mem_written.mpr (hmade r _ reply d (hrecalled.pool i _ hi) hr hd)

theorem projectEdits_made (hrun : EditRun env ⟨w₀, []⟩ tr c) (p : Id) :
    Made (EditRequest.asksProject p) ProjectPatch.edits c (projectEdits p tr) := by
  refine made_of_run hrun (fun l d hl => (edits_of_projectEdit hl).1) ?_ ?_
  · intro r h l d hwrites hl
    obtain ⟨hedits, rfl⟩ := edits_of_projectEdit hl
    rcases (hwrites hedits).2 with ⟨header, orgId, id, body, rfl, heq⟩ | ⟨_, _, _, _, _, heq⟩
    · cases heq
      exact ⟨rfl, rfl⟩
    · cases heq
  · intro r h reply d hedited hasks hd
    cases r with
    | updateProject header orgId id body =>
      obtain ⟨rfl, rfl⟩ := hasks
      obtain ⟨w, hmem⟩ := hedited.1 header orgId id body rfl
      exact ⟨_, hmem, if_pos ⟨rfl, hd⟩⟩
    | updateOrganization header id name slug => cases hasks
    | other p apart => cases hasks

theorem organizationEdits_made (hrun : EditRun env ⟨w₀, []⟩ tr c) (o : Id) :
    Made (EditRequest.asksOrganization o) OrganizationPatch.edits c (organizationEdits o tr) := by
  refine made_of_run hrun (fun l d hl => (edits_of_organizationEdit hl).1) ?_ ?_
  · intro r h l d hwrites hl
    obtain ⟨hedits, rfl⟩ := edits_of_organizationEdit hl
    rcases (hwrites hedits).2 with ⟨_, _, _, _, _, heq⟩ | ⟨header, id, name, slug, rfl, heq⟩
    · cases heq
    · cases heq
      exact ⟨rfl, rfl⟩
  · intro r h reply d hedited hasks hd
    cases r with
    | updateProject header orgId id body => cases hasks
    | updateOrganization header id name slug =>
      obtain ⟨rfl, rfl⟩ := hasks
      obtain ⟨w, hmem⟩ := hedited.2 header id name slug rfl
      exact ⟨_, hmem, if_pos ⟨rfl, hd⟩⟩
    | other p apart => cases hasks

/-- What the edits leave of a project that was there when the run began. -/
theorem project_settled (hrun : EditRun env ⟨w₀, []⟩ tr c) {p : Id} (hp : p < w₀.nonce)
    {a a' : Project} (ha : w₀.projects.get? p = some a) (ha' : c.store.projects.get? p = some a')
    {β : Type} {col : Column Project ProjectPatch β} (hcol : ProjectColumn col) :
    col.Settled (projectEdits p tr) a a' := by
  obtain ⟨b, hb, hsettled⟩ := ((project_tracked hcol p).run hrun hp).2 a' ha'
  cases ha.symm.trans hb
  exact hsettled

theorem organization_settled (hrun : EditRun env ⟨w₀, []⟩ tr c) {o : Id} (ho : o < w₀.nonce)
    {a a' : Organization} (ha : w₀.organizations.get? o = some a)
    (ha' : c.store.organizations.get? o = some a') {β : Type}
    {col : Column Organization OrganizationPatch β} (hcol : OrganizationColumn col) :
    col.Settled (organizationEdits o tr) a a' := by
  obtain ⟨b, hb, hsettled⟩ := ((organization_tracked hcol o).run hrun ho).2 a' ha'
  cases ha.symm.trans hb
  exact hsettled

end Runs

/-- In any interleaving no edit is lost and none made twice, and each column of a row has what
the last edit of it put there. -/
theorem edits_stand {env : Env} {w₀ : World} {tr : List EditEvent} {c : EditConfig}
    (hrun : EditRun env ⟨w₀, []⟩ tr c) :
    (∀ p, Made (EditRequest.asksProject p) ProjectPatch.edits c (projectEdits p tr)) ∧
    (∀ o, Made (EditRequest.asksOrganization o) OrganizationPatch.edits c
      (organizationEdits o tr)) ∧
    (∀ p a a', p < w₀.nonce → w₀.projects.get? p = some a →
      c.store.projects.get? p = some a' →
        Columns.projectName.Settled (projectEdits p tr) a a' ∧
        Columns.projectDescription.Settled (projectEdits p tr) a a' ∧
        Columns.projectStatus.Settled (projectEdits p tr) a a') ∧
    ∀ o a a', o < w₀.nonce → w₀.organizations.get? o = some a →
      c.store.organizations.get? o = some a' →
        Columns.organizationName.Settled (organizationEdits o tr) a a' ∧
        Columns.organizationSlug.Settled (organizationEdits o tr) a a' := by
  refine ⟨projectEdits_made hrun, organizationEdits_made hrun, fun p a a' hp ha ha' => ?_,
    fun o a a' ho ha ha' => ?_⟩
  · exact ⟨project_settled hrun hp ha ha' projectColumn_name,
      project_settled hrun hp ha ha' projectColumn_description,
      project_settled hrun hp ha ha' projectColumn_status⟩
  · exact ⟨organization_settled hrun ho ha ha' organizationColumn_name,
      organization_settled hrun ho ha ha' organizationColumn_slug⟩

section Sample

def launch : Project := { organizationId := 3, createdById := 1, name := "Launch" }

def draftedWorld : World where
  users := (∅ : Table User).insert 1 { email := "a@x.io", emailVerified := true }
  organizations :=
    (∅ : Table Organization).insert 3 { name := "Acme", slug := "acme", ownerId := 1 }
  members := (∅ : Table OrganizationMember).insert 4 ⟨3, 1, .owner, 0⟩
  projects := (∅ : Table Project).insert 5 launch
  nonce := 6

def editsLaunch (body : UpdateProjectBody) : EditRequest :=
  .updateProject (.bearer ⟨1, "a@x.io", .user, 0, 100⟩) 3 5 body

def editedAtOnce : List (EditRequest ⊕ Nat) :=
  [.inl (editsLaunch { name := some "Moon" }), .inl (editsLaunch { status := some .archived })] ++
    (List.replicate 6 [.inr 0, .inr 1]).flatten

def edited : EditConfig :=
  Config.play Stmt.exec (EditRequest.prog sampleEnv) ⟨draftedWorld, []⟩ editedAtOnce

def editedTrace : List EditEvent :=
  Config.trace Stmt.exec (EditRequest.prog sampleEnv) ⟨draftedWorld, []⟩ editedAtOnce []

theorem edited_run : EditRun sampleEnv ⟨draftedWorld, []⟩ editedTrace edited :=
  Config.trace_steps Stmt.exec _ editedAtOnce (fun _ _ => trivial) .refl

example : (edited.store.projects.get? 5).map (fun p => (p.name, p.status)) =
    some ("Moon", .archived) := by decide +kernel

theorem edited_both : ∃ a', edited.store.projects.get? 5 = some a' ∧
    Columns.projectName.Settled (projectEdits 5 editedTrace) launch a' ∧
    (0, { name := some "Moon" }) ∈ projectEdits 5 editedTrace ∧
    (1, { status := some .archived }) ∈ projectEdits 5 editedTrace :=
  have hstand := edits_stand edited_run
  ⟨_, rfl, (hstand.2.2.1 5 launch _ (by decide) rfl rfl).1,
    (hstand.1 5).answered 0 _ _ _ rfl ⟨rfl, rfl⟩ rfl,
    (hstand.1 5).answered 1 _ _ _ rfl ⟨rfl, rfl⟩ rfl⟩

end Sample

end SaasBackend
