import SaasBackend.FeatureFlagRoutes
import SaasBackend.MembershipOrigins
import SaasBackend.ProjectIsolation

set_option autoImplicit false

namespace SaasBackend
open Keyed Handler

/-- Nothing was added to organization `o`, no role in it and no project of it was changed, and
its owner, name and slug are as they were. -/
structure World.Inert (o : Id) (w w' : World) : Prop where
  members : ∀ k m', w'.members.get? k = some m' → m'.organizationId = o → w.members.get? k = some m'
  projects : ∀ k p', w'.projects.get? k = some p' → p'.organizationId = o →
    w.projects.get? k = some p'
  invitations : ∀ k i', w'.invitations.get? k = some i' → i'.organizationId = o →
    ∃ i, w.invitations.get? k = some i ∧ i.organizationId = o
  featureFlagOverrides : ∀ k f', w'.featureFlagOverrides.get? k = some f' → f'.organizationId = o →
    w.featureFlagOverrides.get? k = some f'
  organization : ∀ org', w'.organizations.get? o = some org' → ∃ org,
    w.organizations.get? o = some org ∧
    org'.ownerId = org.ownerId ∧ org'.name = org.name ∧ org'.slug = org.slug

structure World.Shut (o : Id) (w : World) : Prop where
  drawn : o < w.nonce
  deleted : ∀ org, w.organizations.get? o = some org → org.deletedAt.isSome = true

def Stmt.bypasses (o : Id) : Stmt → Bool
  | .organizationUpdate id d =>
      id != o || d.name.isNone && d.slug.isNone && d.deletedAt != some none
  | .transferOwnership orgId _ _ | .invitationAccept _ _ orgId _ _ | .overrideUpsert _ orgId _ _ =>
      orgId != o
  | .invitationCreate i => i.organizationId != o
  | .projectCreate p => p.organizationId != o
  | .memberUpdate .. | .projectUpdate .. => false
  | _ => true

/-- Whole requests to the routes that reach organizations, and any other handler: none of
those writes a membership, a project, an invitation, an override, or an organization's columns. -/
inductive TenantRequest where
  | org (header : AuthHeader) (route : OrgRoute)
  | project (orgId : Id) (r : ProjectRequest)
  | flag (header : AuthHeader) (route : FlagRoute)
  | deleteAccount (header : AuthHeader) (password : String)
  | other (p : Req Unit) (apart : p.Sends (fun l => ∀ o, l.bypasses o = true))

def TenantRequest.prog (env : Env) : TenantRequest → Req Unit
  | .org header route => (route.handle env header).bind fun _ => .ret ()
  | .project orgId r => (r.prog env orgId).bind fun _ => .ret ()
  | .flag header route => (route.handle env header).bind fun _ => .ret ()
  | .deleteAccount header password => (authenticate header).bind fun caller =>
    (SaasBackend.deleteAccount env caller.id password).bind fun _ => .ret ()
  | .other p _ => p

abbrev TenantEntry := Entry TenantRequest World Err Unit

abbrev TenantHistory (env : Env) : World → List TenantEntry → World → Prop :=
  Steps (Served Stmt.exec (TenantRequest.prog env) (fun _ _ => True))

def Deletes (o : Id) (e : TenantEntry) : Prop :=
  ∃ header, e.req = .org header (.deleteOrganization o) ∧ e.res = .ok ()

def Restores (o : Id) (e : TenantEntry) : Prop :=
  ∃ header, e.req = .org header (.restoreOrganization o) ∧ e.res = .ok ()

def Admits (o : Id) (w : World) (userId : Id) (raw : Nat) : Prop :=
  ∃ id i, Opens w userId raw id i ∧ i.organizationId = o ∧ w.membership o userId = none ∧
    w.hasOrganization o = true

/-- The request accepts an invitation to organization `o`, and nothing but `o`'s deletion is against
it. -/
def TenantRequest.Joins (o : Id) (w : World) (r : TenantRequest) : Prop :=
  ∃ token raw x, r = .org (.bearer token) (.acceptInvitation raw) ∧ AccessStands w token x ∧
    Admits o w token.id raw

section Statements

variable {o : Id} {l : Stmt} {w w' w₁ w₂ w₃ : World}

theorem World.Inert.refl (o : Id) (w : World) : w.Inert o w :=
  ⟨fun _ _ h _ => h, fun _ _ h _ => h, fun _ i h ho => ⟨i, h, ho⟩, fun _ _ h _ => h,
    fun org h => ⟨org, h, rfl, rfl, rfl⟩⟩

theorem organization_spared (hl : l.bypasses o = true) (hdrawn : o < w.nonce)
    (hexec : l.exec w = .ok w') {org' : Organization} (ho : w'.organizations.get? o = some org') :
    ∃ org, w.organizations.get? o = some org ∧ org'.ownerId = org.ownerId ∧ org'.name = org.name ∧
      org'.slug = org.slug ∧ (org.deletedAt.isSome = true → org'.deletedAt.isSome = true) := by
  rw [(exec_effect hexec).organizations] at ho
  cases l with
  | userDelete id =>
    obtain ⟨hold, _⟩ := Table.get?_eraseWhere_eq_some.mp ho
    exact ⟨org', hold, rfl, rfl, rfl, fun h => h⟩
  | organizationCreate name slug ownerId =>
    rcases Table.get?_insert_cases ho with hold | ⟨rfl, _⟩
    · exact ⟨org', hold, rfl, rfl, rfl, fun h => h⟩
    · exact absurd hdrawn (Nat.lt_irrefl _)
  | organizationUpdate id d =>
    simp only [Stmt.organizationsAfter, Table.get?_update] at ho
    split at ho
    · rename_i heq
      obtain ⟨org, horg, rfl⟩ := Option.map_eq_some_iff.mp ho
      simp only [Stmt.bypasses, heq, bne_self_eq_false, Bool.false_or, Bool.and_eq_true,
        Option.isNone_iff_eq_none, bne_iff_ne] at hl
      refine ⟨org, horg, rfl, by simp [OrganizationPatch.apply, hl.1.1],
        by simp [OrganizationPatch.apply, hl.1.2], ?_⟩
      intro hdeleted
      cases hd : d.deletedAt with
      | none => simpa [OrganizationPatch.apply, hd] using hdeleted
      | some t =>
        cases t with
        | none => exact absurd hd hl.2
        | some t => simp [OrganizationPatch.apply, hd]
    · exact ⟨org', ho, rfl, rfl, rfl, fun h => h⟩
  | transferOwnership orgId new cur =>
    have hne : o ≠ orgId := by
      rintro rfl
      simp [Stmt.bypasses] at hl
    simp only [Stmt.organizationsAfter, Table.get?_update, if_neg hne] at ho
    exact ⟨org', ho, rfl, rfl, rfl, fun h => h⟩
  | _ => exact ⟨org', ho, rfl, rfl, rfl, fun h => h⟩

theorem member_spared (hl : l.bypasses o = true) (hdrawn : o < w.nonce)
    (hexec : l.exec w = .ok w') {k : Id} {m' : OrganizationMember}
    (hk : w'.members.get? k = some m') (ho : m'.organizationId = o) :
    w.members.get? k = some m' := by
  rw [(exec_effect hexec).members] at hk
  cases l with
  | userDelete id => exact (Table.get?_eraseWhere_eq_some.mp hk).1
  | organizationCreate name slug ownerId =>
    rcases Table.get?_insert_cases hk with hold | ⟨_, rfl⟩
    · exact hold
    · exact absurd (ho ▸ hdrawn) (Nat.lt_irrefl _)
  | transferOwnership orgId new cur =>
    have hne : orgId ≠ o := by simpa [Stmt.bypasses] using hl
    simp only [Stmt.membersAfter, Stmt.swapRoles] at hk
    split at hk
    · rename_i nk nm ck cm hnew hcur
      obtain ⟨hnm, hno, _⟩ := membership_some hnew
      obtain ⟨hcm, hco, _⟩ := membership_some hcur
      have hapart : k ≠ ck ∧ k ≠ nk := by
        constructor
        · rintro rfl
          simp only [Table.get?_update, if_true] at hk
          obtain ⟨m, hm, rfl⟩ := Option.map_eq_some_iff.mp hk
          split at hm
          · obtain ⟨m₀, hm₀, rfl⟩ := Option.map_eq_some_iff.mp hm
            rw [hcm] at hm₀
            cases hm₀
            exact hne (hco.symm.trans ho)
          · rw [hcm] at hm
            cases hm
            exact hne (hco.symm.trans ho)
        · rintro rfl
          simp only [Table.get?_update, if_true, hnm] at hk
          split at hk <;> cases hk <;> exact hne (hno.symm.trans ho)
      simpa [hapart.1, hapart.2] using hk
    · exact hk
  | memberUpdate id role => simp [Stmt.bypasses] at hl
  | memberDelete id =>
    simp only [Stmt.membersAfter, Table.get?_erase] at hk
    split at hk
    · cases hk
    · exact hk
  | invitationAccept id d orgId userId role =>
    rcases Table.get?_insert_cases hk with hold | ⟨_, rfl⟩
    · exact hold
    · simp [Stmt.bypasses, show orgId = o from ho] at hl
  | _ => exact hk

theorem project_spared (hl : l.bypasses o = true) (hexec : l.exec w = .ok w') {k : Id}
    {p' : Project} (hk : w'.projects.get? k = some p') (ho : p'.organizationId = o) :
    w.projects.get? k = some p' := by
  rw [(exec_effect hexec).projects] at hk
  cases l with
  | userDelete id => exact (Table.get?_eraseWhere_eq_some.mp hk).1
  | projectCreate p =>
    rcases Table.get?_insert_cases hk with hold | ⟨_, rfl⟩
    · exact hold
    · simp [Stmt.bypasses, show p.organizationId = o from ho] at hl
  | projectUpdate id d => simp [Stmt.bypasses] at hl
  | _ => exact hk

theorem invitation_spared (hl : l.bypasses o = true) (hexec : l.exec w = .ok w') {k : Id}
    {i' : OrganizationInvitation} (hk : w'.invitations.get? k = some i')
    (ho : i'.organizationId = o) : ∃ i, w.invitations.get? k = some i ∧ i.organizationId = o := by
  rcases (exec_effect hexec).invitation_terms hk with ⟨i, hi, hterms⟩ | ⟨_, i, rfl, hterms⟩
  · exact ⟨i, hi, hterms.organizationId.symm.trans ho⟩
  · simp [Stmt.bypasses, hterms.organizationId.symm.trans ho] at hl

theorem override_spared (hl : l.bypasses o = true) (hexec : l.exec w = .ok w') {k : Id}
    {f' : OrganizationFeatureFlag} (hk : w'.featureFlagOverrides.get? k = some f')
    (ho : f'.organizationId = o) :
    w.featureFlagOverrides.get? k = some f' := by
  rw [(exec_effect hexec).featureFlagOverrides] at hk
  cases l with
  | userDelete id | flagDelete id => exact (Table.get?_eraseWhere_eq_some.mp hk).1
  | overrideUpsert flagId orgId enabled value =>
    have hne : orgId ≠ o := by simpa [Stmt.bypasses] using hl
    simp only [Stmt.featureFlagOverridesAfter] at hk
    split at hk
    · rename_i id f hfound
      obtain ⟨hf, hmatch⟩ := Table.find?_some hfound
      simp only [Bool.and_eq_true, beq_iff_eq] at hmatch
      rw [Table.get?_update] at hk
      split at hk
      · rename_i heq
        rw [heq, hf] at hk
        cases hk
        exact absurd (hmatch.2.symm.trans ho) hne
      · exact hk
    · rcases Table.get?_insert_cases hk with hold | ⟨_, rfl⟩
      · exact hold
      · exact absurd ho hne
  | overrideDelete id =>
    simp only [Stmt.featureFlagOverridesAfter, Table.get?_erase] at hk
    split at hk
    · cases hk
    · exact hk
  | _ => exact hk

theorem World.Inert.exec (hl : l.bypasses o = true) (hdrawn : o < w.nonce)
    (hexec : l.exec w = .ok w') : w.Inert o w' := by
  refine ⟨fun k m' hk ho => member_spared hl hdrawn hexec hk ho, fun k p' hk ho =>
    project_spared hl hexec hk ho, fun k i' hk ho => invitation_spared hl hexec hk ho,
    fun k f' hk ho => override_spared hl hexec hk ho, fun org' ho => ?_⟩
  obtain ⟨org, horg, howner, hname, hslug, _⟩ := organization_spared hl hdrawn hexec ho
  exact ⟨org, horg, howner, hname, hslug⟩

theorem World.Shut.exec (hw : w.Shut o) (hl : l.bypasses o = true) (hexec : l.exec w = .ok w') :
    w'.Shut o := by
  refine ⟨Nat.lt_of_lt_of_le hw.drawn (exec_effect hexec).nonce_le, fun org' ho => ?_⟩
  obtain ⟨org, horg, _, _, _, hkept⟩ := organization_spared hl hw.drawn hexec ho
  exact hkept (hw.deleted org horg)

end Statements

section Handlers

variable {α β : Type} {env : Env} {o : Id} {w w' w₁ w₂ w₃ : World}

theorem World.Inert.trans (h₁ : w₁.Inert o w₂) (h₂ : w₂.Inert o w₃) : w₁.Inert o w₃ := by
  refine ⟨fun k m hk ho => h₁.members k m (h₂.members k m hk ho) ho,
    fun k p hk ho => h₁.projects k p (h₂.projects k p hk ho) ho, fun k i hk ho => ?_,
    fun k f hk ho => h₁.featureFlagOverrides k f (h₂.featureFlagOverrides k f hk ho) ho,
    fun org ho => ?_⟩
  · obtain ⟨i₂, hi₂, ho₂⟩ := h₂.invitations k i hk ho
    exact h₁.invitations k i₂ hi₂ ho₂
  · obtain ⟨org₂, horg₂, howner₂, hname₂, hslug₂⟩ := h₂.organization org ho
    obtain ⟨org₁, horg₁, howner₁, hname₁, hslug₁⟩ := h₁.organization org₂ horg₂
    exact ⟨org₁, horg₁, howner₂.trans howner₁, hname₂.trans hname₁, hslug₂.trans hslug₁⟩

def Rests (o : Id) (p : Req α) : Prop :=
  ∀ w, w.Shut o → p.Ends Stmt.exec (fun _ w' => w.Inert o w' ∧ w'.Shut o) w

theorem Rests.ret {a : α} : Rests o (.ret a : Req α) := fun w hw => ⟨.refl o w, hw⟩

theorem Rests.throw {e : Err} : Rests o (.throw e : Req α) := fun w hw => ⟨.refl o w, hw⟩

theorem rests_of_sends {p : Req α} (hp : p.Sends (fun l => l.bypasses o = true)) : Rests o p := by
  intro w hw
  refine hp.run (R := fun w w' => w.Shut o → w.Inert o w' ∧ w'.Shut o)
    (fun w hw => ⟨.refl o w, hw⟩) ?_ ?_ w hw
  · intro w₁ w₂ w₃ h₁ h₂ hw
    obtain ⟨hinert₁, hw₂⟩ := h₁ hw
    obtain ⟨hinert₂, hw₃⟩ := h₂ hw₂
    exact ⟨hinert₁.trans hinert₂, hw₃⟩
  · exact fun l w w' hl hexec hw => ⟨.exec hl hw.drawn hexec, hw.exec hl hexec⟩

theorem Rests.bind {p : Req α} {k : α → Req β} (hp : Rests o p) (hk : ∀ a, Rests o (k a)) :
    Rests o (p.bind k) := by
  intro w hw
  refine Ends.bind (hp w hw) ?_ fun _ _ h => h
  rintro a w' ⟨hinert, hw'⟩
  exact (hk a w' hw').weaken fun _ _ ⟨hrest, hshut⟩ => ⟨hinert.trans hrest, hshut⟩

/-- What goes on from a query need rest only at the store that the query saw. -/
theorem rests_query_bind {view : World → α} {k : α → Req β}
    (hk : ∀ w, w.Shut o → (k (view w)).Ends Stmt.exec (fun _ w' => w.Inert o w' ∧ w'.Shut o) w) :
    Rests o ((query view).bind k) := by
  intro w hw
  rw [ends_query_bind]
  exact hk w hw

theorem rests_requireTenant {orgId : Id} {caller : Caller} {k : Tenant → Req β}
    (hk : ∀ tenant, tenant.id = orgId → orgId ≠ o → Rests o (k tenant)) :
    Rests o ((requireTenant orgId caller).bind k) := by
  simp only [requireTenant, Prog.bind_eq, Prog.bind_assoc]
  refine rests_query_bind fun w hw => ?_
  split
  · rename_i tenant hfound
    simp only [World.tenant] at hfound
    obtain ⟨r, _, hjoin⟩ := Option.bind_eq_some_iff.mp hfound
    obtain ⟨org, horg, heq⟩ := Option.map_eq_some_iff.mp hjoin
    obtain ⟨rfl, hlive⟩ := Prod.mk.inj heq
    refine hk _ rfl ?_ w hw
    rintro rfl
    have hdeleted := hw.deleted org horg
    rw [hlive] at hdeleted
    cases hdeleted
  · exact ⟨.refl o w, hw⟩

theorem requireOrgRole_rests (roles : List OrgRole) (tenant : Tenant) :
    Rests o (requireOrgRole roles tenant) := by
  unfold requireOrgRole
  split
  · exact .ret
  · exact .throw

theorem rests_tenantWithRole {orgId : Id} {roles : List OrgRole} {caller : Caller}
    {k : Tenant → Req β} (hk : ∀ tenant, tenant.id ≠ o → Rests o (k tenant)) :
    Rests o ((tenantWithRole orgId roles caller).bind k) := by
  rw [tenantWithRole, Prog.bind_eq, Prog.bind_assoc]
  refine rests_requireTenant fun tenant hid hne => ?_
  simp only [Prog.bind_eq, Prog.bind_assoc]
  exact (requireOrgRole_rests roles tenant).bind fun _ => hk tenant (hid ▸ hne)

theorem bypasses_of_reads {p : Req α} (hp : p.Sends (fun l => l = .read)) :
    p.Sends (fun l => l.bypasses o = true) :=
  hp.mono fun l hl => by rw [hl]; rfl

theorem createOrganization_rests (userId : Id) (name slug : String) :
    Rests o (createOrganization userId name slug) := by
  refine rests_of_sends (.bind (.send rfl) fun existing => ?_)
  split
  · exact .throw
  · refine .tryCatch (.send rfl) fun err => ?_
    unfold slugTaken
    split <;> exact .throw

theorem getOrganization_rests (orgId : Id) : Rests o (getOrganization orgId) := by
  refine rests_of_sends (.bind (.send rfl) fun found => ?_)
  split
  · exact .throw
  · exact .ret

theorem updateOrganization_rests {orgId : Id} (hne : orgId ≠ o) (name slug : Option String) :
    Rests o (updateOrganization orgId name slug) := by
  refine rests_of_sends (.bind ?_ fun conflict => ?_)
  · unfold slugConflict
    split
    · exact .ret
    · split
      · exact .ret
      · exact .bind (.send rfl) fun _ => .ret
  · split
    · exact .throw
    · refine .tryCatch (.send (by simp [Stmt.bypasses, hne])) fun err => ?_
      unfold slugTaken
      split <;> exact .throw

theorem deleteOrganization_rests {orgId : Id} (hne : orgId ≠ o) :
    Rests o (deleteOrganization env orgId) := by
  refine rests_of_sends (.bind ?_ fun _ => .bind (.send rfl) fun _ =>
    .bind (.send ?_) fun _ => .ret)
  · unfold when
    split
    · refine .bind (.send rfl) fun live => .bind ((cancelAtStripe_calls live).mono fun l hl => ?_)
        fun _ => ?_
      · rcases hl with rfl | ⟨sid, rfl⟩ <;> rfl
      · split
        · exact .bind (.send rfl) fun _ => .send rfl
        · exact .ret
    · exact .ret
  · simp [Stmt.bypasses, hne]

theorem transferOwnership_rests {orgId : Id} (hne : orgId ≠ o) (currentOwnerId newOwnerId : Id) :
    Rests o (transferOwnership orgId currentOwnerId newOwnerId) := by
  unfold transferOwnership
  split
  · exact .throw
  · refine rests_of_sends (.bind (.send rfl) fun found => ?_)
    split
    · exact .throw
    · exact .send (by simp [Stmt.bypasses, hne])

theorem updateMemberRole_rests {orgId : Id} (hne : orgId ≠ o) (userId : Id)
    (role : AssignableRole) :
    Rests o (updateMemberRole orgId userId role) := by
  refine rests_query_bind fun w hw => ?_
  split
  · exact ⟨.refl o w, hw⟩
  · rename_i id membership hfound
    split
    · exact ⟨.refl o w, hw⟩
    · rw [send, Prog.ends_send]
      split
      · rename_i w' hexec
        have heff := exec_effect hexec
        obtain ⟨hid, ho, _⟩ := membership_some hfound
        have horgs : w'.organizations = w.organizations := heff.organizations
        refine ⟨⟨fun k m' hk hm' => ?_, fun k p hk _ => ?_, fun k i hk hi => ?_, fun k f hk _ => ?_,
          fun org horg => ?_⟩, Nat.lt_of_lt_of_le hw.drawn heff.nonce_le,
          fun org horg => hw.deleted org (horgs ▸ horg)⟩
        · rw [heff.members, Stmt.membersAfter, Table.get?_update] at hk
          split at hk
          · rename_i heq
            rw [heq, hid] at hk
            cases hk
            exact absurd (ho.symm.trans hm') hne
          · exact hk
        · exact (show w'.projects = w.projects from heff.projects) ▸ hk
        · exact ⟨i, (show w'.invitations = w.invitations from heff.invitations) ▸ hk, hi⟩
        · exact (show w'.featureFlagOverrides = w.featureFlagOverrides
            from heff.featureFlagOverrides) ▸ hk
        · exact ⟨org, horgs ▸ horg, rfl, rfl, rfl⟩
      · exact ⟨.refl o w, hw⟩

theorem removeMember_rests (orgId userId : Id) : Rests o (removeMember orgId userId) := by
  refine rests_of_sends (.bind (.send rfl) fun found => ?_)
  split
  · exact .throw
  · split
    · exact .throw
    · exact .bind (.send rfl) fun _ => .ret

theorem createInvitation_rests {tenant : Tenant} (hne : tenant.id ≠ o) (inviterId : Id)
    (email : String) (role : AssignableRole) :
    Rests o (createInvitation env tenant inviterId email role) := by
  apply rests_of_sends
  apply createInvitation_sends
  · rfl
  · rfl
  · exact fun _ => rfl
  · intro row horg _
    simp [Stmt.bypasses, horg, hne]

theorem cancelInvitation_rests (orgId invitationId : Id) :
    Rests o (cancelInvitation orgId invitationId) := by
  apply rests_of_sends
  apply cancelInvitation_sends
  · rfl
  · exact fun _ _ _ => rfl

theorem declineInvitation_rests (userId : Id) (token : Nat) :
    Rests o (declineInvitation userId token) := by
  apply rests_of_sends
  apply declineInvitation_sends
  · rfl
  · exact fun _ _ _ => rfl

theorem restoreOrganization_rests {orgId : Id} (hne : orgId ≠ o) (caller : Caller) :
    Rests o (OrgRoute.serve env caller (.restoreOrganization orgId)) := by
  simp only [OrgRoute.serve, requireTenantIncludeDeleted, Prog.bind_eq, Prog.bind_assoc]
  refine rests_query_bind fun w hw => ?_
  split
  · rename_i tenant deletedAt hfound
    simp only [World.tenant] at hfound
    obtain ⟨r, _, hjoin⟩ := Option.bind_eq_some_iff.mp hfound
    obtain ⟨org, _, heq⟩ := Option.map_eq_some_iff.mp hjoin
    obtain ⟨rfl, _⟩ := Prod.mk.inj heq
    refine ((requireOrgRole_rests _ _).bind fun _ =>
      rests_of_sends (.bind (.send rfl) fun found => ?_)) w hw
    split
    · exact .throw
    · exact .bind (.send (by simp [Stmt.bypasses, hne])) fun _ => .ret
  · exact ⟨.refl o w, hw⟩

theorem restoreOrganization_refused (orgId : Id) (caller : Caller) :
    (OrgRoute.serve env caller (.restoreOrganization orgId)).Ends Stmt.exec
      (fun r w' => (∃ a, r = .ok a) ∨ w' = w) w := by
  simp only [OrgRoute.serve, requireTenantIncludeDeleted, Prog.bind_eq, Prog.bind_assoc,
    ends_query_bind]
  split
  · simp only [Prog.pure_eq, Prog.ret_bind, requireOrgRole]
    split
    · rw [Prog.ret_bind, SaasBackend.restoreOrganization, Prog.bind_eq, ends_query_bind]
      split
      · exact .inr rfl
      · rw [Prog.bind_eq, ends_execute_bind]
        split
        · exact .inl ⟨_, rfl⟩
        · exact .inr rfl
    · exact .inr rfl
  · exact .inr rfl

theorem orgRoute_rests (caller : Caller) {route : OrgRoute}
    (hrestore : route ≠ .restoreOrganization o) (haccept : ∀ raw, route ≠ .acceptInvitation raw) :
    Rests o (route.serve env caller) := by
  cases route with
  | createOrganization name slug => exact createOrganization_rests caller.id name slug
  | getOrganization orgId =>
    exact rests_requireTenant fun tenant _ _ => getOrganization_rests tenant.id
  | updateOrganization orgId name slug =>
    exact rests_tenantWithRole fun tenant hne => updateOrganization_rests hne name slug
  | deleteOrganization orgId =>
    exact rests_tenantWithRole fun tenant hne => deleteOrganization_rests hne
  | restoreOrganization orgId =>
    exact restoreOrganization_rests (fun h => hrestore (by rw [h])) caller
  | transferOwnership orgId newOwnerId =>
    exact rests_tenantWithRole fun tenant hne => transferOwnership_rests hne caller.id newOwnerId
  | updateMemberRole orgId userId role =>
    exact rests_tenantWithRole fun tenant hne => updateMemberRole_rests hne userId role
  | removeMember orgId userId =>
    exact rests_tenantWithRole fun tenant _ => removeMember_rests tenant.id userId
  | createInvitation orgId email role =>
    exact rests_tenantWithRole fun tenant hne => createInvitation_rests hne caller.id email role
  | cancelInvitation orgId invitationId =>
    exact rests_tenantWithRole fun tenant _ => cancelInvitation_rests tenant.id invitationId
  | acceptInvitation raw => exact absurd rfl (haccept raw)
  | declineInvitation raw => exact declineInvitation_rests caller.id raw

theorem setOverride_rests (flagId orgId : Id) (enabled : Bool) (value : Json) :
    Rests o (setOverride flagId orgId enabled value) := by
  refine (rests_of_sends (.send rfl)).bind fun flag => ?_
  split
  · exact .throw
  · refine rests_query_bind fun w hw => ?_
    split
    · exact ⟨.refl o w, hw⟩
    · rename_i hlive
      have hne : orgId ≠ o := by
        rintro rfl
        cases horg : w.organizations.get? orgId with
        | none => simp [horg] at hlive
        | some org =>
          have hdeleted := hw.deleted org horg
          simp [horg, Option.filter] at hlive
          rw [hlive] at hdeleted
          cases hdeleted
      refine rests_of_sends (.bind (.send ?_) fun _ => .ret) w hw
      simp [Stmt.bypasses, hne]

theorem flagRoute_rests (header : AuthHeader) (route : FlagRoute) :
    Rests o (route.handle env header) := by
  refine (rests_of_sends (bypasses_of_reads (authenticate_reads header))).bind fun caller =>
    (rests_of_sends ?_).bind fun _ => ?_
  · unfold when
    split
    · unfold authorize
      split
      · exact .ret
      · exact .throw
    · exact .ret
  cases route with
  | evaluateFlag key orgId orgFirst ownerFirst =>
    exact rests_of_sends (bypasses_of_reads (evaluateFlagFor_reads key orgId orgFirst ownerFirst))
  | createFlag body =>
    refine rests_of_sends (.bind (.send rfl) fun existing => ?_)
    split
    · exact .throw
    · exact .bind (.send rfl) fun _ => .ret
  | getFlag flagId =>
    refine rests_of_sends (.bind (.send rfl) fun found => ?_)
    split
    · exact .throw
    · exact .ret
  | updateFlag flagId data =>
    refine rests_of_sends (.bind (.send rfl) fun found => ?_)
    split
    · exact .throw
    · exact .bind (.send rfl) fun _ => .ret
  | deleteFlag flagId =>
    refine rests_of_sends (.bind (.send rfl) fun found => ?_)
    split
    · exact .throw
    · exact .bind (.send rfl) fun _ => .ret
  | setOverride flagId orgId enabled value => exact setOverride_rests flagId orgId enabled value
  | removeOverride flagId orgId =>
    refine rests_of_sends (.bind (.send rfl) fun found => ?_)
    split
    · exact .throw
    · exact .bind (.send rfl) fun _ => .ret

theorem projectRequest_rests (r : ProjectRequest) (orgId : Id) : Rests o (r.prog env orgId) := by
  by_cases hne : orgId = o
  · subst hne
    cases r with
    | jwt header route =>
      refine (rests_of_sends (bypasses_of_reads (authenticate_reads header))).bind fun caller => ?_
      refine (rests_of_sends (bypasses_of_reads (requireVerifiedEmail_reads caller))).bind
        fun _ => ?_
      exact rests_requireTenant fun _ _ hne => absurd rfl hne
    | apiKey header route =>
      refine (rests_of_sends ((authenticateApiKey_sends header).mono ?_)).bind fun found =>
        (rests_of_sends (requireScope_sends _ found.1)).bind fun _ =>
          rests_requireTenant fun _ _ hne => absurd rfl hne
      rintro _ (rfl | ⟨id, now, rfl⟩) <;> rfl
  · intro w hw
    have htogether : Together (fun res t₁ _ => r.Confined orgId w res t₁) (r.prog env orgId) w w :=
      ProjectRequest.together (.refl r orgId w) fun _ _ _ _ => rfl
    have hconfined := htogether.2.1
    have hkeeps : (r.prog env orgId).Maintains Stmt.exec (fun w => o < w.nonce) :=
      .of_exec (fun _ _ _ hexec hw => Nat.lt_of_lt_of_le hw (exec_effect hexec).nonce_le) _
    have hdrawn : o < ((r.prog env orgId).run Stmt.exec w).2.nonce := hkeeps w hw.drawn
    obtain ⟨⟨projects, apiKeys, nonce, hrest⟩, hprojects⟩ := hconfined
    unfold Prog.Ends
    rw [hrest] at hprojects hdrawn ⊢
    refine ⟨⟨fun _ _ hk _ => hk, fun k p hk hp => (hprojects k p ?_).mp hk, fun _ i hk hi =>
      ⟨i, hk, hi⟩, fun _ _ hk _ => hk, fun org horg => ⟨org, horg, rfl, rfl, rfl⟩⟩, hdrawn,
      hw.deleted⟩
    exact fun h => hne (h.symm.trans hp)

theorem deleteAccount_rests (header : AuthHeader) (password : String) :
    Rests o ((TenantRequest.deleteAccount header password).prog env) := by
  refine (rests_of_sends (bypasses_of_reads (authenticate_reads header))).bind fun caller =>
    rests_of_sends (.bind ?_ fun _ => .ret)
  refine (deleteAccount_calls caller.id password).mono fun l hl => ?_
  cases l with
  | read | bcryptCompare | stripeCancel | userDelete => rfl
  | _ => cases hl

theorem openInvitation_runs {userId id : Id} {raw : Nat} {i : OrganizationInvitation}
    (h : Opens w userId raw id i) :
    (openInvitation userId raw).runs w = (.ok (id, i), w) := by
  obtain ⟨x, hx, hlive, hemail⟩ := h.addressed
  simp only [openInvitation, findUserById, Prog.bind_eq, runs_query_bind, runs_date_bind,
    h.found, h.pending, ne_eq, not_true, if_false, Nat.not_lt.mpr h.unexpired, hx]
  simp [Option.filter, hlive, hemail]
  rfl

theorem acceptInvitation_joins {userId id : Id} {raw : Nat} {i : OrganizationInvitation}
    (h : Opens w userId raw id i) (hnew : w.membership i.organizationId userId = none)
    (horg : w.hasOrganization i.organizationId = true) :
    (acceptInvitation userId raw).Ends Stmt.exec (fun _ w' =>
      ∃ d, (Stmt.invitationAccept id d i.organizationId userId i.role).exec w = .ok w') w := by
  obtain ⟨x, hx, _⟩ := h.addressed
  unfold acceptInvitation
  rw [Prog.bind_eq, Prog.ends_bind, Prog.Ends,
    show (openInvitation userId raw).run Stmt.exec w = _ from openInvitation_runs h]
  simp only [findMembership, Prog.bind_eq, ends_query_bind, ends_date_bind, hnew,
    Option.isSome_none, Bool.false_eq_true, if_false, send, Prog.ends_send]
  have hexec : ∃ w', (Stmt.invitationAccept id
      { status := .accepted, acceptedAt := some w.now, inviteeId := some userId }
      i.organizationId userId i.role).exec w = .ok w' := by
    simp only [Stmt.exec, h.stored, hnew, horg, World.hasUser, hx, Option.all_some]
    exact ⟨_, rfl⟩
  obtain ⟨w', hw'⟩ := hexec
  rw [hw']
  exact ⟨_, hw'⟩

def World.MembersDrawn (w : World) : Prop := ∀ k m, w.members.get? k = some m → k < w.nonce

theorem World.MembersDrawn.exec {l : Stmt} (hw : w.MembersDrawn) (hexec : l.exec w = .ok w') :
    w'.MembersDrawn := by
  intro k m' hk
  have heff := exec_effect hexec
  rcases heff.member_back hk with ⟨m, hm, _⟩ | ⟨_, _, _, rfl, rfl, _⟩ | ⟨_, _, _, _, _, rfl, rfl, _⟩
  · exact Nat.lt_of_lt_of_le (hw k m hm) heff.nonce_le
  · rw [heff.nonce]
    exact Nat.lt_succ_self _
  · rw [heff.nonce]
    exact Nat.lt_succ_self _

theorem acceptInvitation_rests (hw : w.Shut o) (hdrawn : w.MembersDrawn) (userId : Id) (raw : Nat) :
    (acceptInvitation userId raw).Ends Stmt.exec
      (fun _ w' => (w.Inert o w' ↔ ¬ Admits o w userId raw) ∧ w'.Shut o) w := by
  by_cases hadmits : Admits o w userId raw
  · obtain ⟨id, i, hopens, rfl, hnew, horg⟩ := hadmits
    refine (acceptInvitation_joins hopens hnew horg).weaken fun _ w' ⟨d, hexec⟩ => ?_
    have heff := exec_effect hexec
    have hfree : w.members.get? w.nonce = none := Table.get?_of_bound hdrawn (Nat.le_refl _)
    have hnewRow : w'.members.get? w.nonce = some ⟨i.organizationId, userId, i.role, w.now⟩ := by
      rw [heff.members]
      exact Table.get?_insert_self _ hfree
    refine ⟨⟨fun hinert => ?_, fun hno => absurd ⟨id, i, hopens, rfl, hnew, horg⟩ hno⟩,
      Nat.lt_of_lt_of_le hw.drawn heff.nonce_le, fun org ho => hw.deleted org ?_⟩
    · have hold := hinert.members _ _ hnewRow rfl
      rw [hfree] at hold
      cases hold
    · rwa [show w'.organizations = w.organizations from heff.organizations] at ho
  · refine (acceptInvitation_ends userId raw).weaken fun _ w' h => ?_
    rw [iff_true_right hadmits]
    rcases h with (rfl | ⟨id, d, hexec⟩) | ⟨id, i, d, hopens, hexec⟩
    · exact ⟨.refl o w', hw⟩
    · exact ⟨.exec rfl hw.drawn hexec, hw.exec rfl hexec⟩
    · have hl : (Stmt.invitationAccept id d i.organizationId userId i.role).bypasses o = true := by
        obtain ⟨_, _, hnone, horg, _⟩ := invitationAccept_ok hexec
        exact bne_iff_ne.mpr fun ho => hadmits ⟨id, i, hopens, ho, ho ▸ hnone, ho ▸ horg⟩
      exact ⟨.exec hl hw.drawn hexec, hw.exec hl hexec⟩

def Settles (o : Id) (r : TenantRequest) (w : World) (res : Except Err Unit) (w' : World) : Prop :=
  ((∃ header, r = .org header (.restoreOrganization o)) ∧ res = .ok ()) ∨
    (w.Inert o w' ↔ ¬ r.Joins o w) ∧ w'.Shut o

theorem Rests.settles {r : TenantRequest} (hrests : Rests o (r.prog env))
    (hne : ∀ header raw, r ≠ .org header (.acceptInvitation raw)) (hw : w.Shut o) :
    (r.prog env).Ends Stmt.exec (Settles o r w) w := by
  refine (hrests w hw).weaken fun _ w' ⟨hinert, hw'⟩ => .inr ⟨iff_of_true hinert ?_, hw'⟩
  rintro ⟨token, raw, x, hr, _⟩
  exact hne _ _ hr

theorem authenticate_rests (header : AuthHeader) : Rests o (authenticate header) :=
  rests_of_sends (bypasses_of_reads (authenticate_reads header))

theorem acceptance_settles (hw : w.Shut o) (hdrawn : w.MembersDrawn) (header : AuthHeader)
    (raw : Nat) :
    ((TenantRequest.org header (.acceptInvitation raw)).prog env).Ends Stmt.exec
      (Settles o (.org header (.acceptInvitation raw)) w) w := by
  simp only [TenantRequest.prog, OrgRoute.handle, Prog.bind_eq, Prog.bind_assoc]
  refine ends_authenticate_bind (fun hnone e => .inr ⟨iff_of_true (.refl o w) ?_, hw⟩)
    fun token x hheader hx => ?_
  · rintro ⟨token, _, x, hr, hx, _⟩
    cases hr
    exact hnone token x rfl hx
  subst hheader
  refine Ends.bind (acceptInvitation_rests hw hdrawn token.id raw) (fun _ _ h => .inr ?_)
    fun _ _ h => .inr ?_
  all_goals
    refine ⟨h.1.trans (not_congr ⟨fun hadmits => ⟨token, raw, x, rfl, hx, hadmits⟩, ?_⟩), h.2⟩
    rintro ⟨_, _, _, hr, _, hadmits⟩
    cases hr
    exact hadmits

theorem restoration_settles (hw : w.Shut o) (header : AuthHeader) :
    ((TenantRequest.org header (.restoreOrganization o)).prog env).Ends Stmt.exec
      (Settles o (.org header (.restoreOrganization o)) w) w := by
  simp only [TenantRequest.prog, OrgRoute.handle, Prog.bind_eq, Prog.bind_assoc]
  have hkept : ∀ res, Settles o (.org header (.restoreOrganization o)) w res w := by
    refine fun res => .inr ⟨iff_of_true (.refl o w) ?_, hw⟩
    rintro ⟨_, _, _, hr, _⟩
    cases hr
  refine ends_authenticate_bind (fun _ e => hkept _) fun token x hheader hx => ?_
  refine Ends.bind (restoreOrganization_refused o (token.caller x)) ?_ ?_
  · exact fun _ _ _ => .inl ⟨⟨header, rfl⟩, rfl⟩
  · rintro e w' (⟨_, h⟩ | rfl)
    · cases h
    · exact hkept _

/-- An acceptance of an invitation to `o` is what gets past the guards, and a restoration is
what ends the deletion. -/
theorem TenantRequest.settles (hw : w.Shut o) (hdrawn : w.MembersDrawn) (r : TenantRequest) :
    (r.prog env).Ends Stmt.exec (Settles o r w) w := by
  cases r with
  | org header route =>
    by_cases hrestore : route = .restoreOrganization o
    · subst hrestore
      exact restoration_settles hw header
    by_cases haccept : ∃ raw, route = .acceptInvitation raw
    · obtain ⟨raw, rfl⟩ := haccept
      exact acceptance_settles hw hdrawn header raw
    refine Rests.settles (((authenticate_rests header).bind fun caller =>
      orgRoute_rests caller hrestore fun raw h => haccept ⟨raw, h⟩).bind fun _ => .ret)
      (fun _ raw h => ?_) hw
    cases h
    exact haccept ⟨raw, rfl⟩
  | project orgId r =>
    exact Rests.settles ((projectRequest_rests r orgId).bind fun _ => .ret)
      (fun _ _ h => by cases h) hw
  | flag header route =>
    exact Rests.settles ((flagRoute_rests header route).bind fun _ => .ret)
      (fun _ _ h => by cases h) hw
  | deleteAccount header password =>
    exact Rests.settles (deleteAccount_rests header password) (fun _ _ h => by cases h) hw
  | other p apart =>
    exact Rests.settles (rests_of_sends (apart.mono fun _ hl => hl o)) (fun _ _ h => by cases h) hw

theorem deletion_shuts (hw : w.OrganizationsDrawn) (header : AuthHeader) :
    ((TenantRequest.org header (.deleteOrganization o)).prog env).Ends Stmt.exec
      (fun res w' => res = .ok () → w'.Shut o) w := by
  simp only [TenantRequest.prog, OrgRoute.handle, OrgRoute.serve, Prog.bind_eq, Prog.bind_assoc]
  refine ends_authenticate_bind (fun _ e h => by cases h) fun token x hheader hx => ?_
  refine ends_tenantWithRole_bind ?_ fun tenant id m _ _ hid _ => ?_
  · exact fun e h => by cases h
  subst hid
  simp only [SaasBackend.deleteOrganization, Prog.bind_eq, Prog.bind_assoc]
  refine Ends.bind (Q := fun _ w' => w'.OrganizationsDrawn) ?_ ?_ fun _ _ _ h => by cases h
  · exact Prog.Maintains.of_exec (fun _ _ _ hexec hw => hw.exec hexec) _ w hw
  intro _ w₁ hw₁
  rw [ends_date_bind, ends_execute_bind]
  split
  · rename_i w₂ hexec
    have heff := exec_effect hexec
    refine fun _ => ⟨Nat.lt_of_lt_of_le ?_ heff.nonce_le,
      fun org (horg : w₂.organizations.get? _ = some org) => ?_⟩
    · cases hfound : w₁.organizations.get? tenant.id with
      | none =>
        simp only [Stmt.exec, hfound] at hexec
        cases hexec
      | some org => exact hw₁ _ org hfound
    · rw [heff.organizations, Stmt.organizationsAfter, Table.get?_update, if_pos rfl] at horg
      obtain ⟨old, _, rfl⟩ := Option.map_eq_some_iff.mp horg
      rfl
  · exact fun h => by cases h

end Handlers

section Histories

variable {env : Env} {o : Id} {w₀ w : World} {before after : List TenantEntry} {d : TenantEntry}

theorem TenantHistory.drawn {h : List TenantEntry} (hmembers : w₀.MembersDrawn)
    (horgs : w₀.OrganizationsDrawn) (hrun : TenantHistory env w₀ h w) :
    w.MembersDrawn ∧ w.OrganizationsDrawn := by
  refine Served.invariant (fun _ w => w.MembersDrawn ∧ w.OrganizationsDrawn) ⟨hmembers,
    horgs⟩ ?_ hrun
  intro h w r hw _
  have hkeep : (r.prog env).Maintains Stmt.exec (fun w => w.MembersDrawn ∧ w.OrganizationsDrawn) :=
    .of_exec (fun _ _ _ hexec hw => ⟨hw.1.exec hexec, hw.2.exec hexec⟩) _
  exact hkeep w hw

/-- While no restoration succeeds, `o` stays deleted, and each request that does something to
it is an acceptance of an invitation. -/
theorem TenantHistory.settles (hw₀ : w₀.Shut o) (hmembers : w₀.MembersDrawn)
    (hrun : TenantHistory env w₀ after w) (hafter : ∀ e ∈ after, ¬ Restores o e) :
    ∀ e ∈ after, (e.pre.Inert o e.post ↔ ¬ e.req.Joins o e.pre) := by
  have hall : ((∀ e ∈ after, ¬ Restores o e) → w.Shut o ∧ ∀ e ∈ after,
    (e.pre.Inert o e.post ↔ ¬ e.req.Joins o e.pre)) ∧
      w.MembersDrawn := by
    refine Served.invariant (fun h w => ((∀ e ∈ h, ¬ Restores o e) →
      w.Shut o ∧ ∀ e ∈ h, (e.pre.Inert o e.post ↔ ¬ e.req.Joins o e.pre)) ∧ w.MembersDrawn)
      ⟨fun _ => ⟨hw₀, fun _ he => by cases he⟩, hmembers⟩ ?_ hrun
    intro h w r ⟨hI, hdrawn⟩ _
    refine ⟨fun hnone => ?_, Prog.Maintains.of_exec (fun _ _ _ hexec hw => hw.exec hexec)
      (r.prog env) w hdrawn⟩
    obtain ⟨hshut, hold⟩ := hI fun e he => hnone e (.tail _ he)
    have hsettles : (r.prog env).Ends Stmt.exec (Settles o r w) w := r.settles hshut hdrawn
    rcases hsettles with ⟨⟨header, hr⟩, hres⟩ | ⟨hinert, hshut'⟩
    · exact absurd ⟨header, hr, hres⟩ (hnone _ (.head _))
    · refine ⟨hshut', fun e he => ?_⟩
      rcases List.mem_cons.mp he with rfl | he
      · exact hinert
      · exact hold e he
  exact (hall.1 hafter).2

/-- Between a deletion of an organization and its next restoration nothing happens to it if
and only if nobody accepts an invitation to it. -/
theorem deleted_organization_inert_iff (env : Env) (hmembers : w₀.MembersDrawn)
    (horgs : w₀.OrganizationsDrawn)
    (hrun : TenantHistory env w₀ (after ++ d :: before) w) (hd : Deletes o d)
    (hafter : ∀ e ∈ after, ¬ Restores o e) :
    (∀ e ∈ after, e.pre.Inert o e.post) ↔ ∀ e ∈ after, ¬ e.req.Joins o e.pre := by
  obtain ⟨hbefore, hserved, hrest⟩ := Served.around hrun
  obtain ⟨hdrawn, horgsDrawn⟩ := TenantHistory.drawn hmembers horgs hbefore
  have hpost := TenantHistory.drawn hdrawn horgsDrawn (.snoc .refl hserved)
  obtain ⟨header, hreq, hres⟩ := hd
  have hshut : d.post.Shut o := by
    rw [hserved.eq_serve] at hres ⊢
    rw [hreq] at hres ⊢
    exact deletion_shuts horgsDrawn header hres
  exact forall₂_congr (TenantHistory.settles hshut hpost.1 hrest hafter)

end Histories

section Sample

def founding : List TenantEntry × World :=
  serveAll Stmt.exec (TenantRequest.prog sampleEnv)
    [.org (bearer 1 "a@x.io") (.createOrganization "Acme" "acme"),
      .org (bearer 1 "a@x.io") (.createInvitation 3 "b@x.io" ⟨.member, OrgRole.member_ne_owner⟩)]
    ([], untenantedWorld)

def abandonment : TenantEntry :=
  serve Stmt.exec (TenantRequest.prog sampleEnv) founding.2
    (.org (bearer 1 "a@x.io") (.deleteOrganization 3))

def answer (route : OrgRoute) : TenantEntry :=
  serve Stmt.exec (TenantRequest.prog sampleEnv) abandonment.post (.org (bearer 2 "b@x.io") route)

theorem answer_history (route : OrgRoute) :
    TenantHistory sampleEnv untenantedWorld ([answer route] ++ abandonment :: founding.1)
      (answer route).post :=
  .snoc (.snoc (serveAll_steps _ (fun _ _ _ => trivial) [] .refl) (.mk trivial)) (.mk trivial)

theorem untenantedWorld_drawn :
    untenantedWorld.MembersDrawn ∧ untenantedWorld.OrganizationsDrawn := by
  refine ⟨fun k m hk => ?_, fun k org hk => ?_⟩
  · rw [untenantedWorld_untenanted.members k] at hk
    cases hk
  · rw [untenantedWorld_untenanted.organizations k] at hk
    cases hk

theorem abandonment_deletes : Deletes 3 abandonment := ⟨_, rfl, by decide +kernel⟩

theorem deleted_organization_inert_declined :
    (answer (.declineInvitation 5)).res = .ok () ∧
      ((∀ e ∈ [answer (.declineInvitation 5)], e.pre.Inert 3 e.post) ↔
        ∀ e ∈ [answer (.declineInvitation 5)], ¬ e.req.Joins 3 e.pre) := by
  refine ⟨by decide +kernel, deleted_organization_inert_iff sampleEnv untenantedWorld_drawn.1
    untenantedWorld_drawn.2
    (answer_history (.declineInvitation 5)) abandonment_deletes ?_⟩
  rintro e he ⟨header, hreq, _⟩
  cases List.mem_singleton.mp he
  cases hreq

/-- User 2 joins the deleted organization by the invitation that he was sent before. -/
theorem joined_deleted_organization :
    Deletes 3 abandonment ∧ (answer (.acceptInvitation 5)).res = .ok () ∧
      ((answer (.acceptInvitation 5)).pre.membership 3 2).isSome = false ∧
      ((answer (.acceptInvitation 5)).post.membership 3 2).isSome = true ∧
      ¬ (answer (.acceptInvitation 5)).pre.Inert 3 (answer (.acceptInvitation 5)).post := by
  refine ⟨abandonment_deletes, by decide +kernel, by decide +kernel, by decide +kernel, fun h => ?_⟩
  have hold := h.members 7 ⟨3, 2, .member, 0⟩ (by decide +kernel) rfl
  exact absurd hold (by decide +kernel)

end Sample

end SaasBackend
