import SaasBackend.Tenancy

/-! Who owns an organization. The owner's membership and the organization's ownerId are
moved together by one transaction; role changes, removals and transfers check the roles in
statements of their own before they write. -/

set_option autoImplicit false

namespace SaasBackend
open Keyed Handler

/-- Organizations and memberships lie below the supply of ids, a user has one membership in
an organization, and no one is invited as its owner. -/
structure World.TenantsSound (w : World) : Prop where
  orgs : ∀ o org, w.organizations.get? o = some org → o < w.nonce
  keys : ∀ k m, w.members.get? k = some m → k < w.nonce
  drawn : ∀ k m, w.members.get? k = some m → m.organizationId < w.nonce
  unique : ∀ k k' m m', w.members.get? k = some m → w.members.get? k' = some m' →
    m.organizationId = m'.organizationId → m.userId = m'.userId → k = k'
  invited : ∀ k i, w.invitations.get? k = some i → i.role ≠ .owner

inductive RoleStep (l : Stmt) (w : World) (k : Id) : OrgRole → OrgRole → Prop where
  | same (role : OrgRole) : RoleStep l w k role role
  | assigned {role : OrgRole} (old : OrgRole) : l = .memberUpdate k role → RoleStep l w k old role
  | promoted {orgId new cur : Id} {m : OrganizationMember} (old : OrgRole) :
      l = .transferOwnership orgId new cur → w.membership orgId new = some (k, m) →
        RoleStep l w k old .owner
  | demoted {orgId new cur : Id} {m : OrganizationMember} (old : OrgRole) :
      l = .transferOwnership orgId new cur → w.membership orgId cur = some (k, m) →
        RoleStep l w k old .admin

structure MemberStep (l : Stmt) (w : World) (k : Id) (m m' : OrganizationMember) : Prop where
  organizationId : m'.organizationId = m.organizationId
  userId : m'.userId = m.userId
  role : RoleStep l w k m.role m'.role

theorem MemberStep.refl (l : Stmt) (w : World) (k : Id) (m : OrganizationMember) :
    MemberStep l w k m m :=
  ⟨rfl, rfl, .same m.role⟩

theorem membership_some {w : World} {orgId userId k : Id} {m : OrganizationMember}
    (h : w.membership orgId userId = some (k, m)) :
    w.members.get? k = some m ∧ m.organizationId = orgId ∧ m.userId = userId := by
  obtain ⟨hk, hm⟩ := Table.find?_some h
  simp only [Bool.and_eq_true, beq_iff_eq] at hm
  exact ⟨hk, hm.1, hm.2⟩

section Statements

variable {l : Stmt} {w w' : World}

def Stmt.erasesMember (l : Stmt) (w : World) (k : Id) (m : OrganizationMember) : Bool :=
  match l with
  | .userDelete id => m.userId == id || w.cascadesOrg id m.organizationId
  | .memberDelete id => k == id
  | _ => false

theorem swapRoles_get? {orgId new cur k : Id} {m : OrganizationMember}
    (hk : w.members.get? k = some m) :
    ∃ m', (Stmt.swapRoles w orgId new cur).get? k = some m' ∧
      MemberStep (.transferOwnership orgId new cur) w k m m' := by
  unfold Stmt.swapRoles
  split
  · rename_i nk nm ck cm hnew hcur
    simp only [Table.get?_update, hk]
    by_cases hc : k = ck
    · subst hc
      exact ⟨{ m with role := .admin }, by by_cases hn : k = nk <;> simp [hn], rfl, rfl,
        .demoted _ rfl hcur⟩
    · by_cases hn : k = nk
      · subst hn
        exact ⟨{ m with role := .owner }, by simp [hc], rfl, rfl, .promoted _ rfl hnew⟩
      · exact ⟨m, by simp [hc, hn], .refl ..⟩
  · exact ⟨m, hk, .refl ..⟩

theorem Stmt.Effect.member_forth (h : l.Effect w w') {k : Id} {m : OrganizationMember}
    (hk : w.members.get? k = some m) (hl : l.erasesMember w k m = false) :
    ∃ m', w'.members.get? k = some m' ∧ MemberStep l w k m m' := by
  rw [h.members]
  cases l with
  | userDelete id =>
    refine ⟨m, ?_, .refl ..⟩
    simp only [Stmt.erasesMember] at hl
    simp only [Stmt.membersAfter, Table.get?_eraseWhere, hk, Option.bind_some, hl]
    rfl
  | organizationCreate name slug ownerId => exact ⟨m, Table.get?_insert_of_some hk, .refl ..⟩
  | transferOwnership orgId new cur => exact swapRoles_get? hk
  | memberUpdate id role =>
    by_cases hid : k = id
    · subst hid
      exact ⟨{ m with role }, by simp [Stmt.membersAfter, hk], rfl, rfl, .assigned _ rfl⟩
    · exact ⟨m, by simp [Stmt.membersAfter, hk, hid], .refl ..⟩
  | memberDelete id =>
    have hid : k ≠ id := by simpa [Stmt.erasesMember] using hl
    exact ⟨m, by simp [Stmt.membersAfter, hk, hid], .refl ..⟩
  | invitationAccept id d orgId userId role => exact ⟨m, Table.get?_insert_of_some hk, .refl ..⟩
  | _ => exact ⟨m, hk, .refl ..⟩

theorem Stmt.Effect.member_back (h : l.Effect w w') {k : Id} {m' : OrganizationMember}
    (hk : w'.members.get? k = some m') :
    (∃ m, w.members.get? k = some m ∧ MemberStep l w k m m') ∨
      (∃ name slug ownerId, l = .organizationCreate name slug ownerId ∧ k = w.nonce + 1 ∧
        m' = { organizationId := w.nonce, userId := ownerId, role := .owner, createdAt := w.now }) ∨
      ∃ id d orgId userId role, l = .invitationAccept id d orgId userId role ∧ k = w.nonce ∧
        m' = { organizationId := orgId, userId, role, createdAt := w.now } := by
  cases hm : w.members.get? k with
  | some m =>
    cases hl : l.erasesMember w k m with
    | false =>
      obtain ⟨m'', hk'', hstep⟩ := h.member_forth hm hl
      rw [hk] at hk''
      cases hk''
      exact .inl ⟨m, rfl, hstep⟩
    | true =>
      rw [h.members] at hk
      cases l with
      | userDelete id =>
        simp only [Stmt.erasesMember] at hl
        simp only [Stmt.membersAfter, Table.get?_eraseWhere, hm, Option.bind_some, hl,
          if_true] at hk
        cases hk
      | memberDelete id =>
        have hid : k = id := by simpa [Stmt.erasesMember] using hl
        simp [Stmt.membersAfter, hid] at hk
      | _ => cases hl
  | none =>
    rw [h.members] at hk
    cases l with
    | organizationCreate name slug ownerId =>
      rcases Table.get?_insert_cases hk with hold | ⟨hkey, hrow⟩
      · rw [hm] at hold
        cases hold
      · exact .inr (.inl ⟨name, slug, ownerId, rfl, hkey, hrow⟩)
    | invitationAccept id d orgId userId role =>
      rcases Table.get?_insert_cases hk with hold | ⟨hkey, hrow⟩
      · rw [hm] at hold
        cases hold
      · exact .inr (.inr ⟨id, d, orgId, userId, role, rfl, hkey, hrow⟩)
    | transferOwnership orgId new cur =>
      simp only [Stmt.membersAfter, Stmt.swapRoles] at hk
      split at hk <;> simp [hm] at hk
    | _ => simp [Stmt.membersAfter, hm] at hk

def Stmt.ownerAfter (l : Stmt) (o owner : Id) : Id :=
  match l with
  | .transferOwnership orgId new _ => if orgId = o then new else owner
  | _ => owner

theorem Stmt.Effect.organization_forth (h : l.Effect w w') {o : Id} {org : Organization}
    (ho : w.organizations.get? o = some org) (hl : l ≠ .userDelete org.ownerId) :
    ∃ org', w'.organizations.get? o = some org' ∧ org'.ownerId = l.ownerAfter o org.ownerId := by
  rw [h.organizations]
  cases l with
  | userDelete id =>
    have hid : org.ownerId ≠ id := fun heq => hl (by rw [heq])
    exact ⟨org, by simp [Stmt.organizationsAfter, ho, hid], rfl⟩
  | organizationCreate name slug ownerId => exact ⟨org, Table.get?_insert_of_some ho, rfl⟩
  | organizationUpdate id d =>
    by_cases hid : o = id
    · subst hid
      exact ⟨{ d.apply org with updatedAt := w.now }, by simp [Stmt.organizationsAfter, ho], rfl⟩
    · exact ⟨org, by simp [Stmt.organizationsAfter, ho, hid], rfl⟩
  | transferOwnership orgId new cur =>
    by_cases hid : o = orgId
    · subst hid
      exact ⟨{ org with ownerId := new, updatedAt := w.now }, by simp [Stmt.organizationsAfter, ho],
        by simp [Stmt.ownerAfter]⟩
    · exact ⟨org, by simp [Stmt.organizationsAfter, ho, hid],
        by simp [Stmt.ownerAfter, Ne.symm hid]⟩
  | _ => exact ⟨org, ho, rfl⟩

theorem Stmt.Effect.organization_back (h : l.Effect w w') {o : Id} {org' : Organization}
    (ho : w'.organizations.get? o = some org') :
    (∃ org, w.organizations.get? o = some org ∧ l ≠ .userDelete org.ownerId ∧
      org'.ownerId = l.ownerAfter o org.ownerId) ∨
      ∃ name slug, l = .organizationCreate name slug org'.ownerId ∧ o = w.nonce := by
  cases hold : w.organizations.get? o with
  | some org =>
    have hl : l ≠ .userDelete org.ownerId := by
      rintro rfl
      rw [h.organizations] at ho
      simp [Stmt.organizationsAfter, hold] at ho
    obtain ⟨org'', horg'', howner⟩ := h.organization_forth hold hl
    rw [ho] at horg''
    cases horg''
    exact .inl ⟨org, rfl, hl, howner⟩
  | none =>
    rw [h.organizations] at ho
    cases l with
    | organizationCreate name slug ownerId =>
      rcases Table.get?_insert_cases ho with hsame | ⟨hkey, hrow⟩
      · rw [hold] at hsame
        cases hsame
      · exact .inr ⟨name, slug, by rw [hrow], hkey⟩
    | _ => simp [Stmt.organizationsAfter, hold] at ho

structure SameTerms (i i' : OrganizationInvitation) : Prop where
  organizationId : i'.organizationId = i.organizationId
  inviterId : i'.inviterId = i.inviterId
  inviteeEmail : i'.inviteeEmail = i.inviteeEmail
  role : i'.role = i.role
  token : i'.token = i.token
  expiresAt : i'.expiresAt = i.expiresAt

theorem SameTerms.refl (i : OrganizationInvitation) :
    SameTerms i i := ⟨rfl, rfl, rfl, rfl, rfl, rfl⟩

theorem SameTerms.trans {i₁ i₂ i₃ : OrganizationInvitation} (h₁ : SameTerms i₁ i₂)
    (h₂ : SameTerms i₂ i₃) :
    SameTerms i₁ i₃ :=
  ⟨h₂.organizationId.trans h₁.organizationId, h₂.inviterId.trans h₁.inviterId,
    h₂.inviteeEmail.trans h₁.inviteeEmail, h₂.role.trans h₁.role, h₂.token.trans h₁.token,
    h₂.expiresAt.trans h₁.expiresAt⟩

theorem Stmt.Effect.invitation_terms (h : l.Effect w w') {k : Id} {i' : OrganizationInvitation}
    (hk : w'.invitations.get? k = some i') :
    (∃ i, w.invitations.get? k = some i ∧ SameTerms i i') ∨
      w.invitations.get? k = none ∧ ∃ i, l = .invitationCreate i ∧ SameTerms i i' := by
  cases hold : w.invitations.get? k with
  | some i =>
    refine .inl ⟨i, rfl, ?_⟩
    rw [h.invitations] at hk
    cases l with
    | userDelete id =>
      simp only [Stmt.invitationsAfter, Table.get?_mapRows, hold, Option.bind_some] at hk
      split at hk
      · cases hk
      · cases hk
        exact ⟨rfl, rfl, rfl, rfl, rfl, rfl⟩
    | invitationCreate j =>
      simp only [Stmt.invitationsAfter, Table.get?_insert_of_some hold] at hk
      cases hk
      exact .refl _
    | invitationUpdate id d | invitationAccept id d orgId userId role =>
      simp only [Stmt.invitationsAfter, Table.get?_update, hold, Option.map_some] at hk
      split at hk <;> cases hk <;> exact ⟨rfl, rfl, rfl, rfl, rfl, rfl⟩
    | invitationCleanup before =>
      obtain ⟨hsame, _⟩ := Table.get?_eraseWhere_eq_some.mp hk
      rw [hold] at hsame
      cases hsame
      exact .refl _
    | _ =>
      simp only [Stmt.invitationsAfter, hold] at hk
      cases hk
      exact .refl _
  | none =>
    rw [h.invitations] at hk
    cases l with
    | invitationCreate j =>
      rcases Table.get?_insert_cases hk with hsame | ⟨_, hrow⟩
      · rw [hold] at hsame
        cases hsame
      · exact .inr ⟨rfl, j, rfl, by rw [hrow]; exact ⟨rfl, rfl, rfl, rfl, rfl, rfl⟩⟩
    | _ => simp [Stmt.invitationsAfter, hold] at hk

theorem Stmt.Effect.invitation_back (h : l.Effect w w') {k : Id} {i' : OrganizationInvitation}
    (hk : w'.invitations.get? k = some i') :
    (∃ i, w.invitations.get? k = some i ∧ i'.role = i.role) ∨ ∃ i, l = .invitationCreate i ∧
      i'.role = i.role := by
  rcases h.invitation_terms hk with ⟨i, hi, hterms⟩ | ⟨_, i, hl, hterms⟩
  · exact .inl ⟨i, hi, hterms.role⟩
  · exact .inr ⟨i, hl, hterms.role⟩

/-- The statement makes no one an owner but by a transfer to another. -/
def Stmt.proper : Stmt → Bool
  | .invitationCreate i => i.role != .owner
  | .memberUpdate _ role | .invitationAccept _ _ _ _ role => role != .owner
  | .transferOwnership _ new cur => new != cur
  | _ => true

def Stmt.newMember (l : Stmt) (w : World) : Id :=
  match l with
  | .organizationCreate .. => w.nonce + 1
  | _ => w.nonce

theorem World.TenantsSound.member_origin (hw : w.TenantsSound) (h : l.exec w = .ok w') {k : Id}
    {m' : OrganizationMember} (hk : w'.members.get? k = some m') :
    (∃ m, w.members.get? k = some m ∧ MemberStep l w k m m') ∨
      (k = l.newMember w ∧ k < w'.nonce ∧ m'.organizationId < w'.nonce ∧
        ∀ k₀ m₀, w.members.get? k₀ = some m₀ → m₀.organizationId = m'.organizationId →
        m₀.userId ≠ m'.userId) := by
  have heff := exec_effect h
  rcases heff.member_back hk with hold | ⟨name, slug, ownerId, rfl, rfl, rfl⟩ | ⟨id, d, orgId,
    userId, role, rfl, rfl, rfl⟩
  · exact .inl hold
  · have hnonce : w'.nonce = w.nonce + 2 := heff.nonce
    refine .inr ⟨rfl, by rw [hnonce]; exact Nat.lt_succ_self _,
      by rw [hnonce]; exact Nat.lt_add_of_pos_right (by decide), fun k₀ m₀ hk₀ ho => ?_⟩
    exact absurd (ho ▸ hw.drawn k₀ m₀ hk₀) (Nat.lt_irrefl _)
  · have hnonce : w'.nonce = w.nonce + 1 := heff.nonce
    obtain ⟨_, _, hnone, horg, _⟩ := invitationAccept_ok h
    obtain ⟨org, horg⟩ := Option.isSome_iff_exists.mp horg
    have hlt := hw.orgs orgId org horg
    refine .inr ⟨rfl, by rw [hnonce]; exact Nat.lt_succ_self _,
      Nat.lt_of_lt_of_le hlt heff.nonce_le, fun k₀ m₀ hk₀ ho hu => ?_⟩
    have hfree := Table.find?_none hnone hk₀
    simp [ho, hu] at hfree

theorem World.TenantsSound.exec (hw : w.TenantsSound) (hl : l.proper = true)
    (h : l.exec w = .ok w') :
    w'.TenantsSound := by
  have heff := exec_effect h
  have hle := heff.nonce_le
  refine ⟨fun o org' ho => ?_, fun k m' hk => ?_, fun k m' hk => ?_,
    fun k k' m m' hk hk' ho hu => ?_, fun k i' hk => ?_⟩
  · rcases heff.organization_back ho with ⟨org, horg, _⟩ | ⟨name, slug, rfl, rfl⟩
    · exact Nat.lt_of_lt_of_le (hw.orgs o org horg) hle
    · rw [heff.nonce]
      exact Nat.lt_add_of_pos_right (by decide)
  · rcases hw.member_origin h hk with ⟨m, hm, _⟩ | ⟨_, hlt, _⟩
    · exact Nat.lt_of_lt_of_le (hw.keys k m hm) hle
    · exact hlt
  · rcases hw.member_origin h hk with ⟨m, hm, hstep⟩ | ⟨_, _, hlt, _⟩
    · rw [hstep.organizationId]
      exact Nat.lt_of_lt_of_le (hw.drawn k m hm) hle
    · exact hlt
  · rcases hw.member_origin h hk with ⟨m₀, hm₀, hstep⟩ | ⟨hnew, _, _, hfree⟩
    · rcases hw.member_origin h hk' with ⟨m₁, hm₁, hstep'⟩ | ⟨_, _, _, hfree'⟩
      · refine hw.unique k k' m₀ m₁ hm₀ hm₁ ?_ ?_
        · rw [← hstep.organizationId, ← hstep'.organizationId, ho]
        · rw [← hstep.userId, ← hstep'.userId, hu]
      · exact absurd (hstep.userId ▸ hu) (hfree' k m₀ hm₀ (hstep.organizationId ▸ ho))
    · rcases hw.member_origin h hk' with ⟨m₁, hm₁, hstep'⟩ | ⟨hnew', _⟩
      · exact absurd (hstep'.userId ▸ hu.symm) (hfree k' m₁ hm₁ (hstep'.organizationId ▸ ho.symm))
      · exact hnew.trans hnew'.symm
  · rcases heff.invitation_back hk with ⟨i, hi, hrole⟩ | ⟨i, rfl, hrole⟩
    · rw [hrole]
      exact hw.invited k i hi
    · rw [hrole]
      simpa [Stmt.proper] using hl

end Statements

/-- Organization `o` is owned by `u`, and membership `k` is the only one that says so. -/
structure World.OwnedBy (w : World) (o u k : Id) : Prop where
  org : ∃ org, w.organizations.get? o = some org ∧ org.ownerId = u
  member : ∃ m, w.members.get? k = some m ∧ m.organizationId = o ∧ m.userId = u ∧ m.role = .owner
  sole : ∀ k' m, w.members.get? k' = some m → m.organizationId = o → m.role = .owner → k' = k

def Stmt.leavesOwned (l : Stmt) (o u k : Id) : Bool :=
  match l with
  | .userDelete id => id != u
  | .transferOwnership orgId _ _ => orgId != o
  | .memberUpdate id _ | .memberDelete id => id != k
  | _ => true

section OwnedBy

variable {l : Stmt} {w w' : World} {o u k : Id}

theorem Stmt.leavesOwned_userDelete {l : Stmt} (h : l.leavesOwned o u k = true) :
    l ≠ .userDelete u := by
  rintro rfl
  simp [Stmt.leavesOwned] at h

theorem Stmt.leavesOwned_transfer {l : Stmt} (h : l.leavesOwned o u k = true) (new cur : Id) :
    l ≠ .transferOwnership o new cur := by
  rintro rfl
  simp [Stmt.leavesOwned] at h

theorem Stmt.leavesOwned_memberUpdate {l : Stmt} (h : l.leavesOwned o u k = true) (role : OrgRole) :
    l ≠ .memberUpdate k role := by
  rintro rfl
  simp [Stmt.leavesOwned] at h

theorem Stmt.Effect.owner_kept (h : l.Effect w w') (hleft : l.leavesOwned o u k = true)
    {org : Organization} (horg : w.organizations.get? o = some org) (hu : org.ownerId = u) :
    ∃ org', w'.organizations.get? o = some org' ∧ org'.ownerId = u := by
  obtain ⟨org', horg', howner⟩ := h.organization_forth horg (hu ▸ Stmt.leavesOwned_userDelete hleft)
  refine ⟨org', horg', howner.trans ?_⟩
  unfold Stmt.ownerAfter
  split
  · rename_i orgId new cur
    rw [if_neg fun heq => Stmt.leavesOwned_transfer hleft new cur (by rw [heq]), hu]
  · exact hu

theorem World.OwnedBy.not_erased (h : w.OwnedBy o u k) (hleft : l.leavesOwned o u k = true)
    {m : OrganizationMember} (hm : w.members.get? k = some m) : l.erasesMember w k m = false := by
  obtain ⟨org, horg, hu⟩ := h.org
  obtain ⟨m', hm', hmo, hmu, _⟩ := h.member
  rw [hm] at hm'
  cases hm'
  cases l with
  | userDelete id =>
    have hid : id ≠ u := by simpa [Stmt.leavesOwned] using hleft
    simp [Stmt.erasesMember, World.cascadesOrg, hmo, hmu, horg, hu, hid.symm]
  | memberDelete id =>
    have hid : id ≠ k := by simpa [Stmt.leavesOwned] using hleft
    simp [Stmt.erasesMember, hid.symm]
  | _ => rfl

/-- Outside a transfer of `o`, the role of a membership of `o` stays or is assigned. -/
theorem MemberStep.role_cases {m m' : OrganizationMember} (h : MemberStep l w k m m')
    (hk : w.members.get? k = some m) (ho : m.organizationId = o)
    (hother : ∀ new cur, l ≠ .transferOwnership o new cur) :
    m'.role = m.role ∨ l = .memberUpdate k m'.role := by
  have hnot : ∀ {orgId new cur userId : Id} {m₁ : OrganizationMember},
    l = .transferOwnership orgId new cur →
      w.membership orgId userId = some (k, m₁) → False := by
    intro orgId new cur userId m₁ hl hfound
    obtain ⟨hm₁, ho₁, _⟩ := membership_some hfound
    rw [hk] at hm₁
    cases hm₁
    exact hother new cur (by rw [hl, ← ho₁, ho])
  have hstep := h.role
  generalize m.role = role at hstep
  generalize m'.role = role' at hstep
  cases hstep with
  | same => exact .inl rfl
  | assigned _ hl => exact .inr hl
  | promoted _ hl hfound => exact (hnot hl hfound).elim
  | demoted _ hl hfound => exact (hnot hl hfound).elim

theorem World.OwnedBy.exec (h : w.OwnedBy o u k) (hw : w.TenantsSound) (hl : l.proper = true)
    (hleft : l.leavesOwned o u k = true) (hexec : l.exec w = .ok w') : w'.OwnedBy o u k := by
  have heff := exec_effect hexec
  have hother := Stmt.leavesOwned_transfer hleft
  obtain ⟨org, horg, hu⟩ := h.org
  obtain ⟨m, hm, hmo, hmu, hrole⟩ := h.member
  refine ⟨heff.owner_kept hleft horg hu, ?_, fun k' m' hk' ho' hrole' => ?_⟩
  · obtain ⟨m', hm', hstep⟩ := heff.member_forth hm (h.not_erased hleft hm)
    refine ⟨m', hm', hstep.organizationId.trans hmo, hstep.userId.trans hmu, ?_⟩
    rcases hstep.role_cases hm hmo hother with hsame | hassigned
    · exact hsame.trans hrole
    · exact absurd hassigned (Stmt.leavesOwned_memberUpdate hleft _)
  · rcases heff.member_back hk' with ⟨m₀, hm₀, hstep⟩ | ⟨name, slug, ownerId, _, _, rfl⟩ |
      ⟨id, d, orgId, userId, role, rfl, _, rfl⟩
    · have ho₀ : m₀.organizationId = o := hstep.organizationId ▸ ho'
      rcases hstep.role_cases hm₀ ho₀ hother with hsame | rfl
      · exact h.sole k' m₀ hm₀ ho₀ (hsame ▸ hrole')
      · simp [Stmt.proper, hrole'] at hl
    · exact absurd (ho' ▸ hw.orgs o org horg) (Nat.lt_irrefl _)
    · simp only [Stmt.proper, bne_iff_ne] at hl
      exact absurd hrole' hl

theorem transferOwnership_ok {orgId new cur : Id}
    (h : (Stmt.transferOwnership orgId new cur).exec w = .ok w') :
    ∃ nk nm ck cm, w.membership orgId new = some (nk, nm) ∧ w.membership orgId cur = some (ck, cm) ∧
      w'.members = (w.members.update nk (fun m => { m with role := .owner })).update ck
        (fun m => { m with role := .admin }) := by
  simp only [Stmt.exec] at h
  split at h
  · cases h
  · split at h
    · rename_i nk nm ck cm hnew hcur
      cases h
      exact ⟨nk, nm, ck, cm, hnew, hcur, rfl⟩
    · cases h

theorem World.OwnedBy.transfer {new cur : Id} (h : w.OwnedBy o u k) (hw : w.TenantsSound)
    (hne : new ≠ cur) (howner : u = cur ∨ u = new)
    (hexec : (Stmt.transferOwnership o new cur).exec w = .ok w') :
    ∃ nk, w'.OwnedBy o new nk := by
  have heff := exec_effect hexec
  obtain ⟨org, horg, hu⟩ := h.org
  obtain ⟨m, hm, hmo, hmu, hrole⟩ := h.member
  obtain ⟨nk, nm, ck, cm, hnew, hcur, hmembers⟩ := transferOwnership_ok hexec
  obtain ⟨hnk, hno, hnu⟩ := membership_some hnew
  obtain ⟨hck, hco, hcu⟩ := membership_some hcur
  have hkeys : nk ≠ ck := by
    rintro rfl
    rw [hnk] at hck
    cases hck
    exact hne (hnu.symm.trans hcu)
  -- the owner's membership is one of the two that the transfer writes
  have howns : k = ck ∨ k = nk := by
    rcases howner with rfl | rfl
    · exact .inl (hw.unique k ck m cm hm hck (hmo.trans hco.symm) (hmu.trans hcu.symm))
    · exact .inr (hw.unique k nk m nm hm hnk (hmo.trans hno.symm) (hmu.trans hnu.symm))
  refine ⟨nk, ?_, ⟨{ nm with role := .owner }, ?_, hno, hnu, rfl⟩, fun k' m' hk' ho' hrole' => ?_⟩
  · obtain ⟨org', horg', howner'⟩ := heff.organization_forth horg (fun heq => (by cases heq))
    exact ⟨org', horg', by simpa [Stmt.ownerAfter] using howner'⟩
  · simp [hmembers, hkeys, hnk]
  · simp only [hmembers, Table.get?_update] at hk'
    by_cases hk₁ : k' = ck
    · rw [if_pos hk₁] at hk'
      obtain ⟨m₀, _, rfl⟩ := Option.map_eq_some_iff.mp hk'
      cases hrole'
    · rw [if_neg hk₁] at hk'
      by_cases hk₂ : k' = nk
      · exact hk₂
      · rw [if_neg hk₂] at hk'
        have hkk := h.sole k' m' hk' ho' hrole'
        rcases howns with heq | heq
        · exact absurd (hkk.trans heq) hk₁
        · exact absurd (hkk.trans heq) hk₂

theorem World.OwnedBy.create {name slug : String} {userId : Id} (hw : w.TenantsSound)
    (hexec : (Stmt.organizationCreate name slug userId).exec w = .ok w') :
    w'.OwnedBy w.nonce userId (w.nonce + 1) := by
  have heff := exec_effect hexec
  have horgs : w.organizations.get? w.nonce = none := Table.get?_of_bound hw.orgs (Nat.le_refl _)
  have hkeys : w.members.get? (w.nonce + 1) = none := Table.get?_of_bound hw.keys (Nat.le_succ _)
  refine ⟨⟨{ name, slug, ownerId := userId, createdAt := w.now, updatedAt := w.now }, ?_, rfl⟩,
    ⟨{ organizationId := w.nonce, userId, role := .owner, createdAt := w.now }, ?_, rfl, rfl, rfl⟩,
    fun k' m' hk' ho' _ => ?_⟩
  · rw [heff.organizations]
    exact Table.get?_insert_self _ horgs
  · rw [heff.members]
    exact Table.get?_insert_self _ hkeys
  · rw [heff.members] at hk'
    rcases Table.get?_insert_cases hk' with hold | ⟨hkey, _⟩
    · exact absurd (ho' ▸ hw.drawn k' m' hold) (Nat.lt_irrefl _)
    · exact hkey

end OwnedBy

end SaasBackend
