import SaasBackend.Erasure
import SaasBackend.AccountDeletion

set_option autoImplicit false

namespace SaasBackend
open Keyed Handler

def OrgRole.json : OrgRole → Json
  | .owner => .str "OWNER"
  | .admin => .str "ADMIN"
  | .member => .str "MEMBER"

def readRole : Json → Option OrgRole
  | .str "OWNER" => some .owner
  | .str "ADMIN" => some .admin
  | .str "MEMBER" => some .member
  | _ => none

@[simp] theorem readRole_json (role : OrgRole) : readRole role.json = some role := by
  cases role <;> rfl

def InvitationView.organizationId (i : InvitationView) : Option Id := i.organization.map (·.1)

def OrgRoute.logged (caller : Caller) (client : ClientInfo) (id id' : Id) (route : OrgRoute)
    (reply : OrgReply) : List (Id × AuditLog) :=
  let entry (action : AuditAction) (organizationId : Option Id) : AuditLog :=
    { action, organizationId, userId := some caller.id
      ipAddress := client.ipAddress, userAgent := client.userAgent }
  match route, reply with
  | .createOrganization _ _, .organization o => [(id, entry .orgCreated (some o.id))]
  | .updateOrganization orgId _ _, _ => [(id, entry .orgUpdated (some orgId))]
  | .deleteOrganization orgId, _ => [(id, entry .orgDeleted (some orgId))]
  | .restoreOrganization orgId, _ => [(id, entry .orgRestored (some orgId))]
  | .transferOwnership orgId newOwnerId, _ =>
    [(id, { entry .orgOwnershipTransferred (some orgId) with targetUserId := some newOwnerId })]
  | .updateMemberRole orgId userId role, _ =>
    [(id, { entry .memberRoleChanged (some orgId) with
      targetUserId := some userId, metadata := .obj [("newRole", role.role.json)] })]
  | .removeMember orgId userId, _ =>
    [(id, { entry .memberRemoved (some orgId) with targetUserId := some userId })]
  | .createInvitation orgId _ _, .invitation i =>
    [(id, { entry .memberInvited (some orgId) with
      metadata := .obj [("inviteeEmail", .str i.inviteeEmail), ("role", i.role.json)] })]
  | .cancelInvitation orgId invitationId, _ =>
    [(id, { entry .invitationCanceled (some orgId) with
      metadata := .obj [("invitationId", .num invitationId)] })]
  | .acceptInvitation _, .invitation i =>
    [(id, { entry .invitationAccepted i.organizationId with
      metadata := .obj [("role", i.role.json)] }),
      (id', { entry .memberAdded i.organizationId with
        targetUserId := some caller.id
        metadata := .obj [("role", i.role.json), ("via", .str "invitation")] })]
  | .declineInvitation _, .invitation i =>
    [(id, entry .invitationDeclined i.organizationId)]
  | _, _ => []

def auditAll : List (Id × AuditLog) → Act Unit
  | [] => return ()
  | (id, row) :: rest => do
    auditLog id row
    auditAll rest

def OrgRoute.control (env : Env) (header : AuthHeader) (client : ClientInfo) (id id' : Id)
    (route : OrgRoute) : Act OrgReply := do
  let caller ← (authenticate header).lift
  let data ← (route.serve env caller).lift
  auditAll (route.logged caller client id id' data)
  return data

def AuditAction.onMembers : AuditAction → Bool
  | .orgCreated | .memberAdded | .memberRoleChanged | .memberRemoved
  | .orgOwnershipTransferred | .userDataDeleted => true
  | _ => false

def AuditLog.roleAfter (o u : Id) (role : Option OrgRole) (a : AuditLog) : Option OrgRole :=
  match a.action with
  | .orgCreated => if a.organizationId = some o ∧ a.userId = some u then some .owner else role
  | .memberAdded =>
    if a.organizationId = some o ∧ a.targetUserId = some u then
      (a.metadata.field "role").bind readRole
    else role
  | .memberRoleChanged =>
    if a.organizationId = some o ∧ a.targetUserId = some u then
      (a.metadata.field "newRole").bind readRole
    else role
  | .memberRemoved => if a.organizationId = some o ∧ a.targetUserId = some u then none else role
  | .orgOwnershipTransferred =>
    if a.organizationId = some o ∧ a.targetUserId = some u then some .owner
    else if a.organizationId = some o ∧ a.userId = some u then some .admin
    else role
  | .userDataDeleted => if a.targetUserId = some u then none else role
  | _ => role

def replay (o u : Id) (logs : List AuditLog) : Option OrgRole :=
  logs.foldl (AuditLog.roleAfter o u) none

def roleOf (members : Table OrganizationMember) (o u : Id) : Option OrgRole :=
  (members.find? (fun _ m => m.organizationId == o && m.userId == u)).map (·.2.role)

def Backend.Replayed (b : Backend) : Prop :=
  ∀ o u, replay o u (b.auditLogs.rows.map Prod.snd) = roleOf b.world.members o u

section Replay

variable {o u : Id} {logs : List AuditLog} {a : AuditLog}

theorem replay_append (o u : Id) (logs : List AuditLog) (a : AuditLog) :
    replay o u (logs ++ [a]) = a.roleAfter o u (replay o u logs) := by
  simp [replay]

theorem AuditLog.roleAfter_other (role : Option OrgRole) (h : a.action.onMembers = false) :
    a.roleAfter o u role = role := by
  unfold roleAfter
  split <;> simp_all [AuditAction.onMembers]

def AuditLog.unname (v : Id) (a : AuditLog) : AuditLog :=
  if a.userId == some v then { a with userId := none } else a

theorem AuditLog.roleAfter_unname {v : Id} (hne : u ≠ v) (role : Option OrgRole) (a : AuditLog) :
    (a.unname v).roleAfter o u role = a.roleAfter o u role := by
  unfold unname
  split
  · rename_i hv
    have hname : a.userId = some v := by simpa using hv
    have hother : ¬ some v = some u := fun h => hne (Option.some.inj h).symm
    unfold roleAfter
    cases a.action <;> simp [hname, hother]
  · rfl

theorem replay_unname {v : Id} (hne : u ≠ v) (logs : List AuditLog) :
    replay o u (logs.map (·.unname v)) = replay o u logs := by
  simp only [replay, List.foldl_map]
  congr 1
  funext role a
  exact AuditLog.roleAfter_unname hne role a

end Replay

section Roles

variable {t : Table OrganizationMember} {o u k : Id} {m : OrganizationMember}

theorem roleOf_none (h : ∀ k m, t.get? k = some m → m.organizationId = o → m.userId ≠ u) :
    roleOf t o u = none := by
  unfold roleOf
  rw [Option.map_eq_none_iff]
  cases hfound : t.find? (fun _ m => m.organizationId == o && m.userId == u) with
  | none => rfl
  | some r =>
    obtain ⟨hk, hp⟩ := Table.find?_some hfound
    simp only [Bool.and_eq_true, beq_iff_eq] at hp
    exact absurd hp.2 (h r.1 r.2 hk hp.1)

theorem roleOf_insert (hk : t.get? k = none) : roleOf (t.insert k m) o u =
    (roleOf t o u).or (if m.organizationId = o ∧ m.userId = u then some m.role else none) := by
  unfold roleOf
  rw [Table.find?_insert _ hk]
  cases t.find? (fun _ m => m.organizationId == o && m.userId == u) with
  | some r => rfl
  | none =>
    by_cases hm : m.organizationId = o ∧ m.userId = u
    · simp [hm]
    · have hq : (m.organizationId == o && m.userId == u) = false := by simpa using hm
      simp [hm, hq]

theorem roleOf_update {orgId userId : Id} {role : OrgRole}
    (hfound : t.find? (fun _ m => m.organizationId == orgId && m.userId == userId) =
      some (k, m)) :
    roleOf (t.update k (fun m => { m with role })) o u =
      if orgId = o ∧ userId = u then some role else roleOf t o u := by
  have hrow := Table.find?_some hfound
  simp only [Bool.and_eq_true, beq_iff_eq] at hrow
  have hmoved := Table.find?_updateWhere (t := t) (p := fun k' _ => k' == k)
    (q := fun _ m => m.organizationId == o && m.userId == u)
    (f := fun m : OrganizationMember => { m with role }) (fun _ _ => rfl)
  unfold roleOf
  rw [Table.update, hmoved, Option.map_map]
  split
  · rename_i hpair
    obtain ⟨rfl, rfl⟩ := hpair
    simp [hfound]
  · rename_i hpair
    cases hother : t.find? (fun _ m => m.organizationId == o && m.userId == u) with
    | none => rfl
    | some r =>
      obtain ⟨hk', hp'⟩ := Table.find?_some hother
      simp only [Bool.and_eq_true, beq_iff_eq] at hp'
      have hne : r.1 ≠ k := by
        intro heq
        rw [heq, hrow.1] at hk'
        obtain rfl := Option.some.inj hk'
        exact hpair ⟨hrow.2.1.symm.trans hp'.1, hrow.2.2.symm.trans hp'.2⟩
      simp [hne]

theorem find?_update_role {q : Nat → OrganizationMember → Bool} {role : OrgRole}
    (hq : ∀ k m, q k { m with role := role } = q k m) {k' : Id} (hne : k' ≠ k)
    (hfound : t.find? q = some (k', m)) :
    (t.update k (fun m => { m with role })).find? q = some (k', m) := by
  rw [Table.update, Table.find?_updateWhere hq, hfound]
  simp [hne]

theorem roleOf_eraseWhere {p : Nat → OrganizationMember → Bool}
    (hp : ∀ k m, t.get? k = some m → m.organizationId = o → m.userId = u → p k m = false) :
    roleOf (t.eraseWhere p) o u = roleOf t o u := by
  unfold roleOf
  rw [Table.find?_eq_head?, Table.find?_eq_head?, Table.filter_eraseWhere_apart]
  intro k m hk hm
  simp only [Bool.and_eq_true, beq_iff_eq] at hm
  exact hp k m hk hm.1 hm.2

theorem roleOf_erased {p : Nat → OrganizationMember → Bool}
    (hp : ∀ k m, t.get? k = some m → m.organizationId = o → m.userId = u → p k m = true) :
    roleOf (t.eraseWhere p) o u = none := by
  refine roleOf_none fun k m hk ho hu => ?_
  obtain ⟨hold, hkept⟩ := Table.get?_eraseWhere_eq_some.mp hk
  rw [hp k m hold ho hu] at hkept
  cases hkept

end Roles

section Statements

variable {w w' : World} {orgId userId : Id}

theorem created_role {name slug : String} (hw : w.TenantsSound)
    (h : (Stmt.organizationCreate name slug userId).exec w = .ok w') (o u : Id) :
    roleOf w'.members o u =
      if some w.nonce = some o ∧ some userId = some u then some .owner
      else roleOf w.members o u := by
  have hnone : w.members.get? (w.nonce + 1) = none :=
    Table.get?_of_bound hw.keys (Nat.le_succ _)
  rw [(exec_effect h).members, Stmt.membersAfter, roleOf_insert hnone]
  by_cases hpair : w.nonce = o ∧ userId = u
  · have hno : roleOf w.members o u = none := by
      refine roleOf_none fun k m hk ho => ?_
      have hdrawn := hw.drawn k m hk
      rw [ho, ← hpair.1] at hdrawn
      exact absurd hdrawn (Nat.lt_irrefl _)
    simp [hpair, hno]
  · simp [hpair]

theorem joined_role {id : Id} {d : InvitationPatch} {role : OrgRole} (hw : w.TenantsSound)
    (h : (Stmt.invitationAccept id d orgId userId role).exec w = .ok w') (o u : Id) :
    roleOf w'.members o u =
      if orgId = o ∧ userId = u then some role else roleOf w.members o u := by
  have hnone : w.members.get? w.nonce = none := Table.get?_of_bound hw.keys (Nat.le_refl _)
  rw [(exec_effect h).members, Stmt.membersAfter, roleOf_insert hnone]
  by_cases hpair : orgId = o ∧ userId = u
  · obtain ⟨rfl, rfl⟩ := hpair
    obtain ⟨_, _, hfree, _⟩ := invitationAccept_ok h
    unfold World.membership at hfree
    simp [roleOf, hfree]
  · simp [hpair]

theorem changed_role {k : Id} {m : OrganizationMember} {role : OrgRole}
    (hfound : w.membership orgId userId = some (k, m))
    (h : (Stmt.memberUpdate k role).exec w = .ok w') (o u : Id) :
    roleOf w'.members o u =
      if orgId = o ∧ userId = u then some role else roleOf w.members o u := by
  rw [(exec_effect h).members]
  exact roleOf_update hfound

theorem removed_role {k : Id} {m : OrganizationMember} (hw : w.TenantsSound)
    (hfound : w.membership orgId userId = some (k, m))
    (h : (Stmt.memberDelete k).exec w = .ok w') (o u : Id) :
    roleOf w'.members o u =
      if orgId = o ∧ userId = u then none else roleOf w.members o u := by
  obtain ⟨hk, ho, hu⟩ := membership_some hfound
  rw [(exec_effect h).members, Stmt.membersAfter, Table.erase]
  split
  · rename_i hpair
    refine roleOf_erased fun k' m' hk' ho' hu' => ?_
    have heq := hw.unique k' k m' m hk' hk (ho'.trans (hpair.1.symm.trans ho.symm))
      (hu'.trans (hpair.2.symm.trans hu.symm))
    simpa using heq
  · rename_i hpair
    refine roleOf_eraseWhere fun k' m' hk' ho' hu' => ?_
    have hne : k' ≠ k := by
      rintro rfl
      rw [hk] at hk'
      cases hk'
      exact hpair ⟨ho.symm.trans ho', hu.symm.trans hu'⟩
    simpa using hne

theorem transferred_role {new cur : Id} (hne : new ≠ cur)
    (h : (Stmt.transferOwnership orgId new cur).exec w = .ok w') (o u : Id) :
    roleOf w'.members o u =
      if orgId = o ∧ new = u then some .owner
      else if orgId = o ∧ cur = u then some .admin else roleOf w.members o u := by
  have heff := exec_effect h
  simp only [Stmt.exec] at h
  repeat' split at h
  · cases h
  · rename_i kn mn kc mc hnew hcur
    have hkeys : kc ≠ kn := by
      rintro rfl
      obtain ⟨hkn, _, hun⟩ := membership_some hnew
      obtain ⟨hkc, _, huc⟩ := membership_some hcur
      rw [hkn] at hkc
      cases hkc
      exact hne (hun.symm.trans huc)
    have hcur' : (w.members.update kn (fun m => { m with role := .owner })).find? _ = _ :=
      find?_update_role (fun _ _ => rfl) hkeys hcur
    rw [heff.members, Stmt.membersAfter, Stmt.swapRoles, hnew, hcur]
    dsimp only
    rw [roleOf_update hcur', roleOf_update hnew]
    by_cases hn : orgId = o ∧ new = u
    · obtain ⟨rfl, rfl⟩ := hn
      simp [hne.symm]
    · simp [hn]
  · cases h

end Statements

def BackendStmt.leavesTrail : BackendStmt → Bool
  | .core l => [.routine, .kill, .signIn, .challenge].contains l.area
  | .auditCreate _ row => !row.action.onMembers
  | .auditCleanup _ => false
  | _ => true

def Tells (rows : List (Id × AuditLog)) (w w' : World) : Prop :=
  ∀ o u, roleOf w'.members o u =
    rows.foldl (fun role e => e.2.roleAfter o u role) (roleOf w.members o u)

theorem tells_of_silent {rows : List (Id × AuditLog)} {w w' : World}
    (hrows : ∀ e ∈ rows, e.2.action.onMembers = false) (hmembers : w'.members = w.members) :
    Tells rows w w' := by
  intro o u
  rw [hmembers]
  generalize roleOf w.members o u = role
  induction rows with
  | nil => rfl
  | cons e rest ih =>
    rw [List.foldl_cons, AuditLog.roleAfter_other role (hrows e List.mem_cons_self)]
    exact ih fun e' he' => hrows e' (List.mem_cons_of_mem e he')

def OrgRoute.rows (caller : Caller) (client : ClientInfo) (id id' : Id) (route : OrgRoute) :
    Except Err OrgReply → List (Id × AuditLog)
  | .ok reply => route.logged caller client id id' reply
  | .error _ => []

def Stmt.keepsMembers : Stmt → Bool
  | .userDelete _ | .organizationCreate .. | .transferOwnership .. | .memberUpdate ..
  | .memberDelete _ | .invitationAccept .. => false
  | _ => true

theorem Stmt.Effect.membersKept {l : Stmt} {w w' : World} (heff : l.Effect w w')
    (hl : l.keepsMembers = true) : w'.members = w.members := by
  rw [heff.members]
  cases l <;> first | rfl | cases hl

section Routes

variable {env : Env} {w : World} {caller : Caller} {orgId userId : Id}

theorem createOrganization_told (userId : Id) (name slug : String) :
    (createOrganization userId name slug).Ends Stmt.exec (fun r w' =>
      (∃ v, r = .ok (.organization v) ∧ v.id = w.nonce ∧
        (Stmt.organizationCreate (trim name) slug userId).exec w = .ok w') ∨
      (∃ e, r = .error e) ∧ w' = w) w := by
  unfold createOrganization
  simp only [findLiveSlug, Prog.bind_eq, ends_query_bind]
  split
  · exact .inr ⟨⟨_, rfl⟩, rfl⟩
  · rw [Prog.tryCatch_eq, Prog.ends_tryCatch, send, Prog.ends_send]
    cases hexec : (Stmt.organizationCreate (trim name) slug userId).exec w with
    | ok w' => exact .inl ⟨_, rfl, rfl, rfl⟩
    | error e =>
      simp only [slugTaken]
      split <;> exact .inr ⟨⟨_, rfl⟩, rfl⟩

theorem updateMemberRole_told (orgId userId : Id) (role : AssignableRole) :
    (updateMemberRole orgId userId role).Ends Stmt.exec (fun r w' =>
      (∃ a k m, r = .ok a ∧ w.membership orgId userId = some (k, m) ∧
        (Stmt.memberUpdate k role.role).exec w = .ok w') ∨ (∃ e, r = .error e) ∧ w' = w) w := by
  unfold updateMemberRole
  simp only [findMembership, Prog.bind_eq, ends_query_bind]
  split
  · exact .inr ⟨⟨_, rfl⟩, rfl⟩
  · rename_i k m hfound
    split
    · exact .inr ⟨⟨_, rfl⟩, rfl⟩
    · rw [send, Prog.ends_send]
      cases hexec : (Stmt.memberUpdate k role.role).exec w with
      | ok w' => exact .inl ⟨_, k, m, rfl, hfound, hexec⟩
      | error e => exact .inr ⟨⟨e, rfl⟩, rfl⟩

theorem removeMember_told (orgId userId : Id) :
    (removeMember orgId userId).Ends Stmt.exec (fun r w' =>
      (∃ a k m, r = .ok a ∧ w.membership orgId userId = some (k, m) ∧
        (Stmt.memberDelete k).exec w = .ok w') ∨ (∃ e, r = .error e) ∧ w' = w) w := by
  unfold removeMember
  simp only [findMembership, Prog.bind_eq, ends_query_bind]
  split
  · exact .inr ⟨⟨_, rfl⟩, rfl⟩
  · rename_i k m hfound
    split
    · exact .inr ⟨⟨_, rfl⟩, rfl⟩
    · rw [ends_execute_bind]
      cases hexec : (Stmt.memberDelete k).exec w with
      | ok w' => exact .inl ⟨_, k, m, rfl, hfound, hexec⟩
      | error e => exact .inr ⟨⟨e, rfl⟩, rfl⟩

theorem transferOwnership_told (orgId currentOwnerId newOwnerId : Id) :
    (transferOwnership orgId currentOwnerId newOwnerId).Ends Stmt.exec (fun r w' =>
      (∃ a, r = .ok a ∧ newOwnerId ≠ currentOwnerId ∧
        (Stmt.transferOwnership orgId newOwnerId currentOwnerId).exec w = .ok w') ∨
      (∃ e, r = .error e) ∧ w' = w) w := by
  unfold transferOwnership
  split
  · exact .inr ⟨⟨_, rfl⟩, rfl⟩
  · rename_i hne
    simp only [findMembership, Prog.bind_eq, ends_query_bind]
    split
    · exact .inr ⟨⟨_, rfl⟩, rfl⟩
    · rw [send, Prog.ends_send]
      cases hexec : (Stmt.transferOwnership orgId newOwnerId currentOwnerId).exec w with
      | ok w' => exact .inl ⟨_, rfl, hne, rfl⟩
      | error e => exact .inr ⟨⟨e, rfl⟩, rfl⟩

theorem World.Noted.members {w w' : World} (h : w.Noted w') : w'.members = w.members := by
  rcases h with rfl | ⟨id, d, hexec⟩
  · rfl
  · exact (exec_effect hexec).membersKept rfl

theorem savedInvitation_told {id : Id} {i : OrganizationInvitation} {org : Organization}
    (hi : w.invitations.get? id = some i) (horg : w.organizations.get? i.organizationId = some org)
    (data : InvitationPatch) :
    ∃ v, w.savedInvitation id data = .invitation v ∧
      v.organizationId = some i.organizationId ∧ v.role = i.role := by
  refine ⟨w.invitationView id { data.apply i with updatedAt := w.now }, ?_, ?_, rfl⟩
  · simp [World.savedInvitation, hi]
  · simp [World.invitationView, InvitationView.organizationId, InvitationPatch.apply, horg]

theorem acceptInvitation_told (userId : Id) (token : Nat) :
    (acceptInvitation userId token).Ends Stmt.exec (fun r w' =>
      (∃ v id d, ∃ i : OrganizationInvitation, r = .ok (.invitation v) ∧
        v.organizationId = some i.organizationId ∧ v.role = i.role ∧
          (Stmt.invitationAccept id d i.organizationId userId i.role).exec w = .ok w') ∨
      (∃ e, r = .error e) ∧ w'.members = w.members) w := by
  refine Ends.bind (openInvitation_ends userId token) ?_
    fun e w' h => .inr ⟨⟨e, rfl⟩, h.1.members⟩
  rintro ⟨id, i⟩ w' ⟨_, h⟩
  obtain ⟨rfl, hopens⟩ := h _ rfl
  simp only [findMembership, Prog.bind_eq, ends_query_bind, ends_date_bind]
  split
  · rw [ends_execute_bind]
    split
    · rename_i w'' hexec
      exact .inr ⟨⟨_, rfl⟩, (exec_effect hexec).membersKept rfl⟩
    · exact .inr ⟨⟨_, rfl⟩, rfl⟩
  · rw [send, Prog.ends_send]
    split
    · rename_i w'' hexec
      obtain ⟨_, _, _, horg, _⟩ := invitationAccept_ok hexec
      obtain ⟨org, horg⟩ := Option.isSome_iff_exists.mp horg
      obtain ⟨v, hsaved, horgId, hrole⟩ := savedInvitation_told hopens.stored horg
        { status := .accepted, acceptedAt := some w'.now, inviteeId := some userId }
      exact .inl ⟨v, id, _, i, congrArg Except.ok hsaved, horgId, hrole, hexec⟩
    · exact .inr ⟨⟨_, rfl⟩, rfl⟩

def OrgRoute.silent : OrgRoute → Bool
  | .createOrganization .. | .transferOwnership .. | .updateMemberRole .. | .removeMember ..
  | .acceptInvitation _ => false
  | _ => true

theorem keeps_of_routine {α : Type} {p : Req α} (hp : Within [.routine] p) :
    p.Sends (fun l => l.keepsMembers = true) := by
  refine Prog.Sends.mono hp fun l hl => ?_
  cases l <;> first | rfl | cases hl

theorem tenant_keeps (orgId : Id) (roles : List OrgRole) (caller : Caller) :
    (tenantWithRole orgId roles caller).Sends (fun l => l.keepsMembers = true) :=
  .bind (keeps_of_routine (requireTenant_within orgId caller)) fun tenant =>
    .bind (keeps_of_routine (requireOrgRole_within roles tenant)) fun _ => .ret

theorem silent_keeps {route : OrgRoute} (hroute : route.silent = true) :
    (route.serve env caller).Sends (fun l => l.keepsMembers = true) := by
  cases route with
  | createOrganization name slug => cases hroute
  | transferOwnership orgId newOwnerId => cases hroute
  | updateMemberRole orgId userId role => cases hroute
  | removeMember orgId userId => cases hroute
  | acceptInvitation token => cases hroute
  | getOrganization orgId =>
    refine .bind (keeps_of_routine (requireTenant_within orgId caller)) fun _ =>
      .bind (.send rfl) fun found => ?_
    split
    · exact .throw
    · exact .ret
  | updateOrganization orgId name slug =>
    refine .bind (tenant_keeps ..) fun tenant => .bind ?_ fun conflict => ?_
    · unfold slugConflict
      split
      · exact .ret
      · split
        · exact .ret
        · exact .bind (.send rfl) fun _ => .ret
    · split
      · exact .throw
      · refine .tryCatch (.send rfl) fun err => ?_
        unfold slugTaken
        split <;> exact .throw
  | deleteOrganization orgId =>
    refine .bind (tenant_keeps ..) fun tenant => (deleteOrganization_sends tenant.id).mono ?_
    intro l hl
    cases l <;> first | rfl | cases hl
  | restoreOrganization orgId =>
    refine .bind (.bind (.send rfl) fun found => ?_) fun tenant => ?_
    · split
      · exact .ret
      · exact .throw
    · refine .bind (keeps_of_routine (requireOrgRole_within _ tenant)) fun _ =>
        .bind (.send rfl) fun found => ?_
      split
      · exact .throw
      · exact .bind (.send rfl) fun _ => .ret
  | createInvitation orgId email role =>
    exact .bind (tenant_keeps ..) fun _ =>
      createInvitation_sends (P := fun l => l.keepsMembers = true) rfl rfl (fun _ => rfl)
        (fun _ _ _ => rfl) _ _
  | cancelInvitation orgId invitationId =>
    exact .bind (tenant_keeps ..) fun _ =>
      cancelInvitation_sends (P := fun l => l.keepsMembers = true) rfl (fun _ _ _ => rfl) _ _
  | declineInvitation token =>
    exact declineInvitation_sends (P := fun l => l.keepsMembers = true) rfl (fun _ _ _ => rfl) _ _

theorem silent_rows {route : OrgRoute} (hroute : route.silent = true) (client : ClientInfo)
    (id id' : Id) (r : Except Err OrgReply) :
    ∀ e ∈ route.rows caller client id id' r, e.2.action.onMembers = false := by
  intro e he
  cases r with
  | error err => cases he
  | ok reply =>
    cases route with
    | createOrganization name slug => cases hroute
    | transferOwnership orgId newOwnerId => cases hroute
    | updateMemberRole orgId userId role => cases hroute
    | removeMember orgId userId => cases hroute
    | acceptInvitation token => cases hroute
    | _ =>
      cases reply <;> simp [OrgRoute.rows, OrgRoute.logged] at he <;>
        simp [he, AuditAction.onMembers]

theorem keepsMembers_run {α : Type} {p : Req α} (hp : p.Sends (fun l => l.keepsMembers = true))
    (w : World) : (p.run Stmt.exec w).2.members = w.members :=
  hp.run (R := fun w w' : World => w'.members = w.members) (fun _ => rfl)
    (fun _ _ _ h₁ h₂ => h₂.trans h₁)
    (fun l _ _ hl hexec => (exec_effect (l := l) hexec).membersKept hl) w

/-- What the controller logs of a route tells what the route did to the memberships. -/
theorem OrgRoute.told (hw : w.TenantsSound) (client : ClientInfo) (id id' : Id)
    (route : OrgRoute) :
    (route.serve env caller).Ends Stmt.exec
      (fun r w' => Tells (route.rows caller client id id' r) w w') w := by
  by_cases hsilent : route.silent = true
  · exact tells_of_silent (silent_rows hsilent client id id' _)
      (keepsMembers_run (silent_keeps hsilent) w)
  have hnothing : ∀ {w'} (r : Except Err OrgReply), (∃ e, r = .error e) →
      w'.members = w.members → Tells (route.rows caller client id id' r) w w' := by
    rintro w' _ ⟨e, rfl⟩ hmembers
    exact tells_of_silent (fun _ he => by cases he) hmembers
  cases route with
  | createOrganization name slug =>
    refine Prog.Ends.weaken (createOrganization_told caller.id name slug) fun r w' h => ?_
    rcases h with ⟨v, rfl, hv, hexec⟩ | ⟨herr, rfl⟩
    · intro o u
      rw [created_role hw hexec]
      simp [OrgRoute.rows, OrgRoute.logged, AuditLog.roleAfter, hv]
    · exact hnothing r herr rfl
  | transferOwnership orgId newOwnerId =>
    refine ends_tenantWithRole_bind (fun e => hnothing _ ⟨e, rfl⟩ rfl) ?_
    rintro tenant _ _ _ _ rfl _
    refine Prog.Ends.weaken (transferOwnership_told tenant.id caller.id newOwnerId)
      fun r w' h => ?_
    rcases h with ⟨a, rfl, hne, hexec⟩ | ⟨herr, rfl⟩
    · intro o u
      rw [transferred_role hne hexec]
      simp [OrgRoute.rows, OrgRoute.logged, AuditLog.roleAfter]
    · exact hnothing r herr rfl
  | updateMemberRole orgId userId role =>
    refine ends_tenantWithRole_bind (fun e => hnothing _ ⟨e, rfl⟩ rfl) ?_
    rintro tenant _ _ _ _ rfl _
    refine Prog.Ends.weaken (updateMemberRole_told tenant.id userId role) fun r w' h => ?_
    rcases h with ⟨a, k, m, rfl, hfound, hexec⟩ | ⟨herr, rfl⟩
    · intro o u
      rw [changed_role hfound hexec]
      simp [OrgRoute.rows, OrgRoute.logged, AuditLog.roleAfter, Json.field]
    · exact hnothing r herr rfl
  | removeMember orgId userId =>
    refine ends_tenantWithRole_bind (fun e => hnothing _ ⟨e, rfl⟩ rfl) ?_
    rintro tenant _ _ _ _ rfl _
    refine Prog.Ends.weaken (removeMember_told tenant.id userId) fun r w' h => ?_
    rcases h with ⟨a, k, m, rfl, hfound, hexec⟩ | ⟨herr, rfl⟩
    · intro o u
      rw [removed_role hw hfound hexec]
      simp [OrgRoute.rows, OrgRoute.logged, AuditLog.roleAfter]
    · exact hnothing r herr rfl
  | acceptInvitation token =>
    refine Prog.Ends.weaken (acceptInvitation_told caller.id token) fun r w' h => ?_
    rcases h with ⟨v, _, d, i, rfl, horg, hrole, hexec⟩ | ⟨herr, hmembers⟩
    · intro o u
      rw [joined_role hw hexec]
      simp [OrgRoute.rows, OrgRoute.logged, AuditLog.roleAfter, Json.field, horg, hrole]
    · exact hnothing r herr hmembers
  | _ => exact absurd rfl hsilent

end Routes

/-- The organization and invitation routes, account deletions, and any other handler that
touches neither a membership nor an invitation, of an organization only its Stripe customer, and
no entry on them. -/
inductive TrailRequest where
  | org (header : AuthHeader) (client : ClientInfo) (id id' : Id) (route : OrgRoute)
  | deleteAccount (header : AuthHeader) (client : ClientInfo) (id : Id) (password : String)
  | other (p : Act Unit) (apart : p.Sends (fun l => l.leavesTrail = true))

def TrailRequest.prog (env : Env) : TrailRequest → Act Unit
  | .org header client id id' route =>
    (route.control env header client id id').bind fun _ => .ret ()
  | .deleteAccount header client id password =>
    (deleteAccountRoute env header client id password).bind fun _ => .ret ()
  | .other p _ => p

def TrailRequest.Allowed (b : Backend) : TrailRequest → Prop
  | .org _ _ id id' _ => b.auditLogs.get? id = none ∧ b.auditLogs.get? id' = none ∧ id ≠ id'
  | .deleteAccount _ _ id _ => b.auditLogs.get? id = none
  | .other _ _ => True

abbrev TrailEntry := Entry TrailRequest Backend Err Unit

abbrev TrailHistory (env : Env) : Backend → List TrailEntry → Backend → Prop :=
  Steps (Served BackendStmt.exec (TrailRequest.prog env) TrailRequest.Allowed)

structure Backend.Trailed (b : Backend) : Prop where
  sound : b.world.TenantsSound
  owners : b.world.Owners
  replayed : b.Replayed

section Others

variable {b b' : Backend} {l : BackendStmt}

theorem core_auditLogs {l : Stmt} (hl : l.deletesUser = false)
    (h : (BackendStmt.core l).exec b = .ok b') : b'.auditLogs = b.auditLogs := by
  simp only [BackendStmt.exec] at h
  split at h
  · cases h
  · cases h
    rw [cascade_spared hl]

theorem Backend.Replayed.append {logs : Table AuditLog} {id : Id} {a : AuditLog}
    (hlogs : logs.rows = b.auditLogs.rows ++ [(id, a)]) (hb : b.Replayed)
    (ha : a.action.onMembers = false) : Backend.Replayed { b with auditLogs := logs } := by
  intro o u
  rw [← hb o u]
  simp only [hlogs, List.map_append, List.map_cons, List.map_nil, replay_append]
  exact AuditLog.roleAfter_other _ ha

theorem World.Owners.congr {w w' : World} (ho : w.Owners)
    (horgs : w'.organizations = w.organizations) (hmembers : w'.members = w.members) :
    w'.Owners := by
  intro o org horg
  rw [horgs] at horg
  obtain ⟨k, hk⟩ := ho o org horg
  exact ⟨k, by rw [horgs]; exact hk.org, by rw [hmembers]; exact hk.member,
    by rw [hmembers]; exact hk.sole⟩

theorem Backend.Trailed.same (hb : b.Trailed)
    (hworld : ∃ events, b'.world = { b.world with processedWebhookEvents := events })
    (hlogs : b'.auditLogs = b.auditLogs) : b'.Trailed := by
  obtain ⟨events, hworld⟩ := hworld
  refine ⟨?_, ?_, ?_⟩
  · rw [hworld]
    exact ⟨hb.sound.orgs, hb.sound.keys, hb.sound.drawn, hb.sound.unique, hb.sound.invited⟩
  · exact hb.owners.congr (by rw [hworld]) (by rw [hworld])
  · intro o u
    rw [hworld, hlogs]
    exact hb.replayed o u

theorem Backend.Trailed.core {l : Stmt} (hb : b.Trailed)
    (hl : [Area.routine, .kill, .signIn, .challenge].contains l.area = true)
    (h : (BackendStmt.core l).exec b = .ok b') : b'.Trailed := by
  have hexec := core_world h
  have hareas : [Area.routine, .kill, .signIn, .challenge] ⊆
      [.routine, .kill, .signIn, .challenge, .tenant] := by decide
  have hleaves : l.leavesMembers = true :=
    List.contains_iff_mem.mpr (hareas (List.contains_iff_mem.mp hl))
  have hwrites : (TenancyRequest.deleteAccount .missing "").Writes [] l := .leaves hleaves
  have hproper := hwrites.proper fun _ he => by cases he
  have hkeeps : l.keepsMembers = true := by cases l <;> first | rfl | cases hl
  have hlogs : b'.auditLogs = b.auditLogs :=
    core_auditLogs (by cases l <;> first | rfl | cases hl) h
  refine ⟨hb.sound.exec hproper hexec, hb.owners.exec hb.sound hproper
    (hwrites.keepsOwner hb.owners fun _ _ he => by cases he) hexec, fun o u => ?_⟩
  rw [hlogs, (exec_effect hexec).membersKept hkeeps]
  exact hb.replayed o u

theorem Backend.Trailed.exec (hb : b.Trailed) (hl : l.leavesTrail = true)
    (h : l.exec b = .ok b') : b'.Trailed := by
  cases l with
  | core l => exact hb.core hl h
  | auditCleanup before => cases hl
  | auditCreate id row =>
    obtain ⟨hid, _, _, rfl⟩ := insertNamed_ok (f := fun t => { b with auditLogs := t }) h
    refine ⟨hb.sound, hb.owners, hb.replayed.append (Table.insert_rows _ hid) ?_⟩
    simpa [BackendStmt.leavesTrail] using hl
  | preferenceUpsert id userId d =>
    refine hb.same ?_ ?_
    · rcases exec_world h with ⟨_, hcore, _⟩ | hsame
      · cases hcore
      · exact hsame
    · simp only [BackendStmt.exec] at h
      split at h
      · cases h
        rfl
      · obtain ⟨_, _, _, rfl⟩ :=
          insertNamed_ok (f := fun t => { b with notificationPreferences := t }) h
        rfl
  | _ =>
    refine hb.same ?_ ?_
    · rcases exec_world h with ⟨_, hcore, _⟩ | hsame
      · cases hcore
      · exact hsame
    · simp only [BackendStmt.exec, insertNamed] at h
      repeat' split at h
      all_goals first | cases h; rfl | cases h

end Others

section Logging

variable {b : Backend}

def stamped (now : Time) (rows : List (Id × AuditLog)) : List (Id × AuditLog) :=
  rows.map (fun e => (e.1, { e.2 with createdAt := now }))

theorem auditAll_run {rows : List (Id × AuditLog)} (hnew : ∀ e ∈ rows, b.auditLogs.get? e.1 = none)
    (hdistinct : (rows.map Prod.fst).Nodup)
    (husers : ∀ e ∈ rows, e.2.userId.all b.world.hasUser = true) :
    ∃ logs, (auditAll rows).run BackendStmt.exec b = (.ok (), { b with auditLogs := logs }) ∧
      logs.rows = b.auditLogs.rows ++ stamped b.world.now rows := by
  induction rows generalizing b with
  | nil => exact ⟨b.auditLogs, rfl, (List.append_nil _).symm⟩
  | cons e rest ih =>
    obtain ⟨id, row⟩ := e
    have hid : b.auditLogs.get? id = none := hnew _ List.mem_cons_self
    have huser : row.userId.all b.world.hasUser = true := husers _ List.mem_cons_self
    simp only [List.map_cons, List.nodup_cons] at hdistinct
    have hrest : ∀ e ∈ rest,
        (b.auditLogs.insert id { row with createdAt := b.world.now }).get? e.1 = none := by
      intro e he
      have hne : e.1 ≠ id := fun heq => hdistinct.1 (heq ▸ List.mem_map_of_mem he)
      rw [Table.get?_insert _ hid, if_neg hne]
      exact hnew e (List.mem_cons_of_mem _ he)
    obtain ⟨logs, hrun, hlogs⟩ := ih (b := { b with
        auditLogs := b.auditLogs.insert id { row with createdAt := b.world.now } })
      hrest hdistinct.2 fun e he => husers e (List.mem_cons_of_mem _ he)
    refine ⟨logs, ?_, ?_⟩
    · simp only [auditAll, Prog.bind_eq, Prog.run_bind, auditLog_run hid huser, hrun]
    · rw [hlogs, Table.insert_rows _ hid, List.append_assoc]
      rfl

theorem replay_stamped (o u : Id) (now : Time) (logs : List AuditLog)
    (rows : List (Id × AuditLog)) :
    replay o u (logs ++ (stamped now rows).map Prod.snd) =
      rows.foldl (fun role e => e.2.roleAfter o u role) (replay o u logs) := by
  simp only [replay, stamped, List.foldl_append, List.foldl_map, List.map_map,
    Function.comp_apply]
  rfl

theorem Backend.Replayed.tells {w' : World} {rows : List (Id × AuditLog)} {logs : Table AuditLog}
    {now : Time} (hb : b.Replayed) (htells : Tells rows b.world w')
    (hlogs : logs.rows = b.auditLogs.rows ++ stamped now rows) :
    Backend.Replayed { b with world := w', auditLogs := logs } := by
  intro o u
  simp only [hlogs, List.map_append]
  rw [replay_stamped, hb o u, htells o u]

end Logging

section Routes

variable {env : Env} {b : Backend}

theorem rows_users {caller : Caller} {client : ClientInfo} {id id' : Id} {route : OrgRoute}
    {r : Except Err OrgReply} :
    ∀ e ∈ route.rows caller client id id' r, e.2.userId = some caller.id := by
  intro e he
  cases r with
  | error err => cases he
  | ok reply =>
    cases route <;> cases reply <;> simp [OrgRoute.rows, OrgRoute.logged] at he <;>
      rcases he with rfl | rfl <;> rfl

theorem rows_ids {caller : Caller} {client : ClientInfo} {id id' : Id} {route : OrgRoute}
    {r : Except Err OrgReply} :
    ((route.rows caller client id id' r).map Prod.fst).Sublist [id, id'] := by
  cases r with
  | error err => simp [OrgRoute.rows]
  | ok reply => cases route <;> cases reply <;> simp [OrgRoute.rows, OrgRoute.logged]

theorem spared_of_keeps {α : Type} {p : Req α} (hp : p.Sends (fun l => l.keepsMembers = true)) :
    p.Sends (fun l => l.deletesUser = false) :=
  hp.mono fun l hl => by cases l <;> first | rfl | cases hl

theorem spared_of_within {α : Type} {p : Req α} (hp : Within [.routine, .tenant] p) :
    p.Sends (fun l => l.deletesUser = false) :=
  Prog.Sends.mono hp fun l hl => by cases l <;> first | rfl | cases hl

theorem serve_spares (caller : Caller) (route : OrgRoute) :
    (route.serve env caller).Sends (fun l => l.deletesUser = false) := by
  have htenant : ∀ orgId roles, (tenantWithRole orgId roles caller).Sends
      (fun l => l.deletesUser = false) := fun _ _ => spared_of_within (tenantWithRole_within ..)
  cases route with
  | createOrganization name slug => exact spared_of_within (createOrganization_within ..)
  | transferOwnership orgId newOwnerId =>
    refine .bind (htenant ..) fun tenant => ?_
    unfold SaasBackend.transferOwnership
    split
    · exact .throw
    · refine .bind (.send rfl) fun found => ?_
      split
      · exact .throw
      · exact .send rfl
  | updateMemberRole orgId userId role =>
    refine .bind (htenant ..) fun tenant => .bind (.send rfl) fun found => ?_
    split
    · exact .throw
    · split
      · exact .throw
      · exact .send rfl
  | removeMember orgId userId =>
    refine .bind (htenant ..) fun tenant => .bind (.send rfl) fun found => ?_
    split
    · exact .throw
    · split
      · exact .throw
      · exact .bind (.send rfl) fun _ => .ret
  | acceptInvitation token =>
    exact acceptInvitation_sends (P := fun l => l.deletesUser = false) rfl (fun _ _ _ => rfl)
      (fun _ _ _ _ _ _ => rfl) _ _
  | _ => exact spared_of_keeps (silent_keeps rfl)

theorem users_run {α : Type} {p : Req α} (hp : p.Sends (fun l => l.deletesUser = false))
    (w : World) : w.users.Kept (p.run Stmt.exec w).2.users :=
  hp.run (R := fun w w' : World => w.users.Kept w'.users) (fun w => .refl w.users)
    (fun _ _ _ h₁ h₂ i hi => h₂ i (h₁ i hi))
    (fun l _ _ hl hexec => users_kept (exec_effect (l := l) hexec) fun id heq => by
      subst heq
      cases hl) w

theorem authenticated_user {header : AuthHeader} {w : World} {caller : Caller}
    (hok : ((authenticate header).runs w).1 = .ok caller) : w.hasUser caller.id = true := by
  have hbearer : header.bearerId = some caller.id := (authenticate_returns header).run hok
  cases hu : w.users.get? caller.id with
  | some x => simp [World.hasUser, hu]
  | none =>
    obtain ⟨key, hrefused⟩ := authenticate_gone hbearer hu
    rw [hok] at hrefused
    cases hrefused

theorem request_run {α : Type} (header : AuthHeader) (k : Caller → Req α) (w : World) :
    ((authenticate header).bind k).run Stmt.exec w =
      match ((authenticate header).runs w).1 with
      | .ok caller => (k caller).run Stmt.exec w
      | .error e => (.error e, w) := by
  have hsame := runs_of_reads (authenticate_reads header) w
  unfold Req.runs at hsame ⊢
  rw [Prog.run_bind]
  cases hauth : (authenticate header).run Stmt.exec w with
  | mk r w' =>
    rw [hauth] at hsame
    subst hsame
    cases r <;> rfl

theorem control_run {header : AuthHeader} {client : ClientInfo} {id id' : Id} {route : OrgRoute}
    (hb : b.Trailed) (hnew : TrailRequest.Allowed b (.org header client id id' route)) :
    Backend.Replayed ((route.control env header client id id').run BackendStmt.exec b).2 ∧
      ((route.control env header client id id').run BackendStmt.exec b).2.world =
        ((route.handle env header).run Stmt.exec b.world).2 := by
  simp only [OrgRoute.handle, OrgRoute.control, Prog.bind_eq, request_run, run_authenticated]
  cases hauth : ((authenticate header).runs b.world).1 with
  | error e => exact ⟨hb.replayed, rfl⟩
  | ok caller =>
    have htold : Tells (route.rows caller client id id'
        ((route.serve env caller).run Stmt.exec b.world).1) b.world
        ((route.serve env caller).run Stmt.exec b.world).2 :=
      OrgRoute.told hb.sound client id id' route
    have hspares : (route.serve env caller).Sends (fun l => l.deletesUser = false) :=
      serve_spares caller route
    have huser := users_run hspares b.world caller.id (authenticated_user hauth)
    dsimp only
    rw [Prog.run_bind, run_lift_tables hspares]
    cases hserved : (route.serve env caller).run Stmt.exec b.world with
    | mk r w' =>
      rw [hserved] at htold huser
      cases r with
      | error e =>
        have hrows : b.auditLogs.rows = b.auditLogs.rows ++ stamped 0 [] :=
          (List.append_nil _).symm
        exact ⟨hb.replayed.tells htold hrows, rfl⟩
      | ok data =>
        obtain ⟨hid, hid', hne⟩ := hnew
        have hids : ((route.rows caller client id id' (.ok data)).map Prod.fst).Sublist
          [id, id'] := rows_ids
        have hunused : ∀ e ∈ route.logged caller client id id' data,
            b.auditLogs.get? e.1 = none := by
          intro e he
          have hmem := hids.subset (List.mem_map_of_mem he)
          simp only [List.mem_cons, List.not_mem_nil, or_false] at hmem
          rcases hmem with heq | heq
          · rw [heq, hid]
          · rw [heq, hid']
        have hdistinct := hids.nodup (by simpa using hne)
        have husers : ∀ e ∈ route.logged caller client id id' data,
            e.2.userId.all w'.hasUser = true := by
          intro e he
          rw [rows_users (r := .ok data) e he]
          exact huser
        obtain ⟨logs, hrun, hlogs⟩ :=
          auditAll_run (b := { b with world := w' }) hunused hdistinct husers
        dsimp only
        rw [Prog.run_bind, hrun]
        exact ⟨hb.replayed.tells htold hlogs, rfl⟩

end Routes

section Deletions

variable {env : Env} {b b' : Backend} {u : Id}

theorem deleteAccount_told (password : String) (w : World) :
    (deleteAccount env u password).Ends Stmt.exec (fun r w' =>
      (∃ a, r = .ok a ∧ w.blockingOrgs u = [] ∧
        ∃ stripe, w' = ({ w with stripe } : World).deleteUser u) ∨
      (∃ e, r = .error e) ∧ ∃ stripe, w' = { w with stripe }) w := by
  unfold deleteAccount
  simp only [Prog.bind_eq, findUserById, ends_query_bind]
  split
  · exact .inr ⟨⟨_, rfl⟩, w.stripe, rfl⟩
  · split
    · exact .inr ⟨⟨_, rfl⟩, w.stripe, rfl⟩
    · simp only [comparePassword, send]
      rw [Prog.ends_bind, Prog.ends_send]
      simp only [Stmt.exec]
      split
      · exact .inr ⟨⟨_, rfl⟩, w.stripe, rfl⟩
      · rw [Prog.ends_bind]
        refine Prog.Ends.weaken (lastAdmin_ends _) fun last w' h => ?_
        subst h
        cases last with
        | error e => exact .inr ⟨⟨_, rfl⟩, w'.stripe, rfl⟩
        | ok last =>
          dsimp only
          split
          · exact .inr ⟨⟨_, rfl⟩, w'.stripe, rfl⟩
          · simp only [ends_query_bind]
            split
            · exact .inr ⟨⟨_, rfl⟩, w'.stripe, rfl⟩
            · rename_i hblocking
              rw [Prog.ends_bind]
              refine Prog.Ends.weaken (cancellations_ends u env.stripeConfigured w')
                fun r w₁ h => ?_
              obtain ⟨stripe, rfl⟩ := h
              cases r with
              | error e => exact .inr ⟨⟨_, rfl⟩, stripe, rfl⟩
              | ok _ =>
                simp only [ends_execute_bind, Stmt.exec]
                cases hexec : World.require w'.users u
                  (({ w' with stripe } : World).deleteUser u) with
                | error e => exact .inr ⟨⟨_, rfl⟩, stripe, rfl⟩
                | ok w₂ =>
                  exact .inl ⟨_, rfl, by simpa using hblocking, stripe, (require_ok hexec).1⟩

def unnamed (u : Id) (logs : Table AuditLog) : Table AuditLog :=
  logs.updateWhere (fun _ a => a.userId == some u) (fun a => { a with userId := none })

theorem unnamed_rows (u : Id) (logs : Table AuditLog) :
    (unnamed u logs).rows.map Prod.snd = (logs.rows.map Prod.snd).map (·.unname u) := by
  simp only [unnamed, Table.updateWhere, Table.mapRows, Option.map_some,
    List.filterMap_eq_map', List.map_map]
  rfl

theorem unnamed_again (u : Id) (logs : Table AuditLog) :
    unnamed u (unnamed u logs) = unnamed u logs := by
  refine Table.updateWhere_eq_self.mpr fun k a hk hname => ?_
  simp only [unnamed, Table.get?_updateWhere, Option.map_eq_some_iff] at hk
  obtain ⟨a₀, _, rfl⟩ := hk
  split at hname
  · simp at hname
  · rename_i hnot
    exact absurd hname hnot

/-- A deletion of user `u` and what comes before: either the user is still there, or the
name is gone. -/
def Unnames (u : Id) (b b' : Backend) : Prop :=
  (b'.world.users = b.world.users ∧ b'.auditLogs = b.auditLogs) ∨
    (b'.world.users.get? u = none ∧ b'.auditLogs = unnamed u b.auditLogs)

theorem Unnames.trans {b₁ b₂ b₃ : Backend} (h₁ : Unnames u b₁ b₂) (h₂ : Unnames u b₂ b₃) :
    Unnames u b₁ b₃ := by
  rcases h₁ with ⟨husers, hlogs⟩ | ⟨hgone, hlogs⟩
  · rcases h₂ with ⟨husers', hlogs'⟩ | ⟨hgone', hlogs'⟩
    · exact .inl ⟨husers'.trans husers, hlogs'.trans hlogs⟩
    · exact .inr ⟨hgone', by rw [hlogs', hlogs]⟩
  · rcases h₂ with ⟨husers', hlogs'⟩ | ⟨hgone', hlogs'⟩
    · exact .inr ⟨by rw [husers', hgone], by rw [hlogs', hlogs]⟩
    · exact .inr ⟨hgone', by rw [hlogs', hlogs, unnamed_again]⟩

theorem deleteAccount_unnames (password : String) (b : Backend) :
    Unnames u b ((deleteAccount env u password).lift.run BackendStmt.exec b).2 := by
  have hsends : (deleteAccount env u password).lift.Sends (fun l : BackendStmt =>
      ∃ l₀, l = .core l₀ ∧ l₀.ofDeletion u = true) :=
    (deleteAccount_calls u password).embed fun l hl => ⟨l, rfl, hl⟩
  refine hsends.run (R := Unnames u) (fun _ => .inl ⟨rfl, rfl⟩) (fun _ _ _ => Unnames.trans) ?_ b
  rintro _ b b' ⟨l, rfl, hl⟩ h
  have husers := (exec_effect (core_world h)).users
  by_cases hdel : l.deletesUser = true
  · cases l with
    | userDelete id =>
      obtain rfl : id = u := beq_iff_eq.mp hl
      refine .inr ⟨by rw [husers]; simp [Stmt.usersAfter], ?_⟩
      simp only [BackendStmt.exec] at h
      split at h <;> cases h
      rfl
    | _ => cases hdel
  · have hspared : l.deletesUser = false := by simpa using hdel
    refine .inl ⟨?_, core_auditLogs hspared h⟩
    rw [husers]
    cases l <;> first | rfl | cases hl | cases hspared

theorem deleted_role {w : World} (hw : w.Owners) (hblocking : w.blockingOrgs u = []) (o v : Id) :
    roleOf (w.deleteUser u).members o v =
      if u = v then none else roleOf w.members o v := by
  split
  · rename_i huv
    subst huv
    exact roleOf_erased fun k m _ _ hm => by simp [hm]
  · rename_i hne
    refine roleOf_eraseWhere fun k m hk hmo hmv => ?_
    have hmu : m.userId ≠ u := fun heq => hne (heq.symm.trans hmv)
    have hspared : w.cascadesOrg u m.organizationId = false := by
      cases horg : w.organizations.get? m.organizationId with
      | none => simp [World.cascadesOrg, horg]
      | some org =>
        have howner := hw.unblocked horg ⟨k, m, hk, rfl, hmu⟩ hblocking
        simp [World.cascadesOrg, horg, howner]
    simp [hmu, hspared]

theorem deletion_run {header : AuthHeader} {client : ClientInfo} {id : Id} {password : String}
    (hb : b.Trailed) (hnew : b.auditLogs.get? id = none) :
    Backend.Replayed
        ((deleteAccountRoute env header client id password).run BackendStmt.exec b).2 ∧
      ((deleteAccountRoute env header client id password).run BackendStmt.exec b).2.world =
        (((TenancyRequest.deleteAccount header password).prog env).run Stmt.exec b.world).2 := by
  simp only [deleteAccountRoute, TenancyRequest.prog, Prog.bind_eq, request_run, run_authenticated]
  cases hauth : ((authenticate header).runs b.world).1 with
  | error e => exact ⟨hb.replayed, rfl⟩
  | ok caller =>
    have huser := authenticated_user hauth
    have hunnames : Unnames caller.id b
        ((deleteAccount env caller.id password).lift.run BackendStmt.exec b).2 :=
      deleteAccount_unnames password b
    have hworld := Prog.run_embed exec_core (deleteAccount env caller.id password) b
    have htold : (deleteAccount env caller.id password).Ends Stmt.exec _ b.world :=
      deleteAccount_told password b.world
    dsimp only
    rw [Prog.run_bind, Prog.run_unit]
    cases hserved : (deleteAccount env caller.id password).lift.run BackendStmt.exec b with
    | mk r b' =>
      unfold Req.lift at hserved hunnames
      rw [hserved] at hunnames hworld
      unfold Prog.Ends at htold
      rw [← hworld.1, ← hworld.2] at htold
      rcases htold with ⟨data, rfl, hblocking, stripe, hend⟩ | ⟨⟨e, rfl⟩, stripe, hend⟩
      · have hlogs : b'.auditLogs = unnamed caller.id b.auditLogs := by
          rcases hunnames with ⟨husers, _⟩ | ⟨_, hlogs⟩
          · rw [World.hasUser, ← husers, hend] at huser
            simp [World.deleteUser] at huser
          · exact hlogs
        have hid : b'.auditLogs.get? id = none := by
          rw [hlogs]
          simp [unnamed, hnew]
        dsimp only
        rw [Prog.run_bind, auditLog_run hid rfl]
        refine ⟨fun o v => ?_, hworld.2⟩
        simp only [Prog.pure_eq, Prog.run_ret, Table.insert_rows _ hid, List.map_append,
          List.map_cons, List.map_nil, replay_append]
        rw [hlogs, unnamed_rows, hend]
        rw [deleted_role (w := { b.world with stripe }) (hb.owners.congr rfl rfl) hblocking]
        by_cases hv : caller.id = v
        · simp [AuditLog.roleAfter, hv]
        · rw [replay_unname (Ne.symm hv)]
          simp [AuditLog.roleAfter, hv, hb.replayed o v]
      · have hlogs : b'.auditLogs = b.auditLogs := by
          rcases hunnames with ⟨_, hlogs⟩ | ⟨hgone, _⟩
          · exact hlogs
          · rw [hend] at hgone
            simp [World.hasUser, hgone] at huser
        refine ⟨fun o v => ?_, hworld.2⟩
        dsimp only
        rw [hlogs, hend]
        exact hb.replayed o v

end Deletions

section History

variable {env : Env} {b : Backend}

theorem Backend.Trailed.trailed_by {r : TrailRequest} (hb : b.Trailed) (hr : r.Allowed b) :
    ((r.prog env).run BackendStmt.exec b).2.Trailed := by
  cases r with
  | other p apart =>
    exact apart.run (R := fun b b' : Backend => b.Trailed → b'.Trailed) (fun _ h => h)
      (fun _ _ _ h₁ h₂ h => h₂ (h₁ h)) (fun _ _ _ hl hexec h => h.exec hl hexec) b hb
  | org header client id id' route =>
    simp only [TrailRequest.prog, Prog.run_unit]
    obtain ⟨hreplayed, hworld⟩ := @control_run env b header client id id' route hb hr
    have hkept := @TenancyRequest.keepsOwners env (.org header route) _ hb.sound hb.owners
    simp only [TenancyRequest.prog, Prog.run_unit, ← hworld] at hkept
    exact ⟨hkept.1, hkept.2, hreplayed⟩
  | deleteAccount header client id password =>
    simp only [TrailRequest.prog, Prog.run_unit]
    obtain ⟨hreplayed, hworld⟩ := @deletion_run env b header client id password hb hr
    have hkept := @TenancyRequest.keepsOwners env (.deleteAccount header password) _
      hb.sound hb.owners
    rw [← hworld] at hkept
    exact ⟨hkept.1, hkept.2, hreplayed⟩

end History

/-- In every run of whole requests the audit log, read from its oldest entry on, gives for
every organization and every user the membership that is stored, and its role. -/
theorem memberships_replayed (env : Env) {b₀ b : Backend} {h : List TrailEntry}
    (hb₀ : b₀.Trailed) (hrun : TrailHistory env b₀ h b) : b.Replayed :=
  (Served.related (R := fun b b' : Backend => b.Trailed → b'.Trailed) (fun _ h => h)
    (fun _ _ _ h₁ h₂ h => h₂ (h₁ h)) (fun _ _ hr hb => hb.trailed_by hr) hrun hb₀).replayed

section Sample

def foundersBackend : Backend where
  world := {
    users := ((∅ : Table User).insert 1 { email := "a@x.io" }).insert 2
      { email := "b@x.io", password := some "pw", emailVerified := true }
    nonce := 3 }

theorem foundersBackend_trailed : foundersBackend.Trailed where
  sound := ⟨Table.bounded_of_all rfl, Table.bounded_of_all rfl, fun _ _ h => (by cases h),
    fun _ _ _ _ h => (by cases h), fun _ _ h => (by cases h)⟩
  owners := fun _ _ h => (by cases h)
  replayed := fun _ _ => rfl

def chronicled : List TrailRequest :=
  [.org (bearer 1 "a@x.io") {} 30 31 (.createOrganization "Acme" "acme"),
    .org (bearer 1 "a@x.io") {} 32 33
      (.createInvitation 3 "b@x.io" ⟨.member, OrgRole.member_ne_owner⟩),
    .org (bearer 2 "b@x.io") {} 34 35 (.acceptInvitation 5),
    .org (bearer 1 "a@x.io") {} 36 37 (.updateMemberRole 3 2 ⟨.admin, by decide⟩),
    .deleteAccount (bearer 2 "b@x.io") {} 38 "pw"]

def chronicle : List TrailEntry × Backend :=
  serveAll BackendStmt.exec (TrailRequest.prog sampleEnv) chronicled ([], foundersBackend)

theorem chronicled_admitted :
    Admitted BackendStmt.exec (TrailRequest.prog sampleEnv) TrailRequest.Allowed chronicled
      foundersBackend :=
  ⟨⟨rfl, rfl, by decide⟩, ⟨rfl, rfl, by decide⟩, ⟨rfl, rfl, by decide⟩, ⟨rfl, rfl, by decide⟩,
    rfl, trivial⟩

theorem memberships_replayed_chronicled : chronicle.2.Replayed :=
  memberships_replayed sampleEnv foundersBackend_trailed (chronicled_admitted.steps .refl)

example : chronicle.2.auditLogs.rows.map (·.2.action) =
    [.orgCreated, .memberInvited, .invitationAccepted, .memberAdded, .memberRoleChanged,
      .userDataDeleted] := by
  decide

end Sample

end SaasBackend
