import SaasBackend.Footprints
import SaasBackend.HandlerRecall
import SaasBackend.StatementEffects

/-! What a request has read of the tenants when it writes a membership. Each write of
org.service.js comes after the reads that admit it, with nothing written in between; the
others may have written since. -/

set_option autoImplicit false

namespace SaasBackend
open Keyed Handler

def AuthHeader.bearerId : AuthHeader → Option Id
  | .bearer token => some token.id
  | _ => none

/-- The requests to the organization routes, account deletions, and any other handler: none of
those touches a membership or an invitation, and of an organization only its Stripe customer. -/
inductive TenancyRequest where
  | org (header : AuthHeader) (route : OrgRoute)
  | deleteAccount (header : AuthHeader) (password : String)
  | other (p : Req Unit) (apart : Within [.routine, .kill, .signIn, .challenge] p)

def TenancyRequest.prog (env : Env) : TenancyRequest → Req Unit
  | .org header route => (route.handle env header).bind fun _ => .ret ()
  | .deleteAccount header password => (authenticate header).bind fun caller =>
    (SaasBackend.deleteAccount env caller.id password).bind fun _ => .ret ()
  | .other p _ => p

def Stmt.leavesMembers (l : Stmt) : Bool :=
  [.routine, .kill, .signIn, .challenge, .tenant].contains l.area

inductive TenancyRequest.Writes (r : TenancyRequest) (h : List (Stmt × World)) : Stmt → Prop where
  | leaves {l : Stmt} : l.leavesMembers = true → Writes r h l
  | transfers {header : AuthHeader} {orgId new cur : Id} {w : World} {k : Id}
      {m : OrganizationMember} :
      r = .org header (.transferOwnership orgId new) → header.bearerId = some cur → new ≠ cur →
      (∀ e ∈ h, e.1 = .read) → (.read, w) ∈ h → w.membership orgId cur = some (k, m) →
      m.role = .owner → Writes r h (.transferOwnership orgId new cur)
  | changes {id : Id} {role : OrgRole} {w : World} {m : OrganizationMember} :
      role ≠ .owner → (∀ e ∈ h, e.1 = .read) → (.read, w) ∈ h → w.members.get? id = some m →
      m.role ≠ .owner → Writes r h (.memberUpdate id role)
  | removes {id : Id} {w : World} {m : OrganizationMember} :
      (∀ e ∈ h, e.1 = .read) → (.read, w) ∈ h → w.members.get? id = some m → m.role ≠ .owner →
      Writes r h (.memberDelete id)
  | joins {id orgId userId : Id} {d : InvitationPatch} {w : World} {i : OrganizationInvitation} :
      (∀ e ∈ h, e.1 = .read) → (.read, w) ∈ h → w.invitations.get? id = some i →
      Writes r h (.invitationAccept id d orgId userId i.role)
  | deletes {header : AuthHeader} {password : String} {u : Id} :
      r = .deleteAccount header password → header.bearerId = some u → Writes r h (.userDelete u)

section Guards

theorem authenticate_returns (header : AuthHeader) :
    (authenticate header).Returns (fun caller => header.bearerId = some caller.id) := by
  unfold authenticate
  split
  · exact trivial
  · exact trivial
  · rename_i token
    refine .bind fun now => ?_
    split
    · exact trivial
    · refine .bind fun found => ?_
      split
      · exact trivial
      · split
        · exact trivial
        · split
          · exact trivial
          · refine .bind fun now => ?_
            split
            · exact trivial
            · exact rfl

end Guards

section Routes

variable {α : Type} {env : Env} {r : TenancyRequest} {h : List (Stmt × World)}

/-- What the request sends from here on is accounted for by what it has read. -/
abbrev Follows (r : TenancyRequest) (p : Req α) (h : List (Stmt × World)) : Prop :=
  p.Along Stmt.exec r.Writes (fun _ _ => True) h

theorem leavesMembers_of_within {areas : List Area} {p : Req α} (hp : Within areas p)
    (hareas : areas ⊆ [.routine, .kill, .signIn, .challenge, .tenant]) :
    p.Sends (fun l => l.leavesMembers = true) :=
  hp.mono hareas

theorem follows_leaves {p : Req α} (hp : p.Sends (fun l => l.leavesMembers = true)) :
    Follows r p h :=
  .of_sends (hp.mono fun _ hl _ => .leaves hl) ((Prog.returns_true p).mono fun _ _ _ => trivial) h

theorem follows_query {β : Type} {view : World → α} {k : α → Req β}
    (hk : ∀ w, Follows r (k (view w)) ((.read, w) :: h)) : Follows r ((query view).bind k) h :=
  Prog.along_send_bind.mpr ⟨.leaves rfl, fun w _ _ => hk w⟩

theorem follows_send {l : Stmt} {view : World → α} (hl : r.Writes h l) :
    Follows r (send l view) h :=
  ⟨hl, fun _ _ _ => trivial, fun _ => trivial⟩

theorem follows_unit {p : Req α} (hp : Follows r p h) : Follows r (p.bind fun _ => .ret ()) h := by
  induction p generalizing h with
  | ret a => trivial
  | throw e => trivial
  | stmt l n c hn hc =>
    exact ⟨hp.1, fun w w' hexec => hn w (hp.2.1 w w' hexec), fun e => hc e (hp.2.2 e)⟩

/-- Only reads so far, and the tenant that the caller was admitted to among them. -/
theorem follows_tenantWithRole {β : Type} {orgId : Id} {roles : List OrgRole} {caller : Caller}
    {k : Tenant → Req β} (hk : ∀ tenant w id m, w.membership orgId caller.id = some (id, m) →
      m.role = tenant.role → tenant.id = orgId →
      roles.contains tenant.role = true → Follows r (k tenant) ((.read, w) :: h)) :
    Follows r ((tenantWithRole orgId roles caller).bind k) h := by
  simp only [tenantWithRole, requireTenant, Prog.bind_eq, Prog.bind_assoc]
  refine follows_query fun w => ?_
  split
  · rename_i tenant hfound
    simp only [World.tenant] at hfound
    obtain ⟨⟨id, m⟩, hm, hjoin⟩ := Option.bind_eq_some_iff.mp hfound
    obtain ⟨o, ho, htenant⟩ := Option.map_eq_some_iff.mp hjoin
    obtain ⟨rfl, _⟩ := Prod.mk.inj htenant
    simp only [Prog.pure_eq, Prog.ret_bind, requireOrgRole]
    split
    · rename_i hrole
      exact hk _ w id m hm rfl rfl hrole
    · trivial
  · trivial

theorem openInvitation_reads {β : Type} {userId : Id} {token : Nat}
    {k : Id × OrganizationInvitation → Req β} (hh : ∀ e ∈ h, e.1 = .read)
    (hk : ∀ id i w own, (.read, w) ∈ own → (∀ e ∈ own, e.1 = .read) →
      w.invitations.get? id = some i →
      Follows r (k (id, i)) own) : Follows r ((openInvitation userId token).bind k) h := by
  simp only [openInvitation, Prog.bind_eq, Prog.bind_assoc]
  refine follows_query fun w => ?_
  split
  · trivial
  · rename_i id i hfound
    have hi := (Table.find?_some hfound).1
    split
    · trivial
    · rw [Prog.bind_assoc]
      refine follows_query fun w₁ => ?_
      split
      · rw [Prog.bind_assoc]
        exact follows_leaves (.bind (.send rfl) fun _ => .throw)
      · rw [Prog.bind_assoc]
        refine follows_query fun w₂ => ?_
        split
        · trivial
        · exact hk id i w _ (.tail _ (.tail _ (.head _))) (by simpa using hh) hi

theorem orgRoute_follows (header : AuthHeader) (route : OrgRoute) :
    Follows (.org header route) (route.handle env header) [] := by
  refine .bind_sends (authenticate_reads header) (authenticate_returns header)
    (fun l h hl => .leaves (by rw [hl]; rfl))
    fun caller own hcaller hreads => ?_
  rw [List.append_nil]
  cases route with
  | createOrganization name slug =>
    exact follows_leaves (leavesMembers_of_within (createOrganization_within caller.id name slug)
      (by decide))
  | getOrganization orgId =>
    refine follows_leaves (.bind ?_ fun _ => .bind (.send rfl) fun found => ?_)
    · exact leavesMembers_of_within (requireTenant_within orgId caller) (by decide)
    · split
      · exact .throw
      · exact .ret
  | updateOrganization orgId name slug =>
    refine follows_leaves (.bind (leavesMembers_of_within (tenantWithRole_within ..) (by decide))
      fun _ => ?_)
    exact leavesMembers_of_within (updateOrganization_within _ name slug) (by decide)
  | deleteOrganization orgId =>
    refine follows_leaves (.bind (leavesMembers_of_within (tenantWithRole_within ..) (by decide))
      fun _ => ?_)
    exact leavesMembers_of_within (deleteOrganization_within _) (by decide)
  | restoreOrganization orgId =>
    refine follows_leaves (.bind (.bind (.send rfl) fun found => ?_) fun tenant => ?_)
    · split
      · exact .ret
      · exact .throw
    · refine .bind (leavesMembers_of_within (requireOrgRole_within _ tenant) (by decide)) fun _ =>
        .bind (.send rfl) fun found => ?_
      split
      · exact .throw
      · exact .bind (.send rfl) fun _ => .ret
  | transferOwnership orgId newOwnerId =>
    refine follows_tenantWithRole fun tenant w id m hm hrole hid howner => ?_
    simp only [SaasBackend.transferOwnership, Prog.bind_eq]
    split
    · trivial
    · rename_i hne
      refine follows_query fun w₁ => ?_
      split
      · trivial
      · refine follows_send ?_
        rw [hid]
        exact .transfers rfl hcaller hne (by simpa using hreads) (.tail _ (.head _)) hm
          (hrole.trans (by simpa using howner))
  | updateMemberRole orgId userId role =>
    refine follows_tenantWithRole fun tenant w _ _ _ _ _ _ => follows_query fun w₁ => ?_
    split
    · trivial
    · rename_i id m hfound
      split
      · trivial
      · rename_i hrole
        exact follows_send (.changes role.notOwner (by simpa using hreads) (.head _)
          (Table.find?_some hfound).1 hrole)
  | removeMember orgId userId =>
    refine follows_tenantWithRole fun tenant w _ _ _ _ _ _ => follows_query fun w₁ => ?_
    split
    · trivial
    · rename_i id m hfound
      split
      · trivial
      · rename_i hrole
        exact Prog.along_send_bind.mpr
          ⟨.removes (by simpa using hreads) (.head _) (Table.find?_some hfound).1 hrole,
          fun _ _ _ => trivial⟩
  | createInvitation orgId email role =>
    refine follows_leaves (.bind (leavesMembers_of_within (tenantWithRole_within ..) (by decide))
      fun tenant => ?_)
    exact leavesMembers_of_within (createInvitation_within tenant caller.id email role) (by decide)
  | cancelInvitation orgId invitationId =>
    refine follows_leaves (.bind (leavesMembers_of_within (tenantWithRole_within ..) (by decide))
      fun tenant =>
      .bind (.send rfl) fun found => ?_)
    split
    · exact .throw
    · split
      · exact .throw
      · exact .bind (.send rfl) fun _ => .send rfl
  | acceptInvitation token =>
    refine openInvitation_reads hreads fun id i w own hmem hown hi => ?_
    refine follows_query fun w₁ => follows_query fun w₂ => ?_
    simp only []
    split
    · exact follows_leaves (.bind (.send rfl) fun _ => .throw)
    · exact follows_send (.joins (by simpa using hown) (.tail _ (.tail _ hmem)) hi)
  | declineInvitation token =>
    exact follows_leaves
      (.bind (leavesMembers_of_within (openInvitation_within ..) (by decide)) fun _ =>
      .bind (.send rfl) fun _ => .send rfl)

theorem deleteAccount_sends (userId : Id) (password : String) :
    (deleteAccount env userId password).Sends (fun l => l.leavesMembers = true ∨
      l = .userDelete userId) := by
  refine (deleteAccount_calls userId password).mono fun l hl => ?_
  cases l with
  | read | bcryptCompare | stripeCancel => exact .inl rfl
  | userDelete id => exact .inr (congrArg _ (beq_iff_eq.mp hl))
  | _ => cases hl

theorem TenancyRequest.follows (r : TenancyRequest) : Follows r (r.prog env) [] := by
  cases r with
  | org header route => exact follows_unit (orgRoute_follows header route)
  | deleteAccount header password =>
    refine .bind_sends (authenticate_reads header) (authenticate_returns header)
      (fun l h hl => .leaves (by rw [hl]; rfl))
      fun caller own hcaller _ => follows_unit ?_
    refine .of_sends ((deleteAccount_sends caller.id password).mono fun l hl h => ?_)
      ((Prog.returns_true _).mono fun _ _ _ => trivial) _
    rcases hl with hleaves | rfl
    · exact .leaves hleaves
    · exact .deletes rfl hcaller
  | other p apart => exact follows_leaves (leavesMembers_of_within apart (by decide))

end Routes

end SaasBackend
