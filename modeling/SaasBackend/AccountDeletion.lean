import SaasBackend.HandlerHistory
import SaasBackend.OwnershipRaces

/-! What an account deletion takes with it. The database follows the foreign keys; the
guard of gdpr.service.js counts the members of the organizations that would go. -/

set_option autoImplicit false

namespace SaasBackend
open Keyed Handler

abbrev TenancyEntry := Entry TenancyRequest World Err Unit

abbrev TenancyHistory (env : Env) : World → List TenancyEntry → World → Prop :=
  Steps (Served Stmt.exec (TenancyRequest.prog env) (fun _ _ => True))

section Owners

variable {env : Env}

theorem TenancyRequest.Writes.keepsOwner {r : TenancyRequest} {h : List (Stmt × World)}
    {l : Stmt} {w : World} (hl : r.Writes h l) (ho : w.Owners)
    (hat : (∀ e ∈ h, e.1 = .read) → ∀ e ∈ h, e.2 = w) :
    l.keepsOwner w = true := by
  cases hl with
  | leaves hleaves =>
    cases l with
    | memberDelete id => cases hleaves
    | memberUpdate id role => cases hleaves
    | transferOwnership orgId new cur => cases hleaves
    | _ => rfl
  | @transfers header orgId new cur w₁ k m _ _ _ hreads hmem hfound hrole =>
    obtain rfl : w₁ = w := hat hreads _ hmem
    cases horg : w₁.organizations.get? orgId with
    | none => simp [Stmt.keepsOwner, horg]
    | some org =>
      obtain ⟨k', hk'⟩ := ho orgId org horg
      obtain ⟨hm, hmo, hmu⟩ := membership_some hfound
      obtain ⟨m', hm', _, hmu', _⟩ := hk'.member
      have hk := hk'.sole k m hm hmo hrole
      subst hk
      rw [hm] at hm'
      cases hm'
      simp [Stmt.keepsOwner, horg, ← hmu', hmu]
  | @changes _ _ w₁ _ _ hreads hmem hm hrole =>
    obtain rfl : w₁ = w := hat hreads _ hmem
    simpa [Stmt.keepsOwner, hm] using hrole
  | @removes _ w₁ _ hreads hmem hm hrole =>
    obtain rfl : w₁ = w := hat hreads _ hmem
    simpa [Stmt.keepsOwner, hm] using hrole
  | joins => rfl
  | deletes => rfl

theorem TenancyRequest.keepsOwners (r : TenancyRequest) {w : World} (hw : w.TenantsSound)
    (ho : w.Owners) :
    (((r.prog env).run Stmt.exec w).2).TenantsSound ∧
      (((r.prog env).run Stmt.exec w).2).Owners := by
  have hfollows : Follows r (r.prog env) [] := r.follows
  have hrun := hfollows.run
    (fun h w => (w.TenantsSound ∧ w.Owners) ∧ (∀ e ∈ h, e.2.TenantsSound) ∧
      ((∀ e ∈ h, e.1 = .read) → ∀ e ∈ h, e.2 = w))
    (fun h l w w' hI hl hexec => ?_) ⟨⟨hw, ho⟩, fun _ h => (by cases h), fun _ _ h => (by cases h)⟩
  · obtain ⟨_, hend, _⟩ := hrun
    exact hend
  · obtain ⟨⟨hw, ho⟩, hread, hat⟩ := hI
    have hproper := hl.proper hread
    refine ⟨⟨hw.exec hproper hexec, ho.exec hw hproper (hl.keepsOwner ho hat) hexec⟩, ?_,
      fun hreads => ?_⟩
    · exact List.forall_mem_cons.mpr ⟨hw, hread⟩
    · obtain ⟨hread, hrest⟩ := List.forall_mem_cons.mp hreads
      simp only [] at hread
      subst hread
      cases hexec
      exact List.forall_mem_cons.mpr ⟨rfl, hat hrest⟩

theorem World.Owners.history {w₀ w : World} {h : List TenancyEntry} (hw₀ : w₀.TenantsSound)
    (ho₀ : w₀.Owners) (hrun : TenancyHistory env w₀ h w) : w.TenantsSound ∧ w.Owners :=
  Served.related (R := fun w w' : World => w.TenantsSound ∧ w.Owners → w'.TenantsSound ∧ w'.Owners)
    (fun _ => id)
    (fun _ _ _ h₁ h₂ hw => h₂ (h₁ hw)) (fun _ r _ hw => r.keepsOwners hw.1 hw.2) hrun ⟨hw₀, ho₀⟩

end Owners

section Deletion

variable {env : Env} {w w' : World} {u : Id}

theorem lastAdmin_ends (demotes : Bool) :
    (lastAdmin demotes).Ends Stmt.exec (fun _ w' => w' = w) w := by
  cases demotes <;> rfl

theorem cancellations_ends (u : Id) (c : Bool) (w : World) :
    (when c (do
      let liveSubscriptions ← query (·.subscriptionsOf u)
      cancelAtStripe liveSubscriptions)).Ends Stmt.exec (fun _ w' => ∃ stripe,
      w' = { w with stripe }) w := by
  have hcalls : (when c (do
      let liveSubscriptions ← query (·.subscriptionsOf u)
      cancelAtStripe liveSubscriptions)).Sends (fun l => l = .read ∨ ∃ sid,
      l = .stripeCancel sid) := by
    cases c
    · exact .ret
    · exact .bind (.send (.inl rfl)) fun _ => cancelAtStripe_calls _
  refine hcalls.run (R := fun w w' => ∃ stripe, w' = { w with stripe })
    (fun w => ⟨w.stripe, rfl⟩) ?_ ?_ w
  · rintro w₁ _ _ ⟨_, rfl⟩ ⟨stripe, rfl⟩
    exact ⟨stripe, rfl⟩
  · rintro _ w w' (rfl | ⟨sid, rfl⟩) hexec
    · cases hexec
      exact ⟨w.stripe, rfl⟩
    · simp only [Stmt.exec] at hexec
      split at hexec
      · cases hexec
        exact ⟨_, rfl⟩
      · cases hexec

theorem deleteAccount_ends (password : String) :
    (deleteAccount env u password).Ends Stmt.exec (fun r w' => ∀ a, r = .ok a →
      w.blockingOrgs u = [] ∧ ∃ stripe, w' = ({ w with stripe } : World).deleteUser u) w := by
  unfold deleteAccount
  simp only [Prog.bind_eq, findUserById, ends_query_bind]
  split
  · exact fun _ h => (by cases h)
  · split
    · exact fun _ h => (by cases h)
    · simp only [comparePassword, send]
      rw [Prog.ends_bind, Prog.ends_send]
      simp only [Stmt.exec]
      split
      · exact fun _ h => (by cases h)
      · rw [Prog.ends_bind]
        refine Prog.Ends.weaken (lastAdmin_ends _) fun last w' h => ?_
        subst h
        cases last with
        | error e => exact fun _ h => (by cases h)
        | ok last =>
          simp only []
          split
          · exact fun _ h => (by cases h)
          · simp only [ends_query_bind]
            split
            · exact fun _ h => (by cases h)
            · rename_i hblocking
              rw [Prog.ends_bind]
              refine Prog.Ends.weaken (cancellations_ends u env.stripeConfigured w') fun r w₁ h =>
                ?_
              obtain ⟨stripe, rfl⟩ := h
              cases r with
              | error e => exact fun _ h => (by cases h)
              | ok _ =>
                simp only [ends_execute_bind, Stmt.exec]
                cases hexec : World.require w'.users u
                  (({ w' with stripe } : World).deleteUser u) with
                | error e => exact fun _ h => (by cases h)
                | ok w₂ => exact fun _ _ => ⟨by simpa using hblocking, stripe, (require_ok hexec).1⟩

/-- What organization `o` keeps when user `u` is deleted: itself, the memberships of the
others, the projects that others created, the invitations that others sent, with `u` no
longer their invitee, and its overrides. -/
structure World.KeepsOthers (w w' : World) (u o : Id) : Prop where
  organization : w'.organizations.get? o = w.organizations.get? o
  members : ∀ k m, m.organizationId = o → m.userId ≠ u →
    (w'.members.get? k = some m ↔ w.members.get? k = some m)
  projects : ∀ k p, p.organizationId = o → p.createdById ≠ u →
    (w'.projects.get? k = some p ↔ w.projects.get? k = some p)
  invitations : ∀ k i, w.invitations.get? k = some i → i.organizationId = o → i.inviterId ≠ u →
    w'.invitations.get? k =
      some { i with inviteeId := if i.inviteeId = some u then none else i.inviteeId }
  featureFlagOverrides : ∀ k f, f.organizationId = o →
    (w'.featureFlagOverrides.get? k = some f ↔ w.featureFlagOverrides.get? k = some f)

theorem deleteUser_keepsOthers {o : Id} {org : Organization}
    (ho : w.organizations.get? o = some org) (howner : org.ownerId ≠ u) :
    w.KeepsOthers (w.deleteUser u) u o := by
  have hstays : w.cascadesOrg u o = false := by simp [World.cascadesOrg, ho, howner]
  refine ⟨by simp [World.deleteUser, ho, howner], fun k m hmo hmu => ?_, fun k p hpo hpu => ?_,
    fun k i hk hio hiu => ?_, fun k f hfo => ?_⟩
  · rw [World.deleteUser, Table.get?_eraseWhere_eq_some]
    simp [hmo, hmu, hstays]
  · rw [World.deleteUser, Table.get?_eraseWhere_eq_some]
    simp [hpo, hpu, hstays]
  · simp [World.deleteUser, hk, hio, hiu, hstays]
  · rw [World.deleteUser, Table.get?_eraseWhere_eq_some]
    simp [hfo, hstays]

theorem memberCount_of_two {o k k' : Id} {m m' : OrganizationMember}
    (hk : w.members.get? k = some m) (hk' : w.members.get? k' = some m') (hne : k ≠ k')
    (ho : m.organizationId = o) (ho' : m'.organizationId = o) :
    1 < w.memberCount o := by
  have hmem : (k, m) ∈ w.members.filter (fun _ m => m.organizationId == o) :=
    Table.mem_filter.mpr ⟨hk, by simpa using ho⟩
  have hmem' : (k', m') ∈ w.members.filter (fun _ m => m.organizationId == o) :=
    Table.mem_filter.mpr ⟨hk', by simpa using ho'⟩
  unfold World.memberCount
  generalize w.members.filter (fun _ m => m.organizationId == o) = rows at hmem hmem'
  match rows with
  | [] => cases hmem
  | [x] =>
    rw [List.mem_singleton] at hmem hmem'
    cases hmem
    cases hmem'
    exact absurd rfl hne
  | _ :: _ :: _ => simp

theorem World.Owners.unblocked {o : Id} {org : Organization} (ho : w.Owners)
    (horg : w.organizations.get? o = some org)
    (hshared : ∃ k m, w.members.get? k = some m ∧ m.organizationId = o ∧ m.userId ≠ u)
    (hblocking : w.blockingOrgs u = []) : org.ownerId ≠ u := by
  rintro rfl
  obtain ⟨k, hk⟩ := ho o org horg
  obtain ⟨m, hm, hmo, hmu, _⟩ := hk.member
  obtain ⟨k', m', hm', hmo', hmu'⟩ := hshared
  have hne : k ≠ k' := by
    rintro rfl
    rw [hm] at hm'
    cases hm'
    exact hmu' hmu
  have hcount := memberCount_of_two hm hm' hne hmo hmo'
  have hfound : (o, org) ∈ w.organizations.filter (fun k o => o.ownerId == org.ownerId &&
      decide (1 < w.memberCount k)) :=
    Table.mem_filter.mpr ⟨horg, by simp [hcount]⟩
  rw [List.map_eq_nil_iff.mp hblocking] at hfound
  cases hfound

end Deletion

/-- At every state that whole requests reach, an account deletion that succeeds leaves every
organization with another member, and in it all that the user has not created or sent. -/
theorem deletion_keeps_others (env : Env) {w₀ w : World} {h : List TenancyEntry}
    (hw₀ : w₀.TenantsSound) (ho₀ : w₀.Owners) (hrun : TenancyHistory env w₀ h w) {u o : Id}
    {password : String} {a : String × String}
    (hok : ((deleteAccount env u password).runs w).1 = .ok a) {org : Organization}
    (horg : w.organizations.get? o = some org)
    (hshared : ∃ k m, w.members.get? k = some m ∧ m.organizationId = o ∧ m.userId ≠ u) :
    w.KeepsOthers ((deleteAccount env u password).runs w).2 u o := by
  obtain ⟨_, ho⟩ := World.Owners.history hw₀ ho₀ hrun
  obtain ⟨hblocking, stripe, hend⟩ :=
    (deleteAccount_ends password : (deleteAccount env u password).Ends Stmt.exec _ w) a hok
  have hkept : ({ w with stripe } : World).KeepsOthers
      (({ w with stripe } : World).deleteUser u) u o :=
    deleteUser_keepsOthers horg (ho.unblocked horg hshared hblocking)
  rw [show ((deleteAccount env u password).runs w).2 = ({ w with stripe } : World).deleteUser
    u from hend]
  exact ⟨hkept.organization, hkept.members, hkept.projects, hkept.invitations,
    hkept.featureFlagOverrides⟩

section Sample

def staffs : List TenancyRequest :=
  [.org (bearer 2 "b@x.io") (.createInvitation 3 "c@x.io" ⟨.member, OrgRole.member_ne_owner⟩),
    .other ((ProjectRoute.handle sampleEnv (bearer 2 "b@x.io") 3
      (.createProject "Launch" none)).bind fun _ => .ret ())
      ((Within.mono (projectRoute_within ..) (by decide)).bind fun _ => .ret)]

def staffed : List TenancyEntry × World :=
  serveAll Stmt.exec (TenancyRequest.prog sampleEnv) staffs ([], sharedWorld)

theorem staffed_history : TenancyHistory sampleEnv sharedWorld staffed.1 staffed.2 :=
  serveAll_steps staffs (fun _ _ _ => trivial) [] .refl

theorem staffed_shared :
    ∃ k m, staffed.2.members.get? k = some m ∧ m.organizationId = 3 ∧ m.userId ≠ 2 :=
  ⟨4, ⟨3, 1, .owner, 0⟩, rfl, rfl, by decide⟩

theorem deletion_keeps_others_staffed :
    staffed.2.KeepsOthers ((deleteAccount sampleEnv 2 "pw").runs staffed.2).2 2 3 :=
  deletion_keeps_others sampleEnv sharedWorld_sound sharedWorld_owners staffed_history rfl rfl
    staffed_shared

/-- The project and the pending invitation go with the account. -/
theorem deletion_takes_projects :
    TenancyHistory sampleEnv sharedWorld staffed.1 staffed.2 ∧ sharedWorld.TenantsSound ∧
    sharedWorld.Owners ∧ (∃ a, ((deleteAccount sampleEnv 2 "pw").runs staffed.2).1 = .ok a) ∧
      (∃ k m, staffed.2.members.get? k = some m ∧ m.organizationId = 3 ∧ m.userId ≠ 2) ∧
      (∃ k p, staffed.2.projects.get? k = some p ∧ p.organizationId = 3 ∧
        ((deleteAccount sampleEnv 2 "pw").runs staffed.2).2.projects.get? k = none) ∧
      ∃ k i, staffed.2.invitations.get? k = some i ∧ i.organizationId = 3 ∧ i.status = .pending ∧
        ((deleteAccount sampleEnv 2 "pw").runs staffed.2).2.invitations.get? k = none :=
  ⟨staffed_history, sharedWorld_sound, sharedWorld_owners, ⟨_, rfl⟩, staffed_shared,
    ⟨8, _, rfl, rfl, rfl⟩, 7, _, rfl, rfl, rfl, rfl⟩

end Sample

end SaasBackend
