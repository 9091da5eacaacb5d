import SaasBackend.Ownership

set_option autoImplicit false

namespace SaasBackend
open Keyed Handler

abbrev TenancyConfig := Config TenancyRequest World Err Stmt Unit
abbrev TenancyEvent := Event TenancyRequest World Stmt

abbrev TenancyRun (env : Env) (may : TenancyRequest → Prop) (cond : World → Stmt → Prop) :
    TenancyConfig → List TenancyEvent → TenancyConfig → Prop :=
  Steps (Step Stmt.exec (TenancyRequest.prog env) may cond)

/-- Every organization has one owner membership, and it is its ownerId's. -/
def World.Owners (w : World) : Prop :=
  ∀ o org, w.organizations.get? o = some org → ∃ k, w.OwnedBy o org.ownerId k

/-- The membership to change or remove is not an owner's when it is written, and the
ownership to move is the caller's, or was moved to the same user. -/
def Stmt.keepsOwner (w : World) : Stmt → Bool
  | .memberUpdate id _ | .memberDelete id => (w.members.get? id).all (fun m => m.role != .owner)
  | .transferOwnership orgId new cur =>
    (w.organizations.get? orgId).all (fun org => org.ownerId == cur || org.ownerId == new)
  | _ => true

theorem World.Owners.exec {l : Stmt} {w w' : World} (ho : w.Owners) (hw : w.TenantsSound)
    (hl : l.proper = true) (hkeeps : l.keepsOwner w = true) (hexec : l.exec w = .ok w') :
    w'.Owners := by
  intro o org' horg'
  rcases (exec_effect hexec).organization_back horg' with ⟨org, horg, hdelete, howner⟩ | ⟨name,
    slug, rfl, rfl⟩
  · obtain ⟨k, hk⟩ := ho o org horg
    obtain ⟨m, hm, _, _, hrole⟩ := hk.member
    rw [howner]
    by_cases hmoves : ∃ new cur, l = .transferOwnership o new cur
    · obtain ⟨new, cur, rfl⟩ := hmoves
      have hcaller : org.ownerId = cur ∨ org.ownerId = new := by
        simpa [Stmt.keepsOwner, horg] using hkeeps
      simpa [Stmt.ownerAfter] using hk.transfer hw (by simpa [Stmt.proper] using hl) hcaller hexec
    · have hsame : l.ownerAfter o org.ownerId = org.ownerId := by
        unfold Stmt.ownerAfter
        split
        · rename_i orgId new cur
          exact if_neg fun heq => hmoves ⟨new, cur, by rw [heq]⟩
        · rfl
      rw [hsame]
      refine ⟨k, hk.exec hw hl ?_ hexec⟩
      cases l with
      | userDelete id => simpa [Stmt.leavesOwned] using hdelete
      | transferOwnership orgId new cur =>
        have horgId : orgId ≠ o := fun heq => hmoves ⟨new, cur, by rw [heq]⟩
        simpa [Stmt.leavesOwned] using horgId
      | memberUpdate id role | memberDelete id =>
        have hid : id ≠ k := by
          rintro rfl
          simp [Stmt.keepsOwner, hm, hrole] at hkeeps
        simpa [Stmt.leavesOwned] using hid
      | _ => rfl
  · exact ⟨w.nonce + 1, .create hw hexec⟩

theorem World.Owners.not_left {w w' : World} {id : Id} {m : OrganizationMember} (ho : w.Owners)
    (hm : w.members.get? id = some m) (hrole : m.role = .owner)
    (horg : ∃ org, w.organizations.get? m.organizationId = some org)
    (horg' : ∃ org, w'.organizations.get? m.organizationId = some org)
    (hleft : ∀ k m', w'.members.get? k = some m' → m'.role = .owner →
      k ≠ id ∧ w.members.get? k = some m') :
    ¬ w'.Owners := by
  intro ho'
  obtain ⟨org, horg⟩ := horg
  obtain ⟨org', horg'⟩ := horg'
  obtain ⟨k₀, hk₀⟩ := ho _ org horg
  obtain ⟨k, hk⟩ := ho' _ org' horg'
  obtain ⟨m', hm', hmo, _, howner⟩ := hk.member
  obtain ⟨hne, hold⟩ := hleft k m' hm' howner
  exact hne ((hk₀.sole k m' hold hmo howner).trans (hk₀.sole id m hm rfl hrole).symm)

theorem World.Owners.not_transferred {w w' : World} {orgId new cur : Id} {org : Organization}
    (ho : w.Owners) (hne : new ≠ cur) (horg : w.organizations.get? orgId = some org)
    (hcur : org.ownerId ≠ cur) (hnew : org.ownerId ≠ new)
    (hexec : (Stmt.transferOwnership orgId new cur).exec w = .ok w') : ¬ w'.Owners := by
  intro ho'
  obtain ⟨k₀, hk₀⟩ := ho orgId org horg
  obtain ⟨m₀, hm₀, hmo₀, hmu₀, hrole₀⟩ := hk₀.member
  obtain ⟨nk, nm, ck, cm, hfound, hfound', hmembers⟩ := transferOwnership_ok hexec
  obtain ⟨hnk, hno, hnu⟩ := membership_some hfound
  obtain ⟨hck, _, hcu⟩ := membership_some hfound'
  have hapart : ∀ k k' m m', w.members.get? k = some m → w.members.get? k' = some m' →
    m.userId ≠ m'.userId →
      k ≠ k' := by
    rintro k _ m m' hm hm' hmu rfl
    rw [hm] at hm'
    cases hm'
    exact hmu rfl
  have hkeys : nk ≠ ck := hapart nk ck nm cm hnk hck (by rwa [hnu, hcu])
  have hkeys₀ : k₀ ≠ nk := hapart k₀ nk m₀ nm hm₀ hnk (by rwa [hmu₀, hnu])
  have hkeys₁ : k₀ ≠ ck := hapart k₀ ck m₀ cm hm₀ hck (by rwa [hmu₀, hcu])
  have hold : w'.members.get? k₀ = some m₀ := by simp [hmembers, hkeys₀, hkeys₁, hm₀]
  have hpromoted : w'.members.get? nk = some { nm with role := .owner } := by
    simp [hmembers, hkeys, hnk]
  obtain ⟨org', horg', _⟩ := (exec_effect hexec).organization_forth horg (fun heq => (by cases heq))
  obtain ⟨k, hk⟩ := ho' orgId org' horg'
  exact hkeys₀ ((hk.sole k₀ m₀ hold hmo₀ hrole₀).trans (hk.sole nk _ hpromoted hno rfl).symm)

/-- A statement that the check would have stopped leaves an organization without its one owner. -/
theorem World.Owners.broken {l : Stmt} {w w' : World} (ho : w.Owners) (hl : l.proper = true)
    (hattached : ∀ k m, w.members.get? k = some m → ∃ org,
      w.organizations.get? m.organizationId = some org)
    (hbreaks : l.keepsOwner w = false) (hexec : l.exec w = .ok w') : ¬ w'.Owners := by
  have heff := exec_effect hexec
  have howner : ∀ id, (w.members.get? id).all (fun m => m.role != .owner) = false →
      ∃ m, w.members.get? id = some m ∧ m.role = .owner := fun id h => by
        simpa [Option.all_eq_false] using h
  cases l with
  | memberUpdate id role =>
    obtain ⟨m, hm, hrole⟩ := howner id hbreaks
    obtain ⟨org, horg⟩ := hattached id m hm
    obtain ⟨org', horg', _⟩ := heff.organization_forth horg (fun heq => (by cases heq))
    refine ho.not_left hm hrole ⟨org, horg⟩ ⟨org', horg'⟩ fun k m' hk howner => ?_
    simp only [heff.members, Stmt.membersAfter, Table.get?_update] at hk
    split at hk
    · obtain ⟨m₁, _, rfl⟩ := Option.map_eq_some_iff.mp hk
      simp only [Stmt.proper, bne_iff_ne] at hl
      exact absurd howner hl
    · exact ⟨‹_›, hk⟩
  | memberDelete id =>
    obtain ⟨m, hm, hrole⟩ := howner id hbreaks
    obtain ⟨org, horg⟩ := hattached id m hm
    obtain ⟨org', horg', _⟩ := heff.organization_forth horg (fun heq => (by cases heq))
    refine ho.not_left hm hrole ⟨org, horg⟩ ⟨org', horg'⟩ fun k m' hk _ => ?_
    simp only [heff.members, Stmt.membersAfter, Table.get?_erase] at hk
    split at hk
    · cases hk
    · exact ⟨‹_›, hk⟩
  | transferOwnership orgId new cur =>
    obtain ⟨org, horg, hcur, hnew⟩ : ∃ org, w.organizations.get? orgId = some org ∧
      org.ownerId ≠ cur ∧
        org.ownerId ≠ new := by
      simpa [Stmt.keepsOwner, Option.all_eq_false] using hbreaks
    exact ho.not_transferred (by simpa [Stmt.proper] using hl) horg hcur hnew hexec
  | _ => cases hbreaks

theorem TenancyRequest.Writes.proper {r : TenancyRequest} {h : List (Stmt × World)} {l : Stmt}
    (hl : r.Writes h l) (hsound : ∀ e ∈ h, e.2.TenantsSound) : l.proper = true := by
  cases hl with
  | leaves hleaves =>
    cases l with
    | invitationCreate i =>
      simp only [Stmt.proper, bne_iff_ne]
      intro howner
      simp [Stmt.leavesMembers, Stmt.area, howner] at hleaves
    | memberUpdate id role | invitationAccept id d orgId userId role => cases hleaves
    | transferOwnership orgId new cur => cases hleaves
    | _ => rfl
  | transfers _ _ hne => simpa [Stmt.proper] using hne
  | changes hrole => simpa [Stmt.proper] using hrole
  | removes => rfl
  | joins _ hmem hi => simpa [Stmt.proper] using (hsound _ hmem).invited _ _ hi
  | deletes => rfl

section Runs

variable {env : Env} {may : TenancyRequest → Prop} {cond : World → Stmt → Prop} {w₀ : World}
  {tr : List TenancyEvent} {c : TenancyConfig}

theorem World.TenantsSound.run (hw₀ : w₀.TenantsSound)
    (hrun : TenancyRun env may cond ⟨w₀, []⟩ tr c) :
    c.store.TenantsSound ∧ ∀ i l w w', .fire i l w w' ∈ tr → w.TenantsSound :=
  Recalled.invariant World.TenantsSound (fun r _ => r.follows)
    (fun _ _ _ _ _ hread hl hw _ hexec => hw.exec (hl.proper hread) hexec) hw₀ hrun

end Runs

/-- While every role change, removal and transfer finds its check still holding when it is
written, every organization has exactly one owner, its ownerId. -/
theorem organization_owned_once (env : Env) {w₀ : World} (hw₀ : w₀.TenantsSound) (ho₀ : w₀.Owners)
    {tr : List TenancyEvent} {c : TenancyConfig}
    (hrun : TenancyRun env (fun _ => True) (fun w l => l.keepsOwner w = true) ⟨w₀, []⟩ tr c) :
    c.store.Owners :=
  (Recalled.invariant (fun w => w.TenantsSound ∧ w.Owners) (fun r _ => r.follows)
    (fun _ _ _ _ _ hread hl hw hkeeps hexec =>
      have hproper := hl.proper fun e he => (hread e he).1
      ⟨hw.1.exec hproper hexec, hw.2.exec hw.1 hproper hkeeps hexec⟩) ⟨hw₀, ho₀⟩ hrun).1.2

def TenancyRequest.GivesUp (r : TenancyRequest) (o u : Id) : Prop :=
  (∃ header new, r = .org header (.transferOwnership o new) ∧ header.bearerId = some u) ∨
    ∃ header password, r = .deleteAccount header password ∧ header.bearerId = some u

/-- A request that does not give up `o` writes past its ownership, whether it read before
`o` was there or since. -/
theorem TenancyRequest.Writes.leavesOwned {r : TenancyRequest} {h : List (Stmt × World)}
    {l : Stmt} {o u : Id} (hl : r.Writes h l) (hr : ¬ r.GivesUp o u)
    (hread : ∀ e ∈ h, e.2.TenantsSound ∧ (e.2.nonce ≤ o ∨ e.2.OwnedBy o u (o + 1))) :
    l.leavesOwned o u (o + 1) = true := by
  -- a membership that was read as no owner's is another one
  have hother : ∀ id m w, (.read, w) ∈ h → w.members.get? id = some m → m.role ≠ .owner →
      id ≠ o + 1 := by
    rintro _ m w hmem hm hrole rfl
    obtain ⟨hsound, hold | howned⟩ := hread _ hmem
    · have hlt := hsound.keys _ m hm
      omega
    · obtain ⟨m', hm', _, _, howner⟩ := howned.member
      rw [hm] at hm'
      cases hm'
      exact hrole howner
  cases hl with
  | leaves hleaves =>
    cases l with
    | userDelete id | memberDelete id => cases hleaves
    | memberUpdate id role => cases hleaves
    | transferOwnership orgId new cur => cases hleaves
    | _ => rfl
  | @transfers header orgId new cur w k m hreq hcaller _ _ hmem hfound hrole =>
    have horgId : orgId ≠ o := by
      rintro rfl
      obtain ⟨hm, ho, huser⟩ := membership_some hfound
      obtain ⟨hsound, hold | howned⟩ := hread _ hmem
      · exact absurd (ho ▸ hsound.drawn k m hm) (Nat.not_lt.mpr hold)
      · obtain ⟨m', hm', _, hu, _⟩ := howned.member
        have hk := howned.sole k m hm ho hrole
        subst hk
        rw [hm] at hm'
        cases hm'
        exact hr (.inl ⟨header, new, hreq, by rw [hcaller, ← huser, hu]⟩)
    simpa [Stmt.leavesOwned] using horgId
  | changes _ _ hmem hm hrole => simpa [Stmt.leavesOwned] using hother _ _ _ hmem hm hrole
  | removes _ hmem hm hrole => simpa [Stmt.leavesOwned] using hother _ _ _ hmem hm hrole
  | joins => rfl
  | @deletes header password id hreq hcaller =>
    have hid : id ≠ u := fun heq => hr (.inr ⟨header, password, hreq, by rw [hcaller, heq]⟩)
    simpa [Stmt.leavesOwned] using hid

/-- An organization stays its creator's, by the membership it was created with, in every
run in which the creator does not hand it on or delete the account. -/
theorem owner_alone_moves_ownership (env : Env) {w₀ : World} (hw₀ : w₀.TenantsSound) {o u : Id}
    {tr₁ tr₂ : List TenancyEvent} {c : TenancyConfig} {i : Nat} {name slug : String} {w w' : World}
    (hrun : TenancyRun env (fun r => ¬ r.GivesUp o u) (fun _ _ => True) ⟨w₀, []⟩
      (tr₂ ++ .fire i (.organizationCreate name slug u) w w' :: tr₁) c)
    (hcreated : (Stmt.organizationCreate name slug u).exec w = .ok w') (ho : w.nonce = o) :
    c.store.OwnedBy o u (o + 1) := by
  obtain ⟨c₁, c₂, hbefore, rfl, hupto, rfl, hafter⟩ := Steps.at_fire hrun
  obtain ⟨hsound, hmet⟩ := hw₀.run hbefore
  subst ho
  have hearlier : ∀ j l s s', .fire j l s s' ∈ tr₁ → s.nonce ≤ c₁.store.nonce :=
    (Steps.since (r := fun w w' => w.nonce ≤ w'.nonce) (fun _ => Nat.le_refl _)
      (fun _ _ _ => Nat.le_trans)
      (fun _ _ _ hexec => (exec_effect hexec).nonce_le) hbefore).2
  have hrule := Recalled.stores (Q := fun r h l => ¬ r.GivesUp c₁.store.nonce u ∧ r.Writes h l)
    (I := fun w => w.TenantsSound ∧ w.OwnedBy c₁.store.nonce u (c₁.store.nonce + 1))
    (J := fun w => w.TenantsSound ∧
      (w.nonce ≤ c₁.store.nonce ∨ w.OwnedBy c₁.store.nonce u (c₁.store.nonce + 1)))
    (fun _ h => ⟨h.1, .inr h.2⟩) (fun r hr => r.follows.mono fun _ _ hl => ⟨hr, hl⟩)
    (fun r h l s s' hread hl hI _ hexec =>
      have hproper := hl.2.proper fun e he => (hread e he).1
      ⟨hI.1.exec hproper hexec, hI.2.exec hI.1 hproper (hl.2.leavesOwned hl.1 hread) hexec⟩)
    hupto ?_ ⟨hsound.exec rfl hcreated, .create hsound hcreated⟩ hafter
  · exact hrule.1.2
  · intro j l s s' hmem
    rcases List.mem_cons.mp hmem with heq | hold
    · cases heq
      exact ⟨hsound, .inl (Nat.le_refl _)⟩
    · exact ⟨hmet j l s s' hold, .inl (hearlier j l s s' hold)⟩

section Sample

def sharedWorld : World where
  users := ((∅ : Table User).insert 1 { email := "a@x.io" }).insert 2
    { email := "b@x.io", password := some "pw", emailVerified := true }
  organizations :=
    (∅ : Table Organization).insert 3 { name := "Acme", slug := "acme", ownerId := 1 }
  members := ((∅ : Table OrganizationMember).insert 4 ⟨3, 1, .owner, 0⟩).insert 5 ⟨3, 2, .admin, 0⟩
  nonce := 6

theorem sharedWorld_members {k : Id} {m : OrganizationMember}
    (hk : sharedWorld.members.get? k = some m) :
    k = 4 ∧ m = ⟨3, 1, .owner, 0⟩ ∨ k = 5 ∧ m = ⟨3, 2, .admin, 0⟩ := by
  rcases Table.get?_insert_cases hk with hold | hnew
  · rcases Table.get?_insert_cases hold with hnone | hfirst
    · cases hnone
    · exact .inl hfirst
  · exact .inr hnew

theorem sharedWorld_organizations {o : Id} {org : Organization}
    (ho : sharedWorld.organizations.get? o = some org) :
    o = 3 ∧ org.ownerId = 1 := by
  rcases Table.get?_insert_cases ho with hnone | ⟨rfl, rfl⟩
  · cases hnone
  · exact ⟨rfl, rfl⟩

theorem sharedWorld_sound : sharedWorld.TenantsSound := by
  refine ⟨fun o org ho => ?_, fun k m hk => ?_, fun k m hk => ?_,
    fun k k' m m' hk hk' _ huser => ?_, fun k i hk => (by cases hk)⟩
  · rw [(sharedWorld_organizations ho).1]
    decide
  · rcases sharedWorld_members hk with ⟨rfl, _⟩ | ⟨rfl, _⟩ <;> decide
  · rcases sharedWorld_members hk with ⟨_, rfl⟩ | ⟨_, rfl⟩ <;> decide
  · rcases sharedWorld_members hk with ⟨rfl, rfl⟩ | ⟨rfl, rfl⟩ <;>
      rcases sharedWorld_members hk' with ⟨rfl, rfl⟩ | ⟨rfl, rfl⟩ <;> first | rfl | cases huser

theorem sharedWorld_owners : sharedWorld.Owners := by
  intro o org ho
  obtain ⟨rfl, howner⟩ := sharedWorld_organizations ho
  rw [howner]
  refine ⟨4, ⟨_, ho, howner⟩, ⟨_, rfl, rfl, rfl, rfl⟩, fun k m hk _ hrole => ?_⟩
  rcases sharedWorld_members hk with ⟨rfl, _⟩ | ⟨_, rfl⟩
  · rfl
  · cases hrole

def bearer (id : Id) (email : String) : AuthHeader := .bearer ⟨id, email, .user, 0, 100⟩

def handsOn : TenancyRequest := .org (bearer 1 "a@x.io") (.transferOwnership 3 2)
def removes : TenancyRequest := .org (bearer 1 "a@x.io") (.removeMember 3 2)

def shared (sched : List (TenancyRequest ⊕ Nat)) : TenancyConfig :=
  Config.play Stmt.exec (TenancyRequest.prog sampleEnv) ⟨sharedWorld, []⟩ sched

def handedOnInTurn : List (TenancyRequest ⊕ Nat) :=
  .inl handsOn :: List.replicate 6 (.inr 0) ++ .inl removes :: List.replicate 5 (.inr 1)

def handedOnAtOnce : List (TenancyRequest ⊕ Nat) :=
  .inl removes :: List.replicate 5 (.inr 0) ++ .inl handsOn :: List.replicate 6 (.inr 1) ++ [.inr 0]

theorem organization_owned_once_in_turn :
    ((shared handedOnInTurn).store.organizations.get? 3).map (·.ownerId) = some 2 ∧
      (shared handedOnInTurn).store.Owners := by
  obtain ⟨tr, hrun⟩ : ∃ tr, TenancyRun sampleEnv (fun _ => True) (fun w l => l.keepsOwner w = true)
      ⟨sharedWorld, []⟩ tr (shared handedOnInTurn) :=
    Config.play_steps Stmt.exec _ handedOnInTurn (fun _ _ => trivial) _ (by decide +kernel)
  exact ⟨by decide +kernel,
    organization_owned_once sampleEnv sharedWorld_sound sharedWorld_owners hrun⟩

/-- An organization is left without any owner membership. -/
theorem removed_new_owner :
    (∃ tr, TenancyRun sampleEnv (fun _ => True) (fun _ _ => True) ⟨sharedWorld, []⟩ tr
      (shared handedOnAtOnce)) ∧
      sharedWorld.TenantsSound ∧ sharedWorld.Owners ∧ ¬ (shared handedOnAtOnce).store.Owners := by
  refine ⟨Config.play_steps_free _ _ _ (fun _ _ => trivial) _, sharedWorld_sound,
    sharedWorld_owners, fun hall => ?_⟩
  have hnone : (shared handedOnAtOnce).store.members.any (fun _ m => m.role == .owner) = false := by
    decide +kernel
  cases ho : (shared handedOnAtOnce).store.organizations.get? 3 with
  | none => exact absurd ho (by decide +kernel)
  | some org =>
    obtain ⟨k, hk⟩ := hall 3 org ho
    obtain ⟨m, hm, _, _, hrole⟩ := hk.member
    simpa [hrole] using Table.any_eq_false.mp hnone k m hm

def creates : List (TenancyRequest ⊕ Nat) :=
  .inl (.org (bearer 1 "a@x.io") (.createOrganization "Acme" "acme")) :: List.replicate 5
    (.inr 0) ++
    .inl (.org (bearer 2 "b@x.io") (.transferOwnership 3 2)) :: List.replicate 4 (.inr 1)

def accountsWorld : World where
  users := ((∅ : Table User).insert 1 { email := "a@x.io" }).insert 2 { email := "b@x.io" }
  nonce := 3

def createdConfig : TenancyConfig :=
  Config.play Stmt.exec (TenancyRequest.prog sampleEnv) ⟨accountsWorld, []⟩ creates

def createdTrace : List TenancyEvent :=
  Config.trace Stmt.exec (TenancyRequest.prog sampleEnv) ⟨accountsWorld, []⟩ creates []

theorem owner_alone_moves_ownership_created : createdConfig.store.OwnedBy 3 1 4 := by
  have hrun : TenancyRun sampleEnv (fun r => ¬ r.GivesUp 3 1) (fun _ _ => True) ⟨accountsWorld, []⟩
      createdTrace createdConfig := by
    refine Config.trace_steps Stmt.exec _ creates (fun r hr => ?_) .refl
    rintro (⟨header, new, rfl, hcaller⟩ | ⟨header, password, rfl, _⟩)
    · simp [creates] at hr
      obtain ⟨rfl, _⟩ := hr
      cases hcaller
    · simp [creates] at hr
  have hfire : ∃ w w', .fire 0 (.organizationCreate "Acme" "acme" 1) w w' ∈ createdTrace ∧
    w.nonce = 3 ∧
      (Stmt.organizationCreate "Acme" "acme" 1).exec w = .ok w' :=
    ⟨_, _, List.mem_of_getElem? (i := 5) rfl, rfl, rfl⟩
  obtain ⟨w, w', hmem, hnonce, hcreated⟩ := hfire
  obtain ⟨tr₂, tr₁, htr⟩ := List.append_of_mem hmem
  have hempty : accountsWorld.TenantsSound :=
    ⟨fun _ _ h => (by cases h), fun _ _ h => (by cases h), fun _ _ h => (by cases h),
      fun _ _ _ _ h => (by cases h), fun _ _ h => (by cases h)⟩
  exact owner_alone_moves_ownership sampleEnv hempty (htr ▸ hrun) hcreated hnonce

end Sample

end SaasBackend
