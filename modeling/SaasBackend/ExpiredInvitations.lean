import SaasBackend.HandlerHistory
import SaasBackend.OrganizationService
import SaasBackend.StatementEffects

set_option autoImplicit false

namespace SaasBackend
open Keyed Handler

def daysAgo (now : Time) (days : Nat) : Time := now - days * 24 * 60 * 60 * 1000

def cleanupTerminalInvitations (retentionDays : Nat) : Req Nat := do
  let now ← date
  send (.invitationCleanup (daysAgo now retentionDays)) (fun w => (w.invitations.filter (fun _ i =>
    i.status != .pending && decide (i.updatedAt < daysAgo now retentionDays))).length)

inductive InvitingRequest where
  | create (tenant : Tenant) (inviterId : Id) (email : String) (role : AssignableRole)
  | accept (userId : Id) (token : Nat)
  | decline (userId : Id) (token : Nat)
  | cancel (orgId invitationId : Id)
  | cleanup (retentionDays : Nat)
  | wait (d : Time)

def InvitingRequest.prog (env : Env) : InvitingRequest → Req OrgReply
  | .create tenant inviterId email role => createInvitation env tenant inviterId email role
  | .accept userId token => acceptInvitation userId token
  | .decline userId token => declineInvitation userId token
  | .cancel orgId invitationId => cancelInvitation orgId invitationId
  | .cleanup retentionDays =>
      (cleanupTerminalInvitations retentionDays).bind fun _ => .ret (.message "")
  | .wait d => (execute (.tick d)).bind fun _ => .ret (.message "")

abbrev InvitingEntry := Entry InvitingRequest World Err OrgReply

abbrev InvitingRun (env : Env) : World → List InvitingEntry → World → Prop :=
  Steps (Served Stmt.exec (InvitingRequest.prog env) (fun _ _ => True))

def pendingInvitationExists : Err := httpError "errors.pendingInvitationExists" 409

def OrganizationInvitation.pendingFor (i : OrganizationInvitation) (o : Id) (e : String) : Bool :=
  i.organizationId == o && i.inviteeEmail == e && i.status == .pending

def World.joined (w : World) (o : Id) (e : String) : Bool :=
  (w.users.find? (fun _ u => u.email == e && u.live)).any (fun r => (w.membership o r.1).isSome)

/-- A creation is rejected for a pending invitation only if there is one that has not expired. -/
def RejectedRightly (env : Env) (c : InvitingEntry) : Prop :=
  ∀ tenant inviterId email role, c.req = .create tenant inviterId email role →
    c.res = .error pendingInvitationExists →
      ∃ k i, c.pre.invitations.get? k = some i ∧
      i.pendingFor tenant.id (normalizeEmail env email) = true ∧ ¬ i.expiresAt < c.pre.now

/-- A creation for someone who has not joined meets no PENDING invitation that has expired. -/
def MeetsNoExpired (env : Env) (c : InvitingEntry) : Prop :=
  ∀ tenant inviterId email role, c.req = .create tenant inviterId email role →
    c.pre.joined tenant.id (normalizeEmail env email) = false →
      ∀ k i, c.pre.invitations.get? k = some i →
      i.pendingFor tenant.id (normalizeEmail env email) = true → ¬ i.expiresAt < c.pre.now

structure World.InvitationsSound (w : World) : Prop where
  tokens : ∀ k i, w.invitations.get? k = some i → ∃ n, n < w.nonce ∧ i.token = hashToken n
  single : ∀ k k' i i' o e, w.invitations.get? k = some i → w.invitations.get? k' = some i' →
    i.pendingFor o e = true → i'.pendingFor o e = true → k = k'

section Statements

variable {l : Stmt} {w w' : World}

theorem World.InvitationsSound.shrink (hw : w.InvitationsSound) (hnonce : w.nonce ≤ w'.nonce)
    (hrows : ∀ k i', w'.invitations.get? k = some i' → ∃ i, w.invitations.get? k = some i ∧
      i'.token = i.token ∧
      ∀ o e, i'.pendingFor o e = true → i.pendingFor o e = true) : w'.InvitationsSound := by
  refine ⟨fun k i' hk => ?_, fun k k' i i' o e hk hk' hi hi' => ?_⟩
  · obtain ⟨i, hi, htoken, _⟩ := hrows k i' hk
    obtain ⟨n, hn, hdrawn⟩ := hw.tokens k i hi
    exact ⟨n, Nat.lt_of_lt_of_le hn hnonce, htoken.trans hdrawn⟩
  · obtain ⟨j, hj, _, hpending⟩ := hrows k i hk
    obtain ⟨j', hj', _, hpending'⟩ := hrows k' i' hk'
    exact hw.single k k' j j' o e hj hj' (hpending o e hi) (hpending' o e hi')

def Stmt.settlesOnly : Stmt → Bool
  | .read | .tick _ | .random | .enqueue _ | .invitationCleanup _ => true
  | .invitationUpdate _ d | .invitationAccept _ d _ _ _ => d.status != .pending
  | _ => false

theorem World.InvitationsSound.exec (hw : w.InvitationsSound) (hl : l.settlesOnly = true)
    (h : l.exec w = .ok w') : w'.InvitationsSound := by
  have heff := exec_effect h
  have hkept : ∀ k i', w'.invitations.get? k = some i' → w'.invitations = w.invitations →
      ∃ i, w.invitations.get? k = some i ∧ i'.token = i.token ∧
        ∀ o e, i'.pendingFor o e = true → i.pendingFor o e = true :=
    fun k i' hk hsame => ⟨i', hsame ▸ hk, rfl, fun _ _ => id⟩
  have hsettled : ∀ (id : Id) (d : InvitationPatch), (d.status != .pending) = true → ∀ k i',
      (w.invitations.update id (fun i => { d.apply i with updatedAt := w.now })).get? k = some i' →
        ∃ i, w.invitations.get? k = some i ∧ i'.token = i.token ∧
          ∀ o e, i'.pendingFor o e = true → i.pendingFor o e = true := by
    intro id d hd k i' hk
    rw [Table.get?_update] at hk
    split at hk
    · obtain ⟨i, hi, rfl⟩ := Option.map_eq_some_iff.mp hk
      refine ⟨i, hi, rfl, fun o e hpending => ?_⟩
      simp only [OrganizationInvitation.pendingFor, InvitationPatch.apply, Bool.and_eq_true,
        beq_iff_eq] at hpending
      exact absurd hpending.2 (by simpa using hd)
    · exact ⟨i', hk, rfl, fun _ _ hpending => hpending⟩
  refine hw.shrink (Stmt.Effect.nonce_le heff) fun k i' hk => ?_
  cases l with
  | read | tick | random | enqueue => exact hkept k i' hk heff.invitations
  | invitationUpdate id d =>
    exact hsettled id d hl k i' ((congrArg (·.get? k) heff.invitations).symm.trans hk)
  | invitationAccept id d orgId userId role =>
    exact hsettled id d hl k i' ((congrArg (·.get? k) heff.invitations).symm.trans hk)
  | invitationCleanup before =>
    have hold := (Table.get?_eraseWhere_eq_some.mp
      ((congrArg (·.get? k) heff.invitations).symm.trans hk)).1
    exact ⟨i', hold, rfl, fun _ _ => id⟩
  | _ => cases hl

theorem World.InvitationsSound.create (hw : w.InvitationsSound)
    {row : OrganizationInvitation} {n : Nat} (hn : n < w.nonce) (htoken : row.token = hashToken n)
    (hpending : row.status = .pending) (h : (Stmt.invitationCreate row).exec w = .ok w') :
    w'.InvitationsSound := by
  have heff := exec_effect h
  have hclash : ∀ k j, w.invitations.get? k = some j → ∀ o e, row.pendingFor o e = true →
      j.pendingFor o e ≠ true := by
    intro k j hj o e hrow hsame
    have hany : w.invitations.any (fun _ j => row.token == j.token || (row.status == .pending &&
        j.status == .pending && row.organizationId == j.organizationId &&
        row.inviteeEmail == j.inviteeEmail)) =
        false := by
      simp only [Stmt.exec] at h
      split at h
      · cases h
      · split at h
        · cases h
        · rename_i hnone
          exact Bool.not_eq_true _ ▸ hnone
    simp only [OrganizationInvitation.pendingFor, Bool.and_eq_true, beq_iff_eq] at hrow hsame
    have hfree := Table.any_eq_false.mp hany k j hj
    simp [hpending, hrow.1.1, hrow.1.2, hsame.1.1, hsame.1.2, hsame.2] at hfree
  have hrows : ∀ k i', w'.invitations.get? k = some i' → w.invitations.get? k = some i' ∨
      k = w.nonce ∧ i' = { row with createdAt := w.now, updatedAt := w.now } := fun k i' hk =>
    Table.get?_insert_cases ((congrArg (·.get? k) heff.invitations).symm.trans hk)
  refine ⟨fun k i hk => ?_, fun k k' i i' o e hk hk' hi hi' => ?_⟩
  · rcases hrows k i hk with hold | ⟨_, rfl⟩
    · obtain ⟨m, hm, hdrawn⟩ := hw.tokens k i hold
      exact ⟨m, Nat.lt_of_lt_of_le hm heff.nonce_le, hdrawn⟩
    · exact ⟨n, Nat.lt_of_lt_of_le hn heff.nonce_le, htoken⟩
  · rcases hrows k i hk with hold | ⟨rfl, rfl⟩
    · rcases hrows k' i' hk' with hold' | ⟨rfl, rfl⟩
      · exact hw.single k k' i i' o e hold hold' hi hi'
      · exact absurd hi (hclash k i hold o e hi')
    · rcases hrows k' i' hk' with hold' | ⟨rfl, rfl⟩
      · exact absurd hi' (hclash k' i' hold' o e hi)
      · rfl

end Statements

section Services

variable {env : Env} {w : World}

theorem invitationCreate_error {row : OrganizationInvitation} {n : Nat} {err : Err}
    (hw : w.InvitationsSound) (htoken : row.token = hashToken n) (hn : w.nonce ≤ n)
    (hfree : ∀ k j, w.invitations.get? k = some j →
      j.pendingFor row.organizationId row.inviteeEmail = false)
    (h : (Stmt.invitationCreate row).exec { w with nonce := n + 1 } = .error err) :
    err = .prisma .P2003 := by
  have hany : w.invitations.any (fun _ j => row.token == j.token || (row.status == .pending &&
      j.status == .pending && row.organizationId == j.organizationId &&
      row.inviteeEmail == j.inviteeEmail)) =
      false := by
    refine Table.any_eq_false.mpr fun k j hj => ?_
    obtain ⟨m, hm, hdrawn⟩ := hw.tokens k j hj
    have hnew : (row.token == j.token) = false := by
      rw [htoken, hdrawn, beq_eq_false_iff_ne]
      intro heq
      have hsame := hashToken_inj.mp heq
      omega
    have hpending := hfree k j hj
    simp only [OrganizationInvitation.pendingFor, Bool.and_eq_false_iff,
      beq_eq_false_iff_ne] at hpending
    simp only [hnew, Bool.false_or, Bool.and_eq_false_iff, beq_eq_false_iff_ne]
    grind
  simp only [Stmt.exec, World.hasOrganization, World.hasUser, hany] at h
  split at h
  · exact (Except.error.inj h).symm
  · cases h

/-- A creation adds one invitation at most, and is rejected for a pending one exactly when the
address has not joined and has one, expired or not. -/
theorem createInvitation_pending (hw : w.InvitationsSound) (tenant : Tenant) (inviterId : Id)
    (email : String) (role : AssignableRole) :
    (createInvitation env tenant inviterId email role).Ends Stmt.exec (fun r w' =>
      w'.InvitationsSound ∧ (r = .error pendingInvitationExists ↔
        w.joined tenant.id (normalizeEmail env email) = false ∧
          ∃ k i, w.invitations.get? k = some i ∧ i.pendingFor tenant.id (normalizeEmail env email) =
          true)) w := by
  have hjoined : ((w.users.find? (fun _ u => u.email == normalizeEmail env email && u.live)).map
      (fun r => (r.1, (w.membership tenant.id r.1).isSome))).any (·.2) =
      w.joined tenant.id (normalizeEmail env email) := Option.any_map
  unfold createInvitation
  simp only [Prog.bind_eq, ends_query_bind, hjoined]
  split
  · rename_i hmember
    refine ⟨hw, iff_of_false (fun h => ?_) fun h => ?_⟩
    · exact absurd (Err.http.inj (Except.error.inj h)).1 (by decide)
    · rw [h.1] at hmember
      cases hmember
  rename_i hmember
  rw [ends_query_bind]
  split
  · rename_i hexists
    obtain ⟨k, i, hk, hi⟩ := Table.any_eq_true.mp hexists
    exact ⟨hw, iff_of_true rfl ⟨Bool.not_eq_true _ ▸ hmember, k, i, hk, hi⟩⟩
  rename_i hfree
  have hfree := Table.any_eq_false.mp (Bool.not_eq_true _ ▸ hfree)
  have hnone : ¬ ∃ k i, w.invitations.get? k = some i ∧
      i.pendingFor tenant.id (normalizeEmail env email) = true := by
    rintro ⟨k, i, hk, hi⟩
    cases (hfree k i hk).symm.trans hi
  have hdrawn : ({ w with nonce := w.nonce + 1 } : World).InvitationsSound :=
    hw.shrink (Nat.le_succ _) fun k i hk => ⟨i, hk, rfl, fun _ _ hpending => hpending⟩
  rw [ends_randomBytes_bind, ends_date_bind, Prog.tryCatch_eq, ends_tryCatch_bind]
  split
  · rename_i w' hexec
    have hsound := hdrawn.create (Nat.lt_succ_self _) rfl rfl hexec
    rw [Prog.tryCatch_eq, ends_tryCatch_execute_bind]
    exact ⟨⟨hsound.tokens, hsound.single⟩, iff_of_false (fun h => by cases h) fun h => hnone h.2⟩
  · rename_i err hexec
    have herr : err = .prisma .P2003 := by
      refine invitationCreate_error hw rfl (Nat.le_refl _) ?_ hexec
      exact hfree
    subst herr
    exact ⟨hdrawn, iff_of_false (fun h => by cases h) fun h => hnone h.2⟩

theorem settles_sound {request : InvitingRequest}
    (h : (request.prog env).Sends (fun l => l.settlesOnly = true)) (hw : w.InvitationsSound) :
    ((request.prog env).run Stmt.exec w).2.InvitationsSound :=
  Prog.Maintains.of_sends h (fun _ _ _ hl hexec hs => hs.exec hl hexec) w hw

theorem InvitingRequest.sound (request : InvitingRequest) (hw : w.InvitationsSound) :
    ((request.prog env).run Stmt.exec w).2.InvitationsSound := by
  have hupdate : ∀ id (data : InvitationPatch), data.status ≠ .pending →
      (Stmt.invitationUpdate id data).settlesOnly = true := fun _ _ => bne_iff_ne.mpr
  cases request with
  | create tenant inviterId email role =>
    exact (createInvitation_pending hw tenant inviterId email role).1
  | accept userId token =>
    refine settles_sound (acceptInvitation_sends (P := fun l => l.settlesOnly = true) rfl hupdate ?_
      userId token) hw
    intro id data orgId user role h
    exact bne_iff_ne.mpr (by rw [h]; decide)
  | decline userId token =>
    exact settles_sound (declineInvitation_sends (P := fun l => l.settlesOnly = true) rfl hupdate
      userId token) hw
  | cancel orgId invitationId =>
    exact settles_sound (cancelInvitation_sends (P := fun l => l.settlesOnly = true) rfl hupdate
      orgId invitationId) hw
  | cleanup retentionDays =>
    exact settles_sound (.bind (.bind (.send rfl) fun _ => .send rfl) fun _ => .ret) hw
  | wait d => exact settles_sound (.bind (.send rfl) fun _ => .ret) hw

end Services

section Runs

variable {env : Env} {w₀ w : World} {h : List InvitingEntry}

theorem InvitingRun.sound (hw : w₀.InvitationsSound) (hrun : InvitingRun env w₀ h w) :
    w.InvitationsSound :=
  Served.invariant (fun _ w => w.InvitationsSound) hw (fun _ _ request hs _ =>
    request.sound hs) hrun

end Runs

/-- In any run, a creation is rejected rightly exactly when it meets no PENDING invitation past
its time for someone who has not joined. -/
theorem rejected_rightly_iff (env : Env) {w₀ w : World} {h : List InvitingEntry}
    (hw : w₀.InvitationsSound)
    (hrun : InvitingRun env w₀ h w) : ∀ c ∈ h, RejectedRightly env c ↔ MeetsNoExpired env c := by
  intro c hc
  obtain ⟨hserve, _, _, hbefore⟩ := Served.mem hrun hc
  have hsound := InvitingRun.sound hw hbefore
  have hres : ∀ tenant inviterId email role, c.req = .create tenant inviterId email role →
      (c.res = .error pendingInvitationExists ↔
        c.pre.joined tenant.id (normalizeEmail env email) = false ∧
        ∃ k i, c.pre.invitations.get? k = some i ∧
        i.pendingFor tenant.id (normalizeEmail env email) = true) := by
    intro tenant inviterId email role hreq
    rw [hserve, hreq]
    exact (createInvitation_pending hsound tenant inviterId email role).2
  constructor
  · intro hright tenant inviterId email role hreq hjoined k i hk hi
    obtain ⟨k', i', hk', hi', hlive⟩ := hright tenant inviterId email role hreq
      ((hres tenant inviterId email role hreq).mpr ⟨hjoined, k, i, hk, hi⟩)
    obtain rfl := hsound.single k k' i i' _ _ hk hk' hi hi'
    cases hk.symm.trans hk'
    exact hlive
  · intro hmeets tenant inviterId email role hreq hrejected
    obtain ⟨hjoined, k, i, hk, hi⟩ := (hres tenant inviterId email role hreq).mp hrejected
    exact ⟨k, i, hk, hi, hmeets tenant inviterId email role hreq hjoined k i hk hi⟩

section Sample

def invitingWorld : World where
  users := ((∅ : Table User).insert 1 { email := "a@x.io" }).insert 2 { email := "b@x.io" }
  organizations :=
    (∅ : Table Organization).insert 3 { name := "Acme", slug := "acme", ownerId := 1 }
  members := (∅ : Table OrganizationMember).insert 4 ⟨3, 1, .owner, 0⟩
  nonce := 10

def invites : InvitingRequest :=
  .create ⟨3, "Acme", "acme", 1, .owner⟩ 1 "b@x.io" ⟨.member, OrgRole.member_ne_owner⟩

def inviting (requests : List InvitingRequest) : List InvitingEntry × World :=
  serveAll Stmt.exec (InvitingRequest.prog sampleEnv) requests ([], invitingWorld)

theorem inviting_run (requests : List InvitingRequest) :
    InvitingRun sampleEnv invitingWorld (inviting requests).1 (inviting requests).2 :=
  serveAll_steps requests (fun _ _ _ => trivial) [] .refl

theorem invitingWorld_sound : invitingWorld.InvitationsSound :=
  ⟨fun _ _ hk => (by cases hk), fun _ _ _ _ _ _ hk => (by cases hk)⟩

def presentedLate : List InvitingRequest :=
  [invites, .wait (invitationTtlMs + 1), .accept 2 10, invites]

def neverPresented : List InvitingRequest :=
  [invites, .wait (invitationTtlMs + 1), .cleanup 30, invites]

def lastOf (requests : List InvitingRequest) (last : InvitingRequest) : InvitingEntry :=
  serve Stmt.exec (InvitingRequest.prog sampleEnv) (inviting requests).2 last

theorem rejected_rightly_presented :
    RejectedRightly sampleEnv
    (lastOf [invites, .wait (invitationTtlMs + 1), .accept 2 10] invites) := by
  refine (rejected_rightly_iff sampleEnv invitingWorld_sound (inviting_run presentedLate)
    _ (.head _)).mpr ?_
  intro tenant inviterId email role _ _ k i hk hi
  have hnone : (inviting [invites, .wait (invitationTtlMs + 1), .accept 2 10]).2.invitations.any
      (fun _ i => i.status == .pending) = false := by decide +kernel
  simp only [OrganizationInvitation.pendingFor, Bool.and_eq_true] at hi
  cases hi.2.symm.trans (Table.any_eq_false.mp hnone k i hk)

/-- The invitation has run out, its token has not been presented, and the next one is refused. -/
theorem rejected_by_expired :
    InvitingRun sampleEnv invitingWorld (inviting neverPresented).1 (inviting neverPresented).2 ∧
      lastOf [invites, .wait (invitationTtlMs + 1), .cleanup 30] invites ∈
        (inviting neverPresented).1 ∧
      ¬ RejectedRightly sampleEnv
      (lastOf [invites, .wait (invitationTtlMs + 1), .cleanup 30] invites) := by
  refine ⟨inviting_run neverPresented, .head _, fun h => ?_⟩
  have hrejected : (lastOf [invites, .wait (invitationTtlMs + 1), .cleanup 30] invites).res =
      .error pendingInvitationExists := by decide +kernel
  obtain ⟨k, i, hk, _, hlive⟩ := h _ _ _ _ rfl hrejected
  have hall : (inviting [invites, .wait (invitationTtlMs + 1), .cleanup 30]).2.invitations.any
      (fun _ i => !decide
        (i.expiresAt < (inviting [invites, .wait (invitationTtlMs + 1), .cleanup 30]).2.now)) =
      false := by decide +kernel
  have hexpired := Table.any_eq_false.mp hall k i hk
  simp only [Bool.not_eq_false', decide_eq_true_eq] at hexpired
  exact hlive hexpired

end Sample

end SaasBackend
