import SaasBackend.AccountService
import SaasBackend.FactorRequests
import SaasBackend.StatementEffects

/-! The last administrator. `updateUser`, `deleteUser` and `deleteAccount` count the live
administrators in one statement and take one away in another, so the count can be out of
date when it is acted on. -/

set_option autoImplicit false

namespace SaasBackend
open Keyed Handler

def User.isAdmin (u : User) : Bool := u.role == .admin && u.live

def World.admins (w : World) : List (Id × User) := w.users.filter (fun _ u => u.isAdmin)

def World.HasAdmin (w : World) : Prop := ∃ k u, w.users.get? k = some u ∧ u.isAdmin = true

def Stmt.takesAdmin (w : World) : Stmt → Bool
  | .userUpdate id d | .killSessions id d =>
    (w.users.get? id).any (fun u => u.isAdmin && !(d.apply u).isAdmin)
  | .userDelete id => (w.users.get? id).any User.isAdmin
  | _ => false

theorem World.hasAdmin_iff {w : World} : w.HasAdmin ↔ 0 < w.admins.length := by
  rw [List.length_pos_iff_exists_mem]
  constructor
  · rintro ⟨k, u, hk, hu⟩
    exact ⟨(k, u), Table.mem_filter.mpr ⟨hk, hu⟩⟩
  · rintro ⟨⟨k, u⟩, hmem⟩
    obtain ⟨hk, hu⟩ := Table.mem_filter.mp hmem
    exact ⟨k, u, hk, hu⟩

theorem admin_forth {l : Stmt} {w w' : World} (hexec : l.exec w = .ok w') {k : Id} {u : User}
    (hk : w.users.get? k = some u) (hu : u.isAdmin = true) (hspared : l.takesAdmin w = false) :
    ∃ u', w'.users.get? k = some u' ∧ u'.isAdmin = true := by
  have hl : l ≠ .userDelete k := by
    rintro rfl
    simp [Stmt.takesAdmin, hk, hu] at hspared
  obtain ⟨u', hk', hstep⟩ := (exec_effect hexec).user_forth hk hl
  refine ⟨u', hk', ?_⟩
  cases hstep with
  | same => exact hu
  | update d => simpa [Stmt.takesAdmin, hk, hu] using hspared
  | kill d =>
    have hkept : (d.apply u).isAdmin = true := by simpa [Stmt.takesAdmin, hk, hu] using hspared
    exact hkept
  | reuse => exact hu

theorem takesAdmin_others {l : Stmt} {w w' : World} (hexec : l.exec w = .ok w')
    (htakes : l.takesAdmin w = true) :
    ∃ id u, w.users.get? id = some u ∧ u.isAdmin = true ∧
      (∀ u', w'.users.get? id = some u' → u'.isAdmin = false) ∧
      ∀ k, k ≠ id → w'.users.get? k = w.users.get? k := by
  have heff := exec_effect hexec
  unfold Stmt.takesAdmin at htakes
  split at htakes
  · rename_i id d
    obtain ⟨u, hu, htaken⟩ := (Option.any_eq_true _ _).mp htakes
    simp only [Bool.and_eq_true, Bool.not_eq_true'] at htaken
    refine ⟨id, u, hu, htaken.1, fun u' hu' => ?_, fun k hk => ?_⟩
    · simp only [heff.users, Stmt.usersAfter, Table.get?_update, if_pos, hu, Option.map_some,
        Option.some.injEq] at hu'
      exact hu' ▸ htaken.2
    · simp [heff.users, Stmt.usersAfter, hk]
  · rename_i id d
    obtain ⟨u, hu, htaken⟩ := (Option.any_eq_true _ _).mp htakes
    simp only [Bool.and_eq_true, Bool.not_eq_true'] at htaken
    refine ⟨id, u, hu, htaken.1, fun u' hu' => ?_, fun k hk => ?_⟩
    · simp only [heff.users, Stmt.usersAfter, Table.get?_update, if_pos, hu, Option.map_some,
        Option.some.injEq] at hu'
      exact hu' ▸ htaken.2
    · simp [heff.users, Stmt.usersAfter, hk]
  · rename_i id
    obtain ⟨u, hu, hadmin⟩ := (Option.any_eq_true _ _).mp htakes
    refine ⟨id, u, hu, hadmin, fun u' hu' => ?_, fun k hk => ?_⟩
    · simp [heff.users, Stmt.usersAfter] at hu'
    · simp [heff.users, Stmt.usersAfter, hk]
  · cases htakes

theorem World.HasAdmin.exec {l : Stmt} {w w' : World} (h : w.HasAdmin)
    (hkeeps : l.takesAdmin w = true → 1 < w.admins.length) (hexec : l.exec w = .ok w') :
    w'.HasAdmin := by
  cases htakes : l.takesAdmin w with
  | false =>
    obtain ⟨k, u, hk, hu⟩ := h
    obtain ⟨u', hk', hu'⟩ := admin_forth hexec hk hu htakes
    exact ⟨k, u', hk', hu'⟩
  | true =>
    obtain ⟨id, _, _, _, _, hothers⟩ := takesAdmin_others hexec htakes
    obtain ⟨k, u, hk, hu, hne⟩ := Table.filter_other id (hkeeps htakes)
    exact ⟨k, u, by rw [hothers k hne, hk], hu⟩

inductive AdminRequest where
  | updateUser (userId : Id) (data : Admin.UpdateUserBody) (actingAdminId : Id)
  | deleteUser (userId actingAdminId : Id)
  | deleteAccount (userId : Id) (password : String)
  deriving DecidableEq, Repr

def AdminRequest.prog (env : Env) : AdminRequest → Req Unit
  | .updateUser userId data actingAdminId =>
      (Admin.updateUser userId data actingAdminId).bind fun _ => .ret ()
  | .deleteUser userId actingAdminId =>
      (Admin.deleteUser userId actingAdminId).bind fun _ => .ret ()
  | .deleteAccount userId password =>
      (SaasBackend.deleteAccount env userId password).bind fun _ => .ret ()

def AdminRequest.target : AdminRequest → Id
  | .updateUser userId _ _ | .deleteUser userId _ | .deleteAccount userId _ => userId

/-- The place of the count among the statements of the request: after the target and, in
`deleteAccount`, the password. -/
def AdminRequest.countAt : AdminRequest → Nat
  | .updateUser .. | .deleteUser .. => 1
  | .deleteAccount .. => 2

abbrev AdminConfig := Config AdminRequest World Err Stmt Unit
abbrev AdminEvent := Event AdminRequest World Stmt

abbrev AdminRun (env : Env) : AdminConfig → List AdminEvent → AdminConfig → Prop :=
  Steps (Step Stmt.exec (AdminRequest.prog env) (fun _ => True) (fun _ _ => True))

def AdminRequest.readAdmin (r : AdminRequest) (own : Own) : Bool :=
  own.getLast?.any (fun x => (x.2.users.get? r.target).any User.isAdmin)

def AdminRequest.countRead (r : AdminRequest) (own : Own) : Option World :=
  own.reverse[r.countAt]?.map Prod.snd

/-- What takes an administrator away, after the run before it: its request read the account
as an administrator's, and has counted no more of them than there still are. -/
def countStands (c : AdminConfig) (tr : List AdminEvent) : AdminEvent → Bool
  | .fire i l w _ => !l.takesAdmin w || (c.pool[i]?).any (fun q =>
    q.1.readAdmin (own Stmt.exec i tr) &&
      (q.1.countRead (own Stmt.exec i tr)).all
        (fun w' => decide (w'.admins.length ≤ w.admins.length)))
  | .arrive _ => true

def AdminRequest.Counted (r : AdminRequest) (own : Own) : Prop :=
  r.readAdmin own = true → ∃ w, r.countRead own = some w ∧ 1 < w.admins.length

def AdminRequest.Guarded (r : AdminRequest) (own : Own) (l : Stmt) : Prop :=
  ∀ w, l.takesAdmin w = true → r.Counted own

section Requests

variable {env : Env} {w : World} {r : AdminRequest} {own own' h : Own}

/-- A request has counted when it goes on after the count, or the account that it read was
not an administrator's. -/
theorem AdminRequest.counted {l : Stmt} {user : User} (hlast : h.getLast? = some (l, w))
    (huser : w.users.get? r.target = some user) (hat : h.length = r.countAt)
    (hcount : user.role = .admin → ∃ w', own = (.read, w') :: h ∧ 1 < w'.admins.length)
    (hsuffix : h <:+ own') (hlater : own <:+ own') : r.Counted own' := by
  intro hread
  have hrole : user.role = .admin := by
    rw [readAdmin, getLast?_of_suffix hlast hsuffix] at hread
    simp only [Option.any_some, huser, User.isAdmin, Bool.and_eq_true, beq_iff_eq] at hread
    exact hread.1
  obtain ⟨w', rfl, hmany⟩ := hcount hrole
  obtain ⟨t, rfl⟩ := hlater
  exact ⟨w', by simp [countRead, ← hat], hmany⟩

theorem lastAdmin_counts (demotes : Bool) :
    (lastAdmin demotes).Ends Stmt.exec
      (fun r w' => w' = w ∧ r = .ok (demotes && decide (w.admins.length ≤ 1))) w := by
  unfold lastAdmin
  cases demotes with
  | false => exact ⟨rfl, rfl⟩
  | true => exact ⟨rfl, rfl⟩

theorem lastAdmin_bind_along {α : Type} {Q : Own → Stmt → Prop} {R : Own → α → Prop}
    {demotes : Bool} {k : Bool → Req α} (hread : Q h .read)
    (hk : ∀ last own, h <:+ own → (demotes = true → last = false →
      ∃ w, own = (.read, w) :: h ∧ 1 < w.admins.length) → (k last).Along Stmt.exec Q R own) :
    ((lastAdmin demotes).bind k).Along Stmt.exec Q R h := by
  unfold lastAdmin
  cases demotes with
  | false => exact hk false h List.suffix_rfl fun h => (by cases h)
  | true =>
    refine Prog.along_send_bind.mpr ⟨hread, fun w _ _ => ?_⟩
    exact hk _ _ (List.suffix_cons _ _) fun _ hmany =>
      ⟨w, rfl, Nat.lt_of_not_le (of_decide_eq_false hmany)⟩

theorem UserPatch.takes {d : UserPatch} {u : User} (hu : u.isAdmin = true)
    (htaken : (d.apply u).isAdmin = false) :
    d.role = some .user ∨ d.deletedAt.isSome = true := by
  obtain ⟨hrole, hlive⟩ : u.role = .admin ∧ u.live = true := by simpa [User.isAdmin] using hu
  cases hpatch : d.role with
  | none =>
    cases hdeleted : d.deletedAt with
    | none =>
      have hkept : (d.apply u).isAdmin = true := by
        simp [User.isAdmin, UserPatch.apply, User.live, hpatch, hdeleted, hrole] at hlive ⊢
        exact hlive
      rw [hkept] at htaken
      cases htaken
    | some _ => exact .inr rfl
  | some r =>
    cases r with
    | user => exact .inl rfl
    | admin =>
      cases hdeleted : d.deletedAt with
      | none =>
        have hkept : (d.apply u).isAdmin = true := by
          simp [User.isAdmin, UserPatch.apply, User.live, hpatch, hdeleted] at hlive ⊢
          exact hlive
        rw [hkept] at htaken
        cases htaken
      | some _ => exact .inr rfl

theorem takesAdmin_update {id : Id} {d : UserPatch}
    (h : (Stmt.userUpdate id d).takesAdmin w = true) :
    d.role = some .user ∨ d.deletedAt.isSome = true := by
  obtain ⟨u, _, htaken⟩ := (Option.any_eq_true _ _).mp h
  simp only [Bool.and_eq_true, Bool.not_eq_true'] at htaken
  exact UserPatch.takes htaken.1 htaken.2

theorem AdminRequest.guarded_of_spares {l : Stmt} (hl : ∀ w, l.takesAdmin w = false) :
    r.Guarded own l := by
  intro w htakes
  rw [hl w] at htakes
  cases htakes

theorem AdminRequest.guarded_read : r.Guarded own .read := guarded_of_spares fun _ => rfl

theorem updateUser_along (userId : Id) (data : Admin.UpdateUserBody) (actingAdminId : Id) :
    (Admin.updateUser userId data actingAdminId).Along Stmt.exec
      (AdminRequest.updateUser userId data actingAdminId).Guarded (fun _ _ => True) [] := by
  unfold Admin.updateUser
  split
  · exact .throw
  split
  · exact .throw
  refine Prog.along_send_bind.mpr ⟨AdminRequest.guarded_read, fun w₁ _ _ => ?_⟩
  split
  · exact .throw
  rename_i user hfound
  obtain ⟨huser, _⟩ := Option.filter_eq_some_iff.mp hfound
  refine lastAdmin_bind_along AdminRequest.guarded_read fun last own hown hcount => ?_
  split
  · exact .throw
  rename_i hlast
  refine Prog.along_send_bind.mpr ⟨AdminRequest.guarded_read, fun w₃ _ _ => ?_⟩
  refine Prog.along_send_bind.mpr ⟨fun w htakes => ?_, fun _ _ _ => trivial⟩
  -- of the columns written here, the role alone takes an administrator away
  have hdemotes : data.role = some .user :=
    (takesAdmin_update htakes).resolve_right fun hdeletes => (by cases hdeletes)
  exact AdminRequest.counted rfl huser rfl
    (fun hrole => hcount (by simp [hdemotes, hrole]) (by simpa using hlast))
    (hown.trans (List.suffix_cons _ _)) (List.suffix_cons _ _)

theorem deleteUser_along (userId actingAdminId : Id) :
    (Admin.deleteUser userId actingAdminId).Along Stmt.exec
      (AdminRequest.deleteUser userId actingAdminId).Guarded (fun _ _ => True) [] := by
  unfold Admin.deleteUser
  refine Prog.along_send_bind.mpr ⟨AdminRequest.guarded_read, fun w₁ _ _ => ?_⟩
  split
  · exact .throw
  rename_i user hfound
  obtain ⟨huser, _⟩ := Option.filter_eq_some_iff.mp hfound
  refine lastAdmin_bind_along AdminRequest.guarded_read fun last own hown hcount => ?_
  split
  · exact .throw
  rename_i hlast
  split
  · exact .throw
  refine Prog.along_send_bind.mpr ⟨AdminRequest.guarded_read, fun w₃ _ _ => ?_⟩
  refine Prog.along_send_bind.mpr ⟨fun w _ => ?_, fun _ _ _ => trivial⟩
  exact AdminRequest.counted rfl huser rfl
    (fun hrole => hcount (by simp [hrole]) (by simpa using hlast))
    (hown.trans (List.suffix_cons _ _)) (List.suffix_cons _ _)

theorem deleteAccount_along (userId : Id) (password : String) :
    (deleteAccount env userId password).Along Stmt.exec
      (AdminRequest.deleteAccount userId password).Guarded (fun _ _ => True) [] := by
  unfold deleteAccount
  refine Prog.along_send_bind.mpr ⟨AdminRequest.guarded_read, fun w₁ _ _ => ?_⟩
  split
  · exact .throw
  rename_i user hfound
  obtain ⟨huser, _⟩ := Option.filter_eq_some_iff.mp hfound
  split
  · exact .throw
  refine Prog.along_send_bind.mpr ⟨AdminRequest.guarded_of_spares fun _ => rfl, fun w₂ _ _ => ?_⟩
  split
  · exact .throw
  refine lastAdmin_bind_along AdminRequest.guarded_read fun last own hown hcount => ?_
  split
  · exact .throw
  rename_i hlast
  refine Prog.along_send_bind.mpr ⟨AdminRequest.guarded_read, fun w₄ _ _ => ?_⟩
  split
  · exact .throw
  refine .bind ?_ fun _ own' hown' => ?_
  · unfold SaasBackend.when
    split
    · refine .bind (.send fun _ => AdminRequest.guarded_read) fun subscriptions =>
        (cancelAtStripe_calls subscriptions).mono fun l hl own => ?_
      rcases hl with rfl | ⟨sid, rfl⟩
      · exact AdminRequest.guarded_read
      · exact AdminRequest.guarded_of_spares fun _ => rfl
    · exact .ret
  · have hlater := (List.suffix_cons _ _).trans hown'
    refine Prog.along_send_bind.mpr ⟨fun w _ => ?_, fun _ _ _ => trivial⟩
    exact AdminRequest.counted rfl huser rfl
      (fun hrole => hcount (by simp [hrole]) (by simpa using hlast)) (hown.trans hlater) hlater

theorem AdminRequest.along (r : AdminRequest) :
    (r.prog env).Along Stmt.exec r.Guarded (fun _ _ => True) [] := by
  cases r with
  | updateUser userId data actingAdminId =>
    exact (updateUser_along userId data actingAdminId).andThen fun _ _ _ => trivial
  | deleteUser userId actingAdminId =>
    exact (deleteUser_along userId actingAdminId).andThen fun _ _ _ => trivial
  | deleteAccount userId password =>
    exact (deleteAccount_along userId password).andThen fun _ _ _ => trivial

end Requests

/-- While what a request has read still holds when it takes an administrator away, every
store that a run meets has one. -/
theorem always_an_admin (env : Env) {w₀ : World} (h₀ : w₀.HasAdmin) {tr : List AdminEvent}
    {c : AdminConfig} (hrun : AdminRun env ⟨w₀, []⟩ tr c)
    (hcond : checkEvents (countStands c) tr = true) :
    c.store.HasAdmin ∧ ∀ i l w w', .fire i l w w' ∈ tr → w.HasAdmin := by
  have hrecalled : Recalled Stmt.exec AdminRequest.Guarded (fun _ _ _ => True) tr c :=
    Recalled.steps (fun r _ => r.along) hrun
  refine Steps.carries hrun (fun i l w w' hmem hadmin => ?_) h₀
  obtain ⟨tr₂, tr₁, rfl⟩ := List.append_of_mem hmem
  obtain ⟨hstore, q, hq, hguarded⟩ := hrecalled.events tr₁ tr₂ i l w w' rfl
  rcases hstore with hexec | ⟨_, hsame⟩
  · refine hadmin.exec (fun htakes => ?_) hexec
    have hevent := checkEvents_at hcond
    simp only [countStands, htakes, hq, Bool.not_true, Bool.false_or, Option.any_some,
      Bool.and_eq_true] at hevent
    obtain ⟨hread, hstill⟩ := hevent
    obtain ⟨w₁, hcount, hmany⟩ := hguarded w htakes hread
    rw [hcount, Option.all_some, decide_eq_true_eq] at hstill
    exact Nat.lt_of_lt_of_le hmany hstill
  · exact hsame ▸ hadmin

section Sample

def adminsWorld : World where
  users := ((∅ : Table User).insert 1 { email := "a@x.io", role := .admin }).insert 2
    { email := "b@x.io", role := .admin }
  nonce := 3

theorem adminsWorld_hasAdmin : adminsWorld.HasAdmin := ⟨1, _, rfl, rfl⟩

def demotes (userId actingAdminId : Id) : AdminRequest :=
  .updateUser userId { role := some .user } actingAdminId

def demotedInTurn : List (AdminRequest ⊕ Nat) :=
  .inl (demotes 2 1) :: List.replicate 4 (.inr 0) ++ .inl (demotes 1 2) :: List.replicate 4 (.inr 1)

def demotedAtOnce : List (AdminRequest ⊕ Nat) :=
  .inl (demotes 2 1) :: .inl (demotes 1 2) :: List.replicate 3 (.inr 0) ++ List.replicate 4
    (.inr 1) ++ [.inr 0]

def administered (sched : List (AdminRequest ⊕ Nat)) : AdminConfig :=
  Config.play Stmt.exec (AdminRequest.prog sampleEnv) ⟨adminsWorld, []⟩ sched

def administeredTrace (sched : List (AdminRequest ⊕ Nat)) : List AdminEvent :=
  Config.trace Stmt.exec (AdminRequest.prog sampleEnv) ⟨adminsWorld, []⟩ sched []

theorem administered_run (sched : List (AdminRequest ⊕ Nat)) :
    AdminRun sampleEnv ⟨adminsWorld, []⟩ (administeredTrace sched) (administered sched) :=
  Config.trace_steps Stmt.exec _ sched (fun _ _ => trivial) .refl

theorem always_an_admin_in_turn : (administered demotedInTurn).store.HasAdmin ∧
    ∀ i l w w', .fire i l w w' ∈ administeredTrace demotedInTurn → w.HasAdmin :=
  always_an_admin sampleEnv adminsWorld_hasAdmin (administered_run demotedInTurn)
    (by decide +kernel)

/-- No administrator is left. -/
theorem demoted_each_other :
    AdminRun sampleEnv ⟨adminsWorld, []⟩ (administeredTrace demotedAtOnce)
    (administered demotedAtOnce) ∧
      adminsWorld.HasAdmin ∧ ¬ (administered demotedAtOnce).store.HasAdmin := by
  refine ⟨administered_run demotedAtOnce, adminsWorld_hasAdmin, fun hadmin => ?_⟩
  rw [World.hasAdmin_iff] at hadmin
  exact absurd hadmin (by decide +kernel)

end Sample

end SaasBackend
