import SaasBackend.AccountGates
import SaasBackend.AdminPresence

set_option autoImplicit false

namespace SaasBackend
open Keyed Handler

def User.canAdminister (u : User) (now : Time) : Bool :=
  u.isAdmin && !u.banned && !u.suspendedAt now

def World.UsableAdmin (w : World) (k : Id) : Prop :=
  ∃ u, w.users.get? k = some u ∧ u.canAdminister w.now = true

def World.Administrable (w : World) : Prop := ∃ k, w.UsableAdmin k

def Admin.UpdateUserBody.patch (data : Admin.UpdateUserBody) (now : Time) : UserPatch where
  name := data.name
  role := data.role
  banned := data.banned
  bannedAt := data.banned.map (fun b => if b then some now else none)
  suspendedUntil := data.suspendedUntil

inductive AdminRoute where
  | updateUser (userId : Id) (data : Admin.UpdateUserBody)
  | deleteUser (userId : Id)
  | restoreUser (userId : Id)
  deriving DecidableEq, Repr

def AdminRoute.handle (header : AuthHeader) (route : AdminRoute) : Req Unit := do
  let caller ← authenticate header
  authorize [.admin] caller
  match route with
  | .updateUser userId data => (Admin.updateUser userId data caller.id).bind fun _ => .ret ()
  | .deleteUser userId => (Admin.deleteUser userId caller.id).bind fun _ => .ret ()
  | .restoreUser userId => (Admin.restoreUser userId).bind fun _ => .ret ()

inductive Administration where
  | admin (header : AuthHeader) (route : AdminRoute)
  | deleteAccount (header : AuthHeader) (password : String)
  | wait (d : Time)
  deriving DecidableEq, Repr

def Administration.prog (env : Env) : Administration → Req Unit
  | .admin header route => route.handle header
  | .deleteAccount header password => (authenticate header).bind fun caller =>
    (SaasBackend.deleteAccount env caller.id password).bind fun _ => .ret ()
  | .wait d => execute (.tick d)

/-- What `deleteAccount` asks for before it deletes the account `u` with row `x`. -/
structure World.Deletable (env : Env) (w : World) (u : Id) (password : String) (x : User) :
    Prop where
  matched : ∃ hash, x.password = some hash ∧ env.bcryptCompare password hash = true
  counted : x.role = .admin → 1 < w.admins.length
  unblocked : w.blockingOrgs u = []
  canceled : env.stripeConfigured = true →
    ∀ r ∈ w.subscriptionsOf u, (w.stripe.get? r.2.stripeSubscriptionId).isSome = true

def Administration.Withdraws (env : Env) (w : World) (k : Id) : Administration → Prop
  | .admin (.bearer token) (.updateUser userId data) =>
    userId = k ∧ token.id = k ∧ (∃ x, AccessStands w token x) ∧ data.banned ≠ some true ∧
      data.role ≠ some .user ∧ ∃ t, data.suspendedUntil = some (some t) ∧ w.now < t
  | .deleteAccount (.bearer token) password =>
    token.id = k ∧ ∃ x, AccessStands w token x ∧ w.Deletable env k password x
  | _ => False

def Administration.Strands (env : Env) (w : World) (r : Administration) : Prop :=
  ∃ k, (∀ k', w.UsableAdmin k' ↔ k' = k) ∧ r.Withdraws env w k

section Rows

variable {w w' : World} {k : Id}

theorem World.UsableAdmin.of_row (h : w.UsableAdmin k) (hnow : w'.now = w.now)
    (hrow : w'.users.get? k = w.users.get? k) : w'.UsableAdmin k := by
  obtain ⟨u, hu, husable⟩ := h
  exact ⟨u, hrow ▸ hu, hnow ▸ husable⟩

theorem AccessStands.usableAdmin {token : AccessToken} {x : User} (h : AccessStands w token x)
    (hrole : x.role = .admin) : w.UsableAdmin token.id :=
  ⟨x, h.user, by simp [User.canAdminister, User.isAdmin, hrole, h.live, h.notBanned,
    h.notSuspended]⟩

/-- With user `k` taken out and the others as they were, someone is left unless `k` was the only
one. -/
theorem administrable_without (h : w.Administrable) (hnow : w'.now = w.now)
    (hgone : ¬ w'.UsableAdmin k) (hothers : ∀ k', k' ≠ k → w'.users.get? k' = w.users.get? k') :
    w'.Administrable ↔ ¬ ∀ k', w.UsableAdmin k' ↔ k' = k := by
  constructor
  · rintro ⟨k', hk'⟩ hsole
    by_cases hne : k' = k
    · exact hgone (hne ▸ hk')
    · exact hne ((hsole k').mp (hk'.of_row hnow.symm (hothers k' hne).symm))
  · intro hnot
    by_contra hnone
    have hall : ∀ k', w.UsableAdmin k' → k' = k := by
      intro k' hk'
      by_contra hne
      exact hnone ⟨k', hk'.of_row hnow (hothers k' hne)⟩
    obtain ⟨k₀, hk₀⟩ := h
    exact hnot fun k' => ⟨hall k', fun heq => heq ▸ hall k₀ hk₀ ▸ hk₀⟩

theorem World.Administrable.wait (h : w.Administrable) (d : Time) :
    ({ w with now := w.now + d } : World).Administrable := by
  obtain ⟨k, u, hu, husable⟩ := h
  simp only [User.canAdminister, Bool.and_eq_true, Bool.not_eq_true', User.suspendedAt] at husable
  refine ⟨k, u, hu, ?_⟩
  simp only [User.canAdminister, Bool.and_eq_true, Bool.not_eq_true', User.suspendedAt]
  refine ⟨husable.1, ?_⟩
  cases hs : u.suspendedUntil with
  | none => rfl
  | some t =>
    have hover : ¬ w.now < t := by simpa [hs] using husable.2
    simpa using Nat.le_trans (Nat.not_lt.mp hover) (Nat.le_add_right _ _)

end Rows

section Services

variable {env : Env} {w : World} {k : Id}

def Spares {α : Type} (w : World) (k : Id) : Except Err α → World → Prop :=
  fun _ w' => w'.now = w.now ∧ w'.users.get? k = w.users.get? k

theorem spares_of_sends {α : Type} {p : Req α}
    (hp : p.Sends (fun l => l = .read ∨ ∃ id d, l = .userUpdate id d ∧ id ≠ k)) :
    p.Ends Stmt.exec (Spares w k) w := by
  refine hp.run (R := fun w w' : World => w'.now = w.now ∧ w'.users.get? k = w.users.get? k)
    (fun _ => ⟨rfl, rfl⟩) (fun _ _ _ h h' => ⟨h'.1.trans h.1, h'.2.trans h.2⟩) ?_ w
  rintro l w w' (rfl | ⟨id, d, rfl, hne⟩) hexec
  · cases hexec
    exact ⟨rfl, rfl⟩
  · rw [(setUser_ok hexec).1]
    exact ⟨rfl, by simp [Ne.symm hne]⟩

theorem updateUser_spares {userId : Id} (hne : userId ≠ k) (data : Admin.UpdateUserBody)
    (actingAdminId : Id) :
    (Admin.updateUser userId data actingAdminId).Ends Stmt.exec (Spares w k) w := by
  refine spares_of_sends ?_
  unfold Admin.updateUser
  split
  · exact .throw
  split
  · exact .throw
  refine .bind (.send (.inl rfl)) fun found => ?_
  split
  · exact .throw
  refine .bind ((lastAdmin_reads _).mono fun _ => .inl) fun last => ?_
  split
  · exact .throw
  · exact .bind (.send (.inl rfl)) fun _ => .bind (.send (.inr ⟨_, _, rfl, hne⟩)) fun _ => .ret

theorem deleteUser_spares (userId : Id) :
    (Admin.deleteUser userId k).Ends Stmt.exec (Spares w k) w := by
  refine spares_of_sends (.bind (.send (.inl rfl)) fun found => ?_)
  split
  · exact .throw
  refine .bind ((lastAdmin_reads _).mono fun _ => .inl) fun last => ?_
  split
  · exact .throw
  split
  · exact .throw
  · rename_i hne
    exact .bind (.send (.inl rfl)) fun _ => .bind (.send (.inr ⟨_, _, rfl, hne⟩)) fun _ => .ret

theorem restoreUser_spares {x : User} (hx : w.users.get? k = some x) (hlive : x.live = true)
    (userId : Id) :
    (Admin.restoreUser userId).Ends Stmt.exec (Spares w k) w := by
  unfold Admin.restoreUser
  rw [Prog.bind_eq, ends_query_bind]
  cases hfound : (w.users.get? userId).filter (fun u => !u.live) with
  | none => exact ⟨rfl, rfl⟩
  | some user =>
    obtain ⟨huser, hdead⟩ := Option.filter_eq_some_iff.mp hfound
    have hne : userId ≠ k := by
      rintro rfl
      rw [hx] at huser
      cases huser
      simp [hlive] at hdead
    refine spares_of_sends (.bind (.tryCatch (.send (.inr ⟨_, _, rfl, hne⟩)) fun err => ?_)
      fun _ => .ret)
    split
    · exact .throw
    · exact .throw

/-- What an administrator does to his own row. Neither the ban nor the demotion gets through. -/
theorem updateUser_self (hw : w.Unclashed) {x : User} (hx : w.users.get? k = some x)
    (hlive : x.live = true) (data : Admin.UpdateUserBody) :
    (Admin.updateUser k data k).Ends Stmt.exec (fun _ w' =>
      if data.banned = some true ∨ data.role = some .user then w' = w
      else w' = { w with users := w.users.update k (data.patch w.now).apply }) w := by
  unfold Admin.updateUser
  by_cases hban : data.banned = some true
  · rw [if_pos ⟨rfl, hban⟩]
    exact (if_pos (Or.inl hban)).mpr rfl
  rw [if_neg (by simp [hban])]
  by_cases hdemote : data.role = some .user
  · rw [if_pos ⟨rfl, hdemote⟩]
    exact (if_pos (Or.inr hdemote)).mpr rfl
  rw [if_neg (by simp [hdemote])]
  simp only [hban, hdemote, or_self, if_false]
  have hexec : (Stmt.userUpdate k (data.patch w.now)).exec w =
      .ok { w with users := w.users.update k (data.patch w.now).apply } :=
    setUser_eq_ok hx fun k' v hk' hne => hw k k' x v hx hk' (Ne.symm hne)
  simp only [findUserById, Prog.bind_eq, ends_query_bind, hx, Option.filter_some, hlive,
    if_true, false_and, decide_false, lastAdmin, Bool.false_eq_true, if_false, Prog.pure_eq,
    Prog.ret_bind, ends_date_bind, saveUser]
  rw [ends_send_bind]
  simp only [Admin.UpdateUserBody.patch] at hexec
  rw [hexec]
  rfl

theorem cancelAtStripe_ends (subs : List (Id × Subscription)) (w : World) :
    (cancelAtStripe subs).Ends Stmt.exec (fun r w' => w'.users = w.users ∧ w'.now = w.now ∧
      (r = .ok () ↔ ∀ s ∈ subs, (w.stripe.get? s.2.stripeSubscriptionId).isSome = true)) w := by
  induction subs generalizing w with
  | nil => exact ⟨rfl, rfl, fun _ _ h => (by cases h), fun _ => rfl⟩
  | cons s rest ih =>
    obtain ⟨i, sub⟩ := s
    simp only [cancelAtStripe, Prog.bind_eq, Prog.tryCatch_eq, ends_tryCatch_execute_bind,
      Stmt.exec]
    cases hsome : (w.stripe.get? sub.stripeSubscriptionId).isSome with
    | false => exact ⟨rfl, rfl, fun h => (by cases h), fun h => by simp [hsome] at h⟩
    | true =>
      simp only [if_true]
      refine (ih _).weaken fun r w' h => ⟨h.1, h.2.1, h.2.2.trans ?_⟩
      -- a canceled row of Stripe is a row still
      have hkept : ∀ sid : Id, ((w.stripe.update sub.stripeSubscriptionId
          (fun s => { s with status := .canceled })).get? sid).isSome =
          (w.stripe.get? sid).isSome := by
        intro sid
        rw [Table.get?_update]
        split <;> simp
      simp only [List.forall_mem_cons, hsome, true_and, hkept]

theorem deleteAccount_erases {x : User} (hx : w.users.get? k = some x) (hlive : x.live = true)
    (password : String) :
    (SaasBackend.deleteAccount env k password).Ends Stmt.exec (fun _ w' => w'.now = w.now ∧
      (w.Deletable env k password x ∧ w'.users = w.users.erase k ∨
        ¬ w.Deletable env k password x ∧ w'.users = w.users)) w := by
  have hrefused : ∀ {w' : World}, w'.now = w.now → w'.users = w.users →
    ¬ w.Deletable env k password x →
      w'.now = w.now ∧ (w.Deletable env k password x ∧ w'.users = w.users.erase k ∨
        ¬ w.Deletable env k password x ∧ w'.users = w.users) :=
        fun hnow husers hnot => ⟨hnow, .inr ⟨hnot, husers⟩⟩
  unfold SaasBackend.deleteAccount
  simp only [Prog.bind_eq, findUserById, ends_query_bind, hx, Option.filter_some, hlive, if_true]
  cases hpassword : x.password with
  | none =>
    refine hrefused rfl rfl fun h => ?_
    obtain ⟨hash, hhash, _⟩ := h.matched
    rw [hpassword] at hhash
    cases hhash
  | some hash =>
    dsimp only
    rw [comparePassword, ends_send_bind]
    simp only [Stmt.exec]
    split
    · rename_i hinvalid
      refine hrefused rfl rfl fun h => ?_
      obtain ⟨hash', hhash, hmatched⟩ := h.matched
      rw [hpassword] at hhash
      cases hhash
      simp [hmatched] at hinvalid
    rename_i hvalid
    refine Ends.bind (lastAdmin_counts _) ?_ ?_
    · rintro last w' ⟨rfl, hlast⟩
      cases hlast
      split
      · rename_i hfew
        refine hrefused rfl rfl fun h => ?_
        simp only [Bool.and_eq_true, decide_eq_true_eq] at hfew
        exact absurd (h.counted hfew.1) (Nat.not_lt.mpr hfew.2)
      rename_i hcounted
      rw [ends_query_bind]
      split
      · rename_i hblocked
        exact hrefused rfl rfl fun h => hblocked h.unblocked
      rename_i hblocking
      have hrest : ∀ hcanceled : env.stripeConfigured = true →
          ∀ r ∈ w'.subscriptionsOf k, (w'.stripe.get? r.2.stripeSubscriptionId).isSome = true,
          w'.Deletable env k password x := fun hcanceled =>
        ⟨⟨hash, hpassword, by simpa using hvalid⟩, fun hrole => by simpa [hrole] using hcounted,
          by simpa using hblocking, hcanceled⟩
      refine Ends.bind (Q := fun r w'' => w''.users = w'.users ∧ w''.now = w'.now ∧
        (r = .ok () ↔ w'.Deletable env k password x)) ?_ (fun a w'' hdone => ?_)
        fun e w'' hdone => ?_
      · unfold when
        split
        · rename_i hconfigured
          rw [ends_query_bind]
          refine (cancelAtStripe_ends _ _).weaken fun r w'' h =>
            ⟨h.1, h.2.1, h.2.2.trans ⟨fun hall => ?_, fun h => ?_⟩⟩
          · exact hrest fun _ => hall
          · exact h.canceled hconfigured
        · rename_i hoff
          exact ⟨rfl, rfl, fun _ => hrest fun hconfigured => absurd hconfigured hoff, fun _ => rfl⟩
      · obtain ⟨husers, hnow, hdeletable⟩ := hdone
        have hexec : (Stmt.userDelete k).exec w'' = .ok (w''.deleteUser k) := by
          simp [Stmt.exec, World.require, husers, hx]
        rw [ends_execute_bind, hexec]
        exact ⟨hnow, .inl ⟨hdeletable.mp rfl, by simp [World.deleteUser, husers]⟩⟩
      · obtain ⟨husers, hnow, hdeletable⟩ := hdone
        exact hrefused hnow husers fun h => by cases hdeletable.mpr h
    · rintro e w' ⟨rfl, hlast⟩
      cases hlast

end Services

section Requests

variable {env : Env} {w w' : World} {k : Id}

theorem Administration.Strands.usable {r : Administration} (h : r.Strands env w) :
    ∃ k, w.UsableAdmin k ∧ r.Withdraws env w k := by
  obtain ⟨k, hsole, hwithdraws⟩ := h
  exact ⟨k, (hsole k).mpr rfl, hwithdraws⟩

/-- A request that the usable administrator `k` survives and that is not his withdrawal. -/
theorem iff_of_spared {r : Administration} (hk : w.UsableAdmin k) (hnow : w'.now = w.now)
    (hrow : w'.users.get? k = w.users.get? k) (hnot : ¬ r.Strands env w) : w'.Administrable ↔
      ¬ r.Strands env w :=
  iff_of_true ⟨k, hk.of_row hnow hrow⟩ hnot

theorem usableAdmin_patched {x : User} {data : Admin.UpdateUserBody} (hx : w.users.get? k = some x)
    (husable : x.canAdminister w.now = true) (hban : data.banned ≠ some true)
    (hdemote : data.role ≠ some .user) :
    ({ w with users := w.users.update k (data.patch w.now).apply } : World).UsableAdmin k ↔
      ¬ ∃ t, data.suspendedUntil = some (some t) ∧ w.now < t := by
  have hrow : ∀ v, (w.users.update k (data.patch w.now).apply).get? k = some v ↔
      v = (data.patch w.now).apply x := by
    intro v
    simp [hx, eq_comm]
  have hpatched : ((data.patch w.now).apply x).canAdminister w.now = true ↔
      ¬ ∃ t, data.suspendedUntil = some (some t) ∧ w.now < t := by
    simp only [User.canAdminister, User.isAdmin, User.live, Bool.and_eq_true, beq_iff_eq,
      Bool.not_eq_true'] at husable ⊢
    have hrole : ((data.patch w.now).apply x).role = .admin := by
      cases hr : data.role with
      | none => simp [UserPatch.apply, Admin.UpdateUserBody.patch, hr, husable]
      | some role =>
        cases role with
        | admin => simp [UserPatch.apply, Admin.UpdateUserBody.patch, hr]
        | user => exact absurd hr hdemote
    have hbanned : ((data.patch w.now).apply x).banned = false := by
      cases hb : data.banned with
      | none => simp [UserPatch.apply, Admin.UpdateUserBody.patch, hb, husable]
      | some b => cases b <;> simp [UserPatch.apply, Admin.UpdateUserBody.patch, hb] at hban ⊢
    have hdeleted : ((data.patch w.now).apply x).deletedAt.isNone = true := by
      simp [UserPatch.apply, Admin.UpdateUserBody.patch, husable]
    simp only [hrole, hbanned, hdeleted, true_and]
    cases hs : data.suspendedUntil with
    | none =>
      have hopen : ((data.patch w.now).apply x).suspendedAt w.now = false := by
        simpa [User.suspendedAt, UserPatch.apply, Admin.UpdateUserBody.patch, hs] using husable.2
      simp [hopen]
    | some u => cases u <;> simp [User.suspendedAt, UserPatch.apply, Admin.UpdateUserBody.patch, hs]
  constructor
  · rintro ⟨v, hv, hvusable⟩
    rw [(hrow v).mp hv] at hvusable
    exact hpatched.mp hvusable
  · exact fun h => ⟨_, (hrow _).mpr rfl, hpatched.mpr h⟩

theorem updateUser_administrable (h : w.Administrable) (hw : w.Unclashed)
    {token : AccessToken} {x : User} (hx : AccessStands w token x) (hrole : x.role = .admin)
    (userId : Id) (data : Admin.UpdateUserBody) :
    (Admin.updateUser userId data token.id).Ends Stmt.exec (fun _ w' => w'.Administrable ↔
      ¬ (Administration.admin (.bearer token) (.updateUser userId data)).Strands env w) w := by
  have husable := hx.usableAdmin hrole
  by_cases hself : userId = token.id
  · subst hself
    refine (updateUser_self hw hx.user hx.live data).weaken fun _ w' hw' => ?_
    split at hw'
    · rename_i hrefused
      subst hw'
      refine iff_of_true h fun ⟨k, _, hwithdraws⟩ => ?_
      exact hrefused.elim hwithdraws.2.2.2.1 hwithdraws.2.2.2.2.1
    · rename_i hpassed
      obtain ⟨hban, hdemote⟩ := not_or.mp hpassed
      subst hw'
      have hcan : x.canAdminister w.now = true := by
        obtain ⟨y, hy, hcan⟩ := husable
        cases hx.user.symm.trans hy
        exact hcan
      have hpatched := usableAdmin_patched hx.user hcan hban hdemote
      by_cases hsuspends : ∃ t, data.suspendedUntil = some (some t) ∧ w.now < t
      · have hgone := fun hstill => hpatched.mp hstill hsuspends
        refine (administrable_without h (by rfl) hgone fun k' hne => by simp [hne]).trans ?_
        refine not_congr
          ⟨fun hsole => ⟨token.id, hsole, rfl, rfl, ⟨x, hx⟩, hban, hdemote, hsuspends⟩, ?_⟩
        rintro ⟨k, hsole, rfl, -⟩
        exact hsole
      · exact iff_of_true ⟨token.id, hpatched.mpr hsuspends⟩ fun ⟨k, _, hwithdraws⟩ =>
          hsuspends hwithdraws.2.2.2.2.2
  · refine (updateUser_spares hself data token.id).weaken fun _ w' hw' => ?_
    refine iff_of_spared husable hw'.1 hw'.2 ?_
    rintro ⟨k, _, rfl, hid, -⟩
    exact hself hid.symm

theorem deleteAccount_administrable (h : w.Administrable) {token : AccessToken} {x : User}
    (hx : AccessStands w token x) (password : String) :
    (SaasBackend.deleteAccount env token.id password).Ends Stmt.exec (fun _ w' => w'.Administrable ↔
      ¬ (Administration.deleteAccount (.bearer token) password).Strands env w) w := by
  refine (deleteAccount_erases hx.user hx.live password).weaken fun _ w' hw' => ?_
  obtain ⟨hnow, ⟨hdeletable, husers⟩ | ⟨hnot, husers⟩⟩ := hw'
  · have hgone : ¬ w'.UsableAdmin token.id := fun ⟨u, hu, _⟩ => by simp [husers] at hu
    refine (administrable_without h hnow hgone fun k' hne => by simp [husers, hne]).trans ?_
    refine not_congr ⟨fun hsole => ⟨token.id, hsole, rfl, x, hx, hdeletable⟩, ?_⟩
    rintro ⟨k, hsole, rfl, -⟩
    exact hsole
  · obtain ⟨k, hk⟩ := h
    refine iff_of_spared hk hnow (by rw [husers]) ?_
    rintro ⟨k', _, rfl, y, hy, hdeletable⟩
    cases hx.user.symm.trans hy.user
    exact hnot hdeletable

/-- A whole request leaves a usable administrator, except by the withdrawal of the only one. -/
theorem Administration.administrable_iff (h : w.Administrable) (hw : w.Unclashed)
    (r : Administration) :
    (r.prog env).Ends Stmt.exec (fun _ w' => w'.Administrable ↔ ¬ r.Strands env w) w := by
  cases r with
  | admin header route =>
    simp only [Administration.prog, AdminRoute.handle, Prog.bind_eq]
    refine ends_authenticate_bind (fun hnone e => ?_) fun token x hheader hx => ?_
    · refine iff_of_true h fun hstrands => ?_
      obtain ⟨k, _, hwithdraws⟩ := hstrands
      cases header with
      | missing | malformed => exact hwithdraws
      | bearer token =>
        cases route with
        | updateUser =>
          obtain ⟨_, _, ⟨x, hx⟩, -⟩ := hwithdraws
          exact hnone token x rfl hx
        | deleteUser | restoreUser => exact hwithdraws
    subst hheader
    by_cases hrole : x.role = .admin
    · have hpass : authorize [.admin] (token.caller x) = .ret () := by
        simp [authorize, AccessToken.caller, hrole]
      rw [hpass, Prog.ret_bind]
      have husable := hx.usableAdmin hrole
      cases route with
      | updateUser userId data =>
        exact Ends.bind (updateUser_administrable h hw hx hrole userId data) (fun _ _ h' => h')
          fun _ _ h' => h'
      | deleteUser userId =>
        have hspares := deleteUser_spares (k := token.id) (w := w) userId
        have hkept : ¬ (Administration.admin (.bearer token) (.deleteUser userId)).Strands
          env w := by
          rintro ⟨_, _, hwithdraws⟩
          exact hwithdraws
        exact Ends.bind hspares
          (fun _ _ h' => iff_of_spared husable h'.1 h'.2 hkept)
          fun _ _ h' => iff_of_spared husable h'.1 h'.2 hkept
      | restoreUser userId =>
        have hspares := restoreUser_spares hx.user hx.live userId
        have hkept : ¬ (Administration.admin (.bearer token) (.restoreUser userId)).Strands
          env w := by
          rintro ⟨_, _, hwithdraws⟩
          exact hwithdraws
        exact Ends.bind hspares
          (fun _ _ h' => iff_of_spared husable h'.1 h'.2 hkept)
          fun _ _ h' => iff_of_spared husable h'.1 h'.2 hkept
    · have hstop : authorize [.admin] (token.caller x) =
          .throw (httpError "errors.insufficientPermissions" 403) := by
        simp [authorize, AccessToken.caller, hrole]
      rw [hstop]
      refine iff_of_true h fun hstrands => ?_
      obtain ⟨k, hk, hwithdraws⟩ := hstrands.usable
      cases route with
      | updateUser =>
        obtain ⟨_, rfl, -⟩ := hwithdraws
        obtain ⟨y, hy, hcan⟩ := hk
        cases hx.user.symm.trans hy
        simp [User.canAdminister, User.isAdmin, hrole] at hcan
      | deleteUser | restoreUser => exact hwithdraws
  | deleteAccount header password =>
    refine ends_authenticate_bind (fun hnone e => ?_) fun token x hheader hx => ?_
    · refine iff_of_true h fun hstrands => ?_
      obtain ⟨k, _, hwithdraws⟩ := hstrands
      cases header with
      | missing | malformed => exact hwithdraws
      | bearer token =>
        obtain ⟨_, x, hx, -⟩ := hwithdraws
        exact hnone token x rfl hx
    · subst hheader
      exact Ends.bind (deleteAccount_administrable h hx password) (fun _ _ h' => h')
        fun _ _ h' => h'
  | wait d =>
    refine iff_of_true (h.wait d) fun hstrands => ?_
    obtain ⟨_, _, hwithdraws⟩ := hstrands
    exact hwithdraws

end Requests

abbrev AdministrationHistory (env : Env) : World → List (Entry Administration World Err Unit) →
    World → Prop :=
  Steps (Served Stmt.exec (Administration.prog env) (fun _ _ => True))

/-- A run of whole requests meets a usable administrator in every state exactly when the only
one never suspends himself or deletes his account. -/
theorem always_administrable_iff (env : Env) {w₀ w : World}
    {h : List (Entry Administration World Err Unit)}
    (hw₀ : w₀.Unclashed) (h₀ : w₀.Administrable) (hrun : AdministrationHistory env w₀ h w) :
    (w.Administrable ∧ ∀ e ∈ h, e.pre.Administrable) ↔ ∀ e ∈ h, ¬ e.req.Strands env e.pre := by
  suffices hall : w.Unclashed ∧
      ((w.Administrable ∧ ∀ e ∈ h, e.pre.Administrable) ↔ ∀ e ∈ h, ¬ e.req.Strands env e.pre)
        from hall.2
  refine Served.invariant (I := fun h w => w.Unclashed ∧
    ((w.Administrable ∧ ∀ e ∈ h, e.pre.Administrable) ↔ ∀ e ∈ h, ¬ e.req.Strands env e.pre))
    ⟨hw₀, fun _ _ he => (by cases he), fun _ => ⟨h₀, fun _ he => (by cases he)⟩⟩
      (fun h w r hI _ => ?_) hrun
  obtain ⟨hw, hiff⟩ := hI
  have hw' : ((r.prog env).run Stmt.exec w).2.Unclashed :=
    Prog.Maintains.of_exec (fun _ _ _ hexec hw => hw.exec hexec) (r.prog env) w hw
  refine ⟨hw', ?_⟩
  simp only [List.forall_mem_cons]
  constructor
  · rintro ⟨hend, hhere, hearlier⟩
    exact ⟨(r.administrable_iff hhere hw : _ ↔ _).mp hend, hiff.mp ⟨hhere, hearlier⟩⟩
  · rintro ⟨hspared, hearlier⟩
    obtain ⟨hhere, hmet⟩ := hiff.mpr hearlier
    exact ⟨(r.administrable_iff hhere hw : _ ↔ _).mpr hspared, hhere, hmet⟩

section Sample

def officeWorld : World where
  users :=
    ((∅ : Table User).insert 1
    { email := "a@x.io", password := some "pw", role := .admin }).insert 2
    { email := "b@x.io", password := some "pw", role := .admin }
  nonce := 3

theorem officeWorld_unclashed : officeWorld.Unclashed := by
  have hrow : ∀ {k x}, officeWorld.users.get? k = some x →
      k = 2 ∧ x = { email := "b@x.io", password := some "pw", role := .admin } ∨
        k = 1 ∧ x = { email := "a@x.io", password := some "pw", role := .admin } := by
    intro k x hk
    rcases Table.get?_insert_cases hk with hk | heq
    · rcases Table.get?_insert_cases hk with hk | heq
      · cases hk
      · exact .inr heq
    · exact .inl heq
  intro i j u v hu hv hne
  rcases hrow hu with ⟨rfl, rfl⟩ | ⟨rfl, rfl⟩ <;> rcases hrow hv with ⟨rfl, rfl⟩ | ⟨rfl, rfl⟩
  · exact absurd rfl hne
  · rfl
  · rfl
  · exact absurd rfl hne

theorem officeWorld_administrable : officeWorld.Administrable := ⟨1, _, rfl, rfl⟩

def bearerOf (id : Id) : AuthHeader := .bearer ⟨id, "", .admin, 0, 100⟩

def disciplined : List Administration :=
  [.admin (bearerOf 1) (.updateUser 2 { suspendedUntil := some (some 50) }), .wait 50,
    .admin (bearerOf 1) (.updateUser 2 { banned := some true })]

def selfSuspended : List Administration :=
  disciplined ++ [.admin (bearerOf 1) (.updateUser 1 { suspendedUntil := some (some 90) })]

def selfDeleted : List Administration := disciplined ++ [.deleteAccount (bearerOf 1) "pw"]

def office (rs : List Administration) : List (Entry Administration World Err Unit) × World :=
  serveAll Stmt.exec (Administration.prog sampleEnv) rs ([], officeWorld)

theorem office_history (rs : List Administration) :
    AdministrationHistory sampleEnv officeWorld (office rs).1 (office rs).2 :=
  serveAll_steps rs (fun _ _ _ => trivial) [] .refl

theorem always_administrable_disciplined :
    ((office disciplined).2.Administrable ∧ ∀ e ∈ (office disciplined).1, e.pre.Administrable) ↔
      ∀ e ∈ (office disciplined).1, ¬ e.req.Strands sampleEnv e.pre :=
  always_administrable_iff sampleEnv officeWorld_unclashed officeWorld_administrable
    (office_history disciplined)

theorem not_administrable_of_rows {w : World}
    (hall : ∀ r ∈ w.users.rows, r.2.canAdminister w.now = false) :
    ¬ w.Administrable := by
  rintro ⟨k, u, hu, hcan⟩
  rw [hall _ (Table.mem_rows.mpr hu)] at hcan
  cases hcan

/-- No administrator is left who could undo either of them. -/
theorem administrators_lost :
    (AdministrationHistory sampleEnv officeWorld (office selfSuspended).1 (office selfSuspended).2 ∧
        ¬ (office selfSuspended).2.Administrable) ∧
      (AdministrationHistory sampleEnv officeWorld (office selfDeleted).1 (office selfDeleted).2 ∧
        ¬ (office selfDeleted).2.Administrable) ∧
      officeWorld.Unclashed ∧ officeWorld.Administrable :=
  ⟨⟨office_history _, not_administrable_of_rows (by decide +kernel)⟩,
    ⟨office_history _, not_administrable_of_rows (by decide +kernel)⟩,
    officeWorld_unclashed, officeWorld_administrable⟩

end Sample

end SaasBackend
