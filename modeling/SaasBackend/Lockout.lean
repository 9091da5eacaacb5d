import SaasBackend.AuthService
import SaasBackend.FactorRequests
import Mathlib.Data.List.Perm.Subperm

/-! Password guessing against one account. The lock is looked at before the comparison,
the failure is counted after it, and the lock is written after that. -/

set_option autoImplicit false

namespace SaasBackend
open Keyed Handler

/-- A comparison against a stored hash; the dummy hash tells nothing. -/
def Stmt.guesses : Stmt → Bool
  | .bcryptCompare (some _) => true
  | _ => false

def Stmt.records : Stmt → Bool
  | .userUpdate _ d => d.failedLoginIncrement
  | _ => false

def Stmt.setsLock : Stmt → Bool
  | .userUpdate _ d => d.lockedUntil.join.isSome
  | _ => false

def Stmt.succeeds : Stmt → Bool
  | .userUpdate _ d => d.lastLoginAt.isSome
  | _ => false

def Stmt.leavesUsers : Stmt → Bool
  | .userCreate _ | .userUpdate .. | .userDelete _ | .killSessions .. | .reuseDetected _ => false
  | _ => true

def World.foundBy (w : World) (e : String) (id : Id) (u : User) : Prop :=
  w.users.find? (fun _ u => u.email == e && u.live) = some (id, u)

inductive LoginWrites (e : String) : Own → Stmt → Prop where
  | leaves {own : Own} {l : Stmt} : l.leavesUsers = true → l.guesses = false → LoginWrites e own l
  | clears {own : Own} {w w' : World} {id : Id} {u : User} {t : Time} : (.read, w) ∈ own →
      w.foundBy e id u → u.lockedUntil = some t → (.read, w') ∈ own → t ≤ w'.now →
      LoginWrites e own (.userUpdate id { failedLoginAttempts := some 0, lockedUntil := some none })
  | guesses {own : Own} {w w' : World} {id : Id} {u : User} {hash : PasswordHash} :
      own.getLast? = some (.read, w) → w.foundBy e id u → u.password = some hash →
        (.read, w') ∈ own →
      u.lockedUntil.any (fun t => decide (w'.now < t)) = false → (∀ x ∈ own, x.1.guesses = false) →
      LoginWrites e own (.bcryptCompare (some hash))
  | records {own : Own} {w : World} {id : Id} {u : User} : (.read, w) ∈ own → w.foundBy e id u →
      (u.password.isSome = true → ∃ x ∈ own, x.1.guesses = true) →
      (∀ x ∈ own, x.1.records = false) →
      LoginWrites e own (.userUpdate id { failedLoginIncrement := true })
  | locks {own : Own} {w : World} {id : Id} {u : User} {t : Time} : (.read, w) ∈ own →
      w.foundBy e id u → LoginWrites e own (.userUpdate id { lockedUntil := some (some t) })
  | succeeds {own : Own} {w : World} {id : Id} {u : User} {t : Time} : (.read, w) ∈ own →
      w.foundBy e id u → LoginWrites e own
        (.userUpdate id
          { failedLoginAttempts := some 0, lockedUntil := some none, lastLoginAt := some t })

section Along

variable {env : Env} {α : Type} {Q : Own → Stmt → Prop} {R : Own → α → Prop} {own : Own}

theorem when_bind_along {c : Bool} {l : Stmt} {k : Unit → Req α} (hl : c = true → Q own l)
    (hk : ∀ own', own' = own ∨ (∃ w, own' = (l, w) :: own) → (k ()).Along Stmt.exec Q R own') :
    ((when c (execute l)).bind k).Along Stmt.exec Q R own := by
  cases c with
  | false => exact hk own (.inl rfl)
  | true => exact Prog.along_send_bind.mpr ⟨hl rfl, fun w _ _ => hk _ (.inr ⟨w, rfl⟩)⟩

theorem checkPassword_bind_along {password : String} {user : User} {isLocked : Bool}
    {k : Bool → Req α} (hdummy : Q own (.bcryptCompare none))
    (hguess : ∀ hash, user.password = some hash → isLocked = false →
      Q own (.bcryptCompare (some hash)))
    (hk : ∀ valid compared w,
      (user.password.isSome = true → isLocked = false → compared.isSome = true) →
      (k valid).Along Stmt.exec Q R ((.bcryptCompare compared, w) :: own)) :
    ((checkPassword env password user isLocked).bind k).Along Stmt.exec Q R own := by
  unfold checkPassword
  split
  · rename_i hash hpassword
    exact Prog.along_send_bind.mpr ⟨hguess hash hpassword rfl,
      fun w _ _ => hk _ (some hash) w fun _ _ => rfl⟩
  · rename_i hnot
    refine Prog.along_send_bind.mpr ⟨hdummy, fun w _ _ => hk _ none w fun hsome hopen => ?_⟩
    obtain ⟨hash, hash_eq⟩ := Option.isSome_iff_exists.mp hsome
    exact absurd hopen (hnot hash hash_eq)

theorem login_along (email password : String) (client : ClientInfo) :
    (login env email password client).Along Stmt.exec (LoginWrites (normalizeEmail env email))
      (fun _ _ => True) [] := by
  refine Prog.along_send_bind.mpr ⟨.leaves rfl rfl, fun w₁ _ _ => ?_⟩
  split
  · exact Prog.along_send_bind.mpr ⟨.leaves rfl rfl, fun _ _ _ => .throw⟩
  · rename_i id user hfound
    refine Prog.along_send_bind.mpr ⟨.leaves rfl rfl, fun w₂ _ _ => ?_⟩
    refine Prog.along_send_bind.mpr ⟨.leaves rfl rfl, fun w₃ _ _ => ?_⟩
    refine when_bind_along (fun hexpired => ?_) fun own hown => ?_
    · obtain ⟨t, ht, hpast⟩ := (Option.any_eq_true _ _).mp hexpired
      exact .clears (w := w₁) (by simp) hfound ht (.head _) (of_decide_eq_true hpast)
    have hlast : own.getLast? = some (.read, w₁) := by rcases hown with rfl | ⟨w, rfl⟩ <;> rfl
    have hread : (.read, w₁) ∈ own := List.mem_of_getLast? hlast
    have hclock : (.read, w₂) ∈ own := by rcases hown with rfl | ⟨w, rfl⟩ <;> simp
    have hquiet : ∀ x ∈ own, x.1.guesses = false ∧ x.1.records = false := by
      rcases hown with rfl | ⟨w, rfl⟩ <;> simp [Stmt.guesses, Stmt.records]
    refine checkPassword_bind_along (.leaves rfl rfl)
      (fun hash hpassword hopen => .guesses hlast hfound hpassword hclock hopen
        fun x hx => (hquiet x hx).1)
      fun valid compared w₄ hcompared => ?_
    split
    · unfold SaasBackend.when
      split
      · rename_i hopen
        simp only [Prog.bind_eq, Prog.bind_assoc]
        refine Prog.along_send_bind.mpr
          ⟨.records (.tail _ hread) hfound (fun hsome => ?_) fun x hx => ?_, fun w₅ _ _ => ?_⟩
        · obtain ⟨hash, rfl⟩ := Option.isSome_iff_exists.mp (hcompared hsome (by simpa using hopen))
          exact ⟨_, .head _, rfl⟩
        · rcases List.mem_cons.mp hx with rfl | hx
          · rfl
          · exact (hquiet x hx).2
        · split
          · simp only [Prog.bind_assoc]
            refine Prog.along_send_bind.mpr ⟨.leaves rfl rfl, fun w₆ _ _ => ?_⟩
            exact Prog.along_send_bind.mpr
              ⟨.locks (.tail _ (.tail _ (.tail _ hread))) hfound, fun _ _ _ => .throw⟩
          · exact .throw
      · exact .throw
    · split
      · exact .throw
      · refine Prog.along_send_bind.mpr ⟨.leaves rfl rfl, fun w₅ _ _ => ?_⟩
        split
        · exact .throw
        · split
          · refine .bind ?_ fun _ _ _ => trivial
            exact .bind (.send fun _ => .leaves rfl rfl) fun _ =>
              .bind (.send fun _ => .leaves rfl rfl) fun _ =>
              .bind (.send fun _ => .leaves rfl rfl) fun _ => .ret
          · refine .bind ?_ fun refreshToken own' hsuffix => ?_
            · exact .bind (.send fun _ => .leaves rfl rfl) fun _ =>
                .bind (.send fun _ => .leaves rfl rfl) fun _ =>
                .bind (.send fun _ => .leaves rfl rfl) fun _ => .ret
            · refine Prog.along_send_bind.mpr ⟨.leaves rfl rfl, fun w₆ _ _ => ?_⟩
              refine Prog.along_send_bind.mpr
                ⟨.succeeds (.tail _ (hsuffix.mem (.tail _ (.tail _ hread)))) hfound,
                fun w₇ _ _ => ?_⟩
              exact Prog.along_send_bind.mpr ⟨.leaves rfl rfl, fun _ _ _ => trivial⟩

end Along

inductive LoginRequest where
  | login (email password : String) (client : ClientInfo)
  | pass (d : Time)
  deriving DecidableEq, Repr

def LoginRequest.prog (env : Env) : LoginRequest → Req Unit
  | .login email password client =>
      (SaasBackend.login env email password client).bind fun _ => .ret ()
  | .pass d => execute (.tick d)

def LoginRequest.concerns (env : Env) (e : String) : LoginRequest → Prop
  | .login email _ _ => normalizeEmail env email = e
  | .pass _ => True

theorem LoginRequest.along {env : Env} {e : String} {r : LoginRequest} (hr : r.concerns env e) :
    (r.prog env).Along Stmt.exec (LoginWrites e) (fun _ _ => True) [] := by
  cases r with
  | login email password client =>
    have hlogin : (SaasBackend.login env email password client).Along Stmt.exec
        (LoginWrites (normalizeEmail env email)) (fun _ _ => True) [] :=
          login_along email password client
    rw [show normalizeEmail env email = e from hr] at hlogin
    exact hlogin.andThen fun _ _ _ => trivial
  | pass d => exact .of_sends (.send fun _ => .leaves rfl rfl) (.send fun _ _ => trivial) []

structure World.Account (w : World) (e : String) (id : Id)
    (password : Option PasswordHash) : Prop where
  row : ∃ u, w.users.get? id = some u ∧ u.live = true ∧ u.email = e ∧ u.password = password
  sole : ∀ k u, w.users.get? k = some u → u.live = true → u.email = e → k = id

theorem World.Account.found {w : World} {e : String} {id k : Id} {u : User}
    {password : Option PasswordHash} (h : w.Account e id password) (hfound : w.foundBy e k u) :
    k = id ∧ w.users.get? id = some u ∧ u.password = password := by
  obtain ⟨hk, hmatch⟩ := Table.find?_some hfound
  obtain ⟨hemail, hlive⟩ : u.email = e ∧ u.live = true := by simpa using hmatch
  obtain rfl := h.sole k u hk hlive hemail
  obtain ⟨u', hu', _, _, hpassword⟩ := h.row
  rw [hk] at hu'
  cases hu'
  exact ⟨rfl, hk, hpassword⟩

def Stmt.keepsAccounts : Stmt → Bool
  | .userUpdate _ d => d.email.isNone && d.password.isNone && d.deletedAt.isNone
  | l => l.leavesUsers

theorem LoginWrites.keepsAccounts {e : String} {own : Own} {l : Stmt} (h : LoginWrites e own l) :
    l.keepsAccounts = true := by
  cases h with
  | leaves hleaves => cases l <;> first | exact hleaves | cases hleaves
  | _ => rfl

theorem World.Account.exec {l : Stmt} {w w' : World} {e : String} {id : Id}
    {password : Option PasswordHash} (h : w.Account e id password) (hl : l.keepsAccounts = true)
    (hexec : l.exec w = .ok w') :
    w'.Account e id password := by
  have heff := exec_effect hexec
  have hsame : ∀ {k u u'}, UserStep k l u u' → u'.live = u.live ∧ u'.email = u.email ∧
      u'.password = u.password := by
    intro k u u' hstep
    cases hstep with
    | same => exact ⟨rfl, rfl, rfl⟩
    | update d =>
      simp only [Stmt.keepsAccounts, Bool.and_eq_true, Option.isNone_iff_eq_none] at hl
      obtain ⟨⟨hemail, hpassword⟩, hdeleted⟩ := hl
      simp [UserPatch.apply, User.live, hemail, hpassword, hdeleted]
    | kill d => cases hl
    | reuse => cases hl
  constructor
  · obtain ⟨u, hu, hlive, hemail, hpassword⟩ := h.row
    obtain ⟨u', hu', hstep⟩ := heff.user_forth hu (by rintro rfl; cases hl)
    obtain ⟨hlive', hemail', hpassword'⟩ := hsame hstep
    exact ⟨u', hu', hlive'.trans hlive, hemail'.trans hemail, hpassword'.trans hpassword⟩
  · intro k u' hk hlive hemail
    rcases heff.user_back hk with ⟨u, hu, hstep⟩ | ⟨x, rfl, _⟩
    · obtain ⟨hlive', hemail', _⟩ := hsame hstep
      exact h.sole k u hu (hlive'.symm.trans hlive) (hemail'.symm.trans hemail)
    · cases hl

abbrev LoginConfig := Config LoginRequest World Err Stmt Unit
abbrev LoginEvent := Event LoginRequest World Stmt

abbrev LoginRun (env : Env) (e : String) : LoginConfig → List LoginEvent → LoginConfig → Prop :=
  Steps (Step Stmt.exec (LoginRequest.prog env) (LoginRequest.concerns env e)
    (fun _ l => l.succeeds = false))

def World.attempts (w : World) (id : Id) : Nat :=
  ((w.users.get? id).map (·.failedLoginAttempts)).getD 0

def World.lock (w : World) (id : Id) : Option Time := (w.users.get? id).bind (·.lockedUntil)

def World.lockStands (w : World) (id : Id) (now : Time) : Bool :=
  ((w.users.get? id).bind (·.lockedUntil)).all (fun t => decide (now < t))

def guessed (tr : List LoginEvent) : List Nat := passed Stmt.exec Stmt.guesses tr

def counted (tr : List LoginEvent) : List Nat := passed Stmt.exec Stmt.records tr

def lockWriters (tr : List LoginEvent) : List Nat := passed Stmt.exec Stmt.setsLock tr

def filled (id : Id) : List LoginEvent → List Nat
  | [] => []
  | .arrive _ :: tr => filled id tr
  | .fire i l w _ :: tr =>
    if l.records = true ∧ maxFailedAttempts ≤ w.attempts id + 1 then i :: filled id tr
    else filled id tr

def lockSeen (id : Id) (i : Nat) (tr : List LoginEvent) : Option Time :=
  (own Stmt.exec i tr).getLast?.bind (fun x => x.2.lock id)

/-- What a comparison meets, after the run before it: the lock that its request read, no
comparison still to be counted, and no lock still to be written. -/
def guessCurrent (id : Id) (tr : List LoginEvent) : LoginEvent → Bool
  | .fire i (.bcryptCompare (some _)) w _ => lockSeen id i tr == w.lock id &&
    (guessed tr).all (counted tr).contains && (filled id tr).all (lockWriters tr).contains
  | _ => true

/-- What a statement does to the account: it counts a failure, or locks it, or neither. -/
inductive AccountStep (id : Id) (u : User) : Stmt → Option User → Prop where
  | leaves {l : Stmt} : l.records = false → l.setsLock = false → AccountStep id u l (some u)
  | counts : AccountStep id u (.userUpdate id { failedLoginIncrement := true })
      (some { u with failedLoginAttempts := u.failedLoginAttempts + 1 })
  | locks {t : Time} : AccountStep id u (.userUpdate id { lockedUntil := some (some t) })
      (some { u with lockedUntil := some t })

section Runs

variable {env : Env} {e : String} {w₀ : World} {tr : List LoginEvent} {c : LoginConfig} {id : Id}
  {password : Option PasswordHash}

theorem LoginRun.recalled (hrun : LoginRun env e ⟨w₀, []⟩ tr c) :
    Recalled Stmt.exec (fun _ => LoginWrites e) (fun _ _ _ => True) tr c :=
  Recalled.steps (fun _ hr => LoginRequest.along hr) hrun

theorem LoginRun.account (hrun : LoginRun env e ⟨w₀, []⟩ tr c) (h₀ : w₀.Account e id password) :
    c.store.Account e id password ∧ ∀ i l w w', .fire i l w w' ∈ tr → w.Account e id password :=
  Recalled.invariant (fun w => w.Account e id password) (fun _ hr => LoginRequest.along hr)
    (fun _ _ _ _ _ _ hl h _ hexec => h.exec hl.keepsAccounts hexec) h₀ hrun

theorem LoginWrites.accountStep {own : Own} {l : Stmt} {w w' : World} {u : User}
    (hl : LoginWrites e own l)
    (hown : ∀ x ∈ own, x.2.Account e id password ∧ ∀ y ∈ own, x.2.lockStands id y.2.now = true)
    (hu : w.users.get? id = some u) (hfails : l.succeeds = false) (hexec : l.exec w = .ok w') :
    AccountStep id u l (w'.users.get? id) := by
  have husers := (exec_effect hexec).users
  cases hl with
  | leaves hleaves _ =>
    have hsame : w'.users = w.users := by
      rw [husers]
      cases l <;> first | rfl | cases hleaves
    rw [hsame, hu]
    exact .leaves (by cases l <;> first | rfl | cases hleaves)
      (by cases l <;> first | rfl | cases hleaves)
  | clears hread hfound hlocked hread' hpast =>
    obtain ⟨hacc, hstands⟩ := hown _ hread
    obtain ⟨rfl, hrow, _⟩ := hacc.found hfound
    have hstill := hstands _ hread'
    simp only [World.lockStands, hrow, Option.bind_some, hlocked, Option.all_some,
      decide_eq_true_eq] at hstill
    exact absurd hstill (Nat.not_lt.mpr hpast)
  | guesses =>
    rw [show w'.users.get? id = some u from by cases hexec; exact hu]
    exact .leaves rfl rfl
  | records hread hfound _ _ =>
    obtain ⟨rfl, _, _⟩ := (hown _ hread).1.found hfound
    rw [husers, Stmt.usersAfter, Table.get?_update, if_pos rfl, hu]
    exact .counts
  | locks hread hfound =>
    obtain ⟨rfl, _, _⟩ := (hown _ hread).1.found hfound
    rw [husers, Stmt.usersAfter, Table.get?_update, if_pos rfl, hu]
    exact .locks
  | succeeds => cases hfails

theorem LoginRun.accountStep {deadline : Time} {i : Nat} {l : Stmt} {w w' w'' : World}
    (hrun : LoginRun env e ⟨w₀, []⟩ (.fire i l w w' :: tr) c) (h₀ : w₀.Account e id password)
    (hlock : ∀ i l w w', .fire i l w w' ∈ tr → w.now ≤ deadline ∧ w.lockStands id deadline = true)
    (hfails : l.succeeds = false) (hexec : l.exec w = .ok w'') :
    ∃ u, w.users.get? id = some u ∧ AccountStep id u l (w''.users.get? id) := by
  obtain ⟨_, _, _, hwrites⟩ := (LoginRun.recalled hrun).events tr [] i l w w' rfl
  have hmet := (LoginRun.account hrun h₀).2
  obtain ⟨u, hu, _⟩ := (hmet _ _ _ _ (.head _)).row
  have hown : ∀ x ∈ own Stmt.exec i tr, x.2.Account e id password ∧
      ∀ y ∈ own Stmt.exec i tr, x.2.lockStands id y.2.now = true := by
    rintro ⟨m, s⟩ hx
    obtain ⟨_, hfire, _⟩ := mem_own hx
    refine ⟨hmet _ _ _ _ (.tail _ hfire), fun y hy => ?_⟩
    obtain ⟨_, hfire', _⟩ := mem_own hy
    have hstands := (hlock _ _ _ _ hfire).2
    have hearlier := (hlock _ _ _ _ hfire').1
    simp only [World.lockStands, Option.all_eq_true, decide_eq_true_eq] at hstands ⊢
    exact fun t ht => Nat.lt_of_le_of_lt hearlier (hstands t ht)
  exact ⟨u, hu, hwrites.accountStep hown hu hfails hexec⟩

/-- The stored counter is the number of failures that were counted, and the lock that was
written last is stored. -/
theorem LoginRun.stored {deadline : Time} (hrun : LoginRun env e ⟨w₀, []⟩ tr c)
    (h₀ : w₀.Account e id password) (hzero : w₀.attempts id = 0)
    (hlock : ∀ i l w w', .fire i l w w' ∈ tr → w.now ≤ deadline ∧ w.lockStands id deadline = true) :
    c.store.attempts id = (counted tr).length ∧
    (lockWriters tr ≠ [] → (c.store.lock id).isSome = true) := by
  unfold counted lockWriters
  induction hrun with
  | refl => exact ⟨hzero, fun h => absurd rfl h⟩
  | @snoc tr c c' _ hbefore hstep ih =>
    cases hstep with
    | arrive hr => exact ih fun i l w w' hmem => hlock i l w w' (.tail _ hmem)
    | @fire i r l n k hi hcond =>
      have hlock' : ∀ i l w w', .fire i l w w' ∈ tr →
          w.now ≤ deadline ∧ w.lockStands id deadline = true :=
        fun i l w w' hmem => hlock i l w w' (.tail _ hmem)
      obtain ⟨hattempts, hlocked⟩ := ih hlock'
      cases hexec : l.exec c.store with
      | error e =>
        rw [Config.advance_error _ hi hexec, passed_fire_of_error hexec,
          passed_fire_of_error hexec]
        exact ⟨hattempts, hlocked⟩
      | ok w' =>
        obtain ⟨u, hu, hstep⟩ :=
          LoginRun.accountStep (.snoc hbefore (.fire hi hcond)) h₀ hlock' hcond hexec
        rw [Config.advance_ok _ hi hexec, passed_fire_of_ok hexec, passed_fire_of_ok hexec,
          World.attempts, World.lock]
        simp only [World.attempts, World.lock, hu, Option.map_some, Option.getD_some,
          Option.bind_some] at hattempts hlocked
        generalize w'.users.get? id = row at hstep
        cases hstep with
        | leaves hrecords hset => simpa [hrecords, hset] using ⟨hattempts, hlocked⟩
        | counts => simpa [Stmt.records, Stmt.setsLock] using ⟨hattempts, hlocked⟩
        | locks => simpa [Stmt.records, Stmt.setsLock] using hattempts

theorem LoginRun.once (hrun : LoginRun env e ⟨w₀, []⟩ tr c) : (guessed tr).Nodup := by
  refine passed_nodup fun tr₁ tr₂ i l w w' htr hkind => ?_
  obtain ⟨_, _, _, hwrites⟩ := (LoginRun.recalled hrun).events tr₁ tr₂ i l w w' htr
  cases hwrites with
  | leaves _ hno => rw [hno] at hkind; cases hkind
  | guesses _ _ _ _ _ hnone => exact hnone
  | _ => cases hkind

theorem mem_filled {i : Nat} {l : Stmt} {w w' : World} (tr₁ tr₂ : List LoginEvent)
    (hrecords : l.records = true) (hfull : maxFailedAttempts ≤ w.attempts id + 1) :
    i ∈ filled id (tr₂ ++ .fire i l w w' :: tr₁) := by
  induction tr₂ with
  | nil => simp [filled, hrecords, hfull]
  | cons e tr₂ ih =>
    cases e with
    | arrive r => exact ih
    | fire j m s s' =>
      rw [List.cons_append, filled]
      split
      · exact .tail _ ih
      · exact ih

/-- With as many failures counted as the counter holds, some request has filled it. -/
theorem LoginRun.some_filled {deadline : Time} (hrun : LoginRun env e ⟨w₀, []⟩ tr c)
    (h₀ : w₀.Account e id password) (hzero : w₀.attempts id = 0)
    (hlock : ∀ i l w w', .fire i l w w' ∈ tr → w.now ≤ deadline ∧ w.lockStands id deadline = true)
    (hfull : maxFailedAttempts ≤ (counted tr).length) : ∃ i, i ∈ filled id tr := by
  by_contra hnone
  have hfew : (counted tr).length ≤ maxFailedAttempts - 1 := by
    refine passed_length_le_iff.mpr fun tr₁ tr₂ i l w w' htr hrecords _ => ?_
    subst htr
    obtain ⟨c₁, _, hbefore, rfl, _⟩ := Steps.at_fire hrun
    have hattempts := (LoginRun.stored hbefore h₀ hzero fun j m s s' hmem =>
      hlock j m s s' (List.mem_append_right _ (.tail _ hmem))).1
    by_contra hmany
    refine hnone ⟨i, mem_filled tr₁ tr₂ hrecords ?_⟩
    rw [hattempts, counted]
    omega
  have hmax : 0 < maxFailedAttempts := by decide
  omega

/-- A login that compares has read an account whose lock, if any, had run out. -/
theorem LoginRun.guess_open (hrun : LoginRun env e ⟨w₀, []⟩ tr c) (h₀ : w₀.Account e id password)
    {tr₁ tr₂ : List LoginEvent} {i : Nat} {l : Stmt} {w w' : World}
    (htr : tr = tr₂ ++ .fire i l w w' :: tr₁) (hkind : l.guesses = true) :
    (∃ hash, l = .bcryptCompare (some hash)) ∧ ∃ j m s s', .fire j m s s' ∈ tr ∧
      ∀ t, lockSeen id i tr₁ = some t → t ≤ s.now := by
  obtain ⟨_, _, _, hwrites⟩ := (LoginRun.recalled hrun).events tr₁ tr₂ i l w w' htr
  cases hwrites with
  | leaves _ hno => rw [hno] at hkind; cases hkind
  | @guesses w₁ w₂ k u hash hlast hfound _ hclock hopen _ =>
    have hmem : ∀ {j m s s'}, Event.fire j m s s' ∈ tr₁ → Event.fire j m s s' ∈ tr :=
      fun h => htr ▸ List.mem_append_right _ (.tail _ h)
    obtain ⟨_, hfire, _⟩ := mem_own (List.mem_of_getLast? hlast)
    obtain ⟨_, hfire', _⟩ := mem_own hclock
    obtain ⟨rfl, hrow, _⟩ := ((LoginRun.account hrun h₀).2 _ _ _ _ (hmem hfire)).found hfound
    refine ⟨⟨_, rfl⟩, _, _, _, _, hmem hfire', fun t ht => ?_⟩
    have hlocked : u.lockedUntil = some t := by
      simpa [lockSeen, hlast, World.lock, hrow] using ht
    simpa [hlocked] using hopen
  | _ => cases hkind

end Runs

/-- While every comparison meets the lock that its login has read, after every failure before
it has been counted and every full counter has locked the account, at most five requests
compare a password with the account's before a lock expires. -/
theorem guesses_bounded (env : Env) {e : String} {w₀ : World} {id : Id}
    {password : Option PasswordHash}
    (h₀ : w₀.Account e id password) (hzero : w₀.attempts id = 0) {tr : List LoginEvent}
    {c : LoginConfig} (hrun : LoginRun env e ⟨w₀, []⟩ tr c)
    (hlock : ∀ i l w w', .fire i l w w' ∈ tr → w.lockStands id c.store.now = true)
    (hcond : checkEvents (guessCurrent id) tr = true) :
    (guessed tr).Nodup ∧ (guessed tr).length ≤ maxFailedAttempts := by
  refine ⟨LoginRun.once hrun, passed_length_le_iff.mpr ?_⟩
  intro tr₁ tr₂ i l w w' htr hkind _
  have hnow := (Steps.since (r := fun w w' => w.now ≤ w'.now) (fun _ => Nat.le_refl _)
    (fun _ _ _ => Nat.le_trans)
    (fun _ _ _ hexec => (exec_effect hexec).now_le) hrun).2
  have hstands : ∀ i l w w', .fire i l w w' ∈ tr →
      w.now ≤ c.store.now ∧ w.lockStands id c.store.now = true :=
    fun i l w w' hmem => ⟨hnow i l w w' hmem, hlock i l w w' hmem⟩
  obtain ⟨⟨hash, rfl⟩, j, m, s, s', hclock, hopen⟩ := LoginRun.guess_open hrun h₀ htr hkind
  subst htr
  have hevent := checkEvents_at hcond
  simp only [guessCurrent, Bool.and_eq_true, beq_iff_eq, List.all_eq_true,
    List.contains_iff_mem] at hevent
  obtain ⟨⟨hseen, hcounted⟩, hlocking⟩ := hevent
  obtain ⟨c₁, _, hbefore, rfl, hupto, _⟩ := Steps.at_fire hrun
  have hearlier : ∀ j m s s', .fire j m s s' ∈ tr₁ →
      s.now ≤ c.store.now ∧ s.lockStands id c.store.now = true :=
    fun j m s s' hmem => hstands j m s s' (List.mem_append_right _ (.tail _ hmem))
  -- five comparisons before this one have filled the counter, so the account is locked
  by_contra hmany
  have hfewer : (guessed tr₁).length ≤ (counted tr₁).length :=
    ((LoginRun.once hbefore).subperm hcounted).length_le
  obtain ⟨k, hk⟩ := LoginRun.some_filled hbefore h₀ hzero hearlier
    ((Nat.le_of_not_lt hmany).trans hfewer)
  obtain ⟨t, ht⟩ := Option.isSome_iff_exists.mp
    ((LoginRun.stored hbefore h₀ hzero hearlier).2 (List.ne_nil_of_mem (hlocking k hk)))
  -- and the lock that it has read is this one, which has not run out
  have hpast := hopen t (hseen.trans ht)
  have hlater := hlock _ _ _ _ (List.mem_append_right tr₂ List.mem_cons_self)
  rw [World.lockStands,
    show (c₁.store.users.get? id).bind (·.lockedUntil) = some t from ht] at hlater
  have hfuture : c.store.now < t := by simpa using hlater
  exact absurd (hpast.trans (hnow _ _ _ _ hclock)) (Nat.not_le.mpr hfuture)

section Sample

def guessedWorld : World where
  users := (∅ : Table User).insert 1 { email := "a@x.io", password := some "pw" }
  nonce := 2

theorem guessedWorld_account : guessedWorld.Account "a@x.io" 1 (some "pw") := by
  refine ⟨⟨_, rfl, rfl, rfl, rfl⟩, fun k u hk _ _ => ?_⟩
  rcases Table.get?_insert_cases hk with hnone | ⟨rfl, _⟩
  · cases hnone
  · rfl

def wrongLogin : LoginRequest ⊕ Nat := .inl (.login "a@x.io" "no" {})

def sixInTurn : List (LoginRequest ⊕ Nat) :=
  (List.range 6).flatMap fun i => wrongLogin :: List.replicate 7 (.inr i)

def sixAtOnce : List (LoginRequest ⊕ Nat) :=
  List.replicate 6 wrongLogin ++ (List.range 6).flatMap fun i => List.replicate 4 (.inr i)

def guessing (sched : List (LoginRequest ⊕ Nat)) : LoginConfig :=
  Config.play Stmt.exec (LoginRequest.prog sampleEnv) ⟨guessedWorld, []⟩ sched

def guessingTrace (sched : List (LoginRequest ⊕ Nat)) : List LoginEvent :=
  Config.trace Stmt.exec (LoginRequest.prog sampleEnv) ⟨guessedWorld, []⟩ sched []

theorem guessing_run {sched : List (LoginRequest ⊕ Nat)}
    (harrive : ∀ a ∈ sched, a.isRight = true ∨ a = wrongLogin)
    (hobeys : Config.obeys Stmt.exec (LoginRequest.prog sampleEnv) (fun _ l => !l.succeeds)
    ⟨guessedWorld, []⟩ sched = true) :
    LoginRun sampleEnv "a@x.io" ⟨guessedWorld, []⟩ (guessingTrace sched) (guessing sched) := by
  refine Config.trace_obeys Stmt.exec _ (fun _ l h => by simpa using h) sched (fun r hr => ?_)
    hobeys .refl
  rcases harrive _ hr with hfire | hlogin
  · cases hfire
  obtain rfl := Sum.inl.inj hlogin
  show normalizeEmail sampleEnv "a@x.io" = "a@x.io"
  decide +kernel

def lockedThroughout (sched : List (LoginRequest ⊕ Nat)) : Bool :=
  checkEvents (fun _ e =>
    match e with
    | .fire _ _ w _ => w.lockStands 1 (guessing sched).store.now
    | .arrive _ => true) (guessingTrace sched)

theorem lockedThroughout_fires {sched : List (LoginRequest ⊕ Nat)}
    (h : lockedThroughout sched = true) (i : Nat) (l : Stmt) (w w' : World)
    (hmem : .fire i l w w' ∈ guessingTrace sched) :
    w.lockStands 1 (guessing sched).store.now = true := by
  obtain ⟨tr₂, tr₁, htr⟩ := List.append_of_mem hmem
  rw [lockedThroughout, htr] at h
  exact checkEvents_at h

theorem guesses_bounded_in_turn :
    (guessed (guessingTrace sixInTurn)).Nodup ∧
      (guessed (guessingTrace sixInTurn)).length ≤ maxFailedAttempts :=
  guesses_bounded sampleEnv guessedWorld_account rfl
    (guessing_run (by decide +kernel) (by decide +kernel))
    (lockedThroughout_fires (by decide +kernel)) (by decide +kernel)

/-- The sixth comparison gets in before the lock. -/
theorem guessed_at_once :
    LoginRun sampleEnv "a@x.io" ⟨guessedWorld, []⟩ (guessingTrace sixAtOnce) (guessing sixAtOnce) ∧
      guessedWorld.Account "a@x.io" 1 (some "pw") ∧ guessedWorld.attempts 1 = 0 ∧
      (guessedWorld.users.get? 1).bind (·.lockedUntil) = none ∧
      (∀ i l w w', .fire i l w w' ∈ guessingTrace sixAtOnce →
        w.lockStands 1 (guessing sixAtOnce).store.now = true) ∧
      guessed (guessingTrace sixAtOnce) = [5, 4, 3, 2, 1, 0] ∧
      ¬ (guessed (guessingTrace sixAtOnce)).length ≤ maxFailedAttempts := by
  have hsix : guessed (guessingTrace sixAtOnce) = [5, 4, 3, 2, 1, 0] := by decide +kernel
  refine ⟨guessing_run (by decide +kernel) (by decide +kernel), guessedWorld_account, rfl, rfl,
    lockedThroughout_fires (by decide +kernel), hsix, ?_⟩
  rw [hsix]
  decide

end Sample

end SaasBackend
