import SaasBackend.FactorRequests
import SaasBackend.PendingChallenges

/-! Google sign-ins and registrations side by side. `googleLogin` looks for the linked
account, then for one with the same e-mail, and links or creates one: four statements, and
between them another request can link the account or create it. -/

set_option autoImplicit false

namespace SaasBackend
open Keyed Handler

inductive GoogleRequest where
  | googleLogin (code state : String) (client : ClientInfo)
  | register (name email password : String) (client : ClientInfo)
  | pass (d : Time)
  deriving DecidableEq, Repr

def GoogleRequest.prog (env : Env) : GoogleRequest → Req Reply
  | .googleLogin code state client => SaasBackend.googleLogin env code state client
  | .register name email password client => SaasBackend.register env name email password client
  | .pass d => (execute (.tick d)).bind fun _ => .ret (.message "" none)

def GoogleRequest.identity (env : Env) : GoogleRequest → Option (String × String)
  | .googleLogin code _ _ =>
    (env.googleExchange code).bind fun payload =>
      payload.sub.bind fun s => payload.email.map fun e => (s, normalizeEmail env e)
  | _ => none

section Lookups

variable (w : World) (s e : String)

/-- `findFirst({ where: { googleId, deletedAt: null } })` -/
def World.linkedTo : Option (Id × User) := w.users.find? (fun _ u => u.googleId == some s && u.live)

/-- `findFirst({ where: { email, deletedAt: null } })` -/
def World.withEmail : Option (Id × User) := w.users.find? (fun _ u => u.email == e && u.live)

/-- `findFirst({ where: { OR: [{ googleId }, { email }], deletedAt: null } })` -/
def World.fallback : Option (Id × User) :=
  w.users.find? (fun _ u => (u.googleId == some s || u.email == e) && u.live)

end Lookups

/-- Where `googleLogin` has its account from. The fallback is the only read that comes
after three reads of which neither lookup found an account: the creation was refused. -/
inductive Sourced (s e : String) : Own → Id → Prop where
  | linked {own : Own} {w : World} {id : Id} {u : User} : (.read, w) ∈ own →
      w.linkedTo s = some (id, u) → Sourced s e own id
  | links {own : Own} {w : World} {id : Id} {d : UserPatch} : (.userUpdate id d, w) ∈ own →
      d.googleId = some s → Sourced s e own id
  | creates {own : Own} {w : World} {u : User} : (.userCreate u, w) ∈ own → u.googleId = some s →
      Sourced s e own w.nonce
  | fallback {own : Own} {w₁ w₂ w₃ w₄ : World} {id : Id} {u : User} :
      [(.read, w₄), (.read, w₃), (.read, w₂), (.read, w₁)] <:+ own → w₂.linkedTo s = none →
      w₃.withEmail e = none → w₄.fallback s e = some (id, u) → Sourced s e own id

theorem Sourced.suffix {s e : String} {own own' : Own} {id : Id} (h : Sourced s e own id)
    (hsuffix : own <:+ own') :
    Sourced s e own' id := by
  cases h with
  | linked hmem hfound => exact .linked (hsuffix.mem hmem) hfound
  | links hmem hlinks => exact .links (hsuffix.mem hmem) hlinks
  | creates hmem hcreates => exact .creates (hsuffix.mem hmem) hcreates
  | fallback hown hlinked hemail hfound =>
    exact .fallback (hown.trans hsuffix) hlinked hemail hfound

def Stmt.addsOnly : Stmt → Bool
  | .userDelete _ | .killSessions .. | .challengeDelete _ | .challengeCleanup _ => false
  | _ => true

def Reply.openedFor (own : Own) (id : Id) : Reply → Prop
  | .session _ token _ _ _ => token.id = id
  | .twoFactorRequired t =>
      ∃ row w, (.challengeCreate row, w) ∈ own ∧ row.token = hashToken t ∧ row.userId = id
  | _ => False

def GoogleRequest.Answers (env : Env) : GoogleRequest → Own → Reply → Prop
  | .googleLogin code state client, own, a =>
    ∃ s e id, (GoogleRequest.googleLogin code state client).identity env = some (s, e) ∧
      Sourced s e own id ∧ a.openedFor own id
  | _, _, _ => True

section Along

variable {env : Env}

theorem googleAccount_along (s e : String) (name : Option String) (w₁ : World) :
    (googleAccount s e name).Along Stmt.exec (fun _ l => l.addsOnly = true)
      (fun own r => Sourced s e own r.1) [(.read, w₁)] := by
  refine Prog.along_send_bind.mpr ⟨rfl, fun w₂ _ _ => ?_⟩
  split
  · rename_i r hlinked
    exact .linked (.head _) hlinked
  · rename_i hlinked
    refine Prog.along_send_bind.mpr ⟨rfl, fun w₃ _ _ => ?_⟩
    split
    · split
      · exact .throw
      · exact Prog.along_send_bind.mpr ⟨rfl, fun w₄ _ _ => .links (.head _) rfl⟩
    · rename_i hemail
      refine Prog.along_tryCatch.mpr ⟨rfl, fun w₄ _ _ => .creates (.head _) rfl, fun err => ?_⟩
      split
      · refine Prog.along_send_bind.mpr ⟨rfl, fun w₄ _ _ => ?_⟩
        split
        · rename_i r hfound
          exact .fallback List.suffix_rfl hlinked hemail hfound
        · exact .throw
      · exact .throw

theorem googleLogin_along (code state : String) (client : ClientInfo) :
    (googleLogin env code state client).Along Stmt.exec (fun _ l => l.addsOnly = true)
      ((GoogleRequest.googleLogin code state client).Answers env) [] := by
  unfold googleLogin
  split
  · exact .throw
  refine Prog.along_send_bind.mpr ⟨rfl, fun w₁ _ _ => ?_⟩
  split
  · exact .throw
  split
  · exact .throw
  rename_i payload hexchange
  split
  · rename_i s e hs he
    split
    · exact .throw
    have hidentity : (GoogleRequest.googleLogin code state client).identity env =
        some (s, normalizeEmail env e) := by
      simp only [GoogleRequest.identity, hexchange, Option.bind_some, hs, he, Option.map_some]
    refine (googleAccount_along s (normalizeEmail env e) payload.name w₁).andThen
      fun r own hsourced => ?_
    obtain ⟨id, user⟩ := r
    dsimp only
    split
    · exact .throw
    refine Prog.along_send_bind.mpr ⟨rfl, fun w₂ _ _ => ?_⟩
    split
    · exact .throw
    split
    · simp only [createChallenge, Prog.bind_eq, Prog.bind_assoc]
      refine Prog.along_send_bind.mpr ⟨rfl, fun w₃ _ _ => ?_⟩
      refine Prog.along_send_bind.mpr ⟨rfl, fun w₄ _ _ => ?_⟩
      refine Prog.along_send_bind.mpr ⟨rfl, fun w₅ _ _ => ?_⟩
      refine ⟨s, _, id, hidentity, hsourced.suffix ?_, _, w₅, .head _, rfl, rfl⟩
      exact (List.suffix_cons _ _).trans ((List.suffix_cons _ _).trans
        ((List.suffix_cons _ _).trans (List.suffix_cons _ _)))
    · refine Prog.along_send_bind.mpr ⟨rfl, fun w₃ _ _ => ?_⟩
      refine Prog.along_send_bind.mpr ⟨rfl, fun w₄ _ _ => ?_⟩
      refine .bind ?_ fun refreshToken own' hsuffix => ?_
      · exact .bind (.send fun _ => rfl) fun _ => .bind (.send fun _ => rfl) fun _ =>
          .bind (.send fun _ => rfl) fun _ => .ret
      · refine Prog.along_send_bind.mpr ⟨rfl, fun w₅ _ _ => ?_⟩
        refine ⟨s, _, id, hidentity, hsourced.suffix ?_, rfl⟩
        exact ((List.suffix_cons _ _).trans
          ((List.suffix_cons _ _).trans (List.suffix_cons _ _))).trans
          (hsuffix.trans (List.suffix_cons _ _))
  · exact .throw

theorem register_addsOnly (name email password : String) (client : ClientInfo) :
    (register env name email password client).Sends (fun l => l.addsOnly = true) := by
  refine .bind (.send rfl) fun existing => ?_
  split
  · exact .throw
  · refine .bind (.send rfl) fun emailVerificationToken => .bind (.send rfl) fun now => ?_
    refine .bind (.tryCatch (.send rfl) fun err => ?_) fun created => ?_
    · split <;> exact .throw
    · refine .bind ?_ fun _ => .bind (.send rfl) fun _ => .bind (.bind (.send rfl) fun _ => .ret)
        fun _ => .ret
      exact .bind (.send rfl) fun _ => .bind (.send rfl) fun _ => .bind (.send rfl) fun _ => .ret

theorem GoogleRequest.along (r : GoogleRequest) :
    (r.prog env).Along Stmt.exec (fun _ l => l.addsOnly = true) (r.Answers env) [] := by
  cases r with
  | googleLogin code state client => exact googleLogin_along code state client
  | register name email password client =>
    exact .of_sends ((register_addsOnly name email password client).mono fun _ hl _ => hl)
      ((Prog.returns_true _).mono fun _ _ _ => trivial) []
  | pass d => exact Prog.along_send_bind.mpr ⟨rfl, fun w _ _ => trivial⟩

end Along

abbrev GoogleConfig := Config GoogleRequest World Err Stmt Reply
abbrev GoogleEvent := Event GoogleRequest World Stmt

def Stmt.linksFree (w : World) : Stmt → Bool
  | .userUpdate id d =>
      d.googleId.all (fun s => (w.users.get? id).all (fun u => u.googleId.all (· == s)))
  | _ => true

/-- Every interleaving of sign-ins and registrations whose links meet the condition. -/
abbrev GoogleRun (env : Env) (cond : World → Stmt → Prop) : GoogleConfig → List GoogleEvent →
    GoogleConfig → Prop :=
  Steps (Step Stmt.exec (GoogleRequest.prog env) (fun _ => True) cond)

/-- What a sign-in falls back to, once its creation is refused, is linked to its subject. -/
def FallbacksHold (env : Env) (tr : List GoogleEvent) (c : GoogleConfig) : Prop :=
  ∀ tr₁ tr₂ i q s e w₁ w₂ w₃ w w', tr = tr₂ ++ .fire i .read w w' :: tr₁ → c.pool[i]? = some q →
    GoogleRequest.identity env q.1 = some (s, e) →
    own Stmt.exec i tr₁ = [(.read, w₃), (.read, w₂), (.read, w₁)] → w₂.linkedTo s = none →
    w₃.withEmail e = none → ∀ id u, w.fallback s e = some (id, u) → u.googleId = some s

def Reply.isFor (w : World) (id : Id) : Reply → Prop
  | .session _ token _ _ _ => token.id = id
  | .twoFactorRequired t =>
    ∃ k ch, w.twoFactorChallenges.get? k = some ch ∧ ch.token = hashToken t ∧ ch.userId = id
  | _ => False

def World.Linked (w : World) (id : Id) (s : String) : Prop :=
  ∃ u, w.users.get? id = some u ∧ u.googleId = some s

theorem World.Linked.exec {w w' : World} {id : Id} {s : String} {l : Stmt} (h : w.Linked id s)
    (hl : l.addsOnly = true) (hfree : l.linksFree w = true) (hexec : l.exec w = .ok w') :
    w'.Linked id s := by
  obtain ⟨u, hu, hs⟩ := h
  obtain ⟨u', hu', hstep⟩ := (exec_effect hexec).user_forth hu (by rintro rfl; cases hl)
  refine ⟨u', hu', ?_⟩
  cases hstep with
  | same => exact hs
  | update d =>
    cases hd : d.googleId with
    | none => simp [UserPatch.apply, hd, hs]
    | some s' =>
      have hsame : s = s' := by simpa [Stmt.linksFree, hd, hu, hs] using hfree
      simp [UserPatch.apply, hd, hsame]
  | kill d => cases hl
  | reuse => exact hs

structure World.ChallengesUnique (w : World) : Prop where
  keys : ∀ k ch, w.twoFactorChallenges.get? k = some ch → k < w.nonce
  unique : ∀ k k' ch ch', w.twoFactorChallenges.get? k = some ch →
    w.twoFactorChallenges.get? k' = some ch' → ch.token = ch'.token → k = k'

theorem World.ChallengesUnique.exec {w w' : World} {l : Stmt} (h : w.ChallengesUnique)
    (hexec : l.exec w = .ok w') :
    w'.ChallengesUnique := by
  have heff := exec_effect hexec
  by_cases hl : ∃ row, l = .challengeCreate row
  · obtain ⟨row, rfl⟩ := hl
    have hrows : ∀ k ch, w'.twoFactorChallenges.get? k = some ch →
        w.twoFactorChallenges.get? k = some ch ∨
          (k = w.nonce ∧ ch = { row with createdAt := w.now }) := by
      intro k ch hk
      rw [heff.twoFactorChallenges] at hk
      exact Table.get?_insert_cases hk
    have hnew : ∀ k ch, w.twoFactorChallenges.get? k = some ch → row.token ≠ ch.token := by
      simp only [Stmt.exec] at hexec
      split at hexec
      · cases hexec
      · split at hexec
        · cases hexec
        · rename_i hany
          intro k ch hk
          exact beq_eq_false_iff_ne.mp (Table.any_eq_false.mp (Bool.not_eq_true _ ▸ hany) k ch hk)
    have hnonce : w'.nonce = w.nonce + 1 := heff.nonce
    refine ⟨fun k ch hk => ?_, fun k k' ch ch' hk hk' htoken => ?_⟩
    · rcases hrows k ch hk with hold | ⟨rfl, _⟩
      · have := h.keys k ch hold
        omega
      · omega
    · rcases hrows k ch hk with hold | ⟨rfl, rfl⟩
      · rcases hrows k' ch' hk' with hold' | ⟨rfl, rfl⟩
        · exact h.unique k k' ch ch' hold hold' htoken
        · exact absurd htoken.symm (hnew k ch hold)
      · rcases hrows k' ch' hk' with hold' | ⟨rfl, _⟩
        · exact absurd htoken (hnew k' ch' hold')
        · rfl
  · have harea : opensNone.contains l.area = true := by
      cases l with
      | challengeCreate row => exact absurd ⟨row, rfl⟩ hl
      | userUpdate id d => simp only [Stmt.area]; split <;> rfl
      | organizationUpdate id d => simp only [Stmt.area]; split <;> rfl
      | invitationCreate i => simp only [Stmt.area]; split <;> rfl
      | _ => rfl
    refine ⟨fun k ch hk => ?_, fun k k' ch ch' hk hk' htoken => ?_⟩
    · obtain ⟨ch₀, hk₀, _⟩ := challenge_back harea heff hk
      exact Nat.lt_of_lt_of_le (h.keys k ch₀ hk₀) heff.nonce_le
    · obtain ⟨ch₀, hk₀, hstep⟩ := challenge_back harea heff hk
      obtain ⟨ch₁, hk₁, hstep'⟩ := challenge_back harea heff hk'
      exact h.unique k k' ch₀ ch₁ hk₀ hk₁ (by rw [← hstep.token, ← hstep'.token, htoken])

def World.Opens (w : World) (k : Id) (t : Nat) (id : Id) : Prop :=
  ∃ ch, w.twoFactorChallenges.get? k = some ch ∧ ch.token = hashToken t ∧ ch.userId = id

theorem World.Opens.exec {w w' : World} {k id : Id} {t : Nat} {l : Stmt} (h : w.Opens k t id)
    (hl : l.addsOnly = true) (hexec : l.exec w = .ok w') : w'.Opens k t id := by
  obtain ⟨ch, hk, htoken, huser⟩ := h
  have heff := (exec_effect hexec).twoFactorChallenges
  unfold World.Opens
  rw [heff]
  cases l with
  | userDelete id | challengeDelete id | challengeCleanup before => cases hl
  | challengeCreate row => exact ⟨ch, Table.get?_insert_of_some hk, htoken, huser⟩
  | challengeAttempt k' =>
    simp only [Stmt.twoFactorChallengesAfter, Table.get?_update]
    split
    · exact ⟨{ ch with attempts := ch.attempts + 1 }, by rw [hk]; rfl, htoken, huser⟩
    · exact ⟨ch, hk, htoken, huser⟩
  | challengeClaim k' =>
    simp only [Stmt.twoFactorChallengesAfter, Table.get?_updateWhere, hk, Option.map_some]
    refine ⟨_, rfl, ?_⟩
    split <;> exact ⟨htoken, huser⟩
  | _ => exact ⟨ch, hk, htoken, huser⟩

section Runs

variable {env : Env} {w₀ : World} {tr tr₁ tr₂ : List GoogleEvent} {c : GoogleConfig} {i : Nat}
    {l : Stmt} {w w' : World}

theorem GoogleRun.recalled {cond : World → Stmt → Prop} (hrun : GoogleRun env cond ⟨w₀, []⟩ tr c) :
    Recalled Stmt.exec (fun _ _ l => l.addsOnly = true) (GoogleRequest.Answers env) tr c :=
  Recalled.steps (fun r _ => r.along) hrun

/-- What holds right after a statement, and what additions keep, holds at the end. -/
theorem GoogleRun.keeps {I : World → Prop}
    (hrun : GoogleRun env (fun w l => l.linksFree w = true) ⟨w₀, []⟩ tr c)
    (hkeep : ∀ (l : Stmt) (w w' : World), l.addsOnly = true → l.linksFree w = true →
    l.exec w = .ok w' → I w → I w') (hmem : .fire i l w w' ∈ tr) {w'' : World} (hok :
    l.exec w = .ok w'') (hafter : I w'') : I c.store := by
  obtain ⟨tr₂, tr₁, rfl⟩ := List.append_of_mem hmem
  obtain ⟨c₁, c₂, hbefore, rfl, hupto, rfl, hrest⟩ := Steps.at_fire hrun
  have hstore : c₂.store = w'' := by
    obtain ⟨hstore, _⟩ := (GoogleRun.recalled hupto).events tr₁ [] i l _ _ rfl
    rcases hstore with heq | ⟨⟨e, herr⟩, _⟩
    · rw [hok] at heq
      exact (Except.ok.inj heq).symm
    · rw [hok] at herr
      cases herr
  exact (Recalled.stores I (fun _ => True) (fun _ _ => trivial) (fun r _ => r.along)
    (fun _ _ l s s' _ hl hI hfree hexec => hkeep l s s' hl hfree hexec hI) hupto
    (fun _ _ _ _ _ => trivial)
    (hstore ▸ hafter) hrest).1

theorem GoogleRun.fresh {cond : World → Stmt → Prop} (hrun : GoogleRun env cond ⟨w₀, []⟩ tr c)
    (hw₀ : w₀.Fresh) (hch : w₀.ChallengesUnique) :
    (c.store.Fresh ∧ c.store.ChallengesUnique) ∧ ∀ i l w w', .fire i l w w' ∈ tr →
      w.Fresh ∧ w.ChallengesUnique :=
  Recalled.invariant (fun w => w.Fresh ∧ w.ChallengesUnique) (fun r _ => r.along)
    (fun _ _ _ _ _ _ _ h _ hexec => ⟨h.1.exec hexec, h.2.exec hexec⟩) ⟨hw₀, hch⟩ hrun

theorem GoogleRun.linked (hrun : GoogleRun env (fun w l => l.linksFree w = true) ⟨w₀, []⟩ tr c)
    (hw₀ : w₀.Fresh) (hch : w₀.ChallengesUnique) (hfall : FallbacksHold env tr c)
    {q : GoogleRequest × Req Reply} (hq : c.pool[i]? = some q) {s e : String} {id : Id}
    (hidentity : q.1.identity env = some (s, e)) (hsourced : Sourced s e (own Stmt.exec i tr) id) :
    c.store.Linked id s := by
  have hkeep : ∀ (l : Stmt) (w w' : World), l.addsOnly = true → l.linksFree w = true →
    l.exec w = .ok w' →
      w.Linked id s → w'.Linked id s := fun _ _ _ hl hfree hexec h => h.exec hl hfree hexec
  cases hsourced with
  | linked hmem hfound =>
    obtain ⟨_, hfire, _⟩ := mem_own hmem
    obtain ⟨hu, hmatch⟩ := Table.find?_some hfound
    simp only [Bool.and_eq_true, beq_iff_eq] at hmatch
    exact GoogleRun.keeps hrun hkeep hfire rfl ⟨_, hu, hmatch.1⟩
  | links hmem hlinks =>
    obtain ⟨_, hfire, w'', hok⟩ := mem_own hmem
    obtain ⟨rfl, u, hu, _⟩ := setUser_ok (show World.setUser _ _ _ = _ from hok)
    refine GoogleRun.keeps hrun hkeep hfire hok ⟨_, by simp [hu]; rfl, ?_⟩
    simp [UserPatch.apply, hlinks]
  | creates hmem hcreates =>
    obtain ⟨_, hfire, w'', hok⟩ := mem_own hmem
    obtain ⟨rfl, _⟩ := userCreate_ok hok
    have hfresh := ((GoogleRun.fresh hrun hw₀ hch).2 _ _ _ _ hfire).1
    refine GoogleRun.keeps hrun hkeep hfire hok ⟨_, Table.get?_insert_self _ ?_, hcreates⟩
    exact Option.eq_none_iff_forall_not_mem.mpr fun u hu => Nat.lt_irrefl _ (hfresh.users _ u hu)
  | @fallback w₁ w₂ w₃ w₄ _ u hown hlinked hemail hfound =>
    obtain ⟨tr₁, tr₂, w', _, htr, hok, hbefore⟩ := own_split hown
    have hs := hfall tr₁ tr₂ i q s e w₁ w₂ w₃ w₄ w' htr hq hidentity hbefore hlinked hemail
      id u hfound
    exact GoogleRun.keeps hrun hkeep (htr ▸ List.mem_append_right _ (.head _)) hok
      (by cases hok; exact ⟨u, (Table.find?_some hfound).1, hs⟩)

theorem GoogleRun.isFor (hrun : GoogleRun env (fun w l => l.linksFree w = true) ⟨w₀, []⟩ tr c)
    (hw₀ : w₀.Fresh) (hch : w₀.ChallengesUnique) {a : Reply} {id : Id}
    (hopened : a.openedFor (own Stmt.exec i tr) id) (k : Id) :
    a.isFor c.store k ↔ k = id := by
  cases a with
  | session user token refreshToken dev backup =>
    have htoken : token.id = id := hopened
    exact ⟨fun h => (show token.id = k from h).symm.trans htoken, fun h => htoken.trans h.symm⟩
  | twoFactorRequired t =>
    obtain ⟨row, w, hmem, htoken, huser⟩ := hopened
    obtain ⟨_, hfire, w'', hok⟩ := mem_own hmem
    have hunused : w.twoFactorChallenges.get? w.nonce = none :=
      Table.get?_of_bound ((GoogleRun.fresh hrun hw₀ hch).2 _ _ _ _ hfire).2.keys (Nat.le_refl _)
    have hopens : c.store.Opens w.nonce t id := by
      refine GoogleRun.keeps (I := fun w' => w'.Opens w.nonce t id) hrun (fun _ _ _ hl _ hexec h =>
        h.exec hl hexec)
        hfire hok ?_
      unfold World.Opens
      rw [(exec_effect hok).twoFactorChallenges]
      exact ⟨_, Table.get?_insert_self _ hunused, htoken, huser⟩
    obtain ⟨ch, hk, hch', huser'⟩ := hopens
    constructor
    · rintro ⟨k', ch', hk', htoken', rfl⟩
      have hsame :=
        (GoogleRun.fresh hrun hw₀ hch).1.2.unique _ _ _ _ hk hk' (hch'.trans htoken'.symm)
      subst hsame
      rw [hk] at hk'
      cases hk'
      exact huser'
    · rintro rfl
      exact ⟨_, ch, hk, hch', huser'⟩
  | message | twoFactorSetup | backupCodes | sessionRevoked | revokedCount => cases hopened

end Runs

/-- While no link is written over another subject's and every fallback finds its own
subject's account, the account that a Google sign-in answers for is linked to its subject. -/
theorem sign_in_lands (env : Env) {w₀ : World} (hw₀ : w₀.Fresh) (hch : w₀.ChallengesUnique)
    {tr : List GoogleEvent} {c : GoogleConfig}
    (hrun : GoogleRun env (fun w l => l.linksFree w = true) ⟨w₀, []⟩ tr c)
    (hfall : FallbacksHold env tr c) {i : Nat} {code state : String} {client : ClientInfo}
    {a : Reply} (hdone : c.pool[i]? = some (.googleLogin code state client, .ret a)) :
    ∃ s id, (env.googleExchange code).bind (·.sub) = some s ∧ (∀ k, a.isFor c.store k ↔ k = id) ∧
      c.store.Linked id s := by
  obtain ⟨s, e, id, hidentity, hsourced, hopened⟩ := (GoogleRun.recalled hrun).pool i _ hdone
  refine ⟨s, id, ?_, fun k => ?_, GoogleRun.linked hrun hw₀ hch hfall hdone hidentity hsourced⟩
  · obtain ⟨payload, hpayload, hrest⟩ := Option.bind_eq_some_iff.mp hidentity
    obtain ⟨s', hs', hmap⟩ := Option.bind_eq_some_iff.mp hrest
    obtain ⟨e', _, heq⟩ := Option.map_eq_some_iff.mp hmap
    cases heq
    rw [hpayload, Option.bind_some, hs']
  · exact GoogleRun.isFor hrun hw₀ hch hopened k

section Sample

def fallbackHolds (env : Env) (c : GoogleConfig) : List GoogleEvent → GoogleEvent → Bool
  | tr, .fire i .read w _ =>
    match (c.pool[i]?).bind (fun q => q.1.identity env), own Stmt.exec i tr with
    | some (s, e), [(.read, w₃), (.read, w₂), (.read, _)] =>
      (w₂.linkedTo s).isSome || (w₃.withEmail e).isSome ||
        (w.fallback s e).all (fun r => r.2.googleId == some s)
    | _, _ => true
  | _, _ => true

theorem fallbacksHold_of_check {env : Env} {tr : List GoogleEvent} {c : GoogleConfig}
    (h : checkEvents (fallbackHolds env c) tr = true) : FallbacksHold env tr c := by
  rintro tr₁ tr₂ i q s e w₁ w₂ w₃ w w' rfl hq hidentity hown hlinked hemail id u hfound
  have hevent := checkEvents_at h
  simpa [fallbackHolds, hq, hidentity, hown, hlinked, hemail, hfound] using hevent

def signsInWithGoogle : GoogleRequest ⊕ Nat := .inl (.googleLogin "a@x.io" "state" {})
def registers : GoogleRequest ⊕ Nat := .inl (.register "A" "a@x.io" "Passw0rd" {})

def signedInTwice : List (GoogleRequest ⊕ Nat) :=
  signsInWithGoogle :: signsInWithGoogle :: List.replicate 3 (.inr 0) ++ List.replicate 3
    (.inr 1) ++ List.replicate 10 (.inr 0) ++
    List.replicate 10 (.inr 1)

def registeredBetween : List (GoogleRequest ⊕ Nat) :=
  signsInWithGoogle :: List.replicate 3 (.inr 0) ++ registers :: List.replicate 10
    (.inr 1) ++ List.replicate 10 (.inr 0)

def signing (env : Env) (w : World) (sched : List (GoogleRequest ⊕ Nat)) : GoogleConfig :=
  Config.play Stmt.exec (GoogleRequest.prog env) ⟨w, []⟩ sched

def signingTrace (env : Env) (w : World) (sched : List (GoogleRequest ⊕ Nat)) : List GoogleEvent :=
  Config.trace Stmt.exec (GoogleRequest.prog env) ⟨w, []⟩ sched []

theorem emptyWorld_fresh : ({} : World).Fresh ∧ ({} : World).ChallengesUnique :=
  ⟨⟨fun _ _ h => (by cases h), fun _ _ h => (by cases h)⟩, fun _ _ h => (by cases h),
    fun _ _ _ _ h => (by cases h)⟩

theorem sign_in_lands_twice :
    ∃ a s id, (signing sampleEnv {} signedInTwice).pool[1]? =
      some (.googleLogin "a@x.io" "state" {}, .ret a) ∧
      (sampleEnv.googleExchange "a@x.io").bind (·.sub) = some s ∧
      (∀ k, a.isFor (signing sampleEnv {} signedInTwice).store k ↔ k = id) ∧
      (signing sampleEnv {} signedInTwice).store.Linked id s := by
  have hrun : GoogleRun sampleEnv (fun w l => l.linksFree w = true) ⟨{}, []⟩
      (signingTrace sampleEnv {} signedInTwice) (signing sampleEnv {} signedInTwice) :=
    Config.trace_obeys Stmt.exec _ (fun _ _ => id) signedInTwice (fun _ _ => trivial)
      (by decide +kernel) .refl
  have hreply : ∃ a, (signing sampleEnv {} signedInTwice).pool[1]? =
      some (.googleLogin "a@x.io" "state" {}, .ret a) := ⟨_, rfl⟩
  obtain ⟨a, ha⟩ := hreply
  obtain ⟨s, id, hfacts⟩ := sign_in_lands sampleEnv emptyWorld_fresh.1 emptyWorld_fresh.2 hrun
    (fallbacksHold_of_check (by decide +kernel)) ha
  exact ⟨a, s, id, ha, hfacts⟩

/-- The sign-in falls back to the account of the registration, which is linked to no one. -/
theorem signed_in_to_registered :
    ∃ tr a id u, GoogleRun sampleEnv (fun _ _ => True) ⟨{}, []⟩ tr
    (signing sampleEnv {} registeredBetween) ∧ ({} : World).Fresh ∧ ({} : World).ChallengesUnique ∧
      (signing sampleEnv {} registeredBetween).pool[0]? =
        some (.googleLogin "a@x.io" "state" {}, .ret a) ∧
      (sampleEnv.googleExchange "a@x.io").bind (·.sub) = some "a@x.io" ∧
      a.isFor (signing sampleEnv {} registeredBetween).store id ∧
      (signing sampleEnv {} registeredBetween).store.users.get? id = some u ∧ u.googleId = none :=
  ⟨_, _, _, _, Config.trace_steps Stmt.exec _ registeredBetween (fun _ _ => trivial) .refl,
    emptyWorld_fresh.1, emptyWorld_fresh.2, rfl, rfl, rfl, rfl, rfl⟩

def reassignedEnv : Env :=
  { sampleEnv with googleExchange := fun code => some ⟨some code, some "a@x.io", true, none⟩ }

def addressWorld : World where
  users := (∅ : Table User).insert 1 { email := "a@x.io", password := some "pw" }
  nonce := 2

def linkedOver : List (GoogleRequest ⊕ Nat) :=
  .inl (.googleLogin "s₁" "state" {}) :: .inl (.googleLogin "s₂" "state" {}) :: List.replicate 3
    (.inr 0) ++
    List.replicate 3 (.inr 1) ++ .inr 0 :: .inr 1 :: List.replicate 10 (.inr 0)

/-- The first sign-in ends with tokens for an account that is linked to the second subject. -/
theorem signed_in_to_overwritten :
    ∃ a id u, (signing reassignedEnv addressWorld linkedOver).pool[0]? =
        some (.googleLogin "s₁" "state" {}, .ret a) ∧
      a.isFor (signing reassignedEnv addressWorld linkedOver).store id ∧
      (signing reassignedEnv addressWorld linkedOver).store.users.get? id = some u ∧
        u.googleId = some "s₂" :=
  ⟨_, _, _, rfl, rfl, rfl, rfl⟩

end Sample

end SaasBackend
