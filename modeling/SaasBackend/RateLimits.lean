import SaasBackend.HandlerRecall
import SaasBackend.FixedWindow
import Mathlib.Data.List.Perm.Subperm

set_option autoImplicit false

namespace SaasBackend
open Handler FixedWindow

inductive SensitiveRoute where
  | login | register | refresh | verifyEmail | forgotPassword | resetPassword
  | resendVerification | changePassword | changeEmail | google | twoFactorVerify
  deriving DecidableEq, Repr

def SensitiveRoute.name : SensitiveRoute → String
  | .login => "login"
  | .register => "register"
  | .refresh => "refresh"
  | .verifyEmail => "verify-email"
  | .forgotPassword => "forgot-password"
  | .resetPassword => "reset-password"
  | .resendVerification => "resend-verification"
  | .changePassword => "change-password"
  | .changeEmail => "change-email"
  | .google => "google"
  | .twoFactorVerify => "2fa-verify"

inductive Limiter where
  | auth | sensitive (route : SensitiveRoute) | health | docs
  deriving DecidableEq, Repr

def Limiter.windowMs : Limiter → Nat
  | .health => 60 * 1000
  | _ => 15 * 60 * 1000

def Limiter.limit : Limiter → Nat
  | .auth => 100
  | .sensitive _ => 10
  | .health => 30
  | .docs => 100

theorem windowMs_pos (l : Limiter) : 0 < l.windowMs := by
  cases l <;> simp [Limiter.windowMs]

/-- The prefix of the limiter's `RedisStore`. -/
def Limiter.keyspace : Limiter → String
  | .auth => "rl:auth:"
  | .sensitive route => "rl:sensitive:" ++ route.name ++ ":"
  | .health => "rl:health:"
  | .docs => "rl:docs:"

def Limiter.key (l : Limiter) (ip : String) : String := l.keyspace ++ ip

inductive HttpMethod where
  | get | head | post | put | patch | delete | options
  deriving DecidableEq, Repr

/-- A limiter where it is registered: for every method under a path, or for one method. -/
inductive Layer where
  | use (path : List String) (limiter : Limiter)
  | get (path : List String) (limiter : Limiter)
  | post (path : List String) (limiter : Limiter)
  deriving DecidableEq, Repr

def Layer.path : Layer → List String
  | .use path _ | .get path _ | .post path _ => path

def Layer.limiter : Layer → Limiter
  | .use _ l | .get _ l | .post _ l => l

def Layer.Under : Layer → List String → Prop
  | .use root _, path => root <+: path
  | _, _ => False

instance : (layer : Layer) → (path : List String) → Decidable (layer.Under path)
  | .use root _, path => inferInstanceAs (Decidable (root <+: path))
  | .get _ _, _ | .post _ _, _ => inferInstanceAs (Decidable False)

/-- The layers that express finds for a request, as far as it is documented. -/
structure Router where
  serves : Layer → HttpMethod → List String → Bool
  serves_use : ∀ root l method path,
    serves (.use root l) method path = true ↔ root <+: path
  serves_get : ∀ route l method path,
    serves (.get route l) method path = true ↔ (method = .get ∨ method = .head) ∧ path = route
  serves_post : ∀ route l method path,
    serves (.post route l) method path = true ↔ method = .post ∧ path = route

/-- The limiters of app.js, in the order in which it registers them. -/
def layers : List Layer :=
  [.get ["health"] .health,
    .get ["health", "ready"] .health,
    .use ["api", "auth"] .auth,
    .post ["api", "auth", "login"] (.sensitive .login),
    .post ["api", "auth", "register"] (.sensitive .register),
    .post ["api", "auth", "refresh"] (.sensitive .refresh),
    .post ["api", "auth", "verify-email"] (.sensitive .verifyEmail),
    .post ["api", "auth", "forgot-password"] (.sensitive .forgotPassword),
    .post ["api", "auth", "reset-password"] (.sensitive .resetPassword),
    .post ["api", "auth", "resend-verification"] (.sensitive .resendVerification),
    .post ["api", "auth", "change-password"] (.sensitive .changePassword),
    .post ["api", "auth", "change-email"] (.sensitive .changeEmail),
    .post ["api", "auth", "google"] (.sensitive .google),
    .post ["api", "auth", "2fa", "verify"] (.sensitive .twoFactorVerify),
    .use ["api", "organizations"] .auth,
    .use ["api", "integrations"] .auth,
    .use ["api", "admin"] .auth,
    .use ["api", "billing"] .auth,
    .use ["api", "api-keys"] .auth,
    .use ["api", "sessions"] .auth,
    .use ["api", "audit"] .auth,
    .use ["api", "invitations"] .auth,
    .use ["api", "notifications"] .auth,
    .use ["api", "feature-flags"] .auth,
    .use ["api", "docs"] .docs]

/-- A request's command is answered, or it fails, executed (`lost`) or not. -/
inductive Command where
  | answered | lost | failed
  deriving DecidableEq, Repr

/-- A request that reaches the limiters. `path` has the segments as the router compares
them, in lower case and without a trailing slash. -/
structure Incoming where
  ip : String
  method : HttpMethod
  path : List String
  command : Limiter → Command

/-- The webhook is served, and a preflight answered, before the limiters. -/
def Incoming.limiters (express : Router) (r : Incoming) : List Limiter :=
  if r.method = .options ∨ (r.method = .post ∧ r.path = ["api", "billing", "webhook"]) then []
  else (layers.filter (express.serves · r.method r.path)).map (·.limiter)

structure RateWorld (S : Store String) where
  now : Nat
  counters : S.State

inductive RateStmt where
  | increment (limiter : Limiter) (ip : String)
  | tick (ms : Nat)
  deriving DecidableEq, Repr

inductive Passage where
  | next
  | tooManyRequests (limiter : Limiter)
  deriving DecidableEq, Repr

variable {S : Store String}

def totalHits (l : Limiter) (ip : String) (w : RateWorld S) : Nat :=
  (S.increment l.windowMs w.now (l.key ip) w.counters).1

def RateStmt.exec : RateStmt → RateWorld S → Except Empty (RateWorld S)
  | .increment l ip, w =>
    .ok { w with counters := (S.increment l.windowMs w.now (l.key ip) w.counters).2 }
  | .tick ms, w => .ok { w with now := w.now + ms }

abbrev RateProg (S : Store String) := Prog (RateWorld S) Empty RateStmt

def skipInTest (nodeEnv : Option String) : Bool := nodeEnv == some "test"

/-- What comes of a request at a limiter, with what it executed before and since. -/
def Limiter.Verdict (l : Limiter) (r : Incoming) (before own : List (RateStmt × RateWorld S))
    (p : Passage) : Prop :=
  match r.command l with
  | .answered => ∃ w, own = (.increment l r.ip, w) :: before ∧
      p = if l.limit < totalHits l r.ip w then .tooManyRequests l else .next
  | .lost => (∃ w, own = (.increment l r.ip, w) :: before) ∧ p = .next
  | .failed => own = before ∧ p = .next

/-- `rateLimit` over its `RedisStore`, as far as they are documented: one command for a
request, its answer against the limit, and with `passOnStoreError` no refusal without one. -/
structure RateLimit (S : Store String) where
  handle : (skip : Bool) → Limiter → Incoming → RateProg S Passage
  skipped : ∀ l r, handle true l r = pure .next
  counts : ∀ l r before, (handle false l r).Along RateStmt.exec
    (fun own s => own = before ∧ s = .increment l r.ip) (l.Verdict r before) before

section Programs

variable (express : Router) (rateLimit : RateLimit S) (nodeEnv : Option String)

def throttle (r : Incoming) : List Limiter → RateProg S Passage
  | [] => pure .next
  | l :: rest => do
    match ← rateLimit.handle (skipInTest nodeEnv) l r with
    | .next => throttle r rest
    | refused => pure refused

/-- `resent` is a command that Redis executes again, or when the request is long answered:
ioredis sends it again after a reconnect, the store after a failed EVALSHA, and a command
that timed out may still arrive. -/
inductive RateRequest where
  | incoming (r : Incoming)
  | resent (r : Incoming) (l : Limiter)
  | wait (ms : Nat)

def RateRequest.prog : RateRequest → RateProg S Passage
  | .incoming r => throttle rateLimit nodeEnv r (r.limiters express)
  | .resent r l =>
    if l ∈ r.limiters express then do
      .send (.increment l r.ip) fun _ => ()
      pure .next
    else pure .next
  | .wait ms => do
    .send (.tick ms) fun _ => ()
    pure .next

abbrev RateEvent (S : Store String) := Event RateRequest (RateWorld S) RateStmt

abbrev RateConfig (S : Store String) := Config RateRequest (RateWorld S) Empty RateStmt Passage

abbrev RateRun : RateConfig S → List (RateEvent S) → RateConfig S → Prop :=
  Steps (Step RateStmt.exec (RateRequest.prog express rateLimit nodeEnv) (fun _ => True)
    (fun _ _ => True))

end Programs

section Keys

def allLimiters : List Limiter :=
  [.auth, .health, .docs, .sensitive .login, .sensitive .register, .sensitive .refresh,
    .sensitive .verifyEmail, .sensitive .forgotPassword, .sensitive .resetPassword,
    .sensitive .resendVerification, .sensitive .changePassword, .sensitive .changeEmail,
    .sensitive .google, .sensitive .twoFactorVerify]

theorem mem_allLimiters (l : Limiter) : l ∈ allLimiters := by
  cases l with
  | sensitive route => cases route <;> simp [allLimiters]
  | _ => simp [allLimiters]

theorem keyspace_apart : ∀ l ∈ allLimiters, ∀ l' ∈ allLimiters,
    l.keyspace.toList <+: l'.keyspace.toList → l = l' := by
  decide +kernel

theorem key_injective {l l' : Limiter} {ip ip' : String} (h : l.key ip = l'.key ip') :
    l = l' ∧ ip = ip' := by
  have hchars : l.keyspace.toList ++ ip.toList = l'.keyspace.toList ++ ip'.toList := by
    simpa [Limiter.key] using congrArg String.toList h
  have hsame : l = l' := by
    rcases List.prefix_or_prefix_of_prefix (List.prefix_append _ ip.toList)
      (hchars ▸ List.prefix_append _ ip'.toList) with hle | hle
    · exact keyspace_apart l (mem_allLimiters l) l' (mem_allLimiters l') hle
    · exact (keyspace_apart l' (mem_allLimiters l') l (mem_allLimiters l) hle).symm
  subst hsame
  exact ⟨rfl, String.toList_inj.mp (List.append_cancel_left hchars)⟩

def Layer.Meets (a b : Layer) : Prop := a.path = b.path ∨ a.Under b.path ∨ b.Under a.path

instance (a b : Layer) : Decidable (a.Meets b) := inferInstanceAs (Decidable (_ ∨ _))

theorem layers_apart : layers.Pairwise fun a b => a.limiter = b.limiter → ¬ a.Meets b := by
  decide +kernel

variable {express : Router}

theorem Router.path_of_serves {layer : Layer} {method : HttpMethod} {path : List String}
    (h : express.serves layer method path = true) :
    (layer.Under path ∧ layer.path <+: path) ∨ path = layer.path := by
  cases layer with
  | use root l =>
    have hroot := (express.serves_use root l method path).mp h
    exact .inl ⟨hroot, hroot⟩
  | get route l => exact .inr ((express.serves_get route l method path).mp h).2
  | post route l => exact .inr ((express.serves_post route l method path).mp h).2

theorem Layer.Under.of_le {a : Layer} {path longer : List String} (h : a.Under longer)
    (hle : a.path <+: path) : a.Under path := by
  cases a with
  | use root l => exact hle
  | get route l => cases h
  | post route l => cases h

theorem Router.meets_of_serves {a b : Layer} {method : HttpMethod} {path : List String}
    (ha : express.serves a method path = true) (hb : express.serves b method path = true) :
    a.Meets b := by
  rcases Router.path_of_serves ha with ⟨hause, hapath⟩ | hapath <;>
    rcases Router.path_of_serves hb with ⟨hbuse, hbpath⟩ | hbpath
  · rcases List.prefix_or_prefix_of_prefix hapath hbpath with hle | hle
    · exact .inr (.inl (hause.of_le hle))
    · exact .inr (.inr (hbuse.of_le hle))
  · exact .inr (.inl (hbpath ▸ hause))
  · exact .inr (.inr (hapath ▸ hbuse))
  · exact .inl (hapath.symm.trans hbpath)

theorem limiters_nodup (r : Incoming) : (r.limiters express).Nodup := by
  unfold Incoming.limiters
  split
  · exact List.nodup_nil
  · refine List.pairwise_map.mpr (List.pairwise_filter.mpr ?_)
    exact layers_apart.imp fun {a b} hapart ha hb hsame =>
      hapart hsame (Router.meets_of_serves ha hb)

end Keys

section Requests

variable {express : Router} {rateLimit : RateLimit S} {nodeEnv : Option String}

def RateRequest.Charges (express : Router) (l : Limiter) (ip : String) : RateRequest → Prop
  | .incoming r => r.ip = ip ∧ l ∈ r.limiters express
  | .resent r l' => r.ip = ip ∧ l' = l ∧ l ∈ r.limiters express
  | .wait _ => False

/-- A command counts once, and a request sends one to each limiter that guards it. -/
def RateRequest.Sends (express : Router) (req : RateRequest) (h : List (RateStmt × RateWorld S)) :
    RateStmt → Prop
  | .increment l ip => req.Charges express l ip ∧ ∀ w, (.increment l ip, w) ∉ h
  | .tick _ => True

def RateRequest.Judged (express : Router) (nodeEnv : Option String) (req : RateRequest)
    (h : List (RateStmt × RateWorld S)) (a : Passage) : Prop :=
  ∀ r, req = .incoming r → match a with
    | .next =>
      (∀ l w, (.increment l r.ip, w) ∈ h → r.command l = .answered →
        totalHits l r.ip w ≤ l.limit) ∧
      (skipInTest nodeEnv = false → ∀ l ∈ r.limiters express, r.command l = .answered →
        ∃ w, (.increment l r.ip, w) ∈ h)
    | .tooManyRequests l => l ∈ r.limiters express ∧
      ∃ w, (.increment l r.ip, w) ∈ h ∧ l.limit < totalHits l r.ip w

structure Incoming.Cleared (express : Router) (r : Incoming) (rest : List Limiter)
    (h : List (RateStmt × RateWorld S)) : Prop where
  guards : ∀ l ∈ rest, l ∈ r.limiters express
  fresh : ∀ l ∈ rest, ∀ w, (.increment l r.ip, w) ∉ h
  within : ∀ l w, (.increment l r.ip, w) ∈ h → r.command l = .answered →
    totalHits l r.ip w ≤ l.limit
  checked : ∀ l ∈ r.limiters express, l ∉ rest → r.command l = .answered →
    ∃ w, (.increment l r.ip, w) ∈ h

theorem Incoming.Cleared.failed {r : Incoming} {l : Limiter} {rest : List Limiter}
    {h : List (RateStmt × RateWorld S)} (hc : r.Cleared express (l :: rest) h)
    (hfailed : r.command l = .failed) : r.Cleared express rest h where
  guards l' hl' := hc.guards l' (.tail _ hl')
  fresh l' hl' := hc.fresh l' (.tail _ hl')
  within := hc.within
  checked l' hguard hout hans := by
    refine hc.checked l' hguard (fun hmem => ?_) hans
    rcases List.mem_cons.mp hmem with rfl | hrest
    · rw [hfailed] at hans
      cases hans
    · exact hout hrest

theorem Incoming.Cleared.counted {r : Incoming} {l : Limiter} {rest : List Limiter}
    {h : List (RateStmt × RateWorld S)} {w : RateWorld S}
    (hc : r.Cleared express (l :: rest) h) (hapart : l ∉ rest)
    (hhits : r.command l = .answered → totalHits l r.ip w ≤ l.limit) :
    r.Cleared express rest ((.increment l r.ip, w) :: h) where
  guards l' hl' := hc.guards l' (.tail _ hl')
  fresh l' hl' w' hmem := by
    rcases List.mem_cons.mp hmem with heq | hold
    · cases heq
      exact hapart hl'
    · exact hc.fresh l' (.tail _ hl') w' hold
  within l' w' hmem hans := by
    rcases List.mem_cons.mp hmem with heq | hold
    · cases heq
      exact hhits hans
    · exact hc.within l' w' hold hans
  checked l' hguard hout hans := by
    by_cases hl : l' = l
    · subst hl
      exact ⟨w, List.mem_cons_self⟩
    · obtain ⟨w', hmem⟩ := hc.checked l' hguard (by simp [hl, hout]) hans
      exact ⟨w', .tail _ hmem⟩

theorem throttle_skipped (rateLimit : RateLimit S) (htest : skipInTest nodeEnv = true)
    (r : Incoming) (rest : List Limiter) :
    throttle rateLimit nodeEnv r rest = pure .next := by
  induction rest with
  | nil => rfl
  | cons l rest ih =>
    unfold throttle
    rw [htest, rateLimit.skipped]
    exact ih

theorem throttle_along {r : Incoming} (hlive : skipInTest nodeEnv = false) (rest : List Limiter)
    {h : List (RateStmt × RateWorld S)} (hnodup : rest.Nodup) (hc : r.Cleared express rest h) :
    (throttle rateLimit nodeEnv r rest).Along RateStmt.exec
      ((RateRequest.incoming r).Sends express)
      ((RateRequest.incoming r).Judged express nodeEnv) h := by
  induction rest generalizing h with
  | nil =>
    intro r' heq
    cases heq
    exact ⟨hc.within, fun _ l hl hans => hc.checked l hl (by simp) hans⟩
  | cons l rest ih =>
    obtain ⟨hapart, hnodup⟩ := List.nodup_cons.mp hnodup
    have hguard := hc.guards l List.mem_cons_self
    unfold throttle
    rw [hlive]
    refine Prog.Along.andThen ((rateLimit.counts l r h).mono ?_) fun p own hverdict => ?_
    · rintro own s ⟨rfl, rfl⟩
      exact ⟨⟨rfl, hguard⟩, hc.fresh l List.mem_cons_self⟩
    unfold Limiter.Verdict at hverdict
    split at hverdict
    · obtain ⟨w, rfl, rfl⟩ := hverdict
      split
      · rename_i hpass
        refine ih hnodup (hc.counted hapart fun _ => ?_)
        by_contra hover
        rw [if_pos (Nat.lt_of_not_le hover)] at hpass
        cases hpass
      · rename_i hstop
        have hover : l.limit < totalHits l r.ip w := by
          by_contra hunder
          exact hstop (if_neg hunder)
        rw [if_pos hover]
        intro r' heq
        cases heq
        exact ⟨hguard, w, List.mem_cons_self, hover⟩
    · rename_i hlost
      obtain ⟨⟨w, rfl⟩, rfl⟩ := hverdict
      refine ih hnodup (hc.counted hapart fun hans => ?_)
      rw [hlost] at hans
      cases hans
    · obtain ⟨rfl, rfl⟩ := hverdict
      exact ih hnodup (hc.failed ‹_›)

theorem RateRequest.along (req : RateRequest) :
    (req.prog express rateLimit nodeEnv).Along RateStmt.exec (req.Sends express)
      (req.Judged express nodeEnv) [] := by
  cases req with
  | wait ms =>
    refine Prog.along_send_bind.mpr ⟨trivial, fun w w' _ r heq => ?_⟩
    cases heq
  | resent r l =>
    simp only [RateRequest.prog]
    split
    · rename_i hguard
      refine Prog.along_send_bind.mpr ⟨⟨⟨rfl, rfl, hguard⟩, by simp⟩, fun w w' _ r' heq => ?_⟩
      cases heq
    · intro r' heq
      cases heq
  | incoming r =>
    simp only [RateRequest.prog]
    cases htest : skipInTest nodeEnv with
    | true =>
      rw [throttle_skipped rateLimit htest]
      intro r' heq
      cases heq
      exact ⟨by simp, fun hskip => by simp [htest] at hskip⟩
    | false =>
      refine throttle_along htest _ (limiters_nodup r) ⟨fun _ h => h, by simp, by simp, ?_⟩
      intro l hl hout
      exact absurd hl hout

end Requests

section Counters

/-- The hits that a run has counted for a client at a limiter, each with the position of its
request, newest first. -/
def hitsOf (l : Limiter) (ip : String) : List (RateEvent S) → List (Nat × Nat)
  | [] => []
  | .fire i (.increment l' ip') w _ :: tr =>
    if l' = l ∧ ip' = ip then (i, w.now) :: hitsOf l ip tr else hitsOf l ip tr
  | _ :: tr => hitsOf l ip tr

def passesOf (l : Limiter) (ip : String) : List (RateEvent S) → List (Nat × Nat)
  | [] => []
  | .fire i (.increment l' ip') w _ :: tr =>
    if (l' = l ∧ ip' = ip) ∧ totalHits l ip w ≤ l.limit then (i, w.now) :: passesOf l ip tr
    else passesOf l ip tr
  | _ :: tr => passesOf l ip tr

theorem mem_hitsOf {l : Limiter} {ip : String} {i t : Nat} {tr : List (RateEvent S)} :
    (i, t) ∈ hitsOf l ip tr ↔ ∃ w w', .fire i (.increment l ip) w w' ∈ tr ∧ w.now = t := by
  induction tr with
  | nil => simp [hitsOf]
  | cons e tr ih =>
    cases e with
    | arrive r => simp [hitsOf, ih]
    | fire j s w w' =>
      cases s with
      | tick ms => simp [hitsOf, ih]
      | increment l' ip' =>
        by_cases hown : l' = l ∧ ip' = ip
        · obtain ⟨rfl, rfl⟩ := hown
          simp only [hitsOf, and_self, if_true, List.mem_cons, Prod.mk.injEq, ih]
          constructor
          · rintro (⟨rfl, rfl⟩ | ⟨v, v', hmem, hnow⟩)
            · exact ⟨w, w', .inl rfl, rfl⟩
            · exact ⟨v, v', .inr hmem, hnow⟩
          · rintro ⟨v, v', heq | hmem, hnow⟩
            · cases heq
              exact .inl ⟨rfl, hnow.symm⟩
            · exact .inr ⟨v, v', hmem, hnow⟩
        · simp only [hitsOf, hown, if_false, List.mem_cons, Event.fire.injEq,
            RateStmt.increment.injEq, ih]
          constructor
          · rintro ⟨v, v', hmem, hnow⟩
            exact ⟨v, v', .inr hmem, hnow⟩
          · rintro ⟨v, v', ⟨_, hsame, _⟩ | hmem, hnow⟩
            · exact absurd ⟨hsame.1.symm, hsame.2.symm⟩ hown
            · exact ⟨v, v', hmem, hnow⟩

theorem mem_passesOf {l : Limiter} {ip : String} {i : Nat} {w w' : RateWorld S}
    {tr : List (RateEvent S)} (hmem : .fire i (.increment l ip) w w' ∈ tr)
    (hhits : totalHits l ip w ≤ l.limit) : (i, w.now) ∈ passesOf l ip tr := by
  induction tr with
  | nil => cases hmem
  | cons e tr ih =>
    rcases List.mem_cons.mp hmem with rfl | hold
    · simp [passesOf, hhits]
    · have hrest := ih hold
      cases e with
      | arrive r => exact hrest
      | fire j s v v' =>
        cases s with
        | tick ms => exact hrest
        | increment l' ip' =>
          simp only [passesOf]
          split
          · exact .tail _ hrest
          · exact hrest

structure Windowed (w₀ : RateWorld S) (l : Limiter) (ip : String) (tr : List (RateEvent S))
    (w : RateWorld S) : Prop where
  counter : S.counter w.counters (l.key ip) = replay l.windowMs
    (S.counter w₀.counters (l.key ip)) ((hitsOf l ip tr).map (·.2))
  passes : (passesOf l ip tr).map (·.2) = admitted l.windowMs l.limit
    (S.counter w₀.counters (l.key ip)) ((hitsOf l ip tr).map (·.2))
  sorted : ((hitsOf l ip tr).map (·.2)).Pairwise (· ≥ ·)
  times : ∀ t ∈ (hitsOf l ip tr).map (·.2), w₀.now ≤ t ∧ t ≤ w.now
  elapsed : w₀.now ≤ w.now

theorem Windowed.hits {w₀ w : RateWorld S} {l : Limiter} {ip : String} {tr : List (RateEvent S)}
    (h : Windowed w₀ l ip tr w) : totalHits l ip w = (hit l.windowMs w.now (replay l.windowMs
      (S.counter w₀.counters (l.key ip)) ((hitsOf l ip tr).map (·.2)))).hits := by
  rw [totalHits, S.increment_hits, h.counter]

theorem Windowed.fire {w₀ w w' : RateWorld S} {l : Limiter} {ip : String}
    {tr : List (RateEvent S)} {i : Nat} {s : RateStmt} (h : Windowed w₀ l ip tr w)
    (hexec : s.exec w = .ok w') : Windowed w₀ l ip (.fire i s w w' :: tr) w' := by
  cases s with
  | tick ms =>
    cases hexec
    refine ⟨h.counter, h.passes, h.sorted, fun t ht => ?_, Nat.le_add_right_of_le h.elapsed⟩
    exact ⟨(h.times t ht).1, Nat.le_add_right_of_le (h.times t ht).2⟩
  | increment l' ip' =>
    cases hexec
    by_cases hown : l' = l ∧ ip' = ip
    · obtain ⟨rfl, rfl⟩ := hown
      refine ⟨?_, ?_, ?_, ?_, h.elapsed⟩
      · simp [hitsOf, S.increment_same, h.counter, replay]
      · simp only [passesOf, hitsOf, true_and, if_true, and_self, List.map_cons, admitted,
          ← h.hits, ← h.passes]
        split <;> rfl
      · simp only [hitsOf, and_self, if_true, List.map_cons]
        exact List.pairwise_cons.mpr ⟨fun t ht => (h.times t ht).2, h.sorted⟩
      · simp only [hitsOf, and_self, if_true, List.map_cons]
        exact List.forall_mem_cons.mpr ⟨⟨h.elapsed, Nat.le_refl _⟩, h.times⟩
    · have hkey : l.key ip ≠ l'.key ip' := fun heq =>
        hown ⟨(key_injective heq).1.symm, (key_injective heq).2.symm⟩
      have hhits : ∀ e, hitsOf l ip (.fire i (.increment l' ip') w e :: tr) = hitsOf l ip tr := by
        simp [hitsOf, hown]
      have hpasses : ∀ e,
          passesOf l ip (.fire i (.increment l' ip') w e :: tr) = passesOf l ip tr := by
        simp [passesOf, hown]
      refine ⟨?_, ?_, ?_, ?_, h.elapsed⟩
      · rw [hhits, S.increment_other _ _ _ _ _ hkey, h.counter]
      · rw [hhits, hpasses, h.passes]
      · rw [hhits]
        exact h.sorted
      · rw [hhits]
        exact h.times

theorem windowed_of_run {express : Router} {rateLimit : RateLimit S} {nodeEnv : Option String}
    {w₀ : RateWorld S} {tr : List (RateEvent S)} {c : RateConfig S}
    (hrun : RateRun express rateLimit nodeEnv ⟨w₀, []⟩ tr c) (l : Limiter) (ip : String) :
    Windowed w₀ l ip tr c.store := by
  refine Steps.invariant (fun tr c => Windowed w₀ l ip tr c.store) ?_ ?_ hrun
  · exact ⟨rfl, rfl, .nil, by simp [hitsOf], Nat.le_refl _⟩
  · intro tr c e c' h hstep
    cases hstep with
    | arrive _ => exact ⟨h.counter, h.passes, h.sorted, h.times, h.elapsed⟩
    | @fire i r s n k hi _ =>
      cases hexec : s.exec c.store with
      | ok w =>
        rw [Config.advance_ok RateStmt.exec hi hexec]
        exact h.fire hexec
      | error e => cases e

end Counters

/-- A command for a request of the client that the limiter guards counted in the span, that of
request `i` itself or one sent again. -/
def CountedDuring (express : Router) (tr : List (RateEvent S)) (c : RateConfig S) (l : Limiter)
    (ip : String) (start i : Nat) : Prop :=
  (∃ req p, c.pool[i]? = some (req, p) ∧ req.Charges express l ip) ∧
    ∃ w w', .fire i (.increment l ip) w w' ∈ tr ∧ During l.windowMs start w.now

section Run

variable {express : Router} {rateLimit : RateLimit S} {nodeEnv : Option String}
  {w₀ : RateWorld S} {tr : List (RateEvent S)} {c : RateConfig S}

theorem own_of_fire {i : Nat} {s : RateStmt} {w w' : RateWorld S} (hmem : .fire i s w w' ∈ tr) :
    (s, w) ∈ own RateStmt.exec i tr := by
  obtain ⟨tr₂, tr₁, rfl⟩ := List.append_of_mem hmem
  rw [own_append]
  refine List.mem_append_right _ ?_
  cases s with
  | increment l ip => rw [own_fire_of_ok rfl]; exact List.mem_cons_self
  | tick ms => rw [own_fire_of_ok rfl]; exact List.mem_cons_self

theorem counted_charges (hrun : RateRun express rateLimit nodeEnv ⟨w₀, []⟩ tr c) {l : Limiter}
    {ip : String} {i : Nat} {w w' : RateWorld S} (hmem : .fire i (.increment l ip) w w' ∈ tr) :
    ∃ req p, c.pool[i]? = some (req, p) ∧ req.Charges express l ip := by
  have hrecalled := Recalled.steps (fun req _ => RateRequest.along req) hrun
  obtain ⟨tr₂, tr₁, htr⟩ := List.append_of_mem hmem
  obtain ⟨_, ⟨req, p⟩, hq, hcharges, _⟩ := hrecalled.events tr₁ tr₂ _ _ _ _ htr
  exact ⟨req, p, hq, hcharges⟩

theorem hitsOf_nodup (hrun : RateRun express rateLimit nodeEnv ⟨w₀, []⟩ tr c) (l : Limiter)
    (ip : String) :
    ((hitsOf l ip tr).map (·.1)).Nodup := by
  have hpassed : ∀ tr : List (RateEvent S), (hitsOf l ip tr).map (·.1) =
      passed RateStmt.exec (fun s => decide (s = .increment l ip)) tr := by
    intro tr
    induction tr with
    | nil => rfl
    | cons e tr ih =>
      cases e with
      | arrive r => exact ih
      | fire j s w w' =>
        cases s with
        | tick ms =>
          rw [passed_fire_of_ok rfl, if_neg (by simp)]
          exact ih
        | increment l' ip' =>
          rw [passed_fire_of_ok rfl]
          by_cases hown : l' = l ∧ ip' = ip
          · simp [hitsOf, hown, ih]
          · simp [hitsOf, hown, ih]
  have hrecalled := Recalled.steps (fun req _ => RateRequest.along req) hrun
  rw [hpassed]
  refine passed_nodup fun tr₁ tr₂ i s w w' htr hkind e he => ?_
  cases of_decide_eq_true hkind
  obtain ⟨_, q, _, _, hfresh⟩ := hrecalled.events tr₁ tr₂ _ _ _ _ htr
  refine decide_eq_false fun heq => hfresh e.2 ?_
  rw [← heq]
  exact he

end Run

/-- Outside of tests every request that goes on has been counted by each of its limiters
that Redis answered for, and in no span as long as the window do more than twice the limit
of a client's requests go on past a limiter. -/
theorem passed_at_most_twice_limit (S : Store String) (rateLimit : RateLimit S)
    (express : Router) {nodeEnv : Option String} {w₀ : RateWorld S} {tr : List (RateEvent S)}
    {c : RateConfig S} (hrun : RateRun express rateLimit nodeEnv ⟨w₀, []⟩ tr c) :
    (skipInTest nodeEnv = false → ∀ i r, c.pool[i]? = some (.incoming r, .ret .next) →
      ∀ l ∈ r.limiters express, r.command l = .answered →
        ∃ w w', .fire i (.increment l r.ip) w w' ∈ tr ∧ totalHits l r.ip w ≤ l.limit) ∧
    ∀ l ip start (is : List Nat), is.Nodup →
      (∀ i ∈ is, CountedDuring express tr c l ip start i ∧
        ∃ r, c.pool[i]? = some (.incoming r, .ret .next) ∧ r.command l = .answered) →
          is.length ≤ 2 * l.limit := by
  have hrecalled := Recalled.steps (fun req _ => RateRequest.along req) hrun
  refine ⟨fun hskip i r hi l hl hans => ?_, fun l ip start is hnodup his => ?_⟩
  · obtain ⟨hwithin, hchecked⟩ := hrecalled.pool i _ hi r rfl
    obtain ⟨w, hown⟩ := hchecked hskip l hl hans
    obtain ⟨w', hfire, _⟩ := hrecalled.fired hown
    exact ⟨w, w', hfire, hwithin l w hown hans⟩
  · have hsub : is ⊆ ((passesOf l ip tr).filter (fun e => During l.windowMs start e.2)).map
        (·.1) := by
      intro i hmem
      obtain ⟨⟨⟨req, p, hpool, hcharges⟩, w, w', hfire, hduring⟩, r, hi, hans⟩ := his i hmem
      cases hpool.symm.trans hi
      obtain ⟨rfl, _⟩ := hcharges
      have hhits := (hrecalled.pool i _ hi r rfl).1 l w (own_of_fire hfire) hans
      exact List.mem_map.mpr ⟨(i, w.now), List.mem_filter.mpr
        ⟨mem_passesOf hfire hhits, decide_eq_true hduring⟩, rfl⟩
    have hwindowed := windowed_of_run hrun l ip
    calc is.length
        ≤ (((passesOf l ip tr).filter (fun e => During l.windowMs start e.2)).map
            (·.1)).length := (hnodup.subperm hsub).length_le
      _ = ((passesOf l ip tr).map (·.2)).countP (During l.windowMs start ·) := by
          rw [List.length_map, List.countP_map, List.countP_eq_length_filter]
          rfl
      _ ≤ 2 * l.limit := by
          rw [hwindowed.passes]
          exact admitted_during_le hwindowed.sorted start

section Sample

abbrev sampleStore : Store String := .ofCounters String

def Router.ofPaths : Router where
  serves
    | .use root _, _, path => root.isPrefixOf path
    | .get route _, method, path => (method == .get || method == .head) && path == route
    | .post route _, method, path => method == .post && path == route
  serves_use _ _ _ _ := List.isPrefixOf_iff_prefix
  serves_get _ _ _ _ := by simp
  serves_post _ _ _ _ := by simp

def RateLimit.ofStore (S : Store String) : RateLimit S where
  handle skip l r :=
    match skip, r.command l with
    | true, _ => pure .next
    | false, .answered => do
      let hits ← .send (.increment l r.ip) (totalHits l r.ip)
      pure (if l.limit < hits then .tooManyRequests l else .next)
    | false, .lost => do
      .send (.increment l r.ip) fun _ => ()
      pure .next
    | false, .failed => pure .next
  skipped _ _ := rfl
  counts l r before := by
    unfold Limiter.Verdict
    cases r.command l with
    | answered =>
      refine Prog.along_send_bind.mpr ⟨⟨rfl, rfl⟩, fun w w' _ => ?_⟩
      exact ⟨w, rfl, rfl⟩
    | lost =>
      refine Prog.along_send_bind.mpr ⟨⟨rfl, rfl⟩, fun w w' _ => ?_⟩
      exact ⟨⟨w, rfl⟩, rfl⟩
    | failed => exact ⟨rfl, rfl⟩

def loginAttempt (ip : String) : Incoming where
  ip := ip
  method := .post
  path := ["api", "auth", "login"]
  command l := if l = .auth then .lost else .answered

def quietRedis : RateWorld sampleStore := ⟨0, fun _ => none⟩

def loginBurst (n : Nat) : List (RateRequest ⊕ Nat) :=
  (List.range n).flatMap (fun i => [.inl (.incoming (loginAttempt "10.0.0.1")), .inr i, .inr i]) ++
    [.inl (.incoming (loginAttempt "10.0.0.2")), .inr n, .inr n]

def burst (n : Nat) : RateConfig sampleStore :=
  Config.play RateStmt.exec (RateRequest.prog .ofPaths (.ofStore sampleStore) none)
    ⟨quietRedis, []⟩ (loginBurst n)

def burstTrace (n : Nat) : List (RateEvent sampleStore) :=
  Config.trace RateStmt.exec (RateRequest.prog .ofPaths (.ofStore sampleStore) none)
    ⟨quietRedis, []⟩ (loginBurst n) []

theorem burst_run (n : Nat) :
    RateRun .ofPaths (.ofStore sampleStore) none ⟨quietRedis, []⟩ (burstTrace n) (burst n) :=
  Config.trace_steps RateStmt.exec _ (loginBurst n) (fun _ _ => trivial) .refl

theorem burst_passed : ∃ w w', .fire 2 (.increment (.sensitive .login) "10.0.0.2") w w' ∈
    burstTrace 2 ∧ totalHits (.sensitive .login) "10.0.0.2" w ≤ 10 :=
  (passed_at_most_twice_limit sampleStore _ _ (burst_run 2)).1 rfl 2 (loginAttempt "10.0.0.2") rfl
    (.sensitive .login) (by decide) rfl

end Sample

/-- A client is answered 429 only for more commands than the limit, all of them sent for
requests of its own that the limiter guards and counted within one window, whatever other
clients and Redis do. -/
theorem refused_for_own_requests (S : Store String) (rateLimit : RateLimit S)
    (express : Router) {nodeEnv : Option String} {w₀ : RateWorld S} {tr : List (RateEvent S)}
    {c : RateConfig S} (hrun : RateRun express rateLimit nodeEnv ⟨w₀, []⟩ tr c)
    {i : Nat} {r : Incoming} {l : Limiter}
    (hi : c.pool[i]? = some (.incoming r, .ret (.tooManyRequests l)))
    (hnew : ∀ d, S.counter w₀.counters (l.key r.ip) = some d → d.expires ≤ w₀.now) :
    l ∈ r.limiters express ∧ ∃ start, ∃ is : List Nat, is.Nodup ∧ l.limit < is.length ∧
      ∀ j ∈ is, CountedDuring express tr c l r.ip start j := by
  have hrecalled := Recalled.steps (fun req _ => RateRequest.along req) hrun
  obtain ⟨hguard, w, hown, hover⟩ := hrecalled.pool i _ hi r rfl
  obtain ⟨w', hfire, hexec⟩ := hrecalled.fired hown
  obtain ⟨tr₂, tr₁, rfl⟩ := List.append_of_mem hfire
  obtain ⟨c₁, c₂, hbefore, rfl, hupto, _⟩ := Steps.at_fire hrun
  have hwindowed := windowed_of_run hbefore l r.ip
  have hafter := windowed_of_run hupto l r.ip
  have hcons : hitsOf l r.ip (.fire i (.increment l r.ip) c₁.store w' :: tr₁) =
      (i, c₁.store.now) :: hitsOf l r.ip tr₁ := by
    simp [hitsOf]
  have hsorted := hafter.sorted
  have htimes := hafter.times
  rw [hcons, List.map_cons] at hsorted htimes
  rw [hwindowed.hits] at hover
  obtain ⟨start, hcrowded⟩ := refused_crowded
    (windowMs_pos l) hsorted
    (fun d hd t ht => Nat.le_trans (hnew d hd) (htimes t ht).1) hover
  have hnodup := hitsOf_nodup hupto l r.ip
  rw [hcons] at hnodup
  refine ⟨hguard, start, (((i, c₁.store.now) :: hitsOf l r.ip tr₁).filter
    (fun e => During l.windowMs start e.2)).map (·.1), ?_, ?_, fun j hj => ?_⟩
  · exact hnodup.sublist (List.Sublist.map _ List.filter_sublist)
  · rw [List.length_map, ← List.countP_eq_length_filter]
    rwa [← List.map_cons, List.countP_map] at hcrowded
  · obtain ⟨⟨j', t⟩, hmem, rfl⟩ := List.mem_map.mp hj
    obtain ⟨hhit, hduring⟩ := List.mem_filter.mp hmem
    rw [← hcons] at hhit
    obtain ⟨v, v', hv, rfl⟩ := mem_hitsOf.mp hhit
    have hv' := List.mem_append_right tr₂ hv
    exact ⟨counted_charges hrun hv', v, v', hv', of_decide_eq_true hduring⟩

theorem burst_refused : .sensitive .login ∈ (loginAttempt "10.0.0.1").limiters .ofPaths ∧
    ∃ start, ∃ is : List Nat, is.Nodup ∧ 10 < is.length ∧ ∀ j ∈ is,
      CountedDuring .ofPaths (burstTrace 11) (burst 11) (.sensitive .login) "10.0.0.1" start j :=
  refused_for_own_requests sampleStore _ _ (burst_run 11) (i := 10) (r := loginAttempt "10.0.0.1")
    rfl (by intro d hd; cases hd)

end SaasBackend
