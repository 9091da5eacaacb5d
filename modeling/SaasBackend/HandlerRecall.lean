import SaasBackend.HandlerTurnstile

/-! What a request did before, among the others: the statements of its own that went
through, with the stores they met. A handler is followed along this history alone; what
the others do only shows in the stores. -/

set_option autoImplicit false

namespace Handler

variable {ρ σ ε ℓ α β : Type}

section Along

variable (exec : ℓ → σ → Except ε σ)

/-- Every statement the handler sends satisfies `Q`, and every result `R`, of the
statements that it sent before and that went through, newest first. -/
def Prog.Along (Q : List (ℓ × σ) → ℓ → Prop) (R : List (ℓ × σ) → α → Prop) :
    List (ℓ × σ) → Prog σ ε ℓ α → Prop
  | h, .ret a => R h a
  | _, .throw _ => True
  | h, .stmt l n c => Q h l ∧
      (∀ s s', exec l s = .ok s' → (n s).Along Q R ((l, s) :: h)) ∧ ∀ e, (c e).Along Q R h

variable {exec} {Q : List (ℓ × σ) → ℓ → Prop} {R : List (ℓ × σ) → α → Prop} {h : List (ℓ × σ)}

theorem Prog.Along.ret {a : α} (ha : R h a) : (Prog.ret a : Prog σ ε ℓ α).Along exec Q R h := ha

theorem Prog.Along.throw {e : ε} : (Prog.throw e : Prog σ ε ℓ α).Along exec Q R h := trivial

theorem Prog.along_send_bind {l : ℓ} {view : σ → β} {k : β → Prog σ ε ℓ α} :
    ((Prog.send l view).bind k).Along exec Q R h ↔
      Q h l ∧ ∀ s s', exec l s = .ok s' → (k (view s)).Along exec Q R ((l, s) :: h) := by
  rw [Prog.send_bind]
  simp only [Prog.Along]
  exact and_congr_right fun _ => and_iff_left fun _ => trivial

theorem Prog.along_tryCatch {l : ℓ} {view : σ → α} {f : ε → Prog σ ε ℓ α} :
    ((Prog.send l view).tryCatch f).Along exec Q R h ↔
      Q h l ∧ (∀ s s', exec l s = .ok s' → R ((l, s) :: h) (view s)) ∧ ∀ e,
        (f e).Along exec Q R h := Iff.rfl

theorem Prog.along_tryCatch_bind {l : ℓ} {view : σ → β} {f : ε → Prog σ ε ℓ β}
    {k : β → Prog σ ε ℓ α} :
    (((Prog.send l view).tryCatch f).bind k).Along exec Q R h ↔
      Q h l ∧ (∀ s s', exec l s = .ok s' → (k (view s)).Along exec Q R ((l, s) :: h)) ∧ ∀ e,
        ((f e).bind k).Along exec Q R h := Iff.rfl

theorem Prog.Along.bind {p : Prog σ ε ℓ β} {k : β → Prog σ ε ℓ α}
    (hp : p.Sends (fun l => ∀ h, Q h l)) (hk : ∀ a own, h <:+ own → (k a).Along exec Q R own) :
    (p.bind k).Along exec Q R h := by
  induction p generalizing h with
  | ret a => exact hk a h List.suffix_rfl
  | throw e => trivial
  | stmt l n c hn hc =>
    refine ⟨hp.1 h, fun s s' _ => ?_, fun e => hc e (hp.2.2 e) hk⟩
    exact hn s (hp.2.1 s) fun a own hown => hk a own ((List.suffix_cons _ _).trans hown)

theorem Prog.Along.bind_sends {P : ℓ → Prop} {S : β → Prop} {p : Prog σ ε ℓ β}
    {k : β → Prog σ ε ℓ α} (hp : p.Sends P) (hret : p.Returns S) (hQ : ∀ l h, P l → Q h l)
    (hk : ∀ a own, S a → (∀ e ∈ own, P e.1) → (k a).Along exec Q R (own ++ h)) :
    (p.bind k).Along exec Q R h := by
  suffices hall : ∀ own, (∀ e ∈ own, P e.1) → (p.bind k).Along exec Q R (own ++ h) from
    hall [] fun e he => (by cases he)
  induction p with
  | ret a => exact fun own hown => hk a own hret hown
  | throw e => exact fun _ _ => trivial
  | stmt l n c hn hc =>
    intro own hown
    refine ⟨hQ l _ hp.1, fun s s' _ => ?_, fun e => hc e (hp.2.2 e) (hret.2 e) own hown⟩
    exact hn s (hp.2.1 s) (hret.1 s) ((l, s) :: own) (List.forall_mem_cons.mpr ⟨hp.1, hown⟩)

theorem Prog.Along.andThen {S : List (ℓ × σ) → β → Prop} {p : Prog σ ε ℓ β} {k : β → Prog σ ε ℓ α}
    (hp : p.Along exec Q S h) (hk : ∀ a own, S own a → (k a).Along exec Q R own) :
    (p.bind k).Along exec Q R h := by
  induction p generalizing h with
  | ret a => exact hk a h hp
  | throw e => trivial
  | stmt l n c hn hc =>
    exact ⟨hp.1, fun s s' hok => hn s (hp.2.1 s s' hok), fun e => hc e (hp.2.2 e)⟩

/-- An invariant of the store and of what the handler did before, run alone. -/
theorem Prog.Along.run (I : List (ℓ × σ) → σ → Prop)
    (hstep : ∀ h l s s', I h s → Q h l → exec l s = .ok s' → I ((l, s) :: h) s')
    {p : Prog σ ε ℓ α} {s : σ} (hp : p.Along exec Q R h) (hI : I h s) :
    ∃ own, I own (p.run exec s).2 := by
  induction p generalizing h s with
  | ret a => exact ⟨h, hI⟩
  | throw e => exact ⟨h, hI⟩
  | stmt l n c hn hc =>
    obtain ⟨hQ, hok, herr⟩ := hp
    rw [run_stmt]
    cases he : exec l s with
    | ok s' => exact hn s (hok s s' he) (hstep h l s s' hI hQ he)
    | error e => exact hc e (herr e) hI

theorem Prog.Along.mono {Q' : List (ℓ × σ) → ℓ → Prop} {p : Prog σ ε ℓ α}
    (hQ : ∀ h l, Q h l → Q' h l) (hp : p.Along exec Q R h) : p.Along exec Q' R h := by
  induction p generalizing h with
  | ret a => exact hp
  | throw e => trivial
  | stmt l n c hn hc =>
    exact ⟨hQ h l hp.1, fun s s' hok => hn s (hp.2.1 s s' hok), fun e => hc e (hp.2.2 e)⟩

theorem Prog.Along.of_sends {p : Prog σ ε ℓ α} (hp : p.Sends (fun l => ∀ h, Q h l))
    (hR : p.Returns (fun a => ∀ h, R h a)) (h : List (ℓ × σ)) : p.Along exec Q R h := by
  induction p generalizing h with
  | ret a => exact hR h
  | throw e => trivial
  | stmt l n c hn hc =>
    exact ⟨hp.1 h, fun s _ _ => hn s (hp.2.1 s) (hR.1 s) _, fun e => hc e (hp.2.2 e) (hR.2 e) h⟩

/-- The end of a handler, of which every statement will do, when its history so far speaks for every
result. -/
theorem Prog.Along.of_history {p : Prog σ ε ℓ α} (hp : p.Sends (fun l => ∀ h, Q h l))
    (hR : ∀ a own, h <:+ own → R own a) : p.Along exec Q R h := by
  induction p generalizing h with
  | ret a => exact hR a h List.suffix_rfl
  | throw e => trivial
  | stmt l n c hn hc =>
    refine ⟨hp.1 h, fun s s' _ => ?_, fun e => hc e (hp.2.2 e) hR⟩
    exact hn s (hp.2.1 s) fun a own hown => hR a own ((List.suffix_cons _ _).trans hown)

/-- The rest of a handler, after a history that speaks for every statement it may send and
for every result. -/
theorem Prog.Along.since {P : ℓ → Prop} {p : Prog σ ε ℓ α} (hp : p.Sends P)
    (hQ : ∀ l own, P l → h <:+ own → Q own l) (hR : ∀ a own, h <:+ own → R own a) :
    p.Along exec Q R h := by
  induction p generalizing h with
  | ret a => exact hR a h List.suffix_rfl
  | throw e => trivial
  | stmt l n c hn hc =>
    refine ⟨hQ l h hp.1 List.suffix_rfl, fun s s' _ => ?_, fun e => hc e (hp.2.2 e) hQ hR⟩
    have hlonger : ∀ {own}, (l, s) :: h <:+ own → h <:+ own := (List.suffix_cons _ _).trans
    exact hn s (hp.2.1 s) (fun l own hl hown => hQ l own hl (hlonger hown)) fun a own hown =>
      hR a own (hlonger hown)

end Along

section Continues

/-- Every statement that the handler sends, with what it goes on with, satisfies `P`. -/
def Prog.Continues (P : ℓ → (σ → Prog σ ε ℓ α) → Prop) : Prog σ ε ℓ α → Prop
  | .ret _ => True
  | .throw _ => True
  | .stmt l n c => P l n ∧ (∀ s, (n s).Continues P) ∧ ∀ e, (c e).Continues P

variable {P : ℓ → (σ → Prog σ ε ℓ α) → Prop}

theorem Prog.continues_send_bind {l : ℓ} {view : σ → β} {k : β → Prog σ ε ℓ α} :
    ((Prog.send l view).bind k).Continues P ↔
      P l (fun s => k (view s)) ∧ ∀ s, (k (view s)).Continues P := by
  rw [Prog.send_bind]
  simp only [Prog.Continues]
  exact and_congr_right fun _ => and_iff_left fun _ => trivial

theorem Prog.Continues.bind {p : Prog σ ε ℓ β} {k : β → Prog σ ε ℓ α}
    (hp : p.Sends (fun l => ∀ n, P l n)) (hk : ∀ a, (k a).Continues P) :
    (p.bind k).Continues P := by
  induction p with
  | ret a => exact hk a
  | throw e => trivial
  | stmt l n c hn hc => exact ⟨hp.1 _, fun s => hn s (hp.2.1 s), fun e => hc e (hp.2.2 e)⟩

theorem Prog.Continues.of_sends {p : Prog σ ε ℓ α} (hp : p.Sends (fun l => ∀ n, P l n)) :
    p.Continues P := by
  induction p with
  | ret a => trivial
  | throw e => trivial
  | stmt l n c hn hc => exact ⟨hp.1 _, fun s => hn s (hp.2.1 s), fun e => hc e (hp.2.2 e)⟩

theorem Steps.continues {exec : ℓ → σ → Except ε σ} {prog : ρ → Prog σ ε ℓ α} {may : ρ → Prop}
    {cond : σ → ℓ → Prop} {Q : ρ → ℓ → (σ → Prog σ ε ℓ α) → Prop} {tr : List (Event ρ σ ℓ)} {s₀ : σ}
    {c : Config ρ σ ε ℓ α} (hprog : ∀ r, may r → (prog r).Continues (Q r))
    (hsteps : Steps (Step exec prog may cond) ⟨s₀, []⟩ tr c) {i : Nat} {q : ρ × Prog σ ε ℓ α}
    (hq : c.pool[i]? = some q) : q.2.Continues (Q q.1) := by
  induction hsteps generalizing i q with
  | refl => simp at hq
  | snoc _ hstep ih =>
    cases hstep with
    | arrive hr =>
      rcases Config.arrive_pool prog hq with hold | ⟨_, rfl⟩
      · exact ih hold
      · exact hprog _ hr
    | fire hi _ =>
      obtain ⟨_, hnext, hfail⟩ := ih hi
      rcases Config.advance_pool exec hi hq with ⟨_, hold⟩ | ⟨_, ⟨_, _, rfl⟩ | ⟨_, _, rfl⟩⟩
      · exact ih hold
      · exact hnext _
      · exact hfail _

end Continues

section Own

variable (exec : ℓ → σ → Except ε σ)

def own (i : Nat) : List (Event ρ σ ℓ) → List (ℓ × σ)
  | [] => []
  | .arrive _ :: tr => own i tr
  | .fire j l s _ :: tr =>
    if j = i then
      match exec l s with
      | .ok _ => (l, s) :: own i tr
      | .error _ => own i tr
    else own i tr

variable {exec} {tr : List (Event ρ σ ℓ)} {i : Nat} {l : ℓ} {s s' : σ}

theorem own_append (tr₁ tr₂ : List (Event ρ σ ℓ)) :
    own exec i (tr₂ ++ tr₁) = own exec i tr₂ ++ own exec i tr₁ := by
  induction tr₂ with
  | nil => rfl
  | cons e tr₂ ih =>
    cases e with
    | arrive r => exact ih
    | fire j l s s' =>
      rw [List.cons_append]
      simp only [own]
      split
      · split
        · rw [ih, List.cons_append]
        · exact ih
      · exact ih

theorem mem_own_append {e : ℓ × σ} {tr₁ : List (Event ρ σ ℓ)} (hmem : e ∈ own exec i tr₁)
    (tr₂ : List (Event ρ σ ℓ)) : e ∈ own exec i (tr₂ ++ tr₁) := by
  rw [own_append]
  exact List.mem_append_right _ hmem

theorem mem_own (hmem : (l, s) ∈ own exec i tr) :
    ∃ s', .fire i l s s' ∈ tr ∧ ∃ s'', exec l s = .ok s'' := by
  induction tr with
  | nil => cases hmem
  | cons e tr ih =>
    cases e with
    | arrive r =>
      obtain ⟨s', hfire, hexec⟩ := ih hmem
      exact ⟨s', by simp [hfire], hexec⟩
    | fire j m t t' =>
      have hold : (l, s) ∈ own exec i tr →
          ∃ s', Event.fire i l s s' ∈ Event.fire j m t t' :: tr ∧ ∃ s'', exec l s = .ok s'' := by
        intro hmem
        obtain ⟨s', hfire, hexec⟩ := ih hmem
        exact ⟨s', .tail _ hfire, hexec⟩
      unfold own at hmem
      split at hmem
      · rename_i hji
        split at hmem
        · rename_i t'' hok
          rcases List.mem_cons.mp hmem with heq | hmem
          · cases heq
            subst hji
            exact ⟨t', .head _, t'', hok⟩
          · exact hold hmem
        · exact hold hmem
      · exact hold hmem

theorem getLast?_of_suffix {h own : List (ℓ × σ)} {e : ℓ × σ} (hlast : h.getLast? = some e)
    (hsuffix : h <:+ own) :
    own.getLast? = some e := by
  obtain ⟨t, rfl⟩ := hsuffix
  rw [List.getLast?_append, hlast]
  rfl

/-- The event of a statement in a request's history, and what the history was before it. -/
theorem own_split {h : List (ℓ × σ)} (hsuffix : (l, s) :: h <:+ own exec i tr) :
    ∃ tr₁ tr₂ s' s'', tr = tr₂ ++ .fire i l s s' :: tr₁ ∧ exec l s = .ok s'' ∧
      own exec i tr₁ = h := by
  induction tr with
  | nil => simp [own] at hsuffix
  | cons e tr ih =>
    have hold : (l, s) :: h <:+ own exec i tr →
        ∃ tr₁ tr₂ s' s'', e :: tr = tr₂ ++ .fire i l s s' :: tr₁ ∧ exec l s = .ok s'' ∧
          own exec i tr₁ = h := by
      intro hrest
      obtain ⟨tr₁, tr₂, s', s'', htr, hfacts⟩ := ih hrest
      exact ⟨tr₁, e :: tr₂, s', s'', by rw [htr]; rfl, hfacts⟩
    cases e with
    | arrive r => exact hold hsuffix
    | fire j m t t' =>
      unfold own at hsuffix
      split at hsuffix
      · rename_i hji
        split at hsuffix
        · rename_i t'' hok
          rcases List.suffix_cons_iff.mp hsuffix with heq | hrest
          · cases heq
            subst hji
            exact ⟨tr, [], t', t'', rfl, hok, rfl⟩
          · exact hold hrest
        · exact hold hsuffix
      · exact hold hsuffix

/-- What a run says of its events and of the requests in its pool. -/
structure Recalled (exec : ℓ → σ → Except ε σ) (Q : ρ → List (ℓ × σ) → ℓ → Prop)
    (R : ρ → List (ℓ × σ) → α → Prop) (tr : List (Event ρ σ ℓ)) (c : Config ρ σ ε ℓ α) : Prop where
  pool : ∀ (i : Nat) (q : ρ × Prog σ ε ℓ α), c.pool[i]? = some q →
    q.2.Along exec (Q q.1) (R q.1) (own exec i tr)
  absent : ∀ i, c.pool.length ≤ i → own exec i tr = []
  events : ∀ tr₁ tr₂ i l s s', tr = tr₂ ++ .fire i l s s' :: tr₁ →
    (exec l s = .ok s' ∨ (∃ e, exec l s = .error e) ∧ s' = s) ∧
      ∃ q, c.pool[i]? = some q ∧ Q q.1 (own exec i tr₁) l

def passed (exec : ℓ → σ → Except ε σ) (kind : ℓ → Bool) : List (Event ρ σ ℓ) → List Nat
  | [] => []
  | .arrive _ :: tr => passed exec kind tr
  | .fire j l s _ :: tr =>
    match exec l s with
    | .ok _ => if kind l then j :: passed exec kind tr else passed exec kind tr
    | .error _ => passed exec kind tr

section Passed

variable {kind kind' : ℓ → Bool}

theorem passed_fire_of_ok {j : Nat} {t : σ} (hok : exec l s = .ok t) :
    passed exec kind (.fire j l s s' :: tr) = if kind l then j :: passed exec kind tr else passed
      exec kind tr := by
  rw [passed, hok]

theorem passed_fire_of_error {j : Nat} {e : ε} (herr : exec l s = .error e) :
    passed exec kind (.fire j l s s' :: tr) = passed exec kind tr := by
  rw [passed, herr]

theorem passed_append (tr₁ tr₂ : List (Event ρ σ ℓ)) :
    passed exec kind (tr₂ ++ tr₁) = passed exec kind tr₂ ++ passed exec kind tr₁ := by
  induction tr₂ with
  | nil => rfl
  | cons e tr₂ ih =>
    cases e with
    | arrive r => exact ih
    | fire j l s s' =>
      simp only [List.cons_append, passed]
      split
      · split
        · rw [ih, List.cons_append]
        · exact ih
      · exact ih

/-- At most `n` get through exactly when each of them meets fewer than `n`. -/
theorem passed_length_le_iff {n : Nat} :
    (passed exec kind tr).length ≤ n ↔ ∀ tr₁ tr₂ i l s s', tr = tr₂ ++ .fire i l s s' :: tr₁ →
      kind l = true → (∃ t, exec l s = .ok t) → (passed exec kind tr₁).length < n := by
  constructor
  · rintro hle tr₁ tr₂ i l s s' rfl hkind ⟨t, hok⟩
    rw [passed_append, passed_fire_of_ok hok, if_pos hkind, List.length_append,
      List.length_cons] at hle
    omega
  · intro hmet
    induction tr with
    | nil => exact Nat.zero_le _
    | cons e tr ih =>
      have hrest := ih fun tr₁ tr₂ i l s s' htr => hmet tr₁ (e :: tr₂) i l s s' (by rw [htr]; rfl)
      cases e with
      | arrive r => exact hrest
      | fire i l s s' =>
        unfold passed
        split
        · rename_i t hok
          split
          · exact hmet tr [] i l s s' rfl ‹_› ⟨t, hok⟩
          · exact hrest
        · exact hrest

theorem mem_passed : i ∈ passed exec kind tr ↔ ∃ e ∈ own exec i tr, kind e.1 = true := by
  induction tr with
  | nil => simp [passed, own]
  | cons e tr ih =>
    cases e with
    | arrive r => exact ih
    | fire j l s s' =>
      unfold passed own
      cases exec l s with
      | error e => simpa using ih
      | ok t =>
        by_cases hji : j = i
        · by_cases hkind : kind l = true <;> simp [hji, hkind, ih]
        · by_cases hkind : kind l = true <;> simp [hji, hkind, ih, Ne.symm hji]

/-- A request that sends one statement of a kind at most is in the list at most once. -/
theorem passed_nodup (honce : ∀ tr₁ tr₂ i l s s', tr = tr₂ ++ .fire i l s s' :: tr₁ →
    kind l = true →
    ∀ e ∈ own exec i tr₁, kind e.1 = false) : (passed exec kind tr).Nodup := by
  induction tr with
  | nil => exact List.nodup_nil
  | cons e tr ih =>
    have hrest := ih fun tr₁ tr₂ i l s s' htr => honce tr₁ (e :: tr₂) i l s s' (by rw [htr]; rfl)
    cases e with
    | arrive r => exact hrest
    | fire i l s s' =>
      cases hexec : exec l s with
      | error e => rwa [passed_fire_of_error hexec]
      | ok t =>
        rw [passed_fire_of_ok hexec]
        split
        · rename_i hkind
          refine List.nodup_cons.mpr ⟨fun hmem => ?_, hrest⟩
          obtain ⟨e, he, hekind⟩ := mem_passed.mp hmem
          rw [honce tr [] i l s s' rfl hkind e he] at hekind
          cases hekind
        · exact hrest

end Passed

section Steps

variable {Q : ρ → List (ℓ × σ) → ℓ → Prop} {R : ρ → List (ℓ × σ) → α → Prop}
    {c c' : Config ρ σ ε ℓ α}

theorem own_fire_of_ne {j : Nat} (hne : j ≠ i) :
    own exec i (.fire j l s s' :: tr) = own exec i tr := by
  rw [own, if_neg hne]

theorem own_fire_of_ok {t : σ} (hok : exec l s = .ok t) :
    own exec i (.fire i l s s' :: tr) = (l, s) :: own exec i tr := by
  rw [own, if_pos rfl, hok]

theorem own_fire_of_error {e : ε} (herr : exec l s = .error e) :
    own exec i (.fire i l s s' :: tr) = own exec i tr := by
  rw [own, if_pos rfl, herr]

theorem Recalled.arrive {prog : ρ → Prog σ ε ℓ α} {r : ρ} (h : Recalled exec Q R tr c)
    (hr : (prog r).Along exec (Q r) (R r) []) :
    Recalled exec Q R (.arrive r :: tr) (c.arrive prog r) := by
  refine ⟨fun i q hq => ?_, fun i hi => ?_, fun tr₁ tr₂ i l s s' heq => ?_⟩
  · rcases Config.arrive_pool prog hq with hold | ⟨rfl, rfl⟩
    · exact h.pool i q hold
    · rw [own, h.absent _ (Nat.le_refl _)]
      exact hr
  · simp only [Config.arrive, List.length_append, List.length_singleton] at hi
    exact h.absent i (by omega)
  · cases tr₂ with
    | nil => cases heq
    | cons e tr₂ =>
      obtain ⟨rfl, htr⟩ := List.cons.inj heq
      obtain ⟨hstore, q, hq, hQ⟩ := h.events tr₁ tr₂ i l s s' htr
      exact ⟨hstore, q, by rw [Config.arrive,
        List.getElem?_append_left (List.getElem?_eq_some_iff.mp hq).1, hq], hQ⟩

theorem Recalled.fire {r : ρ} {n : σ → Prog σ ε ℓ α} {k : ε → Prog σ ε ℓ α}
    (h : Recalled exec Q R tr c) (hi : c.pool[i]? = some (r, .stmt l n k)) :
    Recalled exec Q R (.fire i l c.store (c.advance exec i).store :: tr) (c.advance exec i) := by
  obtain ⟨hQ, hnext, hfail⟩ := h.pool i _ hi
  have hlt : i < c.pool.length := (List.getElem?_eq_some_iff.mp hi).1
  have hkept : ∀ (j : Nat) (q : ρ × Prog σ ε ℓ α), c.pool[j]? = some q →
      ∃ q', (c.advance exec i).pool[j]? = some q' ∧ q'.1 = q.1 := by
    intro j q hq
    have hpool : (c.advance exec i).pool[j]? = some q ∨
        i = j ∧ ∃ p, (c.advance exec i).pool[j]? = some (r, p) := by
      cases he : exec l c.store with
      | ok s =>
        rw [Config.advance_ok exec hi he, List.getElem?_set]
        split
        · rename_i heq
          exact .inr ⟨heq, _, rfl⟩
        · exact .inl hq
      | error e =>
        rw [Config.advance_error exec hi he, List.getElem?_set]
        split
        · rename_i heq
          exact .inr ⟨heq, _, rfl⟩
        · exact .inl hq
    rcases hpool with hsame | ⟨rfl, p, hp⟩
    · exact ⟨q, hsame, rfl⟩
    · rw [hi] at hq
      cases hq
      exact ⟨_, hp, rfl⟩
  refine ⟨fun j q hq => ?_, fun j hj => ?_, fun tr₁ tr₂ j m s s' heq => ?_⟩
  · rcases Config.advance_pool exec hi hq with ⟨hne, hold⟩ | ⟨rfl, ⟨s, hok, rfl⟩ | ⟨e, herr, rfl⟩⟩
    · rw [own_fire_of_ne hne]
      exact h.pool j q hold
    · rw [own_fire_of_ok hok]
      exact hnext c.store s hok
    · rw [own_fire_of_error herr]
      exact hfail e
  · rw [Config.advance_length] at hj
    rw [own_fire_of_ne (by omega)]
    exact h.absent j hj
  · cases tr₂ with
    | nil =>
      cases heq
      obtain ⟨q, hq, hfst⟩ := hkept i _ hi
      refine ⟨?_, q, hq, by rw [hfst]; exact hQ⟩
      cases he : exec l c.store with
      | ok s => rw [Config.advance_ok exec hi he]; exact .inl rfl
      | error e => rw [Config.advance_error exec hi he]; exact .inr ⟨⟨e, rfl⟩, rfl⟩
    | cons e tr₂ =>
      obtain ⟨rfl, htr⟩ := List.cons.inj heq
      obtain ⟨hstore, q, hq, hQ'⟩ := h.events tr₁ tr₂ j m s s' htr
      obtain ⟨q', hq', hfst⟩ := hkept j q hq
      exact ⟨hstore, q', hq', by rw [hfst]; exact hQ'⟩

theorem Recalled.steps {prog : ρ → Prog σ ε ℓ α} {may : ρ → Prop} {cond : σ → ℓ → Prop} {s₀ : σ}
    (hprog : ∀ r, may r → (prog r).Along exec (Q r) (R r) [])
    (hsteps : Steps (Step exec prog may cond) ⟨s₀, []⟩ tr c) : Recalled exec Q R tr c := by
  refine Steps.invariant (Recalled exec Q R) ⟨by simp, by simp [own], ?_⟩ ?_ hsteps
  · intro tr₁ tr₂ i l s s' heq
    cases tr₂ <;> cases heq
  · intro tr c e c' h hstep
    cases hstep with
    | arrive hr => exact h.arrive (hprog _ hr)
    | fire hi _ => exact h.fire hi

/-- A statement in a request's history is one of the run, which it changed the store in. -/
theorem Recalled.fired (h : Recalled exec Q R tr c) (hmem : (l, s) ∈ own exec i tr) :
    ∃ s', .fire i l s s' ∈ tr ∧ exec l s = .ok s' := by
  obtain ⟨s', hfire, s'', hok⟩ := mem_own hmem
  obtain ⟨tr₂, tr₁, htr⟩ := List.append_of_mem hfire
  rcases (h.events tr₁ tr₂ i l s s' htr).1 with hexec | ⟨⟨e, herr⟩, _⟩
  · exact ⟨s', hfire, hexec⟩
  · rw [hok] at herr
    cases herr

theorem Steps.at_fire {prog : ρ → Prog σ ε ℓ α} {may : ρ → Prop} {cond : σ → ℓ → Prop}
    {c₀ : Config ρ σ ε ℓ α} {tr₁ tr₂ : List (Event ρ σ ℓ)}
    (hsteps : Steps (Step exec prog may cond) c₀ (tr₂ ++ .fire i l s s' :: tr₁) c) :
    ∃ c₁ c₂ : Config ρ σ ε ℓ α, Steps (Step exec prog may cond) c₀ tr₁ c₁ ∧ c₁.store = s ∧
      Steps (Step exec prog may cond) c₀ (.fire i l s s' :: tr₁) c₂ ∧ c₂.store = s' ∧
        Steps (Step exec prog may cond) c₂ tr₂ c := by
  obtain ⟨c₂, hupto, hafter⟩ := Steps.split hsteps
  cases hupto with
  | @snoc _ c₁ _ _ hbefore hstep =>
    cases hstep with
    | fire hi hcond => exact ⟨c₁, _, hbefore, rfl, .snoc hbefore (.fire hi hcond), rfl, hafter⟩

/-- What every statement does to the store, a run has done since it began, and since each
statement. -/
theorem Steps.since {prog : ρ → Prog σ ε ℓ α} {may : ρ → Prop} {cond : σ → ℓ → Prop}
    {c₀ : Config ρ σ ε ℓ α} {r : σ → σ → Prop} (hrefl : ∀ s, r s s)
    (htrans : ∀ s₁ s₂ s₃, r s₁ s₂ → r s₂ s₃ → r s₁ s₃) (hexec : ∀ l s s', exec l s = .ok s' →
      r s s') (hsteps : Steps (Step exec prog may cond) c₀ tr c) :
    r c₀.store c.store ∧ ∀ i l s s', .fire i l s s' ∈ tr → r s c.store := by
  induction hsteps with
  | refl => exact ⟨hrefl _, fun _ _ _ _ h => (by cases h)⟩
  | @snoc _ c₁ _ _ hbefore hstep ih =>
    cases hstep with
    | arrive hr =>
      refine ⟨ih.1, fun i l s s' hmem => ?_⟩
      rcases List.mem_cons.mp hmem with heq | hold
      · cases heq
      · exact ih.2 i l s s' hold
    | @fire i _ l _ _ hi hcond =>
      have hlast : r c₁.store (c₁.advance exec i).store := by
        cases hok : exec l c₁.store with
        | ok s => rw [Config.advance_ok exec hi hok]; exact hexec l _ s hok
        | error e => rw [Config.advance_error exec hi hok]; exact hrefl _
      refine ⟨htrans _ _ _ ih.1 hlast, fun j m s s' hmem => ?_⟩
      rcases List.mem_cons.mp hmem with heq | hold
      · cases heq
        exact hlast
      · exact htrans _ _ _ (ih.2 j m s s' hold) hlast

/-- What the events of a run keep holds after it, and where each of them met the store. -/
theorem Steps.carries {prog : ρ → Prog σ ε ℓ α} {may : ρ → Prop} {cond : σ → ℓ → Prop}
    {c₀ : Config ρ σ ε ℓ α} {I : σ → Prop} (hsteps : Steps (Step exec prog may cond) c₀ tr c)
    (hkeep : ∀ i l s s', .fire i l s s' ∈ tr → I s → I s') (h₀ : I c₀.store) :
    I c.store ∧ ∀ i l s s', .fire i l s s' ∈ tr → I s := by
  induction hsteps with
  | refl => exact ⟨h₀, fun _ _ _ _ h => (by cases h)⟩
  | @snoc tr c₁ _ e hbefore hstep ih =>
    obtain ⟨hlast, hmet⟩ := ih fun i l s s' hmem => hkeep i l s s' (.tail _ hmem)
    cases hstep with
    | arrive hr =>
      refine ⟨hlast, fun i l s s' hmem => ?_⟩
      rcases List.mem_cons.mp hmem with heq | hold
      · cases heq
      · exact hmet i l s s' hold
    | fire hi hcond =>
      refine ⟨hkeep _ _ _ _ List.mem_cons_self hlast, fun i l s s' hmem => ?_⟩
      rcases List.mem_cons.mp hmem with heq | hold
      · cases heq
        exact hlast
      · exact hmet i l s s' hold

/-- An invariant from some point of a run on. What a request read before that point, or
after, satisfies `J`; the statement that it sends then meets a store that satisfies `I`. -/
theorem Recalled.stores {prog : ρ → Prog σ ε ℓ α} {may : ρ → Prop} {cond : σ → ℓ → Prop} {s₀ : σ}
    (I J : σ → Prop) (hmet : ∀ s, I s → J s)
    (hprog : ∀ r, may r → (prog r).Along exec (Q r) (R r) [])
    (hkeep : ∀ r h l s s', (∀ e ∈ h, J e.2) → Q r h l → I s → cond s l → exec l s = .ok s' → I s')
    {c₁ : Config ρ σ ε ℓ α} {tr₁ tr₂ : List (Event ρ σ ℓ)}
    (hbefore : Steps (Step exec prog may cond) ⟨s₀, []⟩ tr₁ c₁)
    (hJ : ∀ i l s s', .fire i l s s' ∈ tr₁ → J s) (hI : I c₁.store)
    (hafter : Steps (Step exec prog may cond) c₁ tr₂ c) :
    I c.store ∧ ∀ i l s s', .fire i l s s' ∈ tr₂ ++ tr₁ → J s := by
  induction hafter with
  | refl => exact ⟨hI, hJ⟩
  | @snoc tr₂ c₂ c₃ e hupto hstep ih =>
    obtain ⟨hI₂, hJ₂⟩ := ih
    cases hstep with
    | arrive hr =>
      refine ⟨hI₂, fun i l s s' hmem => ?_⟩
      rcases List.mem_cons.mp hmem with heq | hold
      · cases heq
      · exact hJ₂ i l s s' hold
    | @fire i r l n k hi hcond =>
      have hrecalled := Recalled.steps hprog (.snoc (Steps.trans hbefore hupto) (.fire hi hcond))
      obtain ⟨hstore, q, _, hQ⟩ := hrecalled.events _ [] i l _ _ rfl
      have hread : ∀ e ∈ own exec i (tr₂ ++ tr₁), J e.2 := by
        rintro ⟨m, t⟩ hmem
        obtain ⟨t', hfire, _⟩ := mem_own hmem
        exact hJ₂ i m t t' hfire
      refine ⟨?_, fun j m s s' hmem => ?_⟩
      · rcases hstore with hok | ⟨_, hsame⟩
        · exact hkeep q.1 _ l _ _ hread hQ hI₂ hcond hok
        · rw [hsame]
          exact hI₂
      · rcases List.mem_cons.mp hmem with heq | hold
        · cases heq
          exact hmet _ hI₂
        · exact hJ₂ j m s s' hold

theorem Recalled.invariant {prog : ρ → Prog σ ε ℓ α} {may : ρ → Prop} {cond : σ → ℓ → Prop} {s₀ : σ}
    (I : σ → Prop) (hprog : ∀ r, may r → (prog r).Along exec (Q r) (R r) [])
    (hkeep : ∀ r h l s s', (∀ e ∈ h, I e.2) → Q r h l → I s → cond s l → exec l s = .ok s' → I s')
    (h₀ : I s₀) (hsteps : Steps (Step exec prog may cond) ⟨s₀, []⟩ tr c) :
    I c.store ∧ ∀ i l s s', .fire i l s s' ∈ tr → I s := by
  have hall := Recalled.stores I I (fun _ => id) hprog hkeep .refl
    (fun _ _ _ _ h => (by cases h)) h₀ hsteps
  rwa [List.append_nil] at hall

end Steps

end Own

section Trace

variable (exec : ℓ → σ → Except ε σ) (prog : ρ → Prog σ ε ℓ α)

def Config.trace (c : Config ρ σ ε ℓ α) : List (ρ ⊕ Nat) → List (Event ρ σ ℓ) → List (Event ρ σ ℓ)
  | [], tr => tr
  | .inl r :: rest, tr => (c.arrive prog r).trace rest (.arrive r :: tr)
  | .inr i :: rest, tr =>
    match c.pool[i]? with
    | some (_, .stmt l _ _) =>
        (c.advance exec i).trace rest (.fire i l c.store (c.advance exec i).store :: tr)
    | _ => c.trace rest tr

theorem Config.trace_obeys {may : ρ → Prop} {cond : σ → ℓ → Prop} {check : σ → ℓ → Bool}
    (hcheck : ∀ s l, check s l = true → cond s l) (sched : List (ρ ⊕ Nat))
    (hmay : ∀ r, .inl r ∈ sched → may r) {c₀ c : Config ρ σ ε ℓ α}
    (hobeys : c.obeys exec prog check sched = true) {tr : List (Event ρ σ ℓ)}
    (hbefore : Steps (Step exec prog may cond) c₀ tr c) :
    Steps (Step exec prog may cond) c₀ (c.trace exec prog sched tr) (c.play exec prog sched) := by
  induction sched generalizing c tr with
  | nil => exact hbefore
  | cons a rest ih =>
    have hrest : ∀ r, .inl r ∈ rest → may r := fun r hr => hmay r (by simp [hr])
    cases a with
    | inl r => exact ih hrest hobeys (.snoc hbefore (.arrive (hmay r (by simp))))
    | inr i =>
      simp only [obeys, Bool.and_eq_true] at hobeys
      simp only [trace, play]
      split
      · rename_i hi
        have hnow := hobeys.1
        rw [hi] at hnow
        exact ih hrest hobeys.2 (.snoc hbefore (.fire hi (hcheck _ _ hnow)))
      · rename_i hi
        have hdone : c.advance exec i = c := by
          unfold advance
          split
          · rename_i hstmt
            exact absurd hstmt (hi _ _ _ _)
          · rfl
        have hobeys' := hobeys.2
        rw [hdone] at hobeys' ⊢
        exact ih hrest hobeys' hbefore

theorem Config.trace_steps {may : ρ → Prop} (sched : List (ρ ⊕ Nat))
    (hmay : ∀ r, .inl r ∈ sched → may r) {c₀ c : Config ρ σ ε ℓ α} {tr : List (Event ρ σ ℓ)}
    (hbefore : Steps (Step exec prog may (fun _ _ => True)) c₀ tr c) :
    Steps (Step exec prog may (fun _ _ => True)) c₀ (c.trace exec prog sched tr)
      (c.play exec prog sched) :=
  trace_obeys exec prog (fun _ _ _ => trivial) sched hmay (c.obeys_true exec prog sched) hbefore

def checkEvents (check : List (Event ρ σ ℓ) → Event ρ σ ℓ → Bool) : List (Event ρ σ ℓ) → Bool
  | [] => true
  | e :: tr => check tr e && checkEvents check tr

theorem checkEvents_at {check : List (Event ρ σ ℓ) → Event ρ σ ℓ → Bool}
    {tr₁ tr₂ : List (Event ρ σ ℓ)} {e : Event ρ σ ℓ}
    (h : checkEvents check (tr₂ ++ e :: tr₁) = true) : check tr₁ e = true := by
  induction tr₂ with
  | nil =>
    simp only [List.nil_append, checkEvents, Bool.and_eq_true] at h
    exact h.1
  | cons e' tr₂ ih =>
    simp only [List.cons_append, checkEvents, Bool.and_eq_true] at h
    exact ih h.2

end Trace

end Handler
