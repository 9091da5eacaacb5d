import SaasBackend.FactorRequests

/-! How often a backup code signs in. A verification takes the matched code out of the
codes it read with its challenge and writes the rest back, so a code is gone for good as
long as no one has changed them in between. -/

set_option autoImplicit false

namespace SaasBackend
open Keyed Handler

def World.backupCodes (w : World) (u : Id) : List BackupHash :=
  ((w.users.get? u).map (·.twoFactorBackupCodes)).getD []

theorem backupCodes_eq {w : World} {u : Id} {x : User} (hx : w.users.get? u = some x) :
    w.backupCodes u = x.twoFactorBackupCodes := by simp [World.backupCodes, hx]

def World.CodesDrawn (env : Env) (w : World) : Prop :=
  ∀ u, ∀ h ∈ w.backupCodes u, ∀ n, w.nonce ≤ n → compareBackupCode env n h = false

/-- Whenever a verification writes the remaining codes of a user back, the stored ones are
still those that it read. -/
def ConsumesAsRead (tr : List FactorEvent) : Prop :=
  ∀ tr₁ tr₂ i id d w w', tr = tr₂ ++ .fire i (.userUpdate id d) w w' :: tr₁ →
    d.twoFactorBackupCodes.isSome = true → ∀ w₁ ∈ firstRead i tr₁,
    w₁.backupCodes id = w.backupCodes id

def AcceptsBackup (c : FactorConfig) (i b : Nat) : Prop :=
  ∃ challengeToken client user token refreshToken dev, c.pool[i]? =
    some (.verifyChallenge challengeToken b client,
      .ret (.session user token refreshToken dev true))

def ReturnsBackup (c : FactorConfig) (e b : Nat) : Prop :=
  ∃ u code messageKey codes,
    c.pool[e]? = some (.enable u code, .ret (.backupCodes messageKey codes)) ∧ b ∈ codes

def Stmt.enrolls (h : BackupHash) : Stmt → Bool
  | .killSessions _ d => (d.twoFactorBackupCodes.getD []).contains h
  | _ => false

theorem backupCodes_back {l : Stmt} {w w' : World} (hexec : l.exec w = .ok w') {u : Id}
    {h : BackupHash} (hh : h ∈ w'.backupCodes u) :
    h ∈ w.backupCodes u ∨
      (∃ d codes, (l = .userUpdate u d ∨ l = .killSessions u d) ∧
        d.twoFactorBackupCodes = some codes ∧ h ∈ codes) ∨
        ∃ x, l = .userCreate x ∧ h ∈ x.twoFactorBackupCodes := by
  cases hx' : w'.users.get? u with
  | none => simp [World.backupCodes, hx'] at hh
  | some x' =>
    rw [backupCodes_eq hx'] at hh
    rcases (exec_effect hexec).user_back hx' with ⟨x, hx, hstep⟩ | ⟨x, rfl, rfl, rfl⟩
    · rw [backupCodes_eq hx]
      have hpatch : ∀ d : UserPatch, h ∈ (d.apply x).twoFactorBackupCodes →
          h ∈ x.twoFactorBackupCodes ∨ ∃ codes, d.twoFactorBackupCodes = some codes ∧
            h ∈ codes := by
        intro d hmem
        cases hd : d.twoFactorBackupCodes with
        | none => exact .inl (by simpa [UserPatch.apply, hd] using hmem)
        | some codes => exact .inr ⟨codes, rfl, by simpa [UserPatch.apply, hd] using hmem⟩
      cases hstep with
      | same => exact .inl hh
      | update d =>
        rcases hpatch d hh with hold | ⟨codes, hd, hmem⟩
        · exact .inl hold
        · exact .inr (.inl ⟨d, codes, .inl rfl, hd, hmem⟩)
      | kill d =>
        rcases hpatch d hh with hold | ⟨codes, hd, hmem⟩
        · exact .inl hold
        · exact .inr (.inl ⟨d, codes, .inr rfl, hd, hmem⟩)
      | reuse => exact .inl hh
    · exact .inr (.inr ⟨x, rfl, hh⟩)

theorem backupCodes_update {id : Id} {d : UserPatch} {w w' : World}
    (hexec : (Stmt.userUpdate id d).exec w = .ok w') {codes : List BackupHash}
    (hcodes : d.twoFactorBackupCodes = some codes) : w'.backupCodes id = codes := by
  obtain ⟨rfl, x, hx, _⟩ := setUser_ok hexec
  simp [World.backupCodes, hx, UserPatch.apply, hcodes]

theorem matchCode_backup {env : Env} {x : User} {code : Nat} {now : Time} {hashed : BackupHash}
    (h : matchCode env x code now = .backup hashed) :
    hashed ∈ x.twoFactorBackupCodes ∧ compareBackupCode env code hashed = true := by
  unfold matchCode at h
  split at h
  · cases h
  · split at h
    · rename_i hfound
      cases h
      exact ⟨List.mem_of_find?_eq_some hfound, List.find?_some hfound⟩
    · cases h

section Run

variable {env : Env} {w₀ : World} {tr : List FactorEvent} {c : FactorConfig}

/-- A statement that enrols a hash belongs to an `enable` that drew the code. -/
theorem enrolls_drawn {r : FactorRequest} {own : Own} {l : Stmt} {h : BackupHash}
    (hwrites : r.Writes env own l) (hl : l.enrolls h = true) :
    (∃ u code, r = .enable u code) ∧ ∃ raw, h = .sha256 (hashToken raw) ∧ Drawn own raw := by
  cases hwrites with
  | leaves hleaves => cases l <;> simp_all [Stmt.enrolls, Stmt.leavesFactor]
  | verifies => cases hl
  | @enrols u code _ d codes _ hdrawn hcodes =>
    simp only [Stmt.enrolls, hcodes, Option.getD_some, List.contains_iff_mem, List.mem_map] at hl
    obtain ⟨raw, hraw, rfl⟩ := hl
    exact ⟨⟨u, code, rfl⟩, raw, rfl, hdrawn raw hraw⟩
  | removes hcodes => simp [Stmt.enrolls, hcodes] at hl

theorem event_back (hrun : FactorRun env ⟨w₀, []⟩ tr c) (hcond : ConsumesAsRead tr)
    {i : Nat} {l : Stmt} {w w' : World} (hfire : .fire i l w w' ∈ tr) {u : Id} {h : BackupHash}
    (hh : h ∈ w'.backupCodes u) :
    h ∈ w.backupCodes u ∨ (∃ d, l = .killSessions u d) ∧ l.enrolls h = true := by
  obtain ⟨tr₂, tr₁, htr⟩ := List.append_of_mem hfire
  obtain ⟨hstore, q, _, hwrites⟩ := hrun.recalled.events tr₁ tr₂ i l w w' htr
  generalize q.1 = r at hwrites
  rcases hstore with hexec | ⟨_, rfl⟩
  · rcases backupCodes_back hexec hh with hold | ⟨d, codes, hl, hcodes, hmem⟩ | ⟨x, rfl, hmem⟩
    · exact .inl hold
    · rcases hl with rfl | rfl
      · cases hwrites with
        | leaves hleaves => simp [Stmt.leavesFactor, hcodes] at hleaves
        | verifies hjudged hremaining _ =>
          obtain ⟨hashed, _, rfl⟩ := hremaining codes hcodes
          obtain ⟨w₁, hlast, hx⟩ := hjudged.read
          have hsame :=
            hcond tr₁ tr₂ i u d w w' htr (by rw [hcodes]; rfl) w₁ (by rw [firstRead, hlast]; rfl)
          rw [← hsame, backupCodes_eq hx]
          exact .inl (List.mem_filter.mp hmem).1
      · exact .inr ⟨⟨d, rfl⟩, by simp [Stmt.enrolls, hcodes, hmem]⟩
    · cases hwrites with
      | leaves hleaves =>
        simp only [Stmt.leavesFactor, Bool.and_eq_true, List.isEmpty_iff] at hleaves
        rw [hleaves.1] at hmem
        cases hmem
  · exact .inl hh

/-- Drawing moves the supply on, so a value has been drawn by one request only. -/
theorem draws_bounded (hrun : FactorRun env ⟨w₀, []⟩ tr c) :
    w₀.nonce ≤ c.store.nonce ∧ ∀ i l w w', .fire i l w w' ∈ tr → w₀.nonce ≤ w.nonce ∧
      (l = .random → w.nonce < c.store.nonce ∧ ∀ j v v', .fire j .random v v' ∈ tr →
        v.nonce = w.nonce → i = j) := by
  induction hrun with
  | refl => exact ⟨Nat.le_refl _, by simp⟩
  | @snoc tr c c' e hbefore hstep ih =>
    obtain ⟨hle, hevents⟩ := ih
    cases hstep with
    | arrive hr => exact ⟨hle, by simpa [Config.arrive] using hevents⟩
    | @fire i r l n k hi _ =>
      have hgrown : c.store.nonce ≤ (c.advance Stmt.exec i).store.nonce ∧
          (l = .random → (c.advance Stmt.exec i).store.nonce = c.store.nonce + 1) := by
        cases he : l.exec c.store with
        | ok w =>
          rw [Config.advance_ok _ hi he]
          refine ⟨(exec_effect he).nonce_le, fun hl => ?_⟩
          subst hl
          cases he
          rfl
        | error err =>
          rw [Config.advance_error _ hi he]
          refine ⟨Nat.le_refl _, fun hl => ?_⟩
          subst hl
          cases he
      refine ⟨Nat.le_trans hle hgrown.1, fun j m w w' hmem => ?_⟩
      rcases List.mem_cons.mp hmem with heq | hold
      · cases heq
        refine ⟨hle, fun hl =>
          ⟨by rw [hgrown.2 hl]; exact Nat.lt_succ_self _, fun j' v v' hmem' hv => ?_⟩⟩
        rcases List.mem_cons.mp hmem' with heq' | hold'
        · cases heq'
          rfl
        · exact absurd hv (Nat.ne_of_lt ((hevents j' _ v v' hold').2 rfl).1)
      · obtain ⟨hstart, hdrew⟩ := hevents j m w w' hold
        refine ⟨hstart,
          fun hl => ⟨Nat.lt_of_lt_of_le (hdrew hl).1 hgrown.1, fun j' v v' hmem' hv => ?_⟩⟩
        rcases List.mem_cons.mp hmem' with heq' | hold'
        · cases heq'
          exact absurd hv (Nat.ne_of_gt (hdrew hl).1)
        · exact (hdrew hl).2 j' v v' hold' hv

theorem drawn_once (hrun : FactorRun env ⟨w₀, []⟩ tr c) {i j b : Nat}
    (hi : Drawn (own Stmt.exec i tr) b) (hj : Drawn (own Stmt.exec j tr) b) :
    w₀.nonce ≤ b ∧ i = j := by
  obtain ⟨w, hmem, rfl⟩ := hi
  obtain ⟨v, hmem', hv⟩ := hj
  obtain ⟨w', hfire, _⟩ := mem_own hmem
  obtain ⟨v', hfire', _⟩ := mem_own hmem'
  obtain ⟨hle, hdrew⟩ := (draws_bounded hrun).2 i _ w w' hfire
  exact ⟨hle, (hdrew rfl).2 j v v' hfire' hv⟩

theorem enable_enrolsOnce (h : BackupHash) (u : Id) (code : Nat) :
    (enable env u code).SendsOnce (fun l => l.enrolls h = true) := by
  refine .bind (.send (by simp [Stmt.enrolls])) fun found => ?_
  split
  · trivial
  · split
    · trivial
    · split
      · trivial
      · refine .bind (.send (by simp [Stmt.enrolls])) fun now => ?_
        split
        · trivial
        · exact .bind (drawBackupCodes_sends (by simp [Stmt.enrolls]) _) fun codes =>
            .send_bind fun _ => trivial

def FactorEvent.enrolls (h : BackupHash) : FactorEvent → Bool
  | .fire _ l _ _ => l.enrolls h
  | .arrive _ => false

theorem enrolled_once (hrun : FactorRun env ⟨w₀, []⟩ tr c) (h : BackupHash) :
    tr.countP (FactorEvent.enrolls h) ≤ 1 := by
  by_cases hnone : tr.countP (FactorEvent.enrolls h) = 0
  · omega
  · have hinfo : ∀ e ∈ tr, FactorEvent.enrolls h e = true → ∃ i l w w' u code p,
      e = .fire i l w w' ∧
        c.pool[i]? = some (.enable u code, p) ∧ ∃ raw, h = .sha256 (hashToken raw) ∧
          Drawn (own Stmt.exec i tr) raw := by
      intro e hmem he
      cases e with
      | arrive r => cases he
      | fire i l w w' =>
        obtain ⟨tr₂, tr₁, htr⟩ := List.append_of_mem hmem
        obtain ⟨_, ⟨r, p⟩, hq, hwrites⟩ := hrun.recalled.events tr₁ tr₂ i l w w' htr
        obtain ⟨⟨u, code, rfl⟩, raw, hraw, v, hv, hdrawn⟩ := enrolls_drawn hwrites he
        refine ⟨i, l, w, w', u, code, p, rfl, hq, raw, hraw, v, ?_, hdrawn⟩
        rw [htr, own_append]
        refine List.mem_append_right _ ?_
        rw [show Event.fire i l w w' :: tr₁ = [.fire i l w w'] ++ tr₁ from rfl, own_append]
        exact List.mem_append_right _ hv
    obtain ⟨e, hmem, he⟩ := List.countP_pos_iff.mp (Nat.pos_of_ne_zero hnone)
    obtain ⟨i, _, _, _, u, code, p, _, hq, raw, hraw, hdrawn⟩ := hinfo e hmem he
    have hsame : ∀ e ∈ tr, FactorEvent.enrolls h e = true →
        Event.isFiring (fun l => l.enrolls h = true) i e = true := by
      intro e' hmem' he'
      obtain ⟨j, l, w, w', _, _, _, rfl, _, raw', hraw', hdrawn'⟩ := hinfo e' hmem' he'
      rw [hraw] at hraw'
      obtain rfl : raw = raw' := by simpa using hraw'
      obtain rfl := (drawn_once hrun hdrawn hdrawn').2
      simpa [Event.isFiring, FactorEvent.enrolls] using he'
    have hle := List.countP_mono_left hsame
    rcases (firings_le_one hrun).2 i _ hq (enable_enrolsOnce h u code) with
      ⟨hcount, _⟩ | ⟨hcount, _⟩
    · exact Nat.le_trans hle (Nat.le_trans (Nat.le_of_eq hcount) (Nat.zero_le 1))
    · exact Nat.le_trans hle (Nat.le_of_eq hcount)

def EnrolsFor (u : Id) (h : BackupHash) (e : FactorEvent) : Prop :=
  FactorEvent.enrolls h e = true ∧ ∃ i d w w', e = .fire i (.killSessions u d) w w'

/-- A hash stored after a part of a run was stored before it, or enrolled in it. -/
theorem codes_origin (hrun : FactorRun env ⟨w₀, []⟩ tr c) (hcond : ConsumesAsRead tr)
    {c₁ c₂ : FactorConfig} {tr₂ : List FactorEvent} (hpart : FactorRun env c₁ tr₂ c₂)
    (hsub : tr₂ ⊆ tr) {u : Id} {h : BackupHash} (hh : h ∈ c₂.store.backupCodes u) :
    h ∈ c₁.store.backupCodes u ∨ ∃ e ∈ tr₂, EnrolsFor u h e := by
  induction hpart with
  | refl => exact .inl hh
  | @snoc tr' c' c'' e _ hstep ih =>
    have hbefore : h ∈ c'.store.backupCodes u →
        h ∈ c₁.store.backupCodes u ∨ ∃ e' ∈ e :: tr', EnrolsFor u h e' := by
      intro hold
      rcases ih (fun x hx => hsub (.tail _ hx)) hold with hold | ⟨e', hmem, he'⟩
      · exact .inl hold
      · exact .inr ⟨e', .tail _ hmem, he'⟩
    cases hstep with
    | arrive hr => exact hbefore hh
    | @fire i r l n k hi _ =>
      rcases event_back hrun hcond (hsub (.head _)) hh with hold | ⟨⟨d, rfl⟩, hl⟩
      · exact hbefore hold
      · exact .inr ⟨_, .head _, hl, i, d, _, _, rfl⟩

theorem enrolled_apart (hrun : FactorRun env ⟨w₀, []⟩ tr c) {tr₁ tr₂ : List FactorEvent}
    (htr : tr = tr₂ ++ tr₁) {u v : Id} {h : BackupHash} {e e' : FactorEvent} (hmem : e ∈ tr₁)
    (he : EnrolsFor u h e) (hmem' : e' ∈ tr₂) (he' : EnrolsFor v h e') : False := by
  have honce := enrolled_once hrun h
  have hpos := List.countP_pos_iff.mpr ⟨e, hmem, he.1⟩
  have hpos' := List.countP_pos_iff.mpr ⟨e', hmem', he'.1⟩
  rw [htr, List.countP_append] at honce
  omega

theorem enrolled_owner (hrun : FactorRun env ⟨w₀, []⟩ tr c) {u v : Id} {h : BackupHash}
    {e e' : FactorEvent} (hmem : e ∈ tr) (he : EnrolsFor u h e) (hmem' : e' ∈ tr)
    (he' : EnrolsFor v h e') : u = v := by
  obtain ⟨tr₂, tr₁, htr⟩ := List.append_of_mem hmem
  rw [htr] at hmem'
  rcases List.mem_append.mp hmem' with hlater | hmem'
  · exact (enrolled_apart hrun htr (List.mem_cons_self) he hlater he').elim
  · rcases List.mem_cons.mp hmem' with rfl | hearlier
    · obtain ⟨_, i, d, w, w', rfl⟩ := he
      obtain ⟨_, i', d', w₁, w₁', heq⟩ := he'
      cases heq
      rfl
    · have htr' : tr = (tr₂ ++ [e]) ++ tr₁ := by rw [htr, List.append_assoc]; rfl
      exact (enrolled_apart hrun htr' hearlier he'
        (List.mem_append_right _ (List.mem_singleton_self e)) he).elim

theorem enrolled_drawn (hrun : FactorRun env ⟨w₀, []⟩ tr c) {u : Id} {h : BackupHash}
    {e : FactorEvent} (hmem : e ∈ tr) (he : EnrolsFor u h e) :
    ∃ raw, h = .sha256 (hashToken raw) ∧ w₀.nonce ≤ raw := by
  obtain ⟨hl, i, d, w, w', rfl⟩ := he
  obtain ⟨tr₂, tr₁, htr⟩ := List.append_of_mem hmem
  obtain ⟨_, q, _, hwrites⟩ := hrun.recalled.events tr₁ tr₂ i _ w w' htr
  obtain ⟨_, raw, hraw, v, hv, hdrawn⟩ := enrolls_drawn hwrites hl
  obtain ⟨v', hfire, _⟩ := mem_own hv
  refine ⟨raw, hraw, ?_⟩
  rw [← hdrawn]
  exact ((draws_bounded hrun).2 i _ v v'
    (by rw [htr]; exact List.mem_append_right _ (.tail _ hfire))).1

theorem accepted_consumes (hw₀ : w₀.CodesDrawn env) (hrun : FactorRun env ⟨w₀, []⟩ tr c)
    (hcond : ConsumesAsRead tr) {i b : Nat} (hb : w₀.nonce ≤ b) (haccepts : AcceptsBackup c i b) :
    ∃ tr₁ tr₂ id d w w', tr = tr₂ ++ .fire i (.userUpdate id d) w w' :: tr₁ ∧
      .sha256 (hashToken b) ∈ w.backupCodes id ∧ .sha256 (hashToken b) ∉ w'.backupCodes id := by
  obtain ⟨challengeToken, client, user, token, refreshToken, dev, hpool⟩ := haccepts
  obtain ⟨id, d, w, hown, hwrote⟩ :=
    hrun.recalled.pool i _ hpool user token refreshToken dev true rfl
  obtain ⟨w', hfire, w'', hexec⟩ := mem_own hown
  obtain ⟨tr₂, tr₁, htr⟩ := List.append_of_mem hfire
  obtain ⟨hstore, q, hq, hwrites⟩ := hrun.recalled.events tr₁ tr₂ i _ w w' htr
  rw [hpool] at hq
  cases hq
  obtain ⟨codes, hcodes⟩ := Option.isSome_iff_exists.mp hwrote
  cases hwrites with
  | leaves hleaves => simp [Stmt.leavesFactor, hcodes] at hleaves
  | @verifies _ _ _ _ _ _ x matched hjudged hremaining _ =>
    obtain ⟨hashed, rfl, rfl⟩ := hremaining codes hcodes
    obtain ⟨w₁, hlast, hx⟩ := hjudged.read
    obtain ⟨_, v, _, hmatched⟩ := hjudged.check
    obtain ⟨hmem, hcompare⟩ := matchCode_backup hmatched
    have hsame := hcond tr₁ tr₂ i id d w w' htr hwrote w₁ (by rw [firstRead, hlast]; rfl)
    rw [backupCodes_eq hx] at hsame
    rw [hsame] at hmem
    -- the only stored hash that this code matches is its own
    have hhash : hashed = .sha256 (hashToken b) := by
      rw [htr] at hrun hcond
      obtain ⟨c₁, _, hbefore, rfl, _⟩ := Steps.at_fire hrun
      rcases codes_origin hrun hcond hbefore (fun e he => List.mem_append_right _ (.tail _ he))
        hmem with
        hstart | ⟨e, he, henrols⟩
      · rw [hw₀ id hashed hstart b hb] at hcompare
        cases hcompare
      · obtain ⟨raw, rfl, _⟩ := enrolled_drawn hbefore he henrols
        simp only [compareBackupCode, beq_iff_eq, hashToken_inj] at hcompare
        rw [hcompare]
    rcases hstore with hok | ⟨⟨err, hfail⟩, _⟩
    · refine ⟨tr₁, tr₂, id, d, w, w', htr, hhash ▸ hmem, ?_⟩
      rw [backupCodes_update hok hcodes, hhash]
      simp
    · rw [hexec] at hfail
      cases hfail

/-- A hash that has been stored and taken out of the codes of a user does not come back. -/
theorem removed_stays (hw₀ : w₀.CodesDrawn env) (hrun : FactorRun env ⟨w₀, []⟩ tr c)
    (hcond : ConsumesAsRead tr) {tr₁ tr₂ tr₃ : List FactorEvent} {c₁ c₂ : FactorConfig}
    (htr : tr = tr₃ ++ (tr₂ ++ tr₁)) (hrun₁ : FactorRun env ⟨w₀, []⟩ tr₁ c₁)
    (hrun₃ : FactorRun env c₂ tr₃ c) {u : Id} {h : BackupHash}
    (hstored : h ∈ c₁.store.backupCodes u) (hremoved : h ∉ c₂.store.backupCodes u) :
    h ∉ c.store.backupCodes u := by
  intro hback
  have hsub₃ : tr₃ ⊆ tr := by rw [htr]; exact List.subset_append_left _ _
  have hsub₁ : tr₁ ⊆ tr := by
    rw [htr]
    exact fun e he => List.mem_append_right _ (List.mem_append_right _ he)
  rcases codes_origin hrun hcond hrun₃ hsub₃ hback with hold | ⟨e, hmem, henrols⟩
  · exact hremoved hold
  · rcases codes_origin hrun hcond hrun₁ hsub₁ hstored with hstart | ⟨e', hmem', henrols'⟩
    · obtain ⟨raw, rfl, hdrawn⟩ := enrolled_drawn hrun (hsub₃ hmem) henrols
      have hno := hw₀ u _ hstart raw hdrawn
      simp [compareBackupCode] at hno
    · exact enrolled_apart hrun htr (List.mem_append_right _ hmem') henrols' hmem henrols

theorem consumed_apart (hw₀ : w₀.CodesDrawn env) (hrun : FactorRun env ⟨w₀, []⟩ tr c)
    (hcond : ConsumesAsRead tr) {tr₁ tr₂ : List FactorEvent} {i j b : Nat} (hb : w₀.nonce ≤ b)
    {id id' : Id} {l l' : Stmt} {w w' v v' : World} (htr : tr = tr₂ ++ .fire i l w w' :: tr₁)
    (hstored : .sha256 (hashToken b) ∈ w.backupCodes id)
    (hremoved : .sha256 (hashToken b) ∉ w'.backupCodes id) (hlater : .fire j l' v v' ∈ tr₂)
    (hagain : .sha256 (hashToken b) ∈ v.backupCodes id') : False := by
  have hstart : ∀ u, .sha256 (hashToken b) ∉ w₀.backupCodes u := by
    intro u hmem
    have hno := hw₀ u _ hmem b hb
    simp [compareBackupCode] at hno
  have hsub₁ : tr₁ ⊆ tr := by rw [htr]; exact fun e he => List.mem_append_right _ (.tail _ he)
  have hsub₂ : tr₂ ⊆ tr := by rw [htr]; exact List.subset_append_left _ _
  obtain ⟨c₁, c₂, hbefore, rfl, hupto, rfl, hafter⟩ := Steps.at_fire (htr ▸ hrun)
  rcases codes_origin hrun hcond hbefore hsub₁ hstored with hold | ⟨e₁, hmem₁, henrols₁⟩
  · exact hstart id hold
  · obtain ⟨tr₂b, tr₂a, rfl⟩ := List.append_of_mem hlater
    obtain ⟨c₃, _, hbetween, rfl, _⟩ := Steps.at_fire hafter
    have hsub₂a : tr₂a ⊆ tr := fun e he => hsub₂ (List.mem_append_right _ (.tail _ he))
    have hafter_removal : .sha256 (hashToken b) ∈ c₂.store.backupCodes id' := by
      rcases codes_origin hrun hcond hbetween hsub₂a hagain with hold | ⟨e₂, hmem₂, henrols₂⟩
      · exact hold
      · exact (enrolled_apart hrun htr (.tail _ hmem₁) henrols₁
          (List.mem_append_right _ (.tail _ hmem₂)) henrols₂).elim
    rcases codes_origin hrun hcond hupto (by rw [htr]; exact List.subset_append_right _ _)
      hafter_removal with
      hold | ⟨e₂, hmem₂, henrols₂⟩
    · exact hstart id' hold
    · obtain rfl := enrolled_owner hrun (hsub₁ hmem₁) henrols₁ (htr ▸ List.mem_append_right _ hmem₂)
        henrols₂
      exact hremoved hafter_removal

/-- At most one request hands out a pair for a code drawn in the run. -/
theorem accepted_once (hw₀ : w₀.CodesDrawn env) (hrun : FactorRun env ⟨w₀, []⟩ tr c)
    (hcond : ConsumesAsRead tr) {i j b : Nat} (hb : w₀.nonce ≤ b) (hi : AcceptsBackup c i b)
    (hj : AcceptsBackup c j b) : i = j := by
  obtain ⟨tr₁, tr₂, id, d, w, w', htr, hstored, hremoved⟩ := accepted_consumes hw₀ hrun hcond hb hi
  obtain ⟨tr₁', tr₂', id', d', v, v', htr', hstored', hremoved'⟩ :=
    accepted_consumes hw₀ hrun hcond hb hj
  have hmem : Event.fire j (Stmt.userUpdate id' d') v v' ∈ tr₂ ++
      .fire i (.userUpdate id d) w w' :: tr₁ := by
    rw [← htr, htr']
    exact List.mem_append_right _ (.head _)
  rcases List.mem_append.mp hmem with hlater | hmem
  · exact (consumed_apart hw₀ hrun hcond hb htr hstored hremoved hlater hstored').elim
  · rcases List.mem_cons.mp hmem with heq | hearlier
    · cases heq
      rfl
    · obtain ⟨x, y, rfl⟩ := List.append_of_mem hearlier
      have htr₂ : tr = (tr₂ ++ .fire i (.userUpdate id d) w w' :: x) ++
          .fire j (.userUpdate id' d') v v' :: y := by
        rw [htr]
        simp
      exact (consumed_apart hw₀ hrun hcond hb htr₂ hstored' hremoved'
        (List.mem_append_right _ (.head _)) hstored).elim

end Run

/-- While every verification writes back the codes that it read less the one it matched,
a code that an `enable` returned signs in once, and a hash taken out stays out. -/
theorem backup_codes_single_use (env : Env) {w₀ : World} (hw₀ : w₀.CodesDrawn env)
    {tr₁ tr₂ tr₃ : List FactorEvent}
    {c₁ c₂ c₃ : FactorConfig} (hrun₁ : FactorRun env ⟨w₀, []⟩ tr₁ c₁)
    (hrun₂ : FactorRun env c₁ tr₂ c₂)
    (hrun₃ : FactorRun env c₂ tr₃ c₃) (hcond : ConsumesAsRead (tr₃ ++ (tr₂ ++ tr₁))) :
    (∀ e b i j, ReturnsBackup c₃ e b → AcceptsBackup c₃ i b → AcceptsBackup c₃ j b → i = j) ∧
    ∀ u h, h ∈ c₁.store.backupCodes u → h ∉ c₂.store.backupCodes u →
    h ∉ c₃.store.backupCodes u := by
  have hrun : FactorRun env ⟨w₀, []⟩ (tr₃ ++ (tr₂ ++ tr₁)) c₃ :=
    Steps.trans (Steps.trans hrun₁ hrun₂) hrun₃
  refine ⟨fun e b i j ⟨u, code, messageKey, codes, hpool, hmem⟩ hi hj => ?_,
    fun u h hstored hremoved => ?_⟩
  · have hdrawn : Drawn _ b := hrun.recalled.pool e _ hpool messageKey codes rfl b hmem
    exact accepted_once hw₀ hrun hcond (drawn_once hrun hdrawn hdrawn).1 hi hj
  · exact removed_stays hw₀ hrun hcond rfl hrun₁ hrun₃ hstored hremoved

section Sample

def consumesAsRead (tr : List FactorEvent) : FactorEvent → Bool
  | .fire i (.userUpdate id d) w _ => d.twoFactorBackupCodes.isNone ||
    (firstRead i tr).all (fun w₁ => w₁.backupCodes id == w.backupCodes id)
  | _ => true

theorem consumesAsRead_sound {tr : List FactorEvent}
    (hcheck : checkEvents consumesAsRead tr = true) :
    ConsumesAsRead tr := by
  intro tr₁ tr₂ i id d w w' htr hwrites w₁ hw₁
  subst htr
  have hevent := checkEvents_at hcheck
  rw [Option.mem_def] at hw₁
  simp only [consumesAsRead, Bool.or_eq_true, Option.isNone_iff_eq_none, hw₁, Option.all_some,
    beq_iff_eq] at hevent
  rcases hevent with hnone | hsame
  · rw [hnone] at hwrites
    cases hwrites
  · exact hsame

def setUpWorld : World where
  users := (∅ : Table User).insert 1
    { email := "a@x.io", password := some "pw", twoFactorSecret := some (encryptSecret 4) }
  nonce := 5

theorem setUpWorld_drawn : setUpWorld.CodesDrawn sampleEnv := by
  intro u h hh
  cases hx : setUpWorld.users.get? u with
  | none => simp [World.backupCodes, hx] at hh
  | some x =>
    rw [backupCodes_eq hx] at hh
    rcases Table.get?_insert_cases hx with hold | ⟨_, rfl⟩
    · cases hold
    · cases hh

def loginRequest : FactorRequest :=
  .other (login sampleEnv "a@x.io" "pw" {}) (login_leaves sampleEnv "a@x.io" "pw" {})

def twoChallenges : List (FactorRequest ⊕ Nat) :=
  .inl (.enable 1 5) :: List.replicate 13 (.inr 0) ++
    .inl loginRequest :: List.replicate 8 (.inr 1) ++
    .inl loginRequest :: List.replicate 8 (.inr 2)

def presentedInTurn : List (FactorRequest ⊕ Nat) :=
  twoChallenges ++ .inl (.verifyChallenge 15 6 {}) :: List.replicate 12 (.inr 3) ++
    .inl (.verifyChallenge 17 6 {}) :: List.replicate 12 (.inr 4)

def presentedAtOnce : List (FactorRequest ⊕ Nat) :=
  twoChallenges ++ .inl (.verifyChallenge 15 6 {}) :: .inl (.verifyChallenge 17 6 {}) :: .inr 4 ::
    List.replicate 12 (.inr 3) ++ List.replicate 11 (.inr 4)

def presented (sched : List (FactorRequest ⊕ Nat)) : FactorConfig :=
  Config.play Stmt.exec (FactorRequest.prog sampleEnv) ⟨setUpWorld, []⟩ sched

def presentedTrace (sched : List (FactorRequest ⊕ Nat)) : List FactorEvent :=
  Config.trace Stmt.exec (FactorRequest.prog sampleEnv) ⟨setUpWorld, []⟩ sched []

theorem presented_run (sched : List (FactorRequest ⊕ Nat)) :
    FactorRun sampleEnv ⟨setUpWorld, []⟩ (presentedTrace sched) (presented sched) :=
  Config.trace_steps Stmt.exec _ sched (fun _ _ => trivial) .refl

theorem presentedInTurn_asRead :
    checkEvents consumesAsRead (presentedTrace presentedInTurn) = true := by
  decide +kernel

set_option maxRecDepth 4000 in
theorem backup_codes_single_use_in_turn :
    ReturnsBackup (presented presentedInTurn) 0 6 ∧ AcceptsBackup (presented presentedInTurn) 3 6 ∧
      ∀ j, AcceptsBackup (presented presentedInTurn) j 6 → 3 = j := by
  have hreturns : ReturnsBackup (presented presentedInTurn) 0 6 :=
    ⟨1, 5, _, _, rfl, .tail _ (.head _)⟩
  have haccepts : AcceptsBackup (presented presentedInTurn) 3 6 := ⟨15, {}, _, _, _, _, rfl⟩
  have hcond : ConsumesAsRead ([] ++ ([] ++ presentedTrace presentedInTurn)) :=
    consumesAsRead_sound presentedInTurn_asRead
  refine ⟨hreturns, haccepts, fun j hj => ?_⟩
  exact (backup_codes_single_use sampleEnv setUpWorld_drawn (presented_run presentedInTurn) .refl
    .refl hcond).1
    0 6 3 j hreturns haccepts hj

set_option maxRecDepth 4000 in
/-- Both requests hand out a pair for one code. -/
theorem presented_at_once_twice :
    FactorRun sampleEnv ⟨setUpWorld, []⟩ (presentedTrace presentedAtOnce)
    (presented presentedAtOnce) ∧
      ReturnsBackup (presented presentedAtOnce) 0 6 ∧
      AcceptsBackup (presented presentedAtOnce) 3 6 ∧
      AcceptsBackup (presented presentedAtOnce) 4 6 :=
  ⟨presented_run presentedAtOnce, ⟨1, 5, _, _, rfl, .tail _ (.head _)⟩,
    ⟨15, {}, _, _, _, _, rfl⟩, ⟨17, {}, _, _, _, _, rfl⟩⟩

end Sample

end SaasBackend
