import SaasBackend.FlagValues
import SaasBackend.HandlerHistory

set_option autoImplicit false

namespace SaasBackend
open Keyed Handler

/-- The writing requests behind `authorize('ADMIN')`, with the body that `validate` finds, and
the passing of time. -/
inductive FlagRequest where
  | createFlag (body : Json)
  | updateFlag (flagId : Id) (body : Json)
  | setOverride (flagId orgId : Id) (body : Json)
  | removeOverride (flagId orgId : Id)
  | wait (d : Time)

def FlagRequest.safeParse : FlagRequest → Except Err (Except (List Issue) (Req FlagReply))
  | .createFlag body => (createFlagSchema body).map fun result => result.map SaasBackend.createFlag
  | .updateFlag flagId body => .ok ((updateFlagSchema body).map (SaasBackend.updateFlag flagId))
  | .setOverride flagId orgId body =>
    .ok ((setOverrideSchema body).map fun (enabled, value) =>
      SaasBackend.setOverride flagId orgId enabled value)
  | .removeOverride flagId orgId => .ok (.ok (SaasBackend.removeOverride flagId orgId))
  | .wait d => .ok (.ok ((execute (.tick d)).bind fun _ => .ret (.message "")))

inductive FlagAnswer where
  | invalid (issues : List Issue)
  | reply (reply : FlagReply)

def FlagRequest.prog (r : FlagRequest) : Req FlagAnswer :=
  match r.safeParse with
  | .error e => throw e
  | .ok (.error issues) => return .invalid issues
  | .ok (.ok handler) => handler.bind fun reply => .ret (.reply reply)

abbrev FlagEntry := Entry FlagRequest World Err FlagAnswer

abbrev FlagRun : World → List FlagEntry → World → Prop :=
  Steps (Served Stmt.exec FlagRequest.prog (fun _ _ => True))

/-- A creation is not of a BOOLEAN flag with null for a value, nor of a PLAN flag with an empty plan
code. What the other requests store fits the type: an updated flag with its overrides, an
override. -/
def FlagRequest.Fitting (env : Env) (w : World) : FlagRequest → Prop
  | .createFlag body =>
    (∀ data issues, createFlagFields body = .ok (data, issues) →
      ¬ (data.type = .boolean ∧ data.value = .null)) ∧
    ∀ data, createFlagSchema body = .ok (.ok data) →
    w.featureFlags.any (fun _ f => f.key == data.key) = false →
      data.active = true → data.type = .plan → ∀ items,
      data.value.field "plans" = some (.arr items) → .str "" ∉ items
  | .updateFlag flagId body => ∀ data, updateFlagSchema body = .ok data →
      ∀ f, w.featureFlags.get? flagId = some f → w.FlagFits env flagId (data.apply f)
  | .setOverride flagId orgId body => ∀ value, setOverrideSchema body = .ok (true, value) →
      ∀ f, w.featureFlags.get? flagId = some f → f.active = true →
        ∀ org, w.organizations.get? orgId = some org → org.deletedAt = none → value.fits env f.type
  | .removeOverride .. | .wait _ => True

section Statements

variable {env : Env} {w w' : World}

theorem World.FlagsSound.shrink (hw : w.FlagsSound) (hnonce : w.nonce ≤ w'.nonce)
    (hflags : ∀ id f', w'.featureFlags.get? id = some f' → ∃ f, w.featureFlags.get? id = some f ∧
      f'.key = f.key)
    (hoverrides : ∀ k o', w'.featureFlagOverrides.get? k = some o' → ∃ o,
      w.featureFlagOverrides.get? k = some o ∧
      o'.featureFlagId = o.featureFlagId ∧ o'.organizationId = o.organizationId) :
      w'.FlagsSound where
  flags id f' hid := by
    obtain ⟨f, hf, _⟩ := hflags id f' hid
    exact Nat.lt_of_lt_of_le (hw.flags id f hf) hnonce
  keys id id' f f' hid hid' hkey := by
    obtain ⟨g, hg, hsame⟩ := hflags id f hid
    obtain ⟨g', hg', hsame'⟩ := hflags id' f' hid'
    exact hw.keys id id' g g' hg hg' (hsame.symm.trans (hkey.trans hsame'))
  overrides k o' hk := by
    obtain ⟨o, ho, hflag, _⟩ := hoverrides k o' hk
    obtain ⟨hlt, hflagLt⟩ := hw.overrides k o ho
    exact ⟨Nat.lt_of_lt_of_le hlt hnonce, hflag ▸ Nat.lt_of_lt_of_le hflagLt hnonce⟩
  pairs k k' o o' hk hk' hflag horg := by
    obtain ⟨r, hr, hflagr, horgr⟩ := hoverrides k o hk
    obtain ⟨r', hr', hflagr', horgr'⟩ := hoverrides k' o' hk'
    exact hw.pairs k k' r r' hr hr' (hflagr.symm.trans (hflag.trans hflagr'))
      (horgr.symm.trans (horg.trans horgr'))

structure FlagsAfter (env : Env) (w : World) (P : Prop) (w' : World) : Prop where
  sound : w'.FlagsSound
  fit : w.FlagsFit env → (w'.FlagsFit env ↔ P)

theorem FlagsAfter.same {P : Prop} (hw : w.FlagsSound) (hP : P) : FlagsAfter env w P w :=
  ⟨hw, fun hfit => iff_of_true hfit hP⟩

theorem World.FlagsSound.flagCreate (hw : w.FlagsSound) {row : FeatureFlag}
    (h : (Stmt.flagCreate row).exec w = .ok w') :
    FlagsAfter env w (row.active = true → row.value.fits env row.type) w' := by
  have heff := exec_effect h
  have hnonce : w'.nonce = w.nonce + 1 := heff.nonce
  have hflags : ∀ id, w'.featureFlags.get? id = if id = w.nonce then
      some { row with createdAt := w.now, updatedAt := w.now } else w.featureFlags.get? id :=
        fun id =>
    (congrArg (·.get? id) heff.featureFlags).trans
      (Table.get?_insert _ (Table.get?_of_bound hw.flags (Nat.le_refl _)) id)
  have hoverrides : w'.featureFlagOverrides = w.featureFlagOverrides := heff.featureFlagOverrides
  have hclash : ∀ id f, w.featureFlags.get? id = some f → row.key ≠ f.key := by
    intro id f hid hkey
    simp only [Stmt.exec] at h
    split at h
    · cases h
    · rename_i hnone
      have hfree := Table.any_eq_false.mp (Bool.not_eq_true _ ▸ hnone) id f hid
      exact absurd hkey (by simpa using hfree)
  have hrows : ∀ id f, w'.featureFlags.get? id = some f →
      w.featureFlags.get? id = some f ∨ id = w.nonce ∧ f.key = row.key := by
    intro id f hid
    rw [hflags] at hid
    split at hid
    · rename_i hnew
      cases hid
      exact .inr ⟨hnew, rfl⟩
    · exact .inl hid
  constructor
  · refine ⟨fun id f hid => ?_, fun id id' f f' hid hid' hkey => ?_, fun k o hk => ?_,
      fun k k' o o' hk hk' => ?_⟩
    · rw [hnonce]
      rcases hrows id f hid with hold | ⟨rfl, _⟩
      · exact Nat.lt_succ_of_lt (hw.flags id f hold)
      · exact Nat.lt_succ_self _
    · rcases hrows id f hid with hold | ⟨rfl, hnew⟩
      · rcases hrows id' f' hid' with hold' | ⟨rfl, hnew'⟩
        · exact hw.keys id id' f f' hold hold' hkey
        · exact absurd (hnew'.symm.trans hkey.symm) (hclash id f hold)
      · rcases hrows id' f' hid' with hold' | ⟨rfl, _⟩
        · exact absurd (hnew.symm.trans hkey) (hclash id' f' hold')
        · rfl
    · obtain ⟨hlt, hflag⟩ := hw.overrides k o (hoverrides ▸ hk)
      exact ⟨hnonce ▸ Nat.lt_succ_of_lt hlt, hnonce ▸ Nat.lt_succ_of_lt hflag⟩
    · exact hw.pairs k k' o o' (hoverrides ▸ hk) (hoverrides ▸ hk')
  · intro hfit
    constructor
    · intro hfit' hactive
      exact (hfit' w.nonce _ ((hflags _).trans (if_pos rfl)) hactive).1
    · intro hrow id f hid hactive
      rw [hflags] at hid
      split at hid
      · rename_i hnew
        cases hid
        refine ⟨hrow hactive, fun k o hk hflag => ?_⟩
        rw [hoverrides] at hk
        have hlt := (hw.overrides k o hk).2
        rw [hflag, hnew] at hlt
        exact absurd hlt (Nat.lt_irrefl _)
      · rw [hoverrides]
        exact hfit id f hid hactive

theorem World.FlagsSound.flagUpdate (hw : w.FlagsSound) {id : Id} {d : FeatureFlagPatch}
    (h : (Stmt.flagUpdate id d).exec w = .ok w') :
    FlagsAfter env w (∀ f, w.featureFlags.get? id = some f → w.FlagFits env id (d.apply f)) w' := by
  have heff := exec_effect h
  have hflags : ∀ id', w'.featureFlags.get? id' = if id' = id then
      (w.featureFlags.get? id').map
        (fun f => { d.apply f with updatedAt := w.now }) else w.featureFlags.get? id' :=
    fun id' => (congrArg (·.get? id') heff.featureFlags).trans (Table.get?_update ..)
  have hoverrides : w'.featureFlagOverrides = w.featureFlagOverrides := heff.featureFlagOverrides
  constructor
  · refine hw.shrink (Nat.le_of_eq heff.nonce.symm) (fun id' f' hid' => ?_) fun k o hk =>
      ⟨o, hoverrides ▸ hk, rfl, rfl⟩
    rw [hflags] at hid'
    split at hid'
    · obtain ⟨f, hf, rfl⟩ := Option.map_eq_some_iff.mp hid'
      exact ⟨f, hf, rfl⟩
    · exact ⟨f', hid', rfl⟩
  · intro hfit
    constructor
    · intro hfit' f hf hactive
      have hnew : w'.featureFlags.get? id = some { d.apply f with updatedAt := w.now } := by
        rw [hflags, if_pos rfl, hf]
        rfl
      have hfits := hfit' id _ hnew hactive
      rw [hoverrides] at hfits
      exact hfits
    · intro hupdated id' f' hid' hactive
      rw [hoverrides]
      rw [hflags] at hid'
      split at hid'
      · rename_i heq
        obtain ⟨f, hf, rfl⟩ := Option.map_eq_some_iff.mp hid'
        rw [heq] at hf ⊢
        exact hupdated f hf hactive
      · exact hfit id' f' hid' hactive

theorem World.FlagsSound.overrideDelete (hw : w.FlagsSound) {id : Id}
    (h : (Stmt.overrideDelete id).exec w = .ok w') :
    FlagsAfter env w True w' := by
  have heff := exec_effect h
  have hflags : w'.featureFlags = w.featureFlags := heff.featureFlags
  have hold : ∀ k o, w'.featureFlagOverrides.get? k = some o →
      w.featureFlagOverrides.get? k = some o := fun k o hk =>
    (Table.get?_eraseWhere_eq_some.mp
      ((congrArg (·.get? k) heff.featureFlagOverrides).symm.trans hk)).1
  refine ⟨hw.shrink (Nat.le_of_eq heff.nonce.symm) (fun id f hid => ⟨f, hflags ▸ hid, rfl⟩)
    fun k o hk =>
    ⟨o, hold k o hk, rfl, rfl⟩, fun hfit => iff_of_true (fun id f hid hactive => ?_) trivial⟩
  obtain ⟨hown, hoverridden⟩ := hfit id f (hflags ▸ hid) hactive
  exact ⟨hown, fun k o hk => hoverridden k o (hold k o hk)⟩

structure OverrideSaved (w w' : World) (flagId orgId : Id) (k : Id)
    (o : OrganizationFeatureFlag) : Prop where
  pair : o.featureFlagId = flagId ∧ o.organizationId = orgId
  drawn : k < w'.nonce ∧ flagId < w'.nonce
  stored : w'.featureFlagOverrides.get? k = some o
  rows : ∀ k' o', w'.featureFlagOverrides.get? k' = some o' →
    k' = k ∧ o' = o ∨ k' ≠ k ∧ w.featureFlagOverrides.get? k' = some o'
  only : ∀ k' o', w.featureFlagOverrides.get? k' = some o' →
    o'.featureFlagId = flagId → o'.organizationId = orgId → k' = k

theorem World.FlagsSound.overrideSaved (hw : w.FlagsSound) {flagId orgId : Id} {enabled : Bool}
    {value : Json} (h : (Stmt.overrideUpsert flagId orgId enabled value).exec w = .ok w') :
    ∃ k o, OverrideSaved w w' flagId orgId k o ∧ o.enabled = enabled ∧ o.value = value := by
  have heff := exec_effect h
  have hsaved : w'.featureFlagOverrides =
      (Stmt.overrideUpsert flagId orgId enabled value).featureFlagOverridesAfter w :=
        heff.featureFlagOverrides
  have hnonce := heff.nonce
  simp only [Stmt.featureFlagOverridesAfter, Stmt.nonceAfter] at hsaved hnonce
  cases hfound : w.overrideOf flagId orgId with
  | some found =>
    obtain ⟨k, r⟩ := found
    obtain ⟨hk, hmatch⟩ := Table.find?_some hfound
    obtain ⟨hflag, horg⟩ := Bool.and_eq_true_iff.mp hmatch
    have hflag := beq_iff_eq.mp hflag
    have horg := beq_iff_eq.mp horg
    rw [hfound] at hsaved hnonce
    have hnonce : w'.nonce = w.nonce := hnonce
    have hget : ∀ k', w'.featureFlagOverrides.get? k' = if k' = k then
        (w.featureFlagOverrides.get? k').map
          (fun o => { o with enabled, value, updatedAt := w.now })
        else w.featureFlagOverrides.get? k' :=
          fun k' => (congrArg (·.get? k') hsaved).trans (Table.get?_update ..)
    obtain ⟨hlt, hflagLt⟩ := hw.overrides k r hk
    refine ⟨k, { r with enabled, value, updatedAt := w.now },
      ⟨⟨hflag, horg⟩, ?_, ?_, ?_, ?_⟩, rfl, rfl⟩
    · rw [hnonce, ← hflag]
      exact ⟨hlt, hflagLt⟩
    · rw [hget, if_pos rfl, hk]
      rfl
    · intro k' o' hk'
      rw [hget] at hk'
      split at hk'
      · rename_i heq
        rw [heq, hk] at hk'
        exact .inl ⟨heq, (Option.some.inj hk').symm⟩
      · rename_i hne
        exact .inr ⟨hne, hk'⟩
    · exact fun k' o' hk' hflag' horg' =>
        hw.pairs k' k o' r hk' hk (hflag'.trans hflag.symm) (horg'.trans horg.symm)
  | none =>
    rw [hfound] at hsaved hnonce
    have hnonce : w'.nonce = w.nonce + 1 := hnonce
    obtain ⟨f, hf⟩ : ∃ f, w.featureFlags.get? flagId = some f := by
      simp only [Stmt.exec, hfound] at h
      split at h
      · cases h
      · rename_i hnot
        refine Option.ne_none_iff_exists'.mp fun hmissing => hnot ?_
        rw [hmissing]
        rfl
    have hget : ∀ k', w'.featureFlagOverrides.get? k' = if k' = w.nonce then
        some ⟨flagId, orgId, enabled, value, w.now, w.now⟩ else w.featureFlagOverrides.get? k' :=
          fun k' =>
      (congrArg (·.get? k') hsaved).trans
        (Table.get?_insert _ (Table.get?_of_bound (fun k o hk => (hw.overrides k o hk).1)
          (Nat.le_refl _)) k')
    refine ⟨w.nonce, ⟨flagId, orgId, enabled, value, w.now, w.now⟩,
      ⟨⟨rfl, rfl⟩, ?_, ?_, ?_, ?_⟩, rfl, rfl⟩
    · rw [hnonce]
      exact ⟨Nat.lt_succ_self _, Nat.lt_succ_of_lt (hw.flags flagId f hf)⟩
    · rw [hget, if_pos rfl]
    · intro k' o' hk'
      rw [hget] at hk'
      split at hk'
      · rename_i heq
        exact .inl ⟨heq, (Option.some.inj hk').symm⟩
      · rename_i hne
        exact .inr ⟨hne, hk'⟩
    · intro k' o' hk' hflag horg
      have hnot := Table.find?_none hfound hk'
      simp [hflag, horg] at hnot

theorem World.FlagsSound.overrideUpsert (hw : w.FlagsSound) {flagId orgId : Id} {enabled : Bool}
    {value : Json} (h : (Stmt.overrideUpsert flagId orgId enabled value).exec w = .ok w') :
    FlagsAfter env w (enabled = true →
      ∀ f, w.featureFlags.get? flagId = some f → f.active = true → value.fits env f.type) w' := by
  obtain ⟨k, o, hsaved, rfl, rfl⟩ := hw.overrideSaved h
  have heff := exec_effect h
  have hflags : w'.featureFlags = w.featureFlags := heff.featureFlags
  constructor
  · refine ⟨fun id f hid => Nat.lt_of_lt_of_le (hw.flags id f (hflags ▸ hid)) heff.nonce_le,
      fun id id' f f' hid hid' => hw.keys id id' f f' (hflags ▸ hid) (hflags ▸ hid'),
      fun k' o' hk' => ?_, fun k₁ k₂ o₁ o₂ hk₁ hk₂ hflag horg => ?_⟩
    · rcases hsaved.rows k' o' hk' with ⟨rfl, rfl⟩ | ⟨_, hold⟩
      · exact ⟨hsaved.drawn.1, hsaved.pair.1 ▸ hsaved.drawn.2⟩
      · obtain ⟨hlt, hflagLt⟩ := hw.overrides k' o' hold
        exact ⟨Nat.lt_of_lt_of_le hlt heff.nonce_le, Nat.lt_of_lt_of_le hflagLt heff.nonce_le⟩
    · rcases hsaved.rows k₁ o₁ hk₁ with ⟨rfl, rfl⟩ | ⟨hne₁, hold₁⟩
      · rcases hsaved.rows k₂ o₂ hk₂ with ⟨rfl, _⟩ | ⟨_, hold₂⟩
        · rfl
        · exact (hsaved.only k₂ o₂ hold₂ (hflag.symm.trans hsaved.pair.1)
            (horg.symm.trans hsaved.pair.2)).symm
      · rcases hsaved.rows k₂ o₂ hk₂ with ⟨rfl, rfl⟩ | ⟨_, hold₂⟩
        · exact hsaved.only k₁ o₁ hold₁ (hflag.trans hsaved.pair.1) (horg.trans hsaved.pair.2)
        · exact hw.pairs k₁ k₂ o₁ o₂ hold₁ hold₂ hflag horg
  · intro hfit
    constructor
    · intro hfit' hon f hf hactive
      exact (hfit' flagId f (hflags ▸ hf) hactive).2 k o hsaved.stored hsaved.pair.1 hon
    · intro hnew id f hid hactive
      have hid : w.featureFlags.get? id = some f := hflags ▸ hid
      obtain ⟨hown, hoverridden⟩ := hfit id f hid hactive
      refine ⟨hown, fun k' o' hk' hflag hon => ?_⟩
      rcases hsaved.rows k' o' hk' with ⟨_, rfl⟩ | ⟨_, hold⟩
      · exact hnew hon f (by rwa [← hsaved.pair.1, hflag]) hactive
      · exact hoverridden k' o' hold hflag hon

end Statements

section Requests

variable {env : Env} {w : World}

/-- All that createFlagSchema lets through and the evaluator does not take for a plan code is an
empty one. -/
theorem createFlagSchema_fits {body : Json} {data : CreateFlagBody}
    (h : createFlagSchema body = .ok (.ok data)) :
    data.value.fits env data.type ↔
      (data.type = .plan → ∀ items, data.value.field "plans" = some (.arr items) →
        .str "" ∉ items) := by
  have haccepted := createFlagSchema_accepts h
  generalize data.type = type at haccepted
  cases type with
  | boolean => exact iff_of_true trivial fun h => by cases h
  | percentage =>
    refine iff_of_true ?_ fun h => by cases h
    rcases percentageValueIssues_nil (Except.ok.inj haccepted) with hnone | ⟨q, hq⟩
    · exact ⟨.finite 0, by rw [hnone]; rfl⟩
    · exact ⟨.finite q, by rw [hq]; rfl⟩
  | plan =>
    constructor
    · intro hfits _ items hitems
      obtain ⟨texts, htexts, hfull⟩ := hfits _ hitems
      cases htexts
      simpa using hfull
    · intro hfull plans hplans
      obtain ⟨texts, rfl⟩ := planValueIssues_nil (Except.ok.inj haccepted) hplans
      exact ⟨texts, rfl, by simpa using hfull rfl _ hplans⟩

theorem createFlag_ends (hw : w.FlagsSound) (body : CreateFlagBody) :
    (createFlag body).Ends Stmt.exec (fun _ w' => FlagsAfter env w
      (w.featureFlags.any (fun _ f => f.key == body.key) = false → body.active = true →
        body.value.fits env body.type)
        w') w := by
  unfold createFlag
  simp only [Prog.bind_eq, ends_query_bind]
  cases hfound : w.featureFlags.find? (fun _ f => f.key == body.key) with
  | some found =>
    refine .same hw fun hnone => ?_
    obtain ⟨hid, hkey⟩ := Table.find?_some hfound
    exact absurd hkey (by rw [Table.any_eq_false.mp hnone _ _ hid]; exact Bool.false_ne_true)
  | none =>
    have hnone : w.featureFlags.any (fun _ f => f.key == body.key) = false :=
      Table.any_eq_false.mpr fun id f hid => Table.find?_none hfound hid
    simp only [Option.isSome_none, Bool.false_eq_true, if_false, ends_send_bind]
    split
    · rename_i w' hexec
      obtain ⟨hsound, hfit⟩ := (hw.flagCreate hexec : FlagsAfter env w _ w')
      exact ⟨hsound, fun h => (hfit h).trans ⟨fun hrow _ => hrow, fun hrow => hrow hnone⟩⟩
    · rename_i e hexec
      have hfree : w.featureFlags.any (fun _ f => body.key == f.key) = false :=
        Table.any_eq_false.mpr fun id f hid => BEq.comm.trans (Table.find?_none hfound hid)
      simp [Stmt.exec, hfree] at hexec

theorem updateFlag_ends (hw : w.FlagsSound) (flagId : Id) (data : FeatureFlagPatch) :
    (updateFlag flagId data).Ends Stmt.exec (fun _ w' => FlagsAfter env w
      (∀ f, w.featureFlags.get? flagId = some f → w.FlagFits env flagId (data.apply f)) w') w := by
  unfold updateFlag
  simp only [Prog.bind_eq, ends_query_bind]
  cases hfound : w.featureFlags.get? flagId with
  | none => exact .same hw fun f hf => absurd hf (Option.some_ne_none f).symm
  | some f =>
    simp only [Option.isNone_some, Bool.false_eq_true, if_false, ends_send_bind]
    split
    · rename_i w' hexec
      exact hfound ▸ hw.flagUpdate hexec
    · rename_i e hexec
      simp [Stmt.exec, World.require, hfound] at hexec

theorem setOverride_ends (hw : w.FlagsSound) (flagId orgId : Id) (enabled : Bool) (value : Json) :
    (setOverride flagId orgId enabled value).Ends Stmt.exec
      (fun _ w' => FlagsAfter env w (enabled = true →
      ∀ f, w.featureFlags.get? flagId = some f → f.active = true →
        ∀ org, w.organizations.get? orgId = some org → org.deletedAt = none → value.fits env f.type)
        w') w := by
  unfold setOverride
  simp only [Prog.bind_eq, ends_query_bind]
  cases hflag : w.featureFlags.get? flagId with
  | none => exact .same hw fun _ f hf => absurd hf (Option.some_ne_none f).symm
  | some f =>
    simp only [Option.isNone_some, Bool.false_eq_true, if_false, ends_query_bind]
    cases horg : w.organizations.get? orgId with
    | none => exact .same hw fun _ _ _ _ org hget => absurd hget (Option.some_ne_none org).symm
    | some org =>
      cases hlive : org.deletedAt with
      | some t =>
        simp only [Option.filter_some, hlive, Option.isNone_some, Bool.false_eq_true, if_false,
          Option.isNone_none, if_true]
        refine .same hw fun _ _ _ _ org' hget hlive' => ?_
        rw [← Option.some.inj hget, hlive] at hlive'
        cases hlive'
      | none =>
        simp only [Option.filter_some, hlive, Option.isNone_none, if_true, Option.isNone_some,
          Bool.false_eq_true, if_false, ends_send_bind]
        split
        · rename_i w' hexec
          obtain ⟨hsound, hfit⟩ := (hw.overrideUpsert hexec : FlagsAfter env w _ w')
          refine ⟨hsound, fun h => (hfit h).trans
            ⟨fun hnew hon g hg hactive _ _ _ => ?_, fun hnew hon g hg hactive => ?_⟩⟩
          · exact hnew hon g (hflag.trans hg) hactive
          · exact hnew hon g (hflag.symm.trans hg) hactive org rfl hlive
        · rename_i e hexec
          cases hfound : w.overrideOf flagId orgId with
          | some r => simp [Stmt.exec, hfound] at hexec
          | none => simp [Stmt.exec, hfound, hflag, World.hasOrganization, horg] at hexec

theorem removeOverride_ends (hw : w.FlagsSound) (flagId orgId : Id) :
    (removeOverride flagId orgId).Ends Stmt.exec (fun _ w' => FlagsAfter env w True w') w := by
  unfold removeOverride
  simp only [Prog.bind_eq, ends_query_bind]
  split
  · exact .same hw trivial
  · rw [ends_execute_bind]
    split
    · rename_i w' hexec
      exact hw.overrideDelete hexec
    · exact .same hw trivial

structure FlagRequest.Keeps (env : Env) (w : World) (r : FlagRequest) (w' : World) : Prop where
  sound : w'.FlagsSound
  fit : w.FlagsFit env → ((∃ result, r.safeParse = .ok result) ∧ w'.FlagsFit env ↔ r.Fitting env w)

theorem FlagRequest.Keeps.served {r : FlagRequest}
    {result : Except (List Issue) (Req FlagReply)} {P : Prop} {w' : World}
    (hresult : r.safeParse = .ok result) (h : FlagsAfter env w P w') (hP : P ↔ r.Fitting env w) :
    r.Keeps env w w' :=
  ⟨h.sound, fun hfit => (and_iff_right ⟨_, hresult⟩).trans ((h.fit hfit).trans hP)⟩

theorem FlagRequest.prog_ends {r : FlagRequest} {handler : Req FlagReply} {post : World → Prop}
    (hhandler : r.safeParse = .ok (.ok handler))
    (h : handler.Ends Stmt.exec (fun _ w' => post w') w) :
    r.prog.Ends Stmt.exec (fun _ w' => post w') w := by
  unfold prog
  rw [hhandler]
  exact Ends.bind h (fun _ _ h => h) fun _ _ h => h

theorem createFlag_keeps (hw : w.FlagsSound) (body : Json) :
    (FlagRequest.createFlag body).prog.Ends Stmt.exec
    (fun _ w' => (FlagRequest.createFlag body).Keeps env w w') w := by
  have hanswers : (∃ result, (FlagRequest.createFlag body).safeParse = .ok result) ↔ _ :=
    map_returns.trans createFlagSchema_ok_iff
  cases hschema : createFlagSchema body with
  | error e =>
    have hparse : (FlagRequest.createFlag body).safeParse = .error e := by
      rw [FlagRequest.safeParse, hschema]; rfl
    have hthrows : ¬ ∃ result, (FlagRequest.createFlag body).safeParse = .ok result :=
      fun ⟨_, h⟩ => by
      cases hparse.symm.trans h
    rw [FlagRequest.prog, hparse]
    exact ⟨hw, fun _ => iff_of_false (fun h => hthrows h.1) fun h => hthrows (hanswers.mpr h.1)⟩
  | ok result =>
    have hparse : (FlagRequest.createFlag body).safeParse =
        .ok (result.map SaasBackend.createFlag) := by
      rw [FlagRequest.safeParse, hschema]
      rfl
    have hnull := hanswers.mp ⟨_, hparse⟩
    cases result with
    | error issues =>
      have hrefused : ∀ data, createFlagSchema body ≠ .ok (.ok data) := fun data h => by
        cases hschema.symm.trans h
      rw [FlagRequest.prog, hparse]
      exact .served hparse (.same hw trivial)
        (iff_of_true trivial ⟨hnull, fun data h => absurd h (hrefused data)⟩)
    | ok data =>
      refine FlagRequest.prog_ends hparse ((createFlag_ends hw data).weaken fun _ w' h =>
        .served hparse h ?_)
      rw [createFlagSchema_fits hschema]
      refine ⟨fun hnew => ⟨hnull, fun data' hdata' => ?_⟩, fun hfitting => hfitting.2 data hschema⟩
      cases hschema.symm.trans hdata'
      exact hnew

theorem updateFlag_keeps (hw : w.FlagsSound) (flagId : Id) (body : Json) :
    (FlagRequest.updateFlag flagId body).prog.Ends Stmt.exec
      (fun _ w' => (FlagRequest.updateFlag flagId body).Keeps env w w') w := by
  cases hschema : updateFlagSchema body with
  | error issues =>
    have hparse : (FlagRequest.updateFlag flagId body).safeParse = .ok (.error issues) := by
      rw [FlagRequest.safeParse, hschema]
      rfl
    have hrefused : ∀ data, updateFlagSchema body ≠ .ok data := fun data h => by
      cases hschema.symm.trans h
    rw [FlagRequest.prog, hparse]
    exact .served hparse (.same hw trivial) (iff_of_true trivial fun data h =>
      absurd h (hrefused data))
  | ok data =>
    have hparse : (FlagRequest.updateFlag flagId body).safeParse =
        .ok (.ok (SaasBackend.updateFlag flagId data)) := by
      rw [FlagRequest.safeParse, hschema]
      rfl
    refine FlagRequest.prog_ends hparse ((updateFlag_ends hw flagId data).weaken fun _ w' h =>
      .served hparse h ?_)
    refine ⟨fun hupdated data' hdata' => ?_, fun hfitting => hfitting data hschema⟩
    cases hschema.symm.trans hdata'
    exact hupdated

theorem setOverride_keeps (hw : w.FlagsSound) (flagId orgId : Id) (body : Json) :
    (FlagRequest.setOverride flagId orgId body).prog.Ends Stmt.exec
      (fun _ w' => (FlagRequest.setOverride flagId orgId body).Keeps env w w') w := by
  cases hschema : setOverrideSchema body with
  | error issues =>
    have hparse : (FlagRequest.setOverride flagId orgId body).safeParse = .ok (.error issues) := by
      rw [FlagRequest.safeParse, hschema]
      rfl
    have hrefused : ∀ data, setOverrideSchema body ≠ .ok data := fun data h => by
      cases hschema.symm.trans h
    rw [FlagRequest.prog, hparse]
    exact .served hparse (.same hw trivial) (iff_of_true trivial fun data h =>
      absurd h (hrefused (true, data)))
  | ok data =>
    obtain ⟨enabled, value⟩ := data
    have hparse : (FlagRequest.setOverride flagId orgId body).safeParse =
        .ok (.ok (SaasBackend.setOverride flagId orgId enabled value)) := by
      rw [FlagRequest.safeParse, hschema]
      rfl
    refine FlagRequest.prog_ends hparse
      ((setOverride_ends hw flagId orgId enabled value).weaken fun _ w' h => .served hparse h ?_)
    refine ⟨fun hnew value' hvalue' => ?_, fun hfitting hon => ?_⟩
    · cases hschema.symm.trans hvalue'
      exact hnew rfl
    · rw [hon] at hschema
      exact hfitting value hschema

theorem FlagRequest.keeps (hw : w.FlagsSound) (r : FlagRequest) :
    r.prog.Ends Stmt.exec (fun _ w' => r.Keeps env w w') w := by
  cases r with
  | createFlag body => exact createFlag_keeps hw body
  | updateFlag flagId body => exact updateFlag_keeps hw flagId body
  | setOverride flagId orgId body => exact setOverride_keeps hw flagId orgId body
  | removeOverride flagId orgId =>
    exact prog_ends rfl ((removeOverride_ends hw flagId orgId).weaken fun _ w' h =>
      .served rfl h Iff.rfl)
  | wait d =>
    have hafter : FlagsAfter env w True { w with now := w.now + d } :=
      ⟨⟨hw.flags, hw.keys, hw.overrides, hw.pairs⟩, fun hfit => iff_of_true hfit trivial⟩
    exact .served rfl hafter Iff.rfl

end Requests

def EvaluatesAfter (env : Env) (c : FlagEntry) : Prop :=
  (∃ result, c.req.safeParse = .ok result) ∧ FlagsEvaluate env c.post

structure FlagsTracked (env : Env) (h : List FlagEntry) (w : World) : Prop where
  sound : w.FlagsSound
  fit : (∀ c ∈ h, EvaluatesAfter env c) → w.FlagsFit env
  fitting : (∀ c ∈ h, EvaluatesAfter env c) ↔ ∀ c ∈ h, c.req.Fitting env c.pre

theorem FlagRun.tracked {env : Env} {w₀ w : World} {h : List FlagEntry} (hw : w₀.FlagsSound)
    (hstart : FlagsEvaluate env w₀) (hrun : FlagRun w₀ h w) : FlagsTracked env h w := by
  have hstep : ∀ h w r, FlagsTracked env h w → True →
      (FlagRequest.prog r).Ends Stmt.exec
        (fun res w' => FlagsTracked env (⟨r, w, res, w'⟩ :: h) w') w := by
    intro h w r htracked _
    have hends : r.prog.Ends Stmt.exec (fun _ w' => r.Keeps env w w') w := r.keeps htracked.sound
    refine hends.weaken fun res w' hkeeps => ⟨hkeeps.sound, fun hgood => ?_, ?_⟩
    · exact hkeeps.sound.evaluate_iff.mp (hgood _ List.mem_cons_self).2
    · simp only [List.forall_mem_cons, ← htracked.fitting]
      refine and_congr_left fun hgood => ?_
      rw [EvaluatesAfter, hkeeps.sound.evaluate_iff]
      exact hkeeps.fit (htracked.fit hgood)
  refine Served.invariant (FlagsTracked env) ⟨hw, fun _ => hw.evaluate_iff.mp hstart,
    iff_of_true ?_ ?_⟩ hstep hrun
  · exact fun _ hc => absurd hc List.not_mem_nil
  · exact fun _ hc => absurd hc List.not_mem_nil

/-- In any run from flags that can be evaluated, every schema answers and every state reached can be
evaluated exactly when every request is a fitting one. -/
theorem flags_evaluate_iff (env : Env) {w₀ w : World} {h : List FlagEntry} (hw : w₀.FlagsSound)
    (hstart : FlagsEvaluate env w₀) (hrun : FlagRun w₀ h w) :
    (∀ c ∈ h, EvaluatesAfter env c) ↔ ∀ c ∈ h, c.req.Fitting env c.pre :=
  (FlagRun.tracked hw hstart hrun).fitting

section Sample

def flagless : World where
  users := (∅ : Table User).insert 1 { email := "a@x.io" }
  organizations :=
    (∅ : Table Organization).insert 3 { name := "Acme", slug := "acme", ownerId := 1 }
  nonce := 10

def plansBody (plans : Json) : Json := .obj [("plans", plans)]

def exportFlag (type : String) (value : Json) : Json :=
  .obj [("key", .str "export"), ("name", .str "Export"), ("type", .str type), ("value", value)]

def served (requests : List FlagRequest) : List FlagEntry × World :=
  serveAll Stmt.exec FlagRequest.prog requests ([], flagless)

theorem served_run (requests : List FlagRequest) :
    FlagRun flagless (served requests).1 (served requests).2 :=
  serveAll_steps requests (fun _ _ _ => trivial) [] .refl

theorem flagless_sound : flagless.FlagsSound where
  flags _ _ h := absurd h (Option.some_ne_none _).symm
  keys _ _ _ _ h := absurd h (Option.some_ne_none _).symm
  overrides _ _ h := absurd h (Option.some_ne_none _).symm
  pairs _ _ _ _ h := absurd h (Option.some_ne_none _).symm

theorem flagless_evaluates : FlagsEvaluate sampleEnv flagless :=
  flagless_sound.evaluate_iff.mpr fun _ _ h => absurd h (Option.some_ne_none _).symm

/-- A PLAN flag and an override of it, with lists of strings. -/
theorem flags_evaluate_iff_listed :
    let requests : List FlagRequest :=
      [.createFlag (exportFlag "PLAN" (plansBody (.arr [.str "pro"]))),
      .setOverride 10 3 (.obj [("value", plansBody (.arr [.str "pro", .str "max"]))])]
    FlagRun flagless (served requests).1 (served requests).2 ∧
      ∀ c ∈ (served requests).1, EvaluatesAfter sampleEnv c := by
  refine ⟨served_run _,
    (flags_evaluate_iff sampleEnv flagless_sound flagless_evaluates (served_run _)).mpr
    fun c hc => ?_⟩
  rcases List.mem_cons.mp hc with rfl | hc
  · rintro _ ⟨⟩ f hf _ _ _ _
    obtain rfl := Option.some.inj hf
    rintro _ ⟨⟩
    exact ⟨["pro", "max"], rfl, by decide⟩
  · rw [List.mem_singleton.mp hc]
    refine ⟨fun data issues hdata => ?_, fun data hdata _ _ _ items hitems => ?_⟩
    · obtain ⟨rfl, _⟩ := Prod.mk.inj (Except.ok.inj hdata)
      exact fun h => absurd h.1 (by decide)
    · obtain rfl := Except.ok.inj (Except.ok.inj hdata)
      cases hitems
      simp

/-- A null throws in the schema; a plan list that is updated to a number throws in the evaluator,
and one that is updated to a text takes every plan whose code stands in the text. -/
theorem flags_misread :
    (FlagRequest.createFlag (exportFlag "BOOLEAN" .null)).safeParse = .error typeError ∧
    (∃ h w, FlagRun flagless h w ∧
      ((evaluateFlag sampleEnv "export" none (some "pro")).runs w).1 = .error typeError) ∧
    ∃ h w, FlagRun flagless h w ∧
    w.consulted "export" none = some (.plan, plansBody (.str "professional")) ∧
      ((evaluateFlag sampleEnv "export" none (some "pro")).runs w).1 =
        .ok ⟨"export", true, .default⟩ := by
  have hnumber := served_run [.createFlag (exportFlag "PLAN" (plansBody (.arr [.str "pro"]))),
    .updateFlag 10 (.obj [("value", plansBody (.num 5))])]
  have htext := served_run [.createFlag (exportFlag "PLAN" (plansBody (.arr [.str "max"]))),
    .updateFlag 10 (.obj [("value", plansBody (.str "professional"))])]
  exact ⟨rfl, ⟨_, _, hnumber, by decide +kernel⟩, ⟨_, _, htext, rfl, by decide +kernel⟩⟩

end Sample

end SaasBackend
