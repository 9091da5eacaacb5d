import SaasBackend.FlagGates
import SaasBackend.FlagSchemas

set_option autoImplicit false

namespace SaasBackend
open Keyed Handler

/-- The type and the value that decide over the flag of a key; under a disabled override none do. -/
def World.consulted (w : World) (key : String) (orgId : Option Id) :
    Option (FeatureFlagType × Json) :=
  match w.featureFlags.find? (fun _ f => f.key == key) with
  | none => none
  | some (flagId, flag) =>
    if !flag.active then none
    else
      let setting := orgId.elim (flag.value, true) (w.flagSetting flagId · flag)
      if setting.2 then some (flag.type, setting.1) else none

structure FlagsEvaluate (env : Env) (w : World) : Prop where
  returns : ∀ key orgId planCode, ∃ r, ((evaluateFlag env key orgId planCode).runs w).1 = .ok r
  listed : ∀ key orgId planCode value items, w.consulted key orgId = some (.plan, value) →
    value.field "plans" = some (.arr items) → ∀ r,
    ((evaluateFlag env key orgId planCode).runs w).1 = .ok r →
      (r.enabled = true ↔ items = [] ∨ ∃ c, planCode = some c ∧ .str c ∈ items)
  accepted : ∀ key orgId value plans, w.consulted key orgId = some (.plan, value) →
    value.field "plans" = some plans → ∃ texts : List String, plans = .arr (texts.map .str)

/-- The value has what the evaluator of its type reads: no plan list, or one of strings, none of
them empty, and a percentage that is a number or is converted to one. -/
def Json.fits (env : Env) (value : Json) : FeatureFlagType → Prop
  | .boolean => True
  | .percentage => ∃ n, (Json.nullish (value.field "percentage") (.num 0)).toNumber env = .ok n
  | .plan => ∀ plans, value.field "plans" = some plans →
    ∃ texts : List String, plans = .arr (texts.map .str) ∧ "" ∉ texts

def World.FlagFits (env : Env) (w : World) (id : Id) (f : FeatureFlag) : Prop :=
  f.active = true → f.value.fits env f.type ∧ ∀ k o, w.featureFlagOverrides.get? k = some o →
    o.featureFlagId = id → o.enabled = true → o.value.fits env f.type

def World.FlagsFit (env : Env) (w : World) : Prop :=
  ∀ id f, w.featureFlags.get? id = some f → w.FlagFits env id f

structure World.FlagsSound (w : World) : Prop where
  flags : ∀ id f, w.featureFlags.get? id = some f → id < w.nonce
  keys : ∀ id id' f f', w.featureFlags.get? id = some f → w.featureFlags.get? id' = some f' →
    f.key = f'.key → id = id'
  overrides : ∀ k o, w.featureFlagOverrides.get? k = some o → k < w.nonce ∧
    o.featureFlagId < w.nonce
  pairs : ∀ k k' o o', w.featureFlagOverrides.get? k = some o →
    w.featureFlagOverrides.get? k' = some o' →
    o.featureFlagId = o'.featureFlagId → o.organizationId = o'.organizationId → k = k'

section Evaluation

variable {env : Env} {w : World} {value : Json} {type : FeatureFlagType} {key : String}
    {orgId : Option Id}
  {planCode : Option String}

theorem evaluateFlag_consults (env : Env) (w : World) (key : String) (orgId : Option Id)
    (planCode : Option String) :
    ∃ reason : FlagReason, ((evaluateFlag env key orgId planCode).runs w).1 =
    match w.consulted key orgId with
    | none => .ok ⟨key, false, reason⟩
    | some (type, value) =>
      (evaluateByType env type value true planCode key orgId).map (⟨key, ·, reason⟩) := by
  have hthrow : ∀ (reason : FlagReason) (e : Except Err Bool),
      (Req.runs ((orThrow e).bind fun enabled => .ret (⟨key, enabled, reason⟩ : FlagResult)) w).1 =
        e.map (⟨key, ·, reason⟩) := by
    rintro reason (e | enabled) <;> rfl
  simp only [evaluateFlag, World.consulted, Prog.bind_eq, runs_query_bind]
  cases w.featureFlags.find? (fun _ f => f.key == key) with
  | none => exact ⟨_, rfl⟩
  | some found =>
    obtain ⟨flagId, flag⟩ := found
    dsimp only
    split
    · exact ⟨_, rfl⟩
    cases orgId with
    | none => exact ⟨_, hthrow .default _⟩
    | some o =>
      cases hoverride : w.featureFlagOverrides.find?
          (fun _ r => r.featureFlagId == flagId && r.organizationId == o) with
      | none =>
        simp only [Option.elim_some, World.flagSetting, World.overrideOf, runs_query_bind,
          hoverride, if_true]
        exact ⟨_, hthrow .default _⟩
      | some r =>
        obtain ⟨_, r⟩ := r
        simp only [Option.elim_some, World.flagSetting, World.overrideOf, runs_query_bind,
          hoverride]
        cases r.enabled with
        | false => exact ⟨_, hthrow .override _⟩
        | true => exact ⟨_, hthrow .override _⟩

theorem planListed_texts (texts : List String) (planCode : Option String) :
    planListed (.arr (texts.map .str)) planCode =
      .ok (texts.isEmpty || planCode.any (texts.contains ·)) := by
  cases texts with
  | nil => rfl
  | cons text texts =>
    simp only [planListed, List.map_cons, List.isEmpty_cons, Bool.false_or, Except.ok.injEq]
    refine congrArg (Option.any · planCode) (funext fun code => ?_)
    rw [← List.map_cons, List.any_map, List.contains_eq_any_beq]
    exact congrArg (List.any _) (funext fun s => BEq.comm)

theorem evaluateByType_texts {texts : List String}
    (h : value.field "plans" = some (.arr (texts.map .str))) :
    evaluateByType env .plan value true planCode key orgId =
      .ok (texts.isEmpty || (planCode.filter (· ≠ "")).any (texts.contains ·)) := by
  simp only [evaluateByType, h, Json.nullish]
  exact planListed_texts texts _

theorem takes_texts {texts : List String} (hfull : "" ∉ texts) :
    (texts.isEmpty || (planCode.filter (· ≠ "")).any (texts.contains ·)) = true ↔
      texts.map Json.str = [] ∨ ∃ c, planCode = some c ∧ .str c ∈ texts.map Json.str := by
  cases planCode with
  | none => simp
  | some c =>
    have hc : c ∈ texts → ¬ c = "" := fun hc hempty => hfull (hempty ▸ hc)
    simpa using or_congr_right (and_iff_right_of_imp hc)

theorem evaluateByType_percentage :
    (∃ b, evaluateByType env .percentage value true planCode key orgId = .ok b) ↔
    value.fits env .percentage := by
  simp only [evaluateByType, Json.fits]
  cases (Json.nullish (value.field "percentage") (.num 0)).toNumber env with
  | error e => exact iff_of_false (by rintro ⟨_, h⟩; cases h) (by rintro ⟨_, h⟩; cases h)
  | ok n =>
    refine iff_of_true ?_ ⟨n, rfl⟩
    simp only [Bool.not_true, Bool.false_eq_true, if_false, bind, Except.bind]
    split
    · exact ⟨_, rfl⟩
    split
    · exact ⟨_, rfl⟩
    · exact ⟨_, rfl⟩

theorem Json.fits.returns (h : value.fits env type) :
    ∃ b, evaluateByType env type value true planCode key orgId = .ok b := by
  cases type with
  | boolean => exact ⟨_, rfl⟩
  | percentage => exact evaluateByType_percentage.mpr h
  | plan =>
    cases hplans : value.field "plans" with
    | none =>
      simp only [evaluateByType, hplans, Json.nullish]
      exact ⟨true, planListed_texts [] (planCode.filter (· ≠ ""))⟩
    | some plans =>
      obtain ⟨texts, rfl, _⟩ := h plans hplans
      exact ⟨_, evaluateByType_texts hplans⟩

theorem flagsEvaluate_iff : FlagsEvaluate env w ↔
    ∀ key orgId type value, w.consulted key orgId = some (type, value) → value.fits env type := by
  have hruns : ∀ {key orgId type value} (planCode : Option String),
    w.consulted key orgId = some (type, value) →
      ∃ reason : FlagReason, ((evaluateFlag env key orgId planCode).runs w).1 =
        (evaluateByType env type value true planCode key orgId).map (⟨key, ·, reason⟩) := by
    intro key orgId type value planCode hconsulted
    obtain ⟨reason, h⟩ := evaluateFlag_consults env w key orgId planCode
    exact ⟨reason, by rw [h, hconsulted]⟩
  constructor
  · intro h key orgId type value hconsulted
    cases type with
    | boolean => trivial
    | percentage =>
      obtain ⟨_, hr⟩ := hruns none hconsulted
      exact evaluateByType_percentage.mp (map_returns.mp (hr ▸ h.returns key orgId none))
    | plan =>
      intro plans hplans
      obtain ⟨texts, rfl⟩ := h.accepted key orgId value plans hconsulted hplans
      refine ⟨texts, rfl, fun hempty => ?_⟩
      -- The empty plan code is listed, and is taken for no plan code at all.
      obtain ⟨_, hr⟩ := hruns (some "") hconsulted
      rw [evaluateByType_texts hplans] at hr
      have hlisted := (h.listed key orgId (some "") value _ hconsulted hplans _ hr).mpr
        (.inr ⟨"", rfl, List.mem_map_of_mem hempty⟩)
      have hnone : texts.isEmpty = true := by simpa using hlisted
      rw [List.isEmpty_iff.mp hnone] at hempty
      cases hempty
  · intro h
    refine ⟨fun key orgId planCode => ?_,
      fun key orgId planCode value items hconsulted hitems r hr => ?_,
      fun key orgId value plans hconsulted hplans => ?_⟩
    · obtain ⟨reason, hr⟩ := evaluateFlag_consults env w key orgId planCode
      rw [hr]
      cases hconsulted : w.consulted key orgId with
      | none => exact ⟨_, rfl⟩
      | some decides => exact map_returns.mpr (h key orgId decides.1 decides.2 hconsulted).returns
    · obtain ⟨texts, htexts, hfull⟩ := h key orgId .plan value hconsulted _ hitems
      cases htexts
      obtain ⟨_, hruns⟩ := hruns planCode hconsulted
      rw [evaluateByType_texts hitems] at hruns
      cases hruns.symm.trans hr
      exact takes_texts hfull
    · obtain ⟨texts, htexts, _⟩ := h key orgId .plan value hconsulted plans hplans
      exact ⟨texts, htexts⟩

end Evaluation

section Stored

variable {env : Env} {w : World} {id : Id} {f : FeatureFlag}

theorem World.FlagsFit.consulted (hfit : w.FlagsFit env) {key : String} {orgId : Option Id}
    {type : FeatureFlagType} {value : Json} (h : w.consulted key orgId = some (type, value)) :
    value.fits env type := by
  unfold World.consulted at h
  split at h
  · cases h
  rename_i flagId flag hfound
  split at h
  · cases h
  rename_i hactive
  obtain ⟨hown, hoverrides⟩ := hfit flagId flag (Table.find?_some hfound).1 (by simpa using hactive)
  cases orgId with
  | none =>
    cases h
    exact hown
  | some o =>
    cases hoverride : w.overrideOf flagId o with
    | none =>
      simp only [Option.elim_some, World.flagSetting, hoverride, if_true] at h
      cases h
      exact hown
    | some r =>
      obtain ⟨k, r⟩ := r
      obtain ⟨hk, hmatch⟩ := Table.find?_some hoverride
      simp only [Option.elim_some, World.flagSetting, hoverride] at h
      split at h
      · rename_i hon
        cases h
        exact hoverrides k r hk (beq_iff_eq.mp (Bool.and_eq_true_iff.mp hmatch).1) hon
      · cases h

theorem World.FlagsSound.consulted_own (hw : w.FlagsSound) (hid : w.featureFlags.get? id = some f)
    (hactive : f.active = true) : w.consulted f.key none = some (f.type, f.value) := by
  have hfound : w.featureFlags.find? (fun _ g => g.key == f.key) = some (id, f) :=
    Table.find?_unique hid (beq_self_eq_true _) fun id' g hg hkey =>
      hw.keys id' id g f hg hid (beq_iff_eq.mp hkey)
  simp [World.consulted, hfound, hactive]

theorem World.FlagsSound.consulted_override (hw : w.FlagsSound)
    (hid : w.featureFlags.get? id = some f) (hactive : f.active = true) {k : Id}
    {o : OrganizationFeatureFlag} (hk : w.featureFlagOverrides.get? k = some o)
    (hflag : o.featureFlagId = id) (hon : o.enabled = true) :
    w.consulted f.key (some o.organizationId) = some (f.type, o.value) := by
  have hfound : w.featureFlags.find? (fun _ g => g.key == f.key) = some (id, f) :=
    Table.find?_unique hid (beq_self_eq_true _) fun id' g hg hkey =>
      hw.keys id' id g f hg hid (beq_iff_eq.mp hkey)
  have hoverride : w.overrideOf id o.organizationId = some (k, o) := by
    refine Table.find?_unique hk (by simp [hflag]) fun k' o' hk' hmatch => ?_
    obtain ⟨hflag', horg'⟩ := Bool.and_eq_true_iff.mp hmatch
    exact hw.pairs k' k o' o hk' hk ((beq_iff_eq.mp hflag').trans hflag.symm) (beq_iff_eq.mp horg')
  simp [World.consulted, World.flagSetting, hfound, hactive, hoverride, hon]

theorem World.FlagsSound.evaluate_iff (hw : w.FlagsSound) :
    FlagsEvaluate env w ↔ w.FlagsFit env := by
  rw [flagsEvaluate_iff]
  constructor
  · intro h id f hid hactive
    exact ⟨h _ _ _ _ (hw.consulted_own hid hactive), fun k o hk hflag hon =>
      h _ _ _ _ (hw.consulted_override hid hactive hk hflag hon)⟩
  · exact fun hfit key orgId type value h => hfit.consulted h

end Stored

end SaasBackend
