import SaasBackend.KeyedTable

set_option autoImplicit false

namespace Keyed.Table

variable {α β : Type} {t : Table α} {s s' : Table β} {fk : α → Option Nat}

/-- Every key that a row of `t` refers to by `fk` is one of `s`. -/
def Refers (t : Table α) (fk : α → Option Nat) (s : Table β) : Prop :=
  ∀ k a i, t.get? k = some a → fk a = some i → (s.get? i).isSome = true

theorem refers_iff : t.Refers fk s ↔
    t.rows.all (fun r => (fk r.2).all (fun i => (s.get? i).isSome)) = true := by
  simp only [List.all_eq_true, Option.all_eq_true, Prod.forall, mem_rows]
  exact ⟨fun h k a hk i hi => h k a i hk hi, fun h k a i hk hi => h k a hk i hi⟩

instance : Decidable (t.Refers fk s) := decidable_of_iff' _ refers_iff

theorem bounded_of_all {n : Nat} (h : t.rows.all (fun r => decide (r.1 < n)) = true) (k : Nat)
    (a : α) (hk : t.get? k = some a) : k < n := by
  simpa using List.all_eq_true.mp h (k, a) (mem_rows.mpr hk)

def Kept (s s' : Table β) : Prop := ∀ i, (s.get? i).isSome = true → (s'.get? i).isSome = true

theorem Kept.refl (s : Table β) : s.Kept s := fun _ h => h

theorem kept_insert (s : Table β) (k : Nat) (b : β) : s.Kept (s.insert k b) := by
  intro i hi
  obtain ⟨c, hc⟩ := Option.isSome_iff_exists.mp hi
  rw [get?_insert_of_some hc]
  rfl

theorem kept_updateWhere (s : Table β) (p : Nat → β → Bool) (f : β → β) :
    s.Kept (s.updateWhere p f) := by
  intro i hi
  simpa using hi

theorem kept_update (s : Table β) (k : Nat) (f : β → β) : s.Kept (s.update k f) :=
  kept_updateWhere s _ f

theorem Refers.kept (h : t.Refers fk s) (hs : s.Kept s') : t.Refers fk s' :=
  fun k a i hk hi => hs i (h k a i hk hi)

theorem Refers.insert (h : t.Refers fk s) {k : Nat} {a : α}
    (hnew : ∀ i, fk a = some i → (s.get? i).isSome = true) : (t.insert k a).Refers fk s := by
  intro k' b i hk hi
  rcases get?_insert_cases hk with hold | ⟨_, rfl⟩
  · exact h k' b i hold hi
  · exact hnew i hi

/-- What is kept or changed refers where it did, or to another key of `s`. -/
theorem Refers.mapRows (h : t.Refers fk s) {g : Nat → α → Option α}
    (hg : ∀ k a b i, g k a = some b → fk b = some i → fk a = some i ∨ (s.get? i).isSome = true) :
    (t.mapRows g).Refers fk s := by
  intro k b i hk hi
  rw [get?_mapRows] at hk
  obtain ⟨a, ha, hb⟩ := Option.bind_eq_some_iff.mp hk
  rcases hg k a b i hb hi with hold | hnew
  · exact h k a i ha hold
  · exact hnew

theorem Refers.updateWhere (h : t.Refers fk s) {p : Nat → α → Bool} {f : α → α}
    (hf : ∀ a, fk (f a) = fk a) : (t.updateWhere p f).Refers fk s := by
  refine h.mapRows fun k a b i hb hi => .inl ?_
  have hkey : fk b = fk a := by
    rw [← Option.some.inj hb]
    split
    · exact hf a
    · rfl
  rw [← hkey, hi]

theorem Refers.update (h : t.Refers fk s) {k : Nat} {f : α → α} (hf : ∀ a, fk (f a) = fk a) :
    (t.update k f).Refers fk s :=
  h.updateWhere hf

theorem Refers.eraseWhere (h : t.Refers fk s) {p : Nat → α → Bool} :
    (t.eraseWhere p).Refers fk s := by
  intro k a i hk hi
  exact h k a i (get?_eraseWhere_eq_some.mp hk).1 hi

/-- onDelete: the rows left of `t` refer to none of the rows that `q` takes from `s`. -/
theorem Refers.cascade (h : t.Refers fk s) {g : Nat → α → Option α} {q : Nat → β → Bool}
    (hg : ∀ k a b i, g k a = some b → fk b = some i →
      fk a = some i ∧ ∀ r, s.get? i = some r → q i r = false) :
    (t.mapRows g).Refers fk (s.eraseWhere q) := by
  intro k b i hk hi
  rw [get?_mapRows] at hk
  obtain ⟨a, ha, hb⟩ := Option.bind_eq_some_iff.mp hk
  obtain ⟨hold, hspared⟩ := hg k a b i hb hi
  obtain ⟨r, hr⟩ := Option.isSome_iff_exists.mp (h k a i ha hold)
  rw [get?_eraseWhere_eq_some.mpr ⟨hr, hspared r hr⟩]
  rfl

theorem Refers.cascade_erase (h : t.Refers fk s) {p : Nat → α → Bool} {q : Nat → β → Bool}
    (hp : ∀ k a i r, p k a = false → fk a = some i → s.get? i = some r → q i r = false) :
    (t.eraseWhere p).Refers fk (s.eraseWhere q) := by
  refine h.cascade fun k a b i hb hi => ?_
  cases hrow : p k a with
  | true => simp [hrow] at hb
  | false =>
    simp only [hrow, Bool.false_eq_true, if_false, Option.some.injEq] at hb
    subst hb
    exact ⟨hi, fun r hr => hp k a i r hrow hi hr⟩

end Keyed.Table
