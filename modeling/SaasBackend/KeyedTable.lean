import Mathlib.Data.List.Nodup
import Mathlib.Data.List.Lookmap
import Mathlib.Tactic.Common

/-! Finite tables under a numeric primary key. The key constraint is a field of the
table, so no operation can produce two rows with one key. -/

set_option autoImplicit false

namespace Keyed

structure Table (α : Type) where
  rows : List (Nat × α)
  nodup : (rows.map Prod.fst).Nodup

namespace Table

variable {α : Type}

instance : EmptyCollection (Table α) := ⟨[], by simp⟩

def get? (t : Table α) (k : Nat) : Option α := t.rows.lookup k

def find? (t : Table α) (p : Nat → α → Bool) : Option (Nat × α) := t.rows.find? (fun r => p r.1 r.2)

def filter (t : Table α) (p : Nat → α → Bool) : List (Nat × α) := t.rows.filter (fun r => p r.1 r.2)

def any (t : Table α) (p : Nat → α → Bool) : Bool := t.rows.any (fun r => p r.1 r.2)

theorem lookup_eq_some {rows : List (Nat × α)} (h : (rows.map Prod.fst).Nodup) (k : Nat) (a : α) :
    rows.lookup k = some a ↔ (k, a) ∈ rows := by
  induction rows with
  | nil => simp
  | cons r rest ih =>
    obtain ⟨k', a'⟩ := r
    simp only [List.map_cons, List.nodup_cons] at h
    have hrest := ih h.2
    by_cases hk : k = k'
    · subst hk
      have hnot : ∀ b, (k, b) ∉ rest := fun b hb => h.1 (List.mem_map.mpr ⟨_, hb, rfl⟩)
      simp [hnot a, eq_comm]
    · have hbeq : (k == k') = false := by simp [hk]
      simp [List.lookup_cons, hbeq, hrest, hk]

theorem ext_rows {t t' : Table α} (h : t.rows = t'.rows) : t = t' := by
  cases t
  cases t'
  cases h
  rfl

theorem mem_rows {t : Table α} {k : Nat} {a : α} : (k, a) ∈ t.rows ↔ t.get? k = some a :=
  (lookup_eq_some t.nodup k a).symm

theorem get?_none {t : Table α} {k : Nat} : t.get? k = none ↔ k ∉ t.rows.map Prod.fst := by
  constructor
  · intro h hk
    obtain ⟨⟨k', a⟩, hmem, rfl⟩ := List.mem_map.mp hk
    rw [mem_rows.mp hmem] at h
    cases h
  · intro h
    cases hg : t.get? k with
    | none => rfl
    | some a => exact absurd (List.mem_map.mpr ⟨(k, a), mem_rows.mpr hg, rfl⟩) h

theorem ext_get? {t : Table α} {k : Nat} {o : Option α}
    (h : ∀ a, (k, a) ∈ t.rows ↔ o = some a) : t.get? k = o := by
  cases o with
  | none =>
    cases hg : t.get? k with
    | none => rfl
    | some a => exact absurd ((h a).mp (mem_rows.mpr hg)) (by simp)
  | some a => exact mem_rows.mp ((h a).mpr rfl)

/-- Keep, change or drop every row, key by key. All updates and deletions of the
store are instances. -/
def mapRows (t : Table α) (g : Nat → α → Option α) : Table α where
  rows := t.rows.filterMap (fun r => (g r.1 r.2).map (fun a => (r.1, a)))
  nodup := by
    have hsub : (t.rows.filterMap (fun r => (g r.1 r.2).map (fun a => (r.1, a)))).map Prod.fst
        |>.Sublist (t.rows.map Prod.fst) := by
      induction t.rows with
      | nil => simp
      | cons r rest ih =>
        cases hg : g r.1 r.2 with
        | none => simpa [hg] using ih.trans (List.sublist_cons_self _ _)
        | some a => simpa [hg] using ih
    exact hsub.nodup t.nodup

@[simp] theorem get?_mapRows (t : Table α) (g : Nat → α → Option α) (k : Nat) :
    (t.mapRows g).get? k = (t.get? k).bind (g k) := by
  apply ext_get?
  intro b
  simp only [mapRows, List.mem_filterMap, Option.map_eq_some_iff, Prod.exists, Prod.mk.injEq]
  constructor
  · rintro ⟨k', a, hmem, c, hc, rfl, rfl⟩
    simp [mem_rows.mp hmem, hc]
  · intro h
    obtain ⟨a, ha, hb⟩ := Option.bind_eq_some_iff.mp h
    exact ⟨k, a, mem_rows.mpr ha, b, hb, rfl, rfl⟩

def updateWhere (t : Table α) (p : Nat → α → Bool) (f : α → α) : Table α :=
  t.mapRows (fun k a => some (if p k a then f a else a))

def update (t : Table α) (k : Nat) (f : α → α) : Table α := t.updateWhere (fun k' _ => k' == k) f

def eraseWhere (t : Table α) (p : Nat → α → Bool) : Table α :=
  t.mapRows (fun k a => if p k a then none else some a)

def erase (t : Table α) (k : Nat) : Table α := t.eraseWhere (fun k' _ => k' == k)

@[simp] theorem get?_updateWhere (t : Table α) (p : Nat → α → Bool) (f : α → α) (k : Nat) :
    (t.updateWhere p f).get? k = (t.get? k).map (fun a => if p k a then f a else a) := by
  simp only [updateWhere, get?_mapRows]
  cases t.get? k <;> rfl

@[simp] theorem get?_update (t : Table α) (k k' : Nat) (f : α → α) :
    (t.update k f).get? k' = if k' = k then (t.get? k').map f else t.get? k' := by
  by_cases h : k' = k
  · simp [update, h]
  · simp [update, h]

@[simp] theorem get?_eraseWhere (t : Table α) (p : Nat → α → Bool) (k : Nat) :
    (t.eraseWhere p).get? k = (t.get? k).bind (fun a => if p k a then none else some a) := by
  simp only [eraseWhere, get?_mapRows]

theorem get?_eraseWhere_eq_some {t : Table α} {p : Nat → α → Bool} {k : Nat} {a : α} :
    (t.eraseWhere p).get? k = some a ↔ t.get? k = some a ∧ p k a = false := by
  rw [get?_eraseWhere, Option.bind_eq_some_iff]
  constructor
  · rintro ⟨b, hb, hkept⟩
    split at hkept
    · cases hkept
    · rename_i hp
      cases hkept
      exact ⟨hb, by simpa using hp⟩
  · rintro ⟨ha, hp⟩
    exact ⟨a, ha, by simp [hp]⟩

@[simp] theorem get?_erase (t : Table α) (k k' : Nat) :
    (t.erase k).get? k' = if k' = k then none else t.get? k' := by
  by_cases h : k' = k
  · simp [erase, h]
  · simp [erase, h]

theorem updateWhere_eq_self {t : Table α} {p : Nat → α → Bool} {f : α → α} :
    t.updateWhere p f = t ↔ ∀ k a, t.get? k = some a → p k a = true → f a = a := by
  constructor
  · intro h k a hk hp
    have hget := get?_updateWhere t p f k
    rw [h, hk, Option.map_some, if_pos hp] at hget
    exact (Option.some.inj hget).symm
  · intro h
    have hrows : (t.updateWhere p f).rows = t.rows := by
      unfold updateWhere mapRows
      refine (List.filterMap_congr fun r hr => ?_).trans List.filterMap_some
      have hrow := h r.1 r.2 (mem_rows.mp hr)
      by_cases hp : p r.1 r.2 = true
      · simp [hp, hrow hp]
      · simp [hp]
    exact ext_rows hrows

/-- A new row at the end. A key that is taken leaves the table as it is; callers
insert under keys they have just drawn. -/
def insert (t : Table α) (k : Nat) (a : α) : Table α :=
  if h : k ∈ t.rows.map Prod.fst then t
  else
    { rows := t.rows ++ [(k, a)]
      nodup := by
        rw [List.map_append, List.nodup_append]
        refine ⟨t.nodup, by simp, ?_⟩
        intro x hx y hy
        simp only [List.map_cons, List.map_nil, List.mem_singleton] at hy
        subst hy
        exact fun hxy => h (hxy ▸ hx) }

theorem insert_rows {t : Table α} {k : Nat} (a : α) (h : t.get? k = none) :
    (t.insert k a).rows = t.rows ++ [(k, a)] := by
  rw [insert, dif_neg (get?_none.mp h)]

theorem get?_insert {t : Table α} {k : Nat} (a : α) (h : t.get? k = none) (k' : Nat) :
    (t.insert k a).get? k' = if k' = k then some a else t.get? k' := by
  apply ext_get?
  intro b
  rw [insert_rows a h]
  by_cases hk : k' = k
  · subst hk
    have hnot : (k', b) ∉ t.rows := fun hb => by rw [mem_rows.mp hb] at h; cases h
    simp [hnot, eq_comm]
  · simp [hk, mem_rows]

theorem get?_insert_self {t : Table α} {k : Nat} (a : α) (h : t.get? k = none) :
    (t.insert k a).get? k = some a := by rw [get?_insert a h, if_pos rfl]

theorem get?_insert_of_some {t : Table α} {k k' : Nat} {a b : α} (h : t.get? k = some a) :
    (t.insert k' b).get? k = some a := by
  cases hk : t.get? k' with
  | none =>
    have hne : k ≠ k' := fun heq => by rw [heq, hk] at h; cases h
    rw [get?_insert b hk, if_neg hne, h]
  | some c =>
    have hmem : k' ∈ t.rows.map Prod.fst := by
      by_contra hnot
      rw [get?_none.mpr hnot] at hk
      cases hk
    rw [insert, dif_pos hmem, h]

theorem get?_insert_cases {t : Table α} {k k' : Nat} {a b : α}
    (h : (t.insert k' b).get? k = some a) : t.get? k = some a ∨ (k = k' ∧ a = b) := by
  cases hk : t.get? k' with
  | none =>
    rw [get?_insert b hk] at h
    split at h
    · rename_i heq
      exact .inr ⟨heq, (Option.some.inj h).symm⟩
    · exact .inl h
  | some c =>
    have hmem : k' ∈ t.rows.map Prod.fst := by
      by_contra hnot
      rw [get?_none.mpr hnot] at hk
      cases hk
    rw [insert, dif_pos hmem] at h
    exact .inl h

theorem get?_of_bound {t : Table α} {n k : Nat} (hbound : ∀ k a, t.get? k = some a → k < n)
    (hk : n ≤ k) :
    t.get? k = none :=
  Option.eq_none_iff_forall_ne_some.mpr fun a ha => absurd (hbound k a ha) (Nat.not_lt.mpr hk)

theorem find?_some {t : Table α} {p : Nat → α → Bool} {k : Nat} {a : α}
    (h : t.find? p = some (k, a)) : t.get? k = some a ∧ p k a = true :=
  ⟨mem_rows.mp (List.mem_of_find?_eq_some h), by simpa using List.find?_some h⟩

theorem find?_none {t : Table α} {p : Nat → α → Bool} (h : t.find? p = none) {k : Nat} {a : α}
    (hk : t.get? k = some a) : p k a = false := by
  simpa using List.find?_eq_none.mp h _ (mem_rows.mpr hk)

theorem find?_unique {t : Table α} {p : Nat → α → Bool} {k : Nat} {a : α}
    (hk : t.get? k = some a) (hp : p k a = true)
    (huniq : ∀ k' a', t.get? k' = some a' → p k' a' = true → k' = k) :
    t.find? p = some (k, a) := by
  cases hf : t.find? p with
  | none => rw [find?_none hf hk] at hp; cases hp
  | some r =>
    obtain ⟨k', a'⟩ := r
    obtain ⟨hk', hp'⟩ := find?_some hf
    have heq := huniq k' a' hk' hp'
    subst heq
    rw [hk] at hk'
    rw [Option.some.inj hk']

theorem mem_filter {t : Table α} {p : Nat → α → Bool} {k : Nat} {a : α} :
    (k, a) ∈ t.filter p ↔ t.get? k = some a ∧ p k a = true := by
  simp [filter, mem_rows]

theorem filter_other {t : Table α} {p : Nat → α → Bool} (k : Nat) (h : 1 < (t.filter p).length) :
    ∃ k' a, t.get? k' = some a ∧ p k' a = true ∧ k' ≠ k := by
  by_contra hnone
  have hkeys : ∀ x ∈ (t.filter p).map Prod.fst, x = k := by
    intro x hx
    obtain ⟨⟨k', a⟩, hmem, rfl⟩ := List.mem_map.mp hx
    obtain ⟨hget, hp⟩ := mem_filter.mp hmem
    by_contra hne
    exact hnone ⟨k', a, hget, hp, hne⟩
  have hnodup : ((t.filter p).map Prod.fst).Nodup := (List.filter_sublist.map _).nodup t.nodup
  rw [List.eq_replicate_of_mem hkeys, List.nodup_replicate, List.length_map] at hnodup
  omega

theorem any_eq_true {t : Table α} {p : Nat → α → Bool} :
    t.any p = true ↔ ∃ k a, t.get? k = some a ∧ p k a = true := by
  simp [any, List.any_eq_true, mem_rows]

theorem any_eq_false {t : Table α} {p : Nat → α → Bool} :
    t.any p = false ↔ ∀ k a, t.get? k = some a → p k a = false := by
  simp only [any, List.any_eq_false, Bool.not_eq_true, Prod.forall, mem_rows]

theorem filter_eq_filter_filter {t : Table α} {p q : Nat → α → Bool}
    (hpq : ∀ k a, t.get? k = some a → p k a = true → q k a = true) :
    t.filter p = (t.filter q).filter (fun r => p r.1 r.2) := by
  unfold filter
  rw [List.filter_filter]
  refine List.filter_congr fun r hr => ?_
  cases hp : p r.1 r.2 with
  | false => rfl
  | true => rw [hpq _ _ (mem_rows.mp hr) hp]; rfl

/-- A filter that only looks at the rows a second filter keeps, keeps the same rows of two
tables that agree on those. -/
theorem filter_congr_of {t t' : Table α} {p q : Nat → α → Bool}
    (hpq : ∀ k a, t.get? k = some a → p k a = true → q k a = true)
    (hpq' : ∀ k a, t'.get? k = some a → p k a = true → q k a = true)
    (h : t.filter q = t'.filter q) :
    t.filter p = t'.filter p := by
  rw [filter_eq_filter_filter hpq, filter_eq_filter_filter hpq', h]

theorem filter_congr {t t' : Table α} {p q : Nat → α → Bool}
    (hpq : ∀ k a, p k a = true → q k a = true) (h : t.filter q = t'.filter q) :
    t.filter p = t'.filter p :=
  filter_congr_of (fun k a _ => hpq k a) (fun k a _ => hpq k a) h

theorem any_eq_filter {t : Table α} {p : Nat → α → Bool} : t.any p = !(t.filter p).isEmpty := by
  rw [Bool.eq_iff_iff, any_eq_true]
  simp only [Bool.not_eq_true', List.isEmpty_eq_false_iff_exists_mem, Prod.exists, mem_filter]

theorem any_congr_of {t t' : Table α} {p q : Nat → α → Bool}
    (hpq : ∀ k a, t.get? k = some a → p k a = true → q k a = true)
    (hpq' : ∀ k a, t'.get? k = some a → p k a = true → q k a = true)
    (h : t.filter q = t'.filter q) :
    t.any p = t'.any p := by
  rw [any_eq_filter, any_eq_filter, filter_congr_of hpq hpq' h]

theorem find?_eq_head? {t : Table α} {p : Nat → α → Bool} : t.find? p = (t.filter p).head? :=
  List.head?_filter.symm

theorem find?_congr_of {t t' : Table α} {p q : Nat → α → Bool}
    (hpq : ∀ k a, t.get? k = some a → p k a = true → q k a = true)
    (hpq' : ∀ k a, t'.get? k = some a → p k a = true → q k a = true)
    (h : t.filter q = t'.filter q) :
    t.find? p = t'.find? p := by
  rw [find?_eq_head?, find?_eq_head?, filter_congr_of hpq hpq' h]

theorem find?_congr {t t' : Table α} {p q : Nat → α → Bool}
    (hpq : ∀ k a, p k a = true → q k a = true) (h : t.filter q = t'.filter q) :
    t.find? p = t'.find? p :=
  find?_congr_of (fun k a _ => hpq k a) (fun k a _ => hpq k a) h

theorem get?_congr {t t' : Table α} {p : Nat → α → Bool} (h : t.filter p = t'.filter p)
    {k : Nat} {a : α} (hp : p k a = true) : t.get? k = some a ↔ t'.get? k = some a := by
  have hmem : (k, a) ∈ t.filter p ↔ (k, a) ∈ t'.filter p := by rw [h]
  simpa [mem_filter, hp] using hmem

/-- An update that the filter does not look at is one of the rows it keeps. -/
theorem filter_updateWhere {t : Table α} {p q : Nat → α → Bool} {f : α → α}
    (hf : ∀ k a, q k (f a) = q k a) :
    (t.updateWhere p f).filter q =
      (t.filter q).map (fun r => (r.1, if p r.1 r.2 then f r.2 else r.2)) := by
  simp only [filter, updateWhere, mapRows, Option.map_some, List.filterMap_eq_map']
  rw [List.filter_map]
  refine congrArg (List.map _) (List.filter_congr fun r _ => ?_)
  simp only [Function.comp_apply]
  split
  · exact hf _ _
  · rfl

theorem filter_insert {t : Table α} {q : Nat → α → Bool} {k : Nat} (a : α)
    (h : t.get? k = none) :
    (t.insert k a).filter q = t.filter q ++ if q k a then [(k, a)] else [] := by
  simp only [filter, insert_rows a h, List.filter_append, List.filter_singleton, Bool.cond_eq_ite]

theorem filter_eraseWhere {t : Table α} {p q : Nat → α → Bool} :
    (t.eraseWhere p).filter q = (t.filter q).filter (fun r => !p r.1 r.2) := by
  simp only [filter, eraseWhere, mapRows]
  induction t.rows with
  | nil => rfl
  | cons r rest ih =>
    cases hp : p r.1 r.2 <;> cases hq : q r.1 r.2 <;> simp [hp, hq, ih]

theorem filter_updateWhere_apart {t : Table α} {p q : Nat → α → Bool} {f : α → α}
    (hf : ∀ k a, q k (f a) = q k a)
    (hapart : ∀ k a, t.get? k = some a → q k a = true → p k a = false) :
    (t.updateWhere p f).filter q = t.filter q := by
  rw [filter_updateWhere hf]
  refine (List.map_congr_left fun r hr => ?_).trans (List.map_id _)
  obtain ⟨hget, hq⟩ := mem_filter.mp hr
  simp [hapart r.1 r.2 hget hq]

theorem filter_eraseWhere_apart {t : Table α} {p q : Nat → α → Bool}
    (hapart : ∀ k a, t.get? k = some a → q k a = true → p k a = false) :
    (t.eraseWhere p).filter q = t.filter q := by
  rw [filter_eraseWhere]
  refine List.filter_eq_self.mpr fun r hr => ?_
  obtain ⟨hget, hq⟩ := mem_filter.mp hr
  simp [hapart r.1 r.2 hget hq]

theorem lookup_filter {t : Table α} {q : Nat → α → Bool} {k : Nat} :
    (t.filter q).lookup k = (t.get? k).filter (q k) := by
  have hnodup : ((t.filter q).map Prod.fst).Nodup := (List.filter_sublist.map _).nodup t.nodup
  ext a
  rw [lookup_eq_some hnodup, mem_filter, Option.filter_eq_some_iff]

theorem find?_updateWhere {t : Table α} {p q : Nat → α → Bool} {f : α → α}
    (hf : ∀ k a, q k (f a) = q k a) :
    (t.updateWhere p f).find? q =
      (t.find? q).map (fun r => (r.1, if p r.1 r.2 then f r.2 else r.2)) := by
  rw [find?_eq_head?, find?_eq_head?, filter_updateWhere hf, List.head?_map]

theorem find?_insert {t : Table α} {q : Nat → α → Bool} {k : Nat} (a : α)
    (h : t.get? k = none) :
    (t.insert k a).find? q = (t.find? q).or (if q k a then some (k, a) else none) := by
  rw [find?_eq_head?, find?_eq_head?, filter_insert a h, List.head?_append]
  cases q k a <;> rfl

end Table

end Keyed
