import SaasBackend.OrganizationListings
import SaasBackend.SortedPages

set_option autoImplicit false

namespace SaasBackend
open SortedPages

def parseSort (sort : String) (allowedFields : List String) : String :=
  if allowedFields.contains sort then sort else allowedFields.headD "undefined"

/-- The fields that listQuerySchema takes and those that the service hands to parseSort. -/
structure ListEndpoint where
  sortFields : List String
  allowedFields : List String
  defaultSort : String := "createdAt"
  /-- a related table whose column is sorted by -/
  relation : Option String := none

namespace ListEndpoint

def listUsers : ListEndpoint where
  sortFields := ["createdAt", "email", "name"]
  allowedFields := ["createdAt", "email", "name"]

def listNotifications : ListEndpoint where
  sortFields := ["createdAt", "type", "readAt"]
  allowedFields := ["createdAt", "type", "readAt"]

def listFlags : ListEndpoint where
  sortFields := ["createdAt", "name", "key", "type"]
  allowedFields := ["createdAt", "name", "key", "type"]

def listOrganizations : ListEndpoint where
  sortFields := ["createdAt", "name", "slug"]
  allowedFields := ["createdAt", "name", "slug"]
  relation := some "organization"

def listMembers : ListEndpoint where
  sortFields := ["createdAt", "role"]
  allowedFields := ["createdAt", "role"]

def listInvitations : ListEndpoint where
  sortFields := ["createdAt", "status", "expiresAt"]
  allowedFields := ["createdAt", "status", "expiresAt"]

def listMyInvitations : ListEndpoint where
  sortFields := ["createdAt", "expiresAt"]
  allowedFields := ["createdAt", "expiresAt"]

def listApiKeys : ListEndpoint where
  sortFields := ["createdAt", "name", "lastUsedAt"]
  allowedFields := ["createdAt", "name", "lastUsedAt"]

def listAuditLogs : ListEndpoint where
  sortFields := ["createdAt", "action"]
  allowedFields := ["createdAt", "action"]

def listUserAuditLogs : ListEndpoint where
  sortFields := ["createdAt", "action"]
  allowedFields := ["createdAt", "action"]

def listPlans : ListEndpoint where
  sortFields := ["createdAt", "name", "priceCents"]
  allowedFields := ["createdAt", "name", "priceCents"]
  defaultSort := "priceCents"

def listProjects : ListEndpoint where
  sortFields := ["createdAt", "updatedAt", "name", "status"]
  allowedFields := ["createdAt", "updatedAt", "name", "status"]

def listSessions : ListEndpoint where
  sortFields := ["createdAt", "updatedAt", "expiresAt"]
  allowedFields := ["createdAt", "updatedAt", "expiresAt"]

end ListEndpoint

def listEndpoints : List ListEndpoint :=
  [.listUsers, .listNotifications, .listFlags, .listOrganizations, .listMembers, .listInvitations,
    .listMyInvitations, .listApiKeys, .listAuditLogs, .listUserAuditLogs, .listPlans, .listProjects,
    .listSessions]

/-- Every endpoint's default is a sort that it takes, and parseSort never falls back. -/
theorem sortFields_allowed : ∀ e ∈ listEndpoints, e.defaultSort ∈ e.sortFields ∧
    ∀ sort ∈ e.sortFields, parseSort sort e.allowedFields = sort := by
  decide +kernel

variable {V : Type}

/-- A row by its key and its columns; a column of a related table goes by its path. -/
structure Row (V : Type) where
  id : Id
  column : String → V

/-- How the database compares the values of a column, null and all. -/
structure ColumnOrder (V : Type) where
  le : String → V → V → Bool
  trans : ∀ column a b c, le column a b → le column b c → le column a c
  total : ∀ column a b, le column a b || le column b a

structure Matching (V : Type) where
  rows : List (Row V)
  distinct : (rows.map (·.id)).Nodup

namespace ListEndpoint

abbrev Query (e : ListEndpoint) := ListParams {sort : String // sort ∈ e.sortFields}

def sortColumn (e : ListEndpoint) (q : e.Query) : String :=
  e.relation.elim "" (· ++ ".") ++ parseSort q.sort.1 e.allowedFields

def mayPrecede (db : ColumnOrder V) (e : ListEndpoint) (q : e.Query) (a b : Row V) : Bool :=
  match q.order with
  | .asc => db.le (e.sortColumn q) (a.column (e.sortColumn q)) (b.column (e.sortColumn q))
  | .desc => db.le (e.sortColumn q) (b.column (e.sortColumn q)) (a.column (e.sortColumn q))

def pagination (e : ListEndpoint) (q : e.Query) (m : Matching V) : PageMeta :=
  paginationMeta q.page q.limit m.rows.length

/-- The rows of the pages 1 to totalPages; the query for a page gets the order `orders page`. -/
def allPages (e : ListEndpoint) (q : e.Query) (m : Matching V) (orders : Nat → List (Row V)) :
    List (Row V) :=
  (List.range (e.pagination q m).totalPages).flatMap fun k =>
    paginate (k + 1) q.limit (orders (k + 1))

def sorted (db : ColumnOrder V) (e : ListEndpoint) (q : e.Query) (m : Matching V) : List (Row V) :=
  sortRows (fun a b => db.le (e.sortColumn q) (a.column (e.sortColumn q))
    (b.column (e.sortColumn q))) q.order m.rows

end ListEndpoint

section Partition

variable (db : ColumnOrder V) (e : ListEndpoint) (q : e.Query) (m : Matching V)

theorem mayPrecede_trans (a b c : Row V) (hab : e.mayPrecede db q a b)
    (hbc : e.mayPrecede db q b c) :
    e.mayPrecede db q a c := by
  unfold ListEndpoint.mayPrecede at hab hbc ⊢
  cases horder : q.order with
  | asc =>
    rw [horder] at hab hbc
    exact db.trans _ _ _ _ hab hbc
  | desc =>
    rw [horder] at hab hbc
    exact db.trans _ _ _ _ hbc hab

theorem mayPrecede_total (a b : Row V) : e.mayPrecede db q a b || e.mayPrecede db q b a := by
  unfold ListEndpoint.mayPrecede
  cases q.order with
  | asc => exact db.total _ _ _
  | desc => exact db.total _ _ _

theorem sorted_arranges : Arranges (e.mayPrecede db q) (e.sorted db q m) m.rows :=
  ⟨List.mergeSort_perm _ _,
    List.pairwise_mergeSort (mayPrecede_trans db e q) (mayPrecede_total db e q) _⟩

theorem length_le_totalPages : m.rows.length ≤ (e.pagination q m).totalPages * q.limit := by
  have hlimit := q.limitPos
  have hdiv := Nat.div_add_mod (m.rows.length + q.limit - 1) q.limit
  have hmod := Nat.mod_lt (m.rows.length + q.limit - 1) hlimit
  have hpages : (e.pagination q m).totalPages = (m.rows.length + q.limit - 1) / q.limit := rfl
  rw [hpages, Nat.mul_comm]
  omega

theorem perm_allPages_iff :
    (∀ orders : Nat → List (Row V), (∀ page, Arranges (e.mayPrecede db q) (orders page) m.rows) →
        (e.allPages q m orders).Perm m.rows) ↔
      ∀ k, Clear (e.mayPrecede db q) (e.sorted db q m) ((k + 1) * q.limit - 1) := by
  have hiff := pages_perm_iff (mayPrecede_trans db e q) (mayPrecede_total db e q)
    (sorted_arranges db e q m)
    m.distinct.of_map q.limitPos (length_le_totalPages e q m)
  refine Iff.trans ⟨fun h orders horders => ?_, fun h orders horders => ?_⟩ hiff
  · exact h (fun page => orders (page - 1)) fun page => horders (page - 1)
  · exact h (fun k => orders (k + 1)) fun k => horders (k + 1)

theorem paginate_ne_nil_iff {orders : List (Row V)} (h : Arranges (e.mayPrecede db q) orders m.rows)
    (page : Nat) :
    paginate page q.limit orders ≠ [] ↔ (page - 1) * q.limit < m.rows.length := by
  have hlimit := q.limitPos
  rw [← h.perm.length_eq, ← List.length_pos_iff, paginate, List.length_take, List.length_drop]
  omega

theorem perm_allPages_of_unique_key
    (hunique : ∀ a ∈ m.rows, ∀ b ∈ m.rows, e.mayPrecede db q a b → e.mayPrecede db q b a → a = b)
    {orders : Nat → List (Row V)}
    (horders : ∀ page, Arranges (e.mayPrecede db q) (orders page) m.rows) :
    (e.allPages q m orders).Perm m.rows := by
  refine (perm_allPages_iff db e q m).mpr (fun k => ?_) orders horders
  have harranges := sorted_arranges db e q m
  have hnodup : (e.sorted db q m).Nodup := harranges.perm.nodup_iff.mpr m.distinct.of_map
  generalize (k + 1) * q.limit - 1 = i
  intro a b ha hb
  by_contra hle
  have hba : e.mayPrecede db q b a = true := by simpa using hle
  obtain ⟨hi, rfl⟩ := List.getElem?_eq_some_iff.mp ha
  obtain ⟨hi', rfl⟩ := List.getElem?_eq_some_iff.mp hb
  have hab := List.pairwise_iff_getElem.mp harranges.sorted i (i + 1) hi hi' (Nat.lt_succ_self i)
  have hequal := hunique _ (harranges.perm.mem_iff.mp (List.getElem_mem hi)) _
    (harranges.perm.mem_iff.mp (List.getElem_mem hi')) hab hba
  exact absurd ((List.Nodup.getElem_inj_iff hnodup).mp hequal) (Nat.ne_of_lt (Nat.lt_succ_self i))

/-- The pages 1 to totalPages have every matching row once, whatever orders the queries get, if and
only if no page ends between two rows that are equal on the sort key. -/
theorem pages_partition_iff :
    ((∀ orders : Nat → List (Row V), (∀ page, Arranges (e.mayPrecede db q) (orders page) m.rows) →
        (e.allPages q m orders).Perm m.rows) ↔
          ∀ k, Clear (e.mayPrecede db q) (e.sorted db q m) ((k + 1) * q.limit - 1)) ∧
      (∀ orders : Nat → List (Row V), (∀ page, Arranges (e.mayPrecede db q) (orders page) m.rows) →
        ((e.pagination q m).hasNext = true ↔
          ∃ page, q.page < page ∧ paginate page q.limit (orders page) ≠ [])) ∧
      ((e.pagination q m).hasPrev = true ↔ q.page ≠ 1) := by
  refine ⟨perm_allPages_iff db e q m, fun orders horders => ?_, ?_⟩
  · have hnext : (e.pagination q m).hasNext = true ↔ q.page * q.limit < m.rows.length :=
      decide_eq_true_iff
    rw [hnext]
    constructor
    · intro hmore
      exact ⟨q.page + 1, Nat.lt_succ_self _, (paginate_ne_nil_iff db e q m (horders _) _).mpr hmore⟩
    · rintro ⟨page, hlater, hpage⟩
      have hstart := (paginate_ne_nil_iff db e q m (horders page) page).mp hpage
      exact Nat.lt_of_le_of_lt (Nat.mul_le_mul_right q.limit (Nat.le_sub_one_of_lt hlater)) hstart
  · have hprev : (e.pagination q m).hasPrev = true ↔ 1 < q.page := decide_eq_true_iff
    have hfirst := q.pagePos
    rw [hprev]
    omega

end Partition

def numberColumns : ColumnOrder Nat where
  le _ a b := decide (a ≤ b)
  trans _ a b c hab hbc := by simpa using Nat.le_trans (by simpa using hab) (by simpa using hbc)
  total _ a b := by simpa using Nat.le_total a b

def memberSince (id : Id) (createdAt : Nat) : Row Nat where
  id
  column column := if column = "role" then OrgRole.rank .member else createdAt

def firstMember : Row Nat := memberSince 1 10

def secondMember : Row Nat := memberSince 2 20

def twoMembers : Matching Nat where
  rows := [firstMember, secondMember]
  distinct := by decide

def oneByRole : ListEndpoint.listMembers.Query := { sort := ⟨"role", by decide⟩, limit := 1 }

def eitherFirst : Nat → List (Row Nat)
  | 2 => [secondMember, firstMember]
  | _ => [firstMember, secondMember]

theorem equal_roles_repeat_member :
    (∀ page, Arranges (ListEndpoint.listMembers.mayPrecede numberColumns oneByRole)
      (eitherFirst page) twoMembers.rows) ∧
      ListEndpoint.listMembers.allPages oneByRole twoMembers eitherFirst =
        [firstMember, firstMember] ∧
      ¬(ListEndpoint.listMembers.allPages oneByRole twoMembers eitherFirst).Perm
        twoMembers.rows := by
  have hpages : ListEndpoint.listMembers.allPages oneByRole twoMembers eitherFirst =
    [firstMember, firstMember] := rfl
  refine ⟨fun page => ?_, hpages, fun hperm => ?_⟩
  · unfold eitherFirst
    split
    · exact ⟨.swap _ _ _, by decide +kernel⟩
    · exact ⟨.refl _, by decide +kernel⟩
  · rw [hpages] at hperm
    have hids : ([1, 1] : List Id).Perm [1, 2] := hperm.map Row.id
    revert hids
    decide

end SaasBackend
