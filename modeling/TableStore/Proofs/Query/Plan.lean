/-
# What a plan asks for

A plan may answer an equality from an index or row by row, and which of the two it does is decided
anew whenever it runs. What it asks for is the plan that evaluates everything row by row: falling
back on that never changes it, and it is what the rows of a query are measured against.
-/

import TableStore.Proofs.Index.Key
import TableStore.Proofs.Row.File
import TableStore.Query.Plan

namespace TableStore

namespace Criteria

/-- Criteria are known by the predicate of each column. -/
theorem ext_getElem? {first second : Criteria}
    (same : ∀ column : String, first.predicates[column]? = second.predicates[column]?) :
    first = second := by
  obtain ⟨predicates⟩ := first
  obtain ⟨others⟩ := second
  congr 1
  exact Std.ExtTreeMap.ext_getElem? fun {column} => same column

/-- The predicate of a column after one was set. -/
theorem getElem?_insert (criteria : Criteria) (column other : String) (predicate : Predicate) :
    (criteria.insert column predicate).predicates[other]? =
      if column = other then some predicate else criteria.predicates[other]? := by
  simp [insert, Std.ExtTreeMap.getElem?_insert]

/-- A row meets criteria if it meets the predicate of every column. -/
theorem accept_iff (criteria : Criteria) (row : Row) :
    criteria.accept row = true ↔
      ∀ (column : String) (predicate : Predicate),
        criteria.predicates[column]? = some predicate →
          predicate.accepts (row.value column) = true := by
  rw [accept, List.all_eq_true]
  constructor
  · intro all column predicate found
    exact all (column, predicate) (Std.ExtTreeMap.mem_toList_iff_getElem?_eq_some.mpr found)
  · intro each entry listed
    exact each entry.1 entry.2 (Std.ExtTreeMap.mem_toList_iff_getElem?_eq_some.mp listed)

/-- A row meets criteria if each literal equals what is in its column and each test accepts what is
in its column, where a column that the row does not have reads as null. -/
theorem accept_iff_get? (criteria : Criteria) (row : Row) :
    criteria.accept row = true ↔
      (∀ (column : String) (expected : Json),
        criteria.predicates[column]? = some (.literal expected) →
          ((row.get? column).getD .null).same expected = true) ∧
      ∀ (column : String) (test : Json → Bool),
        criteria.predicates[column]? = some (.custom test) →
          test ((row.get? column).getD .null) = true := by
  rw [accept_iff]
  constructor
  · intro each
    exact ⟨fun column _ found => each column _ found, fun column _ found => each column _ found⟩
  · rintro ⟨literals, tests⟩ column predicate found
    cases predicate with
    | literal expected => exact literals column expected found
    | custom test => exact tests column test found

/-- Setting predicates one after another sets them all. -/
theorem predicates_foldl_insert (entries : List (String × Predicate)) (criteria : Criteria) :
    (entries.foldl (fun criteria entry => criteria.insert entry.1 entry.2) criteria).predicates =
      criteria.predicates.insertMany entries := by
  induction entries generalizing criteria with
  | nil => exact Std.ExtTreeMap.insertMany_nil.symm
  | cons entry rest ih =>
      rw [List.foldl_cons, ih, Std.ExtTreeMap.insertMany_cons]
      rfl

/-- Setting the predicates of criteria one after another gives these criteria. -/
theorem foldl_insert_toList (criteria : Criteria) :
    criteria.toList.foldl (fun criteria entry => criteria.insert entry.1 entry.2) empty =
      criteria := by
  apply ext_getElem?
  intro column
  rw [predicates_foldl_insert]
  cases found : criteria.predicates[column]? with
  | some predicate =>
      exact Std.ExtTreeMap.getElem?_insertMany_list_of_mem Std.ReflCmp.compare_self
        Std.ExtTreeMap.distinct_keys_toList
        (Std.ExtTreeMap.mem_toList_iff_getElem?_eq_some.mpr found)
  | none =>
      rw [getElem?_eq_none_iff] at found
      have absent : (criteria.toList.map Prod.fst).contains column = false := by
        rw [toList, Std.ExtTreeMap.map_fst_toList_eq_keys]
        simpa using found
      rw [Std.ExtTreeMap.getElem?_insertMany_list_of_contains_eq_false absent]
      exact Std.ExtTreeMap.getElem?_empty

end Criteria

namespace Plan

/-- Plans are known by their parts, column by column. -/
theorem ext_getElem? {first second : Plan} (limits : first.limit = second.limit)
    (selections : first.selected = second.selected)
    (criteria : ∀ column : String,
      first.criteria.predicates[column]? = second.criteria.predicates[column]?)
    (lookups : ∀ column : String, first.lookups[column]? = second.lookups[column]?) :
    first = second := by
  have sameCriteria := Criteria.ext_getElem? criteria
  have sameLookups := Std.ExtTreeMap.ext_getElem? fun {column} => lookups column
  cases first
  cases second
  simp_all

/-- The plan that evaluates all equalities row by row. -/
def scanning (plan : Plan) : Plan :=
  plan.lookups.keys.foldl fallBack plan

/-- Whether equalities are on scalars, and each column is either looked up or evaluated. -/
structure Routed (plan : Plan) : Prop where
  scalar : ∀ (column : String) (value : Json),
    plan.lookups[column]? = some value → value.isScalar = true
  apart : ∀ column ∈ plan.lookups, column ∉ plan.criteria.predicates

/-- Falling back does not change the limit. -/
@[simp]
theorem limit_fallBack (plan : Plan) (column : String) :
    (plan.fallBack column).limit = plan.limit := by
  unfold fallBack
  split <;> rfl

/-- Falling back does not change the selection. -/
@[simp]
theorem selected_fallBack (plan : Plan) (column : String) :
    (plan.fallBack column).selected = plan.selected := by
  unfold fallBack
  split <;> rfl

/-- The column that is fallen back on is no longer looked up. -/
theorem lookups_fallBack (plan : Plan) (column other : String) :
    (plan.fallBack column).lookups[other]? =
      if column = other then none else plan.lookups[other]? := by
  unfold fallBack
  split
  · simp [Std.ExtTreeMap.getElem?_erase]
  · next absent =>
      split
      · next same => rw [← same, absent]
      · rfl

/-- The column that is fallen back on is evaluated. -/
theorem predicates_fallBack (plan : Plan) (column other : String) :
    (plan.fallBack column).criteria.predicates[other]? =
      if column = other then
        (plan.lookups[other]?.map Predicate.literal).or plan.criteria.predicates[other]?
      else plan.criteria.predicates[other]? := by
  unfold fallBack
  split
  · next value found =>
      rw [Criteria.getElem?_insert]
      split
      · next same => rw [← same, found]; rfl
      · rfl
  · next absent =>
      split
      · next same => rw [← same, absent]; rfl
      · rfl

section

variable (plan : Plan) (stale : List String)

/-- Falling back on several columns does not change the limit. -/
@[simp]
theorem limit_foldl_fallBack : (stale.foldl fallBack plan).limit = plan.limit := by
  induction stale generalizing plan with
  | nil => rfl
  | cons column rest ih => rw [List.foldl_cons, ih, limit_fallBack]

/-- Falling back on several columns does not change the selection. -/
@[simp]
theorem selected_foldl_fallBack : (stale.foldl fallBack plan).selected = plan.selected := by
  induction stale generalizing plan with
  | nil => rfl
  | cons column rest ih => rw [List.foldl_cons, ih, selected_fallBack]

/-- The columns that are fallen back on are no longer looked up. -/
theorem lookups_foldl_fallBack (other : String) :
    (stale.foldl fallBack plan).lookups[other]? =
      if other ∈ stale then none else plan.lookups[other]? := by
  induction stale generalizing plan with
  | nil => rfl
  | cons column rest ih =>
      rw [List.foldl_cons, ih, lookups_fallBack]
      by_cases same : column = other
      · simp [same]
      · simp [same, Ne.symm same]

/-- The columns that are fallen back on are evaluated. -/
theorem predicates_foldl_fallBack (other : String) :
    (stale.foldl fallBack plan).criteria.predicates[other]? =
      if other ∈ stale then
        (plan.lookups[other]?.map Predicate.literal).or plan.criteria.predicates[other]?
      else plan.criteria.predicates[other]? := by
  induction stale generalizing plan with
  | nil => rfl
  | cons column rest ih =>
      rw [List.foldl_cons, ih, lookups_fallBack, predicates_fallBack]
      by_cases same : column = other
      · simp [same]
      · simp [same, Ne.symm same]

/-- Nothing is looked up when everything is evaluated. -/
@[simp]
theorem lookups_scanning : plan.scanning.lookups = ∅ := by
  apply Std.ExtTreeMap.ext_getElem?
  intro column
  rw [scanning, lookups_foldl_fallBack, Std.ExtTreeMap.getElem?_empty]
  split
  · rfl
  · next absent =>
      rw [Std.ExtTreeMap.mem_keys] at absent
      exact Std.ExtTreeMap.getElem?_eq_none absent

/-- A plan that looks nothing up evaluates everything already. -/
theorem scanning_of_lookups_eq_empty {plan : Plan} (none : plan.lookups = ∅) :
    plan.scanning = plan := by
  rw [scanning, none, Std.ExtTreeMap.keys_eq_nil_iff.mpr rfl]
  rfl

/-- What is looked up is evaluated when everything is. -/
theorem predicates_scanning (column : String) :
    plan.scanning.criteria.predicates[column]? =
      (plan.lookups[column]?.map Predicate.literal).or plan.criteria.predicates[column]? := by
  rw [scanning, predicates_foldl_fallBack]
  split
  · rfl
  · next absent =>
      rw [Std.ExtTreeMap.mem_keys] at absent
      rw [Std.ExtTreeMap.getElem?_eq_none absent]
      rfl

/-- Falling back on some columns does not change what a plan asks for. -/
theorem scanning_foldl_fallBack : (stale.foldl fallBack plan).scanning = plan.scanning := by
  apply ext_getElem?
  · simp [scanning]
  · simp [scanning]
  · intro column
    rw [predicates_scanning, predicates_scanning, lookups_foldl_fallBack,
      predicates_foldl_fallBack]
    split
    · rfl
    · rfl
  · intro column
    rw [lookups_scanning, lookups_scanning]

/-- Falling back on some columns keeps a plan routed. -/
theorem Routed.foldl_fallBack {plan : Plan} (routed : plan.Routed) (stale : List String) :
    (stale.foldl fallBack plan).Routed where
  scalar column value found := by
    rw [lookups_foldl_fallBack] at found
    split at found
    · cases found
    · exact routed.scalar column value found
  apart column member := by
    rw [Std.ExtTreeMap.mem_iff_isSome_getElem?, lookups_foldl_fallBack] at member
    rw [← getElem?_eq_none_iff, predicates_foldl_fallBack]
    split at member
    · cases member
    · next fresh =>
        rw [if_neg fresh, getElem?_eq_none_iff]
        exact routed.apart column (Std.ExtTreeMap.mem_iff_isSome_getElem?.mpr member)

end

/-- A routed plan asks for the rows that meet its criteria and all its equalities. -/
theorem Routed.accept_scanning {plan : Plan} (routed : plan.Routed) (row : Row) :
    plan.scanning.criteria.accept row =
      (plan.criteria.accept row &&
        plan.lookups.toList.all fun lookup => (row.value lookup.1).same lookup.2) := by
  rw [Bool.eq_iff_iff, Bool.and_eq_true, Criteria.accept_iff, Criteria.accept_iff,
    List.all_eq_true]
  constructor
  · intro all
    constructor
    · intro column predicate found
      apply all column predicate
      have evaluated : column ∉ plan.lookups := fun member => by
        have absent := routed.apart column member
        rw [← getElem?_eq_none_iff, found] at absent
        cases absent
      rw [predicates_scanning, Std.ExtTreeMap.getElem?_eq_none evaluated, found]
      rfl
    · intro lookup listed
      apply all lookup.1 (.literal lookup.2)
      rw [predicates_scanning, Std.ExtTreeMap.mem_toList_iff_getElem?_eq_some.mp listed]
      rfl
  · intro both
    obtain ⟨evaluated, lookedUp⟩ := both
    intro column predicate found
    rw [predicates_scanning] at found
    cases lookup : plan.lookups[column]? with
    | some value =>
        rw [lookup] at found
        cases found
        exact lookedUp (column, value) (Std.ExtTreeMap.mem_toList_iff_getElem?_eq_some.mpr lookup)
    | none =>
        rw [lookup] at found
        exact evaluated column predicate found

/-- Looking up one more equality asks for it. -/
theorem scanning_insert_lookup (plan : Plan) (column : String) (value : Json) :
    ({ plan with lookups := plan.lookups.insert column value } : Plan).scanning =
      { plan.scanning with
        criteria := plan.scanning.criteria.insert column (.literal value) } := by
  apply ext_getElem?
  · simp [scanning]
  · simp [scanning]
  · intro other
    rw [Criteria.getElem?_insert, predicates_scanning, predicates_scanning,
      Std.ExtTreeMap.getElem?_insert]
    by_cases same : column = other
    · simp [same]
    · simp [same]
  · intro other
    rw [lookups_scanning, lookups_scanning]

/-- Evaluating one more predicate asks for it, unless its column is looked up. -/
theorem scanning_insert_criteria {plan : Plan} {column : String} (predicate : Predicate)
    (fresh : column ∉ plan.lookups) :
    ({ plan with criteria := plan.criteria.insert column predicate } : Plan).scanning =
      { plan.scanning with criteria := plan.scanning.criteria.insert column predicate } := by
  apply ext_getElem?
  · simp [scanning]
  · simp [scanning]
  · intro other
    rw [Criteria.getElem?_insert, predicates_scanning, predicates_scanning,
      Criteria.getElem?_insert]
    by_cases same : column = other
    · subst same
      simp [fresh]
    · simp [same]
  · intro other
    rw [lookups_scanning, lookups_scanning]

/-- Looking up an equality on a scalar in a new column keeps a plan routed. -/
theorem Routed.insert_lookup {plan : Plan} (routed : plan.Routed) {column : String} {value : Json}
    (scalar : value.isScalar = true) (fresh : column ∉ plan.criteria.predicates) :
    ({ plan with lookups := plan.lookups.insert column value } : Plan).Routed where
  scalar other found present := by
    rw [Std.ExtTreeMap.getElem?_insert] at present
    split at present
    · cases present
      exact scalar
    · exact routed.scalar other found present
  apart other member := by
    rcases Std.ExtTreeMap.mem_insert.mp member with same | listed
    · rwa [← Std.LawfulEqOrd.eq_of_compare same]
    · exact routed.apart other listed

/-- Evaluating a predicate on a new column keeps a plan routed. -/
theorem Routed.insert_criteria {plan : Plan} (routed : plan.Routed) {column : String}
    (predicate : Predicate) (fresh : column ∉ plan.lookups) :
    ({ plan with criteria := plan.criteria.insert column predicate } : Plan).Routed where
  scalar := routed.scalar
  apart other member evaluated := by
    rcases Std.ExtTreeMap.mem_insert.mp evaluated with same | listed
    · exact fresh (Std.LawfulEqOrd.eq_of_compare same ▸ member)
    · exact routed.apart other member listed

end Plan

end TableStore
