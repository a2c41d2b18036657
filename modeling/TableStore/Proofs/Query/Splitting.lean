/-
# Criteria split by indexes

A filter asks for indexes when it is called, and whatever runs the query asks again. The equalities
with scalars on columns that are found to have an index both times are looked up, and all other
criteria are evaluated row by row. This holds on any store, with any calls in between, as long as no
single probe is ordered to fail.
-/

import Mathlib.Data.List.Basic
import Mathlib.Data.List.Induction
import TableStore.Proofs.Query.Plan
import TableStore.Proofs.Store
import TableStore.Query.Basic

namespace TableStore

namespace Table

/-- Whether a column is found to have an index. -/
def indexed (table : Table) (store : Store) (column : String) : Bool :=
  ((table.hasIndex column).run store).1

variable {store : Store} (quiet : store.failingProbes = [])

include quiet

/-- A probe finds the file of an index, unless it is ordered to fail; at most it leaves a report. -/
theorem run_hasIndex (table : Table) (column : String) :
    ∃ journal, (table.hasIndex column).run store =
      (FileName.isSegment column && !store.faults.contains ⟨.probe, table.indexPath column⟩ &&
        store.files.isFile (table.indexPath column), { store with journal }) := by
  obtain ⟨files, faults, journal, probes⟩ := store
  dsimp only at quiet
  subst quiet
  rw [hasIndex]
  cases segment : FileName.isSegment column with
  | false => exact ⟨journal, rfl⟩
  | true =>
      have probed : (Store.isFile (table.indexPath column)).run.run ⟨files, faults, journal, []⟩ =
          (if faults.contains ⟨.probe, table.indexPath column⟩ then
              .error (.io (table.indexPath column) .injected)
            else .ok (files.isFile (table.indexPath column)), ⟨files, faults, journal, []⟩) := by
        rw [Store.isFile, Store.run_checked]
        split <;> rfl
      rw [if_neg (by decide), StateT.run_bind, probed]
      cases faults.contains ⟨.probe, table.indexPath column⟩ with
      | true => exact ⟨_, rfl⟩
      | false => exact ⟨journal, rfl⟩

/-- A probe answers whether there is an index, and at most leaves a report. -/
theorem run_hasIndex_eq (table : Table) (column : String) :
    ∃ journal, (table.hasIndex column).run store =
      (table.indexed store column, { store with journal }) := by
  obtain ⟨journal, runs⟩ := run_hasIndex quiet table column
  exact ⟨journal, by rw [indexed, runs]⟩

/-- What is found does not depend on what was reported before. -/
theorem indexed_journal (table : Table) (journal : List Event) (column : String) :
    table.indexed { store with journal } column = table.indexed store column := by
  obtain ⟨_, before⟩ := run_hasIndex quiet table column
  obtain ⟨_, after⟩ := @run_hasIndex { store with journal } quiet table column
  rw [indexed, indexed, before, after]

end Table

/-- The value that an index is asked for to answer a predicate, if an index can answer it. -/
def Predicate.sought? (predicate : Predicate) : Option Json :=
  if predicate.isIndexable then predicate.literal? else none

/-- A predicate that an index can answer is the equality with the value it is asked for. -/
theorem Predicate.of_sought?_eq_some {predicate : Predicate} {value : Json}
    (sought : predicate.sought? = some value) : predicate = .literal value := by
  cases predicate with
  | literal expected =>
      rw [sought?] at sought
      split at sought
      · cases sought
        rfl
      · cases sought
  | custom test => cases sought

/-- There is nothing to ask an index for exactly if it cannot answer a predicate. -/
theorem Predicate.sought?_eq_none_iff {predicate : Predicate} :
    predicate.sought? = none ↔ predicate.isIndexable = false := by
  cases predicate with
  | literal value =>
      rw [sought?]
      cases isIndexable (.literal value) with
      | true => exact iff_of_false (nomatch ·) (nomatch ·)
      | false => exact iff_of_true rfl rfl
  | custom test => exact iff_of_true rfl rfl

/-- Nothing is asked of any column by the criteria that every row meets. -/
theorem Criteria.getElem?_empty (column : String) : empty.predicates[column]? = none :=
  Std.ExtTreeMap.getElem?_empty

namespace Plan

/-- Whether a plan looks up what it can of some criteria on chosen columns, and evaluates the
rest. -/
structure Splits (plan : Plan) (criteria : Criteria) (chosen : String → Bool) : Prop where
  lookups : ∀ column : String, plan.lookups[column]? =
    if chosen column then criteria.predicates[column]?.bind Predicate.sought? else none
  evaluated : ∀ column : String, plan.criteria.predicates[column]? =
    criteria.predicates[column]?.filter fun predicate =>
      !(predicate.isIndexable && chosen column)

variable {plan : Plan} {criteria : Criteria} {chosen : String → Bool}

/-- An equality that can be looked up is. -/
theorem Splits.insert_lookup (splits : plan.Splits criteria chosen) {column : String}
    (fresh : criteria.predicates[column]? = none) {value : Json}
    (scalar : (Predicate.literal value).isIndexable = true) (isChosen : chosen column = true) :
    ({ plan with lookups := plan.lookups.insert column value } : Plan).Splits
      (criteria.insert column (.literal value)) chosen where
  lookups other := by
    rw [Std.ExtTreeMap.getElem?_insert, Criteria.getElem?_insert, splits.lookups]
    by_cases here : column = other
    · subst here
      rw [if_pos Std.compare_self, if_pos isChosen, if_pos rfl, Option.bind_some,
        Predicate.sought?, if_pos scalar, Predicate.literal?]
    · rw [if_neg fun same => here (Std.LawfulEqOrd.eq_of_compare same), if_neg here]
  evaluated other := by
    rw [Criteria.getElem?_insert, splits.evaluated]
    by_cases here : column = other
    · subst here
      rw [fresh, if_pos rfl, Option.filter_none, Option.filter_some, scalar, isChosen]
      rfl
    · rw [if_neg here]

/-- A predicate that cannot be looked up is evaluated. -/
theorem Splits.insert_criteria (splits : plan.Splits criteria chosen) {column : String}
    (fresh : criteria.predicates[column]? = none) {predicate : Predicate}
    (unanswered : (predicate.isIndexable && chosen column) = false) :
    ({ plan with criteria := plan.criteria.insert column predicate } : Plan).Splits
      (criteria.insert column predicate) chosen where
  lookups other := by
    rw [Criteria.getElem?_insert, splits.lookups]
    by_cases here : column = other
    · subst here
      rw [if_pos rfl, fresh, Option.bind_none, Option.bind_some, ite_self]
      cases isChosen : chosen column with
      | false => rfl
      | true =>
          rw [isChosen, Bool.and_true] at unanswered
          rw [if_pos rfl, Predicate.sought?_eq_none_iff.mpr unanswered]
    · rw [if_neg here]
  evaluated other := by
    rw [Criteria.getElem?_insert, Criteria.getElem?_insert, splits.evaluated]
    by_cases here : column = other
    · subst here
      rw [if_pos rfl, if_pos rfl, Option.filter_some, unanswered]
      rfl
    · rw [if_neg here, if_neg here]

/-- What is looked up and what is evaluated are the criteria together. -/
theorem Splits.together (splits : plan.Splits criteria chosen) (column : String) :
    (plan.lookups[column]?.map Predicate.literal).or plan.criteria.predicates[column]? =
      criteria.predicates[column]? := by
  rw [splits.lookups, splits.evaluated]
  cases criteria.predicates[column]? with
  | none =>
      rw [Option.bind_none, ite_self]
      rfl
  | some predicate =>
      cases chosen column with
      | false =>
          rw [if_neg Bool.false_ne_true, Option.filter_some, Bool.and_false]
          rfl
      | true =>
          rw [if_pos rfl, Option.bind_some, Option.filter_some, Bool.and_true]
          cases sought : predicate.sought? with
          | some value =>
              rw [Predicate.of_sought?_eq_some sought]
              rfl
          | none =>
              have unanswered : predicate.isIndexable = false :=
                Predicate.sought?_eq_none_iff.mp sought
              rw [unanswered]
              rfl

/-- After falling back on the columns that are not also chosen now, a plan looks up what it can on
the columns that were chosen both times. -/
theorem Splits.foldl_fallBack (splits : plan.Splits criteria chosen) (now : String → Bool) :
    ((plan.lookups.keys.filter fun column => !now column).foldl fallBack plan).Splits criteria
      fun column => chosen column && now column where
  lookups column := by
    rw [lookups_foldl_fallBack]
    cases isNow : now column with
    | true =>
        have kept : column ∉ plan.lookups.keys.filter fun column => !now column := by
          simp [isNow]
        rw [if_neg kept, splits.lookups, Bool.and_true]
    | false =>
        rw [Bool.and_false, if_neg Bool.false_ne_true]
        split
        · rfl
        · next fresh =>
            have absent : column ∉ plan.lookups := by simpa [isNow] using fresh
            exact Std.ExtTreeMap.getElem?_eq_none absent
  evaluated column := by
    rw [predicates_foldl_fallBack]
    cases isNow : now column with
    | true =>
        have kept : column ∉ plan.lookups.keys.filter fun column => !now column := by
          simp [isNow]
        rw [if_neg kept, splits.evaluated]
        simp only [Bool.and_true]
    | false =>
        have all : criteria.predicates[column]?.filter (fun predicate =>
            !(predicate.isIndexable && (chosen column && false))) =
              criteria.predicates[column]? := by
          simp only [Bool.and_false, Bool.not_false]
          cases criteria.predicates[column]? <;> rfl
        rw [all, ← splits.together]
        split
        · rfl
        · next fresh =>
            have absent : column ∉ plan.lookups := by simpa [isNow] using fresh
            rw [Std.ExtTreeMap.getElem?_eq_none absent]
            rfl

/-- The equalities that are looked up, in the order of their columns. -/
theorem Splits.toList_lookups (splits : plan.Splits criteria chosen) :
    plan.lookups.toList =
      (criteria.toList.filter fun entry => entry.2.isIndexable && chosen entry.1).filterMap
        fun entry => entry.2.literal?.map (entry.1, ·) := by
  have same : plan.lookups = criteria.predicates.filterMap fun column predicate =>
      if predicate.isIndexable && chosen column then predicate.literal? else none := by
    apply Std.ExtTreeMap.ext_getElem?
    intro column
    rw [splits.lookups, Std.ExtTreeMap.getElem?_filterMap']
    cases chosen column with
    | true =>
        simp only [Bool.and_true]
        rfl
    | false =>
        rw [if_neg Bool.false_ne_true]
        cases criteria.predicates[column]? with
        | none => rfl
        | some predicate => rw [Option.bind_some, Bool.and_false, if_neg Bool.false_ne_true]
  rw [same, Std.ExtTreeMap.toList_filterMap, ← Criteria.toList, List.filterMap_filter]
  refine List.filterMap_congr fun entry _ => ?_
  split <;> rfl

/-- The predicates that are evaluated, in the order of their columns. -/
theorem Splits.toList_criteria (splits : plan.Splits criteria chosen) :
    plan.criteria.toList = criteria.toList.filter fun entry =>
      !(entry.2.isIndexable && chosen entry.1) := by
  have same : plan.criteria.predicates = criteria.predicates.filter fun column predicate =>
      !(predicate.isIndexable && chosen column) := by
    apply Std.ExtTreeMap.ext_getElem?
    intro column
    rw [splits.evaluated, Std.ExtTreeMap.getElem?_filter']
  rw [Criteria.toList, same, Std.ExtTreeMap.toList_filter]
  rfl

section

variable {table : Table} {store : Store} (quiet : store.failingProbes = [])

include quiet

/-- The columns of a list that are found to have no index. -/
theorem run_unindexed (columns : List String) :
    ∃ journal, (unindexed table columns).run store =
      (columns.filter fun column => !table.indexed store column, { store with journal }) := by
  induction columns generalizing store with
  | nil => exact ⟨store.journal, rfl⟩
  | cons column rest ih =>
      obtain ⟨reported, probed⟩ := Table.run_hasIndex_eq quiet table column
      obtain ⟨journal, others⟩ := @ih { store with journal := reported } quiet
      have same : table.indexed { store with journal := reported } = table.indexed store :=
        funext (Table.indexed_journal quiet table reported)
      rw [same] at others
      refine ⟨journal, ?_⟩
      rw [unindexed, StateT.run_bind, probed]
      change ((unindexed table rest >>= fun others =>
        pure (if table.indexed store column then others else column :: others)) :
          StateM Store _).run { store with journal := reported } = _
      rw [StateT.run_bind, others]
      cases isIndexed : table.indexed store column with
      | true => rw [List.filter_cons_of_neg (by simp [isIndexed])]; rfl
      | false => rw [List.filter_cons_of_pos (by simp [isIndexed])]; rfl

/-- The plan that runs falls back on the columns that are found to have no index. -/
theorem run_resolve (plan : Plan) :
    ∃ journal, (plan.resolve table).run store =
      ((plan.lookups.keys.filter fun column => !table.indexed store column).foldl fallBack plan,
        { store with journal }) := by
  obtain ⟨found, stale⟩ := @run_unindexed table store quiet plan.lookups.keys
  rw [resolve, StateT.run_bind, stale]
  generalize plan.lookups.keys.filter _ = columns
  have reported : ∀ (columns : List String) (journal : List Event), ∃ after,
      (columns.forM fun column => Store.report (.scanningInstead table.name column)).run
        { store with journal } = ((), { store with journal := after }) := by
    intro columns
    induction columns with
    | nil => exact fun journal => ⟨journal, rfl⟩
    | cons column rest ih => exact fun journal => ih _
  obtain ⟨journal, reports⟩ := reported columns found
  refine ⟨journal, ?_⟩
  change ((columns.forM fun column => Store.report (.scanningInstead table.name column)) >>=
    fun _ => pure (columns.foldl fallBack plan) : StateM Store _).run
      { store with journal := found }
      = _
  rw [StateT.run_bind, reports]
  rfl

end

end Plan

namespace Query

variable {table : Table} {store : Store}

/-- Routing criteria splits them by the indexes that are found. -/
theorem run_route (quiet : store.failingProbes = []) {entries : List (String × Predicate)}
    {plan : Plan} {criteria : Criteria} (splits : plan.Splits criteria (table.indexed store))
    (distinct : (entries.map Prod.fst).Nodup)
    (fresh : ∀ entry ∈ entries, criteria.predicates[entry.1]? = none) :
    ((route table entries plan).run store).1.Splits
      (entries.foldl (fun criteria entry => criteria.insert entry.1 entry.2) criteria)
      (table.indexed store) := by
  induction entries generalizing plan criteria store with
  | nil => exact splits
  | cons entry rest ih =>
      obtain ⟨column, predicate⟩ := entry
      rw [List.map_cons, List.nodup_cons] at distinct
      have own : criteria.predicates[column]? = none := fresh (column, predicate) List.mem_cons_self
      have others : ∀ entry ∈ rest,
          (criteria.insert column predicate).predicates[entry.1]? = none := by
        intro entry member
        have apart : column ≠ entry.1 := fun same =>
          distinct.1 (List.mem_map.mpr ⟨entry, member, same.symm⟩)
        rw [Criteria.getElem?_insert, if_neg apart]
        exact fresh entry (List.mem_cons_of_mem _ member)
      have scanned (unanswered : (predicate.isIndexable && table.indexed store column) = false) :=
        ih quiet (splits.insert_criteria own unanswered) distinct.2 others
      rw [route, List.foldl_cons]
      cases predicate with
      | custom test => exact scanned rfl
      | literal value =>
          dsimp only [Predicate.literal?]
          cases scalar : (Predicate.literal value).isIndexable with
          | false => exact scanned (by rw [scalar, Bool.false_and])
          | true =>
              obtain ⟨journal, probed⟩ := Table.run_hasIndex_eq quiet table column
              -- the probe leaves at most a report, so it finds the same indexes as those after it
              have same : table.indexed { store with journal } = table.indexed store :=
                funext (Table.indexed_journal quiet table journal)
              have continued (next : Plan)
                  (splits : next.Splits (criteria.insert column (.literal value))
                    (table.indexed store)) :
                  ((route table rest next).run { store with journal }).1.Splits
                    (rest.foldl (fun criteria entry => criteria.insert entry.1 entry.2)
                      (criteria.insert column (.literal value))) (table.indexed store) := by
                rw [← same] at splits ⊢
                exact @ih { store with journal } quiet next _ splits distinct.2 others
              rw [if_pos rfl, StateT.run_bind, probed]
              cases isIndexed : table.indexed store column with
              | true => exact continued _ (splits.insert_lookup own scalar isIndexed)
              | false =>
                  exact continued _ (splits.insert_criteria own (by rw [isIndexed, Bool.and_false]))

/-- A call that configures a query. A filter looks for indexes, so it is made on a store, on which
no single probe is ordered to fail. -/
inductive Setting where
  | filter (store : Store) (quiet : store.failingProbes = []) (criteria : Criteria)
  | select (columns : List String)
  | limit (bound : UInt64)
  | join (foreign : Query) (accepts : Row → Row → Bool)

namespace Setting

/-- Configure a query. -/
def apply (query : Query) : Setting → Query
  | .filter store _ criteria => ((query.filter criteria).run store).1
  | .select columns => query.select columns
  | .limit bound => query.limit bound
  | .join foreign accepts => .join foreign accepts query

/-- The store and the criteria of a filter. -/
def filter? : Setting → Option (Store × Criteria)
  | .filter store _ criteria => some (store, criteria)
  | .select _ | .limit _ | .join _ _ => none

end Setting

/-- The query for a table that calls configure one after another. -/
def configured (table : Table) (settings : List Setting) : Query :=
  settings.foldl Setting.apply (all table)

/-- The last filter among calls, if there is one. -/
def lastFilter? (settings : List Setting) : Option (Store × Criteria) :=
  (settings.filterMap Setting.filter?).getLast?

/-- The criteria of the last filter among calls; without one, every row meets them. -/
def lastCriteria (settings : List Setting) : Criteria :=
  ((lastFilter? settings).map Prod.snd).getD .empty

/-- Whether a column was found to have an index when the last filter among calls was made. -/
def indexedThen (table : Table) (settings : List Setting) (column : String) : Bool :=
  (lastFilter? settings).any fun filter => table.indexed filter.1 column

/-- A filter replaces all filters before it, and other calls replace none. -/
theorem lastFilter?_concat (settings : List Setting) (setting : Setting) :
    lastFilter? (settings ++ [setting]) = setting.filter?.or (lastFilter? settings) := by
  rw [lastFilter?, List.filterMap_append, List.getLast?_append, ← lastFilter?]
  cases setting <;> rfl

/-- A call that is no filter leaves what is looked up and what is evaluated. -/
theorem Setting.apply_of_not_filter {setting : Setting} (other : setting.filter? = none)
    (query : Query) : (setting.apply query).table = query.table ∧
      (setting.apply query).plan.lookups = query.plan.lookups ∧
      (setting.apply query).plan.criteria = query.plan.criteria := by
  obtain ⟨table, plan, joins⟩ := query
  cases setting with
  | filter store quiet criteria => cases other
  | select columns => exact ⟨rfl, rfl, rfl⟩
  | limit bound => exact ⟨rfl, rfl, rfl⟩
  | join foreign accepts => exact ⟨rfl, rfl, rfl⟩

/-- A filter splits its criteria by the indexes that it finds. -/
theorem splits_filter {store : Store} (quiet : store.failingProbes = []) (criteria : Criteria)
    (query : Query) :
    ((query.filter criteria).run store).1.table = query.table ∧
      ((query.filter criteria).run store).1.plan.Splits criteria (query.table.indexed store) := by
  obtain ⟨table, plan, joins⟩ := query
  refine ⟨rfl, ?_⟩
  have cleared : ({ plan with criteria := .empty, lookups := ∅ } : Plan).Splits .empty
      (table.indexed store) := by
    constructor
    · intro column
      rw [Criteria.getElem?_empty, Option.bind_none, ite_self]
      exact Std.ExtTreeMap.getElem?_empty
    · intro column
      rw [Criteria.getElem?_empty, Option.filter_none]
  have distinct : (criteria.toList.map Prod.fst).Nodup := by
    rw [Criteria.toList, Std.ExtTreeMap.map_fst_toList_eq_keys]
    exact Std.ExtTreeMap.nodup_keys
  have routed := run_route quiet cleared distinct fun _ _ => Criteria.getElem?_empty _
  rw [Criteria.foldl_insert_toList] at routed
  exact routed

/-- A query stays on its table, and its plan splits the criteria of the last filter by the indexes
that this filter found. -/
theorem splits_configured (table : Table) (settings : List Setting) :
    (configured table settings).table = table ∧
      (configured table settings).plan.Splits (lastCriteria settings)
        (indexedThen table settings) := by
  induction settings using List.reverseRecOn with
  | nil =>
      exact ⟨rfl, fun _ => Std.ExtTreeMap.getElem?_empty, fun _ => Std.ExtTreeMap.getElem?_empty⟩
  | append_singleton settings setting ih =>
      have next : configured table (settings ++ [setting]) =
          setting.apply (configured table settings) := by
        rw [configured, List.foldl_append]
        rfl
      rw [next]
      generalize configured table settings = query at ih
      obtain ⟨onTable, splits⟩ := ih
      cases isFilter : setting.filter? with
      | none =>
          have last : lastFilter? (settings ++ [setting]) = lastFilter? settings := by
            rw [lastFilter?_concat, isFilter, Option.none_or]
          obtain ⟨sameTable, sameLookups, sameCriteria⟩ :=
            Setting.apply_of_not_filter isFilter query
          have found : indexedThen table (settings ++ [setting]) = indexedThen table settings := by
            funext column
            rw [indexedThen, last, ← indexedThen]
          rw [lastCriteria, last, ← lastCriteria, found]
          refine ⟨sameTable.trans onTable, ?_, ?_⟩
          · rw [sameLookups]
            exact splits.lookups
          · rw [sameCriteria]
            exact splits.evaluated
      | some filter =>
          obtain ⟨store, criteria⟩ := filter
          have last : lastFilter? (settings ++ [setting]) = some (store, criteria) := by
            rw [lastFilter?_concat, isFilter, Option.some_or]
          have found : indexedThen table (settings ++ [setting]) = table.indexed store := by
            funext column
            rw [indexedThen, last, Option.any_some]
          rw [lastCriteria, last, found]
          cases setting with
          | filter _ quiet _ =>
              cases isFilter
              have split := splits_filter quiet criteria query
              rw [onTable] at split
              exact split
          | select _ | limit _ | join _ _ => cases isFilter

end Query

end TableStore
