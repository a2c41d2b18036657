/-
# Candidates of a plan

Which equalities an index answers depends on the indexes that are found when a query is built and
again when it runs, and a probe for one may fail. Whatever is found, the plan that runs asks for
the same rows, and its candidates are the rows that meet the equalities it looks up.
-/

import TableStore.Proofs.Query.Plan
import TableStore.Proofs.Table.Verify
import TableStore.Query.Basic

namespace TableStore

open Ledger

namespace Ledger

/-- The rows that meet the equalities which a plan looks up. -/
def candidates (ledger : Ledger) (plan : Plan) : List (RowId × StoredRow) :=
  ledger.rows.toList.filter fun entry =>
    plan.lookups.toList.all fun lookup => (entry.2.row.value lookup.1).same lookup.2

/-- A row that is listed with its identifier is the one under it. -/
theorem row?_of_mem_toList {ledger : Ledger} {entry : RowId × StoredRow}
    (listed : entry ∈ ledger.rows.toList) : ledger.row? entry.1 = some entry.2.row := by
  rw [row?, Std.ExtTreeMap.mem_toList_iff_getElem?_eq_some.mp listed]
  rfl

end Ledger

/-- The rows under a key are listed in ascending order. -/
theorem IndexTable.ascending_lookup (index : IndexTable) (key : IndexKey) :
    Table.Ascending (index.lookup key) :=
  index.pairwise_lookup key

namespace Ledger

/-- A lookup in the index on a column finds the rows whose value is the one looked for. -/
theorem lookupValue_index (ledger : Ledger) (column : String) {value : Json}
    (scalar : value.isScalar = true) :
    (ledger.index column).lookupValue value =
      (ledger.rows.toList.filter fun entry => (entry.2.row.value column).same value).map
        Prod.fst := by
  obtain ⟨key, keyed⟩ := IndexKey.exists_ofJson?_eq scalar
  rw [IndexTable.lookupValue, keyed]
  refine (IndexTable.ascending_lookup _ key).eq_of_mem_iff ?_ fun id => ?_
  · rw [Table.Ascending, List.pairwise_map, List.pairwise_filter]
    apply ledger.rows.ordered_keys_toList.imp
    intro first second less _ _
    exact compareOfLessAndEq_eq_lt.mp less
  rw [IndexTable.mem_lookup_iff, contains_index, Row.key?, Option.map_eq_some_iff, List.mem_map]
  constructor
  · rintro ⟨row, found, same⟩
    obtain ⟨stored, present, rfl⟩ := Option.map_eq_some_iff.mp found
    refine ⟨(id, stored), ?_, rfl⟩
    rw [List.mem_filter]
    refine ⟨Std.ExtTreeMap.mem_toList_iff_getElem?_eq_some.mpr present, ?_⟩
    rw [← IndexKey.ofJson?_eq_iff (stored.scalar.isScalar_value column), keyed, ← same]
    exact stored.scalar.ofJson?_value column
  · rintro ⟨⟨_, stored⟩, listed, rfl⟩
    rw [List.mem_filter] at listed
    refine ⟨stored.row, row?_of_mem_toList listed.1, ?_⟩
    have equal := (IndexKey.ofJson?_eq_iff (stored.scalar.isScalar_value column) value).mpr listed.2
    rw [keyed, stored.scalar.ofJson?_value] at equal
    exact Option.some.inj equal

/-- A listed row is found by a lookup if its value is the one looked for. -/
theorem contains_lookupValue {ledger : Ledger} {entry : RowId × StoredRow}
    (listed : entry ∈ ledger.rows.toList) (column : String) {value : Json}
    (scalar : value.isScalar = true) :
    ((ledger.index column).lookupValue value).contains entry.1 =
      (entry.2.row.value column).same value := by
  rw [lookupValue_index ledger column scalar, Bool.eq_iff_iff, List.contains_iff_mem,
    List.mem_map]
  constructor
  · rintro ⟨other, found, same⟩
    rw [List.mem_filter] at found
    have stored := Std.ExtTreeMap.mem_toList_iff_getElem?_eq_some.mp found.1
    rw [same, Std.ExtTreeMap.mem_toList_iff_getElem?_eq_some.mp listed] at stored
    rw [Option.some.inj stored]
    exact found.2
  · intro same
    exact ⟨entry, List.mem_filter.mpr ⟨listed, same⟩, rfl⟩

end Ledger

namespace Plan

variable {medium : Medium} {ledgers : String → Ledger} {table : Table}
  (isTable : FileName.isSegment table.name = true)

include isTable

/-- The columns that are not found to have an index are among those asked for, and the others
have one. -/
theorem ensures_unindexed (columns : List String) :
    Ensures medium [] (unindexed table columns) (content ledgers) fun stale left =>
      left = content ledgers ∧
        ∀ column ∈ columns, column ∉ stale → column ∈ (ledgers table.name).columns := by
  induction columns with
  | nil => exact .pure ⟨rfl, fun _ member => absurd member List.not_mem_nil⟩
  | cons column rest ih =>
      refine (Table.ensures_hasIndex isTable column).bind ?_
      rintro indexed _ ⟨rfl, found⟩
      refine ih.bind ?_
      rintro stale _ ⟨rfl, others⟩
      refine .pure ⟨rfl, fun other member fresh => ?_⟩
      cases indexed with
      | true =>
          rcases List.mem_cons.mp member with rfl | listed
          · obtain ⟨isColumn, stored⟩ := found rfl
            rw [content_index] at stored
            split at stored
            · assumption
            · cases stored
          · exact others other listed fresh
      | false =>
          have apart : other ∉ column :: stale := fresh
          rw [List.mem_cons, not_or] at apart
          exact others other ((List.mem_cons.mp member).resolve_left apart.1) apart.2

/-- The plan that runs asks for the same rows and looks up only what has an index. -/
theorem ensures_resolve {plan : Plan} (routed : plan.Routed) :
    Ensures medium [] (plan.resolve table) (content ledgers) fun resolved left =>
      left = content ledgers ∧ resolved.Routed ∧ resolved.scanning = plan.scanning ∧
        ∀ column ∈ resolved.lookups, column ∈ (ledgers table.name).columns := by
  refine (ensures_unindexed isTable plan.lookups.keys).bind ?_
  rintro stale _ ⟨rfl, indexed⟩
  have reported : Ensures medium [] (stale.forM fun column =>
      Store.report (.scanningInstead table.name column)) (content ledgers)
      fun _ left => left = content ledgers := by
    clear indexed
    induction stale with
    | nil => exact .pure rfl
    | cons column rest ih =>
        refine (Ensures.report _).bind ?_
        rintro _ _ rfl
        exact ih
  refine reported.bind ?_
  rintro _ _ rfl
  refine .pure ⟨rfl, routed.foldl_fallBack stale, scanning_foldl_fallBack plan stale, ?_⟩
  intro column member
  rw [Std.ExtTreeMap.mem_iff_isSome_getElem?, lookups_foldl_fallBack] at member
  split at member
  · cases member
  · next fresh =>
      refine indexed column ?_ fresh
      rw [Std.ExtTreeMap.mem_keys]
      exact Std.ExtTreeMap.mem_iff_isSome_getElem?.mpr member

/-- Narrowing keeps the identifiers that all lookups find. That no index is read once none is left
makes no difference to them. -/
theorem runs_narrow {ids : List RowId} {lookups : List (String × Json)}
    (indexed : ∀ lookup ∈ lookups, lookup.1 ∈ (ledgers table.name).columns) :
    Runs medium [] (narrow table ids lookups) (content ledgers)
      (.ok (ids.filter fun id => lookups.all fun lookup =>
        (((ledgers table.name).index lookup.1).lookupValue lookup.2).contains id))
      (content ledgers) := by
  induction lookups generalizing ids with
  | nil =>
      rw [narrow]
      simpa using Runs.pure ids
  | cons lookup rest ih =>
      cases ids with
      | nil => exact .pure []
      | cons id others =>
          rw [narrow]
          · refine Runs.bind
              (Table.runs_readIndex_index isTable (indexed lookup List.mem_cons_self)) ?_
            have narrowed := @ih ((id :: others).filter
              (((ledgers table.name).index lookup.1).lookupValue lookup.2).contains)
                fun other member => indexed other (List.mem_cons_of_mem _ member)
            rw [List.filter_filter] at narrowed
            simpa only [List.all_cons, Bool.and_comm] using narrowed
          · intro impossible
            cases impossible

/-- The candidates of a plan whose lookups all have an index are those of the ledger. -/
theorem runs_startingIds (admits : medium.AdmitsTable table.name) {plan : Plan}
    (routed : plan.Routed)
    (indexed : ∀ column ∈ plan.lookups, column ∈ (ledgers table.name).columns) :
    Runs medium [] (plan.startingIds table) (content ledgers)
      (.ok (((ledgers table.name).candidates plan).map Prod.fst)) (content ledgers) := by
  have scalar : ∀ lookup ∈ plan.lookups.toList, lookup.2.isScalar = true := fun lookup listed =>
    routed.scalar _ _ (Std.ExtTreeMap.mem_toList_iff_getElem?_eq_some.mp listed)
  have present : ∀ lookup ∈ plan.lookups.toList, lookup.1 ∈ (ledgers table.name).columns := by
    intro lookup listed
    apply indexed lookup.1
    rw [Std.ExtTreeMap.mem_iff_isSome_getElem?,
      Std.ExtTreeMap.mem_toList_iff_getElem?_eq_some.mp listed]
    rfl
  rw [startingIds, candidates]
  cases lookups : plan.lookups.toList with
  | nil =>
      have all := @Table.runs_rowIds_keys medium ledgers table isTable admits
      rw [← Std.ExtTreeMap.map_fst_toList_eq_keys] at all
      simpa using all
  | cons lookup rest =>
      rw [lookups] at scalar present
      have first := present lookup List.mem_cons_self
      refine Runs.bind (Table.runs_readIndex_index isTable first) ?_
      have narrowed := @runs_narrow medium ledgers table isTable
        (((ledgers table.name).index lookup.1).lookupValue lookup.2) rest
        fun other member => present other (List.mem_cons_of_mem _ member)
      have same : (((ledgers table.name).index lookup.1).lookupValue lookup.2).filter
            (fun id => rest.all fun lookup =>
              (((ledgers table.name).index lookup.1).lookupValue lookup.2).contains id) =
          ((ledgers table.name).rows.toList.filter fun entry => (lookup :: rest).all fun lookup =>
            (entry.2.row.value lookup.1).same lookup.2).map Prod.fst := by
        rw [lookupValue_index _ _ (scalar lookup List.mem_cons_self), List.filter_map,
          List.filter_filter]
        congr 1
        apply List.filter_congr
        intro entry listed
        rw [List.all_cons, Bool.and_comm]
        congr 1
        rw [Function.comp_apply, Bool.eq_iff_iff, List.all_eq_true, List.all_eq_true]
        refine forall₂_congr fun other member => ?_
        rw [contains_lookupValue listed other.1 (scalar other (List.mem_cons_of_mem _ member))]
      rw [← same]
      exact narrowed

end Plan

end TableStore
