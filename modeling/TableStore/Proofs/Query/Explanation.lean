/-
# What an explanation tells

An explanation of a query names the equalities that are looked up in indexes and the predicates that
are evaluated row by row. Asking for the rows of the query on the same store takes as candidates the
rows that all these lookups find, and evaluates these predicates on them.
-/

import Mathlib.Data.List.TakeWhile
import TableStore.Proofs.Query.Limit
import TableStore.Proofs.Query.Lookup
import TableStore.Proofs.Query.Splitting
import TableStore.Query.Explain

namespace TableStore

/-- The text of the predicate of a column. -/
def Predicate.describe (entry : String × Predicate) : String :=
  entry.1 ++ " " ++ entry.2.toText

/-- The lookup in an index that answers the predicate of a column, if it is an equality. -/
def Predicate.lookup? (entry : String × Predicate) : Option (String × Json) :=
  entry.2.literal?.map (entry.1, ·)

namespace Plan.Splits

variable {plan : Plan} {criteria : Criteria} {chosen : String → Bool}
  (splits : plan.Splits criteria chosen)

include splits

/-- The lookups are described as the equalities that they answer. -/
theorem lookupTexts_eq :
    plan.lookupTexts =
      (criteria.toList.filter fun entry => entry.2.isIndexable && chosen entry.1).map
        Predicate.describe := by
  rw [lookupTexts, splits.toList_lookups, List.map_filterMap, ← List.filterMap_eq_map]
  refine List.filterMap_congr fun entry member => ?_
  obtain ⟨column, predicate⟩ := entry
  cases predicate with
  | literal value =>
      have spaced : " = " = " " ++ "= " := rfl
      simp only [Predicate.literal?, Option.map_some, Function.comp_apply, Predicate.describe,
        Predicate.toText, spaced, String.append_assoc]
  | custom test => exact absurd (List.mem_filter.mp member).2 Bool.false_ne_true

/-- The predicates that are evaluated are described as such. -/
theorem filterTexts_eq :
    plan.filterTexts =
      (criteria.toList.filter fun entry => !(entry.2.isIndexable && chosen entry.1)).map
        Predicate.describe := by
  rw [filterTexts, splits.toList_criteria]
  rfl

end Plan.Splits

/-- Listing the rows answers the same, whatever was reported before. -/
theorem Table.run_rowIds_journal (table : Table) (store : Store) (journal : List Event) :
    (table.rowIds.run.run { store with journal }).1 = (table.rowIds.run.run store).1 := by
  obtain ⟨_, before⟩ := table.run_rowIds store
  obtain ⟨_, after⟩ := table.run_rowIds { store with journal }
  rw [before, after]
  rfl

/-- Plans with one limit leave room for the same rows. -/
theorem Plan.room_congr {α : Type} {first second : Plan} (limits : first.limit = second.limit)
    (found : Nat) (rows : List α) : first.room found rows = second.room found rows := by
  rw [room, room, limits]

namespace Query

/-- Fetching the rows of joined queries fails only as one of them does. -/
theorem join_of_fetchAll_error {joins : List Join} {store : Store} {error : QueryError}
    (failed : ((fetchAll joins).run.run store).1 = .error error) :
    ∃ name cause, error = .join name cause := by
  induction joins generalizing store with
  | nil => cases failed
  | cons join rest ih =>
      obtain ⟨foreign, accepts⟩ := join
      rw [fetchAll, Store.run_bind, QueryM.onJoined, Store.run_adapt] at failed
      rcases fetched : foreign.get.run.run store with ⟨cause | rows, after⟩
      · rw [fetched] at failed
        cases failed
        exact ⟨foreign.table.name, cause, rfl⟩
      · rw [fetched] at failed
        change ((fetchAll rest >>= fun others => pure (rows :: others) : QueryM _).run.run
          after).1 = _ at failed
        rw [Store.run_return] at failed
        cases others : ((fetchAll rest).run.run after).1 with
        | error cause =>
            rw [others] at failed
            cases failed
            exact ih others
        | ok lists =>
            rw [others] at failed
            cases failed

/-- What a query looks at after its plan was resolved: the candidates, and the rows of the queries
that it joins with. -/
def look (query : Query) (resolved : Plan) : QueryM (Plan × List RowId × List (List Row)) := do
  let ids ← QueryM.onTable (resolved.startingIds query.table)
  let fetched ← fetchAll query.joins
  return (resolved, ids, fetched)

/-- The plan of a query as it runs on a store: it falls back on the columns that are found to have
no index. -/
def resolved (query : Query) (store : Store) : Plan :=
  (query.plan.lookups.keys.filter fun column => !query.table.indexed store column).foldl
    Plan.fallBack query.plan

variable {query : Query} {store : Store}

/-- Resolving the plan of a query comes first. -/
theorem run_prepare (quiet : store.failingProbes = []) (query : Query) :
    ∃ journal, query.prepare.run.run store =
      (query.look (query.resolved store)).run.run { store with journal } := by
  obtain ⟨journal, resolves⟩ := @Plan.run_resolve query.table store quiet query.plan
  refine ⟨journal, ?_⟩
  have resolved : (liftM (query.plan.resolve query.table) : QueryM Plan).run.run store =
      (.ok ((query.plan.resolve query.table).run store).1,
        ((query.plan.resolve query.table).run store).2) := rfl
  rw [resolves] at resolved
  exact Store.run_bind_of_ok resolved query.look

/-- A look searches for candidates, and then fetches the rows of the joined queries. -/
theorem run_look (query : Query) (resolved : Plan) (store : Store) :
    (query.look resolved).run.run store =
      match (resolved.startingIds query.table).run.run store with
      | (.error cause, after) => (.error (.table cause), after)
      | (.ok ids, after) =>
          (((fetchAll query.joins).run.run after).1.map fun fetched => (resolved, ids, fetched),
            ((fetchAll query.joins).run.run after).2) := by
  rw [look, Store.run_bind, QueryM.onTable, Store.run_adapt]
  rcases (resolved.startingIds query.table).run.run store with ⟨cause | ids, after⟩
  · rfl
  · exact Store.run_return _ _ _

/-- A look fails as the search for candidates does or as a joined query does, or it answers the
candidates of the plan that was looked at. -/
theorem look_cases (query : Query) (resolved : Plan) (store : Store) :
    (∃ cause, ((resolved.startingIds query.table).run.run store).1 = .error cause ∧
      ((query.look resolved).run.run store).1 = .error (.table cause)) ∨
    (∃ name cause, ((query.look resolved).run.run store).1 = .error (.join name cause)) ∨
    ∃ ids fetched, ((resolved.startingIds query.table).run.run store).1 = .ok ids ∧
      ((query.look resolved).run.run store).1 = .ok (resolved, ids, fetched) := by
  rw [run_look]
  rcases (resolved.startingIds query.table).run.run store with ⟨cause | ids, after⟩
  · exact .inl ⟨cause, rfl, rfl⟩
  · right
    dsimp only
    cases others : ((fetchAll query.joins).run.run after).1 with
    | error error =>
        obtain ⟨name, cause, rfl⟩ := join_of_fetchAll_error others
        exact .inl ⟨name, cause, rfl⟩
    | ok fetched => exact .inr ⟨ids, fetched, rfl, rfl⟩

/-- Rows that are all there are visited without a failure, and those that meet the criteria are
shown. -/
theorem get_of_seen {plan : Plan} {ids : List RowId} {fetched : List (List Row)}
    (prepared : (query.prepare.run.run store).1 = .ok (plan, ids, fetched)) {rows : RowId → Row}
    (seen : ∀ id ∈ ids, query.table.seen store id = .ok (some (rows id))) :
    (query.get.run.run store).1 = .ok (Join.applyAll query.joins fetched
      ((plan.room 0 ((ids.map rows).filter plan.criteria.accept)).map query.plan.project)) := by
  have flawless : ∀ id ∈ ids, plan.flaw? (query.table.seen store) id = none := by
    intro id member
    rw [Plan.flaw?, seen id member]
  have sound : plan.sound (query.table.seen store) ids =
      ids.filter fun id => plan.criteria.accept (rows id) := by
    have all : ids.takeWhile (fun id => (plan.flaw? (query.table.seen store) id).isNone) = ids := by
      rw [List.takeWhile_eq_self_iff]
      intro id member
      rw [flawless id member]
      rfl
    rw [Plan.sound, all]
    refine List.filter_congr fun id member => ?_
    rw [Plan.accepts, seen id member]
  have found : (plan.sound (query.table.seen store) ids).map (query.table.seen store) =
      ((ids.map rows).filter plan.criteria.accept).map fun row => .ok (some row) := by
    rw [sound, List.filter_map, List.map_map]
    exact List.map_congr_left fun id member => seen id (List.mem_of_mem_filter member)
  have unending : plan.ending? (query.table.seen store) 0 ids = none := by
    rw [Plan.ending?, List.findSome?_eq_none_iff.mpr flawless, ite_self]
  rw [run_get prepared found, unending]

/-- Whether asking for the rows of a query on a store takes as candidates the rows that all lookups
find, or all rows if there is no lookup, and shows those that meet all filters. -/
structure RunsBy (query : Query) (store : Store) (lookups : List (String × Json))
    (filters : List (String × Predicate)) : Prop where
  /-- Whatever comes of it, only the prepared candidates are visited. -/
  looks : query.get = query.prepare >>= query.finish fun _ row => return query.plan.project row
  /-- If the rows can be listed or all indexes be read, nothing but a joined query fails before. -/
  fails : (lookups = [] → ∃ ids, (query.table.rowIds.run.run store).1 = .ok ids) →
    (∀ lookup ∈ lookups, query.table.Loads store lookup.1) →
      ∀ error, (query.prepare.run.run store).1 = .error error →
        ∃ name cause, error = .join name cause
  scans : lookups = [] → ∀ plan ids fetched,
    (query.prepare.run.run store).1 = .ok (plan, ids, fetched) →
      (query.table.rowIds.run.run store).1 = .ok ids
  intersects : lookups ≠ [] → ∀ plan ids fetched,
    (query.prepare.run.run store).1 = .ok (plan, ids, fetched) →
      Table.Ascending ids ∧
        ∀ id, id ∈ ids ↔ ∀ lookup ∈ lookups, query.table.Finds store lookup id
  evaluates : ∀ plan ids fetched, (query.prepare.run.run store).1 = .ok (plan, ids, fetched) →
    plan.criteria.toList = filters
  shows : ∀ plan ids fetched, (query.prepare.run.run store).1 = .ok (plan, ids, fetched) →
    ∀ rows : RowId → Row, (∀ id ∈ ids, query.table.seen store id = .ok (some (rows id))) →
      (query.get.run.run store).1 = .ok (Join.applyAll query.joins fetched
        ((query.plan.room 0 ((ids.map rows).filter fun row =>
          filters.all fun filter => filter.2.accepts (row.value filter.1))).map
            query.plan.project))

/-- A query runs by the lookups and the filters of its resolved plan. -/
theorem runsBy_resolved (quiet : store.failingProbes = []) (query : Query) :
    query.RunsBy store (query.resolved store).lookups.toList
      (query.resolved store).criteria.toList := by
  obtain ⟨journal, prepares⟩ := run_prepare quiet query
  have found : ∀ plan ids fetched, (query.prepare.run.run store).1 = .ok (plan, ids, fetched) →
      plan = query.resolved store ∧
        (((query.resolved store).startingIds query.table).run.run { store with journal }).1 =
          .ok ids := by
    intro plan ids fetched prepared
    rw [prepares] at prepared
    rcases query.look_cases (query.resolved store) { store with journal } with
      ⟨cause, -, failed⟩ | ⟨name, cause, failed⟩ | ⟨candidates, others, searched, looked⟩
    · rw [failed] at prepared
      cases prepared
    · rw [failed] at prepared
      cases prepared
    · rw [looked] at prepared
      cases prepared
      exact ⟨rfl, searched⟩
  refine ⟨(query.inOrder_get store).looks, ?_, ?_, ?_, ?_, ?_⟩
  · intro lists loads error failed
    rw [prepares] at failed
    rcases query.look_cases (query.resolved store) { store with journal } with
      ⟨cause, unfound, -⟩ | ⟨name, cause, joined⟩ | ⟨candidates, others, -, looked⟩
    rotate_left
    · rw [joined] at failed
      cases failed
      exact ⟨name, cause, rfl⟩
    · rw [looked] at failed
      cases failed
    by_cases none : (query.resolved store).lookups.toList = []
    · obtain ⟨ids, listed⟩ := lists none
      rw [Plan.startingIds_of_nil none, Table.run_rowIds_journal, listed] at unfound
      cases unfound
    · obtain ⟨ids, answered⟩ :=
        (Plan.narrows_startingIds query.table { store with journal } none).answers loads
      rw [answered] at unfound
      cases unfound
  · intro none plan ids fetched prepared
    obtain ⟨-, listed⟩ := found plan ids fetched prepared
    rwa [Plan.startingIds_of_nil none, Table.run_rowIds_journal] at listed
  · intro some plan ids fetched prepared
    obtain ⟨-, answered⟩ := found plan ids fetched prepared
    have narrows := Plan.narrows_startingIds query.table { store with journal } some
    refine ⟨narrows.ascending ids answered, fun id => ?_⟩
    rw [narrows.found ids answered id, true_and]
    rfl
  · intro plan ids fetched prepared
    rw [(found plan ids fetched prepared).1]
  · intro plan ids fetched prepared rows seen
    have same := (found plan ids fetched prepared).1
    have limits : plan.limit = query.plan.limit := by rw [same, resolved, Plan.limit_foldl_fallBack]
    rw [get_of_seen prepared seen, Plan.room_congr limits, same]
    rfl

/-- An explanation is that of the resolved plan. -/
theorem run_explain (quiet : store.failingProbes = []) (query : Query) :
    let explanation := (query.explain.run store).1
    explanation.lookups = (query.resolved store).lookupTexts ∧
      explanation.filters = (query.resolved store).filterTexts ∧
      explanation.usesIndex = (query.resolved store).usesIndex := by
  intro explanation
  obtain ⟨journal, resolves⟩ := @Plan.run_resolve query.table store quiet query.plan
  have explains : explanation = (query.explain.run store).1 := rfl
  rw [explain, StateT.run_bind, resolves] at explains
  rw [explains]
  exact ⟨rfl, rfl, rfl⟩

/-- Whether an index answers the predicate of a column: it is the equality with a scalar, and its
column was found to have an index when the last filter was made, and is found to have one now. -/
def answered (table : Table) (settings : List Setting) (now : Store)
    (entry : String × Predicate) : Bool :=
  entry.2.isIndexable && (indexedThen table settings entry.1 && table.indexed now entry.1)

end Query

/-- Whether an explanation names equalities as looked up and predicates as evaluated, each column
once and in ascending order. -/
structure Explanation.Names (explanation : Explanation)
    (lookedUp evaluated : List (String × Predicate)) : Prop where
  lookups : explanation.lookups = lookedUp.map Predicate.describe
  filters : explanation.filters = evaluated.map Predicate.describe
  once : ((lookedUp ++ evaluated).map Prod.fst).Nodup
  lookupsAscend : (lookedUp.map Prod.fst).Pairwise (· < ·)
  filtersAscend : (evaluated.map Prod.fst).Pairwise (· < ·)
  scan : explanation.scanName = "INDEX_LOOKUP" ↔ explanation.lookups ≠ []

/-- The columns of criteria are listed in ascending order. -/
theorem Criteria.pairwise_toList (criteria : Criteria) :
    criteria.toList.Pairwise fun first second => first.1 < second.1 := by
  apply Std.ExtTreeMap.ordered_keys_toList.imp
  intro first second less
  exact compareOfLessAndEq_eq_lt.mp less

/-- What is chosen of criteria and what is left are together their columns, each once. -/
theorem Criteria.nodup_filter_append (criteria : Criteria) (chosen : String × Predicate → Bool) :
    ((criteria.toList.filter chosen ++ criteria.toList.filter fun entry => !chosen entry).map
      Prod.fst).Nodup := by
  have parts : (criteria.toList.filter chosen ++
      criteria.toList.filter fun entry => !chosen entry).Perm criteria.toList :=
    List.filter_append_perm chosen criteria.toList
  rw [(parts.map Prod.fst).nodup_iff, toList, Std.ExtTreeMap.map_fst_toList_eq_keys]
  exact Std.ExtTreeMap.nodup_keys

/-- The name of the way in which candidates are found tells whether an index is used. -/
theorem Explanation.scanName_eq_iff (explanation : Explanation) :
    explanation.scanName = "INDEX_LOOKUP" ↔ explanation.usesIndex = true := by
  rw [scanName]
  cases explanation.usesIndex with
  | true => exact iff_of_true rfl rfl
  | false => exact iff_of_false (by decide) Bool.false_ne_true

/-- A plan uses an index exactly if it looks something up. -/
theorem Plan.usesIndex_iff (plan : Plan) : plan.usesIndex = true ↔ plan.lookupTexts ≠ [] := by
  rw [usesIndex, lookupTexts, Bool.not_eq_true', Ne, List.map_eq_nil_iff,
    ← Bool.not_eq_true, Std.ExtTreeMap.isEmpty_iff, Std.ExtTreeMap.toList_eq_nil_iff]

namespace Query

/-- An explanation tells what would run. Whatever calls have configured a query, each on a store of
its own, it names the equalities with scalars of the last filter whose columns were found to have
an index at the time of this filter and are found to have one now, and next to them all other
predicates of this filter. Asking for the rows on the same store takes the rows that these lookups
find, and evaluates these predicates. -/
theorem explain_names_run (table : Table) (settings : List Setting) {now : Store}
    (quiet : now.failingProbes = []) :
    let query := configured table settings
    let lookedUp := (lastCriteria settings).toList.filter (answered table settings now)
    let evaluated := (lastCriteria settings).toList.filter fun entry =>
      !answered table settings now entry
    (query.explain.run now).1.Names lookedUp evaluated ∧
      query.RunsBy now (lookedUp.filterMap Predicate.lookup?) evaluated := by
  intro query lookedUp evaluated
  obtain ⟨onTable, splitsThen⟩ := splits_configured table settings
  have splits : (query.resolved now).Splits (lastCriteria settings) fun column =>
      indexedThen table settings column && table.indexed now column := by
    rw [resolved, onTable]
    exact splitsThen.foldl_fallBack (table.indexed now)
  obtain ⟨lookups, filters, uses⟩ := run_explain quiet query
  have runs := runsBy_resolved quiet query
  rw [splits.toList_lookups, splits.toList_criteria] at runs
  refine ⟨⟨lookups.trans splits.lookupTexts_eq, filters.trans splits.filterTexts_eq,
    Criteria.nodup_filter_append _ _, ?_, ?_, ?_⟩, runs⟩
  · exact List.pairwise_map.mpr ((Criteria.pairwise_toList _).filter _)
  · exact List.pairwise_map.mpr ((Criteria.pairwise_toList _).filter _)
  · rw [Explanation.scanName_eq_iff, uses, Plan.usesIndex_iff, lookups]

/-- People with empty indexes on some columns. -/
def peopleIndexedBy (columns : List String) : Store :=
  .ofFiles <| .memory <| columns.foldl
    (fun files column => files.write ("people/indexes/" ++ column ++ ".json")
      (IndexTable.empty column).toBytes) MemoryFiles.empty

/-- Calls that ask for the Adas of age one, where the ages, the names and more have an index. Only
the second filter counts, and one of its columns cannot have an index at all. -/
def adasOfAgeOne : List Setting :=
  [.filter (peopleIndexedBy ["age"]) rfl (.ofList [("age", .literal (.number (.ofUInt64 2)))]),
    .limit 2,
    .filter (peopleIndexedBy ["address", "age", "kind", "name"]) rfl
      (.ofList [("a/b", .literal .null), ("address", .literal (.array [])),
        ("age", .literal (.number (.ofUInt64 1))), ("kind", .custom fun _ => true),
        ("name", .literal (.string "Ada"))]),
    .select ["name"], .join (all ⟨"people", .default⟩) fun _ _ => true]

/-- After the index on the names was removed, the Adas of age one are looked up by their age only,
and everything else is evaluated. -/
theorem explain_names_run_adas :
    let people : Table := ⟨"people", .default⟩
    let now := peopleIndexedBy ["address", "age", "kind"]
    let query := configured people adasOfAgeOne
    let lookedUp := (lastCriteria adasOfAgeOne).toList.filter (answered people adasOfAgeOne now)
    let evaluated := (lastCriteria adasOfAgeOne).toList.filter fun entry =>
      !answered people adasOfAgeOne now entry
    lookedUp.map Predicate.describe = ["age = 1"] ∧
      evaluated.map Predicate.describe =
        ["a/b = null", "address = []", "kind matches <fn>", "name = \"Ada\""] ∧
      (query.explain.run now).1.Names lookedUp evaluated ∧
      query.RunsBy now (lookedUp.filterMap Predicate.lookup?) evaluated :=
  ⟨by decide +kernel, by decide +kernel,
    @explain_names_run ⟨"people", .default⟩ adasOfAgeOne
      (peopleIndexedBy ["address", "age", "kind"]) rfl⟩

end Query

end TableStore
