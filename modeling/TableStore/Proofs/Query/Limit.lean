/-
# Limits

A limit cuts the rows of the own table before they are joined, and ends the visits early. So it can
hide the failure of a later candidate but never cause one, and since joins go through the rows in
order, a smaller limit shows the first of what a greater one shows.
-/

import Mathlib.Data.Set.List
import TableStore.Proofs.Query.Failure

namespace TableStore

/-- Merging with the rows that belong to them keeps first rows first. -/
theorem Join.apply_prefix (join : Join) (foreign : List Row) {first rows : List Row}
    (leads : first <+: rows) : join.apply foreign first <+: join.apply foreign rows := by
  obtain ⟨others, rfl⟩ := leads
  exact ⟨join.apply foreign others, List.flatMap_append.symm⟩

/-- Joining keeps first rows first. -/
theorem Join.applyAll_prefix (joins : List Join) (fetched : List (List Row)) {first rows : List Row}
    (leads : first <+: rows) :
    Join.applyAll joins fetched first <+: Join.applyAll joins fetched rows := by
  induction joins generalizing fetched first rows with
  | nil => exact leads
  | cons join rest ih =>
      cases fetched with
      | nil => exact leads
      | cons foreign others => exact ih others (join.apply_prefix foreign leads)

namespace Table

variable {table : Table} {store : Store}

/-- Rows that are seen are found one after another. -/
theorem run_mapM_require {ids : List RowId} {rows : List Row}
    (seen : ids.map (table.seen store) = rows.map fun row => .ok (some row)) :
    (ids.mapM table.require).run.run store = (.ok rows, store) := by
  induction ids generalizing rows with
  | nil =>
      rw [List.map_nil, eq_comm, List.map_eq_nil_iff] at seen
      rw [seen]
      rfl
  | cons id rest ih =>
      cases rows with
      | nil => cases seen
      | cons row others =>
          obtain ⟨here, following⟩ := List.cons.inj seen
          rw [List.mapM_cons, Store.run_bind_of_ok (run_require here), Store.run_return,
            ih following]
          rfl

/-- Looking for a row spares all others. -/
theorem spares_require (table : Table) : table.Spares table.require := by
  intro store id row present other _
  rw [run_require present]

end Table

namespace Plan

/-- The plan with another limit, or with none. -/
def within (bound : Option UInt64) (plan : Plan) : Plan :=
  { plan with limit := bound }

/-- A plan without a limit stays as it is without one. -/
theorem within_none {plan : Plan} (unlimited : plan.limit = none) : plan.within none = plan := by
  rw [within, ← unlimited]

/-- Which equalities are evaluated row by row does not depend on the limit. -/
theorem foldl_fallBack_within (bound : Option UInt64) (plan : Plan) (stale : List String) :
    stale.foldl fallBack (plan.within bound) = (stale.foldl fallBack plan).within bound := by
  induction stale generalizing plan with
  | nil => rfl
  | cons column rest ih =>
      have falls : (plan.within bound).fallBack column = (plan.fallBack column).within bound := by
        unfold fallBack within
        dsimp only
        split <;> rfl
      rw [List.foldl_cons, List.foldl_cons, falls, ih]

/-- A plan with another limit is resolved as the plan is. -/
theorem resolve_within (bound : Option UInt64) (plan : Plan) (table : Table) :
    (plan.within bound).resolve table = within bound <$> plan.resolve table := by
  simp only [resolve, foldl_fallBack_within, map_bind, map_pure]
  rfl

variable {plan : Plan} {seen : RowId → Except TableError (Option Row)}

/-- The candidates to visit have rows. -/
theorem exists_rows_sound (plan : Plan) (seen : RowId → Except TableError (Option Row))
    (ids : List RowId) :
    ∃ rows : List Row, (plan.sound seen ids).map seen = rows.map fun row => .ok (some row) := by
  have haveRows : ∀ outcome ∈ (plan.sound seen ids).map seen,
      outcome ∈ Set.range fun row : Row => Except.ok (some row) := by
    intro outcome member
    obtain ⟨id, chosen, rfl⟩ := List.mem_map.mp member
    have accepted := (List.mem_filter.mp chosen).2
    unfold accepts at accepted
    split at accepted
    · next row outcome => exact ⟨row, outcome.symm⟩
    · cases accepted
  have listed : (plan.sound seen ids).map seen ∈
      Set.range (List.map fun row : Row => Except.ok (some row)) := by
    rw [Set.range_list_map]
    exact haveRows
  obtain ⟨rows, same⟩ := listed
  exact ⟨rows, same.symm⟩

/-- As many rows as there is room for are cut from what belongs to them. -/
theorem map_room {α β : Type} (plan : Plan) (found : Nat) (form : α → β) (rows : List α) :
    (plan.room found rows).map form = plan.room found (rows.map form) := by
  unfold room
  split
  · exact List.map_take
  · rfl

/-- A smaller limit leaves the first of what a greater one leaves. -/
theorem room_within_prefix {α : Type} (plan : Plan) {fewer : UInt64} {more : Option UInt64}
    (less : ∀ bound ∈ more, fewer ≤ bound) (rows : List α) :
    (plan.within (some fewer)).room 0 rows <+: (plan.within more).room 0 rows := by
  cases more with
  | none => exact List.take_prefix _ rows
  | some bound =>
      have fits : fewer.toNat - 0 ≤ bound.toNat - 0 := less bound rfl
      exact List.take_prefix_take_left fits

/-- The visits end with a failure at a limit that lets them come to it. -/
theorem ending?_within (bound : Option UInt64) (plan : Plan)
    (seen : RowId → Except TableError (Option Row)) (ids : List RowId) :
    (plan.within bound).ending? seen 0 ids =
      if (plan.within bound).allows (plan.sound seen ids).length then
        ids.findSome? (plan.flaw? seen) else none := by
  rw [ending?, Nat.zero_add]
  rfl

/-- A greater limit allows what a smaller one does. -/
theorem allows_within {fewer : UInt64} {more : Option UInt64}
    (less : ∀ bound ∈ more, fewer ≤ bound) {count : Nat}
    (allowed : (plan.within (some fewer)).allows count = true) :
    (plan.within more).allows count = true := by
  cases more with
  | none => rfl
  | some bound =>
      have reaches : fewer.toNat ≤ bound.toNat := less bound rfl
      exact decide_eq_true (Nat.lt_of_lt_of_le (of_decide_eq_true allowed) reaches)

/-- Visits that do not fail at a greater limit do not fail at a smaller one. -/
theorem ending?_within_eq_none {fewer : UInt64} {more : Option UInt64}
    (less : ∀ bound ∈ more, fewer ≤ bound) {ids : List RowId}
    (unending : (plan.within more).ending? seen 0 ids = none) :
    (plan.within (some fewer)).ending? seen 0 ids = none := by
  rw [ending?_within] at unending ⊢
  split
  · next allowed =>
      rw [if_pos (allows_within less allowed)] at unending
      exact unending
  · rfl

end Plan

namespace Query

/-- The query with another limit, or with none. -/
def within (bound : Option UInt64) : Query → Query
  | .mk table plan joins => .mk table (plan.within bound) joins

/-- A query without a limit stays as it is without one. -/
theorem within_none {query : Query} (unlimited : query.plan.limit = none) :
    query.within none = query := by
  obtain ⟨table, plan, joins⟩ := query
  exact congrArg (mk table · joins) (Plan.within_none unlimited)

/-- What a query looks at first does not depend on its limit. -/
theorem prepare_within (bound : Option UInt64) (query : Query) :
    (query.within bound).prepare =
      (fun (plan, ids, fetched) => (plan.within bound, ids, fetched)) <$> query.prepare := by
  obtain ⟨table, plan, joins⟩ := query
  simp only [prepare, within, Query.table, Query.plan, Query.joins, Plan.resolve_within, map_bind,
    liftM_map, bind_map_left, map_pure]
  rfl

/-- Queries find rows in order. -/
theorem inOrder_get (query : Query) (store : Store) :
    query.InOrder query.table.require (fun _ row => return query.plan.project row) query.get
      store := by
  rw [get_eq_traverse]
  refine inOrder_traverse (Table.spares_require _) (fun store id row present => ?_) store
  rw [Table.run_require present]
  rfl

/-- A query shows the rows that its limit leaves room for, joined, unless it comes to a candidate
that cannot be visited. -/
theorem run_get {query : Query} {store : Store} {plan : Plan} {ids : List RowId}
    {fetched : List (List Row)} {rows : List Row}
    (prepared : (query.prepare.run.run store).1 = .ok (plan, ids, fetched))
    (found : (plan.sound (query.table.seen store) ids).map (query.table.seen store) =
      rows.map fun row => .ok (some row)) :
    (query.get.run.run store).1 =
      match plan.ending? (query.table.seen store) 0 ids with
      | some error => .error (.table error)
      | none => .ok (Join.applyAll query.joins fetched
          ((plan.room 0 rows).map query.plan.project)) := by
  obtain ⟨files, faults, -, -, answered⟩ :=
    (query.inOrder_get store).carried plan ids fetched prepared
  have still : query.table.seen (query.prepare.run.run store).2 = query.table.seen store :=
    funext fun id => Table.seen_congr faults (by rw [files])
  have shown : (plan.room 0 (plan.sound (query.table.seen store) ids)).map
        (query.table.seen (query.prepare.run.run store).2) =
      (plan.room 0 rows).map fun row => .ok (some row) := by
    rw [still, Plan.map_room, found, ← Plan.map_room]
  rw [answered, Table.run_mapM_require shown]
  cases plan.ending? (query.table.seen store) 0 ids <;> rfl

/-- The limit of a query says nothing about its table. -/
theorem table_within (bound : Option UInt64) (query : Query) :
    (query.within bound).table = query.table := by
  cases query
  rfl

/-- The limit of a query says nothing about what is shown of its rows. -/
theorem project_within (bound : Option UInt64) (query : Query) (row : Row) :
    (query.within bound).plan.project row = query.plan.project row := by
  cases query
  rfl

/-- The limit of a query says nothing about its joins. -/
theorem joins_within (bound : Option UInt64) (query : Query) :
    (query.within bound).joins = query.joins := by
  cases query
  rfl

/-- Whatever its limit is, a query fails as it looks at what it looks at first, or it shows the rows
that it leaves room for of the same ones, joined with the same ones, unless it comes to a candidate
that cannot be visited. -/
theorem run_get_within (query : Query) (store : Store) :
    (∃ error, ∀ bound, ((query.within bound).get.run.run store).1 = .error error) ∨
      ∃ (resolved : Plan) (ids : List RowId) (fetched : List (List Row)) (rows : List Row),
        ∀ bound, ((query.within bound).get.run.run store).1 =
          match (resolved.within bound).ending? (query.table.seen store) 0 ids with
          | some error => .error (.table error)
          | none => .ok (Join.applyAll query.joins fetched
              (((resolved.within bound).room 0 rows).map query.plan.project)) := by
  have prepared : ∀ bound, ((query.within bound).prepare.run.run store).1 =
      (query.prepare.run.run store).1.map
        fun (plan, ids, fetched) => (plan.within bound, ids, fetched) := by
    intro bound
    rw [prepare_within, map_eq_pure_bind, Store.run_return]
  rcases looked : (query.prepare.run.run store).1 with error | ⟨resolved, ids, fetched⟩
  · refine .inl ⟨error, fun bound => ?_⟩
    refine (((query.within bound).inOrder_get store).refused error ?_).1
    rw [prepared, looked]
    rfl
  · obtain ⟨rows, found⟩ := resolved.exists_rows_sound (query.table.seen store) ids
    refine .inr ⟨resolved, ids, fetched, rows, fun bound => ?_⟩
    have looks : ((query.within bound).prepare.run.run store).1 =
        .ok (resolved.within bound, ids, fetched) := by
      rw [prepared, looked]
      rfl
    have shows := @run_get _ _ _ _ _ rows looks (by rw [table_within]; exact found)
    rw [table_within, joins_within, funext (project_within bound query)] at shows
    exact shows

/-- A smaller limit shows the first of the rows that a greater one shows, or that none shows. -/
theorem get_within_prefix {query : Query} {store : Store} {fewer : UInt64} {more : Option UInt64}
    (less : ∀ bound ∈ more, fewer ≤ bound) {rows : List Row}
    (shown : ((query.within more).get.run.run store).1 = .ok rows) :
    ∃ first, ((query.within (some fewer)).get.run.run store).1 = .ok first ∧ first <+: rows := by
  rcases query.run_get_within store with ⟨error, fails⟩ | ⟨resolved, ids, fetched, found, shows⟩
  · rw [fails] at shown
    cases shown
  · rw [shows] at shown
    split at shown
    · cases shown
    · next unending =>
        cases shown
        refine ⟨_, by rw [shows, Plan.ending?_within_eq_none less unending], ?_⟩
        apply Join.applyAll_prefix
        exact (resolved.room_within_prefix less found).map _

/-- A query without a limit and without joins shows all rows that it comes to, and as many as a
limit says if it gets one. -/
theorem get_within_take {query : Query} {store : Store} (alone : query.joins = [])
    (bound : UInt64) {rows : List Row}
    (shown : ((query.within none).get.run.run store).1 = .ok rows) :
    ((query.within (some bound)).get.run.run store).1 = .ok (rows.take bound.toNat) := by
  have less : ∀ greater ∈ (none : Option UInt64), bound ≤ greater :=
    fun greater none => absurd none (Option.not_mem_none greater)
  rcases query.run_get_within store with ⟨error, fails⟩ | ⟨resolved, ids, fetched, found, shows⟩
  · rw [fails] at shown
    cases shown
  · rw [shows] at shown
    split at shown
    · cases shown
    · next unending =>
        cases shown
        rw [shows, Plan.ending?_within_eq_none less unending, alone]
        exact congrArg Except.ok List.map_take

/-- Limits show first rows. Whatever is stored and whatever accesses are ordered to fail, if a query
shows rows at a limit, or without one, it shows the first of them at every smaller limit; and
without joins these are as many as the limit says. -/
theorem limit_shows_first {query : Query} (unlimited : query.plan.limit = none) (store : Store) :
    (∀ fewer more : UInt64, fewer ≤ more → ∀ rows,
      ((query.limit more).get.run.run store).1 = .ok rows →
        ∃ first, ((query.limit fewer).get.run.run store).1 = .ok first ∧ first <+: rows) ∧
    (∀ (fewer : UInt64) (rows : List Row), (query.get.run.run store).1 = .ok rows →
      ∃ first, ((query.limit fewer).get.run.run store).1 = .ok first ∧ first <+: rows) ∧
    (query.joins = [] → ∀ (bound : UInt64) (rows : List Row),
      (query.get.run.run store).1 = .ok rows →
        ((query.limit bound).get.run.run store).1 = .ok (rows.take bound.toNat)) := by
  have limited : ∀ bound, query.limit bound = query.within (some bound) := by
    intro bound
    cases query
    rfl
  simp only [limited]
  refine ⟨fun fewer more less rows shown => ?_, fun fewer rows shown => ?_,
    fun alone bound rows shown => ?_⟩
  · exact get_within_prefix (fun bound same => Option.some.inj same ▸ less) shown
  · rw [← within_none unlimited] at shown
    exact get_within_prefix (fun bound none => absurd none (Option.not_mem_none bound)) shown
  · rw [← within_none unlimited] at shown
    exact get_within_take alone bound shown

/-- People by their age: the third of age one, whom the index on the ages lists, has no row. -/
def peopleByAge : Store :=
  let ofAge (age : UInt64) := (Row.empty.insert "age" (.number (.ofUInt64 age))).toBytes false
  let ages := [(1, 0), (1, 1), (1, 2), (2, 3), (2, 4)].foldl
    (fun index (age, id) => index.insert (.int age) ⟨id⟩) (IndexTable.empty "age")
  .ofFiles <| .memory <| MemoryFiles.empty.write "people/indexes/age.json" ages.toBytes
    |>.write "people/rows/0000.json" (ofAge 1) |>.write "people/rows/0001.json" (ofAge 1)
    |>.write "people/rows/0003.json" (ofAge 2) |>.write "people/rows/0004.json" (ofAge 2)

/-- The people of an age, whom an index is asked for. -/
def peopleOfAge (age : UInt64) : Query :=
  .mk ⟨"people", .default⟩
    { Plan.empty with lookups := Plan.empty.lookups.insert "age" (.number (.ofUInt64 age)) } []

/-- The pairs of the first two people of age one with those of age two are shown, and those of the
first one come first, although the visits would fail at the third. The two people of age two are
shown, and the first one alone. -/
theorem limit_shows_first_peopleByAge :
    let pairs := join (peopleOfAge 2) (fun _ _ => true) (peopleOfAge 1)
    (∃ four, ((pairs.limit 2).get.run.run peopleByAge).1 = .ok four ∧
      ∃ two, ((pairs.limit 1).get.run.run peopleByAge).1 = .ok two ∧ two <+: four) ∧
    ∃ both, ((peopleOfAge 2).get.run.run peopleByAge).1 = .ok both ∧
      (∃ one, (((peopleOfAge 2).limit 1).get.run.run peopleByAge).1 = .ok one ∧ one <+: both) ∧
      (((peopleOfAge 2).limit 1).get.run.run peopleByAge).1 = .ok (both.take 1) := by
  intro pairs
  have paired : ((pairs.limit 2).get.run.run peopleByAge).1.toBool = true := by
    simp only [pairs, peopleOfAge, join, limit, get, fetchAll, List.nil_append]
    decide +kernel
  have found : ((peopleOfAge 2).get.run.run peopleByAge).1.toBool = true := by
    simp only [peopleOfAge, get, fetchAll]
    decide +kernel
  have shown : ∀ {answer : Except QueryError (List Row)}, answer.toBool = true →
      ∃ rows, answer = .ok rows := by
    intro answer answered
    cases answer with
    | error failure => cases answered
    | ok rows => exact ⟨rows, rfl⟩
  obtain ⟨four, pairsShown⟩ := shown paired
  obtain ⟨both, bothShown⟩ := shown found
  have ofPairs := @limit_shows_first pairs rfl peopleByAge
  have ofBoth := @limit_shows_first (peopleOfAge 2) rfl peopleByAge
  exact ⟨⟨four, pairsShown, ofPairs.1 1 2 (by decide) four pairsShown⟩, both, bothShown,
    ofBoth.2.1 1 both bothShown, ofBoth.2.2 rfl 1 both bothShown⟩

end Query

end TableStore
