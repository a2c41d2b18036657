/-
# Queries without indexes

A query that looks things up in indexes answers what the query answers that evaluates everything
row by row. So all that a query comes to is the latter, and building on the one builds on the
other.
-/

import TableStore.Proofs.Query.Reference

namespace TableStore

mutual

/-- The query that evaluates everything row by row, as do all queries that it joins with. -/
def Query.scanning : Query → Query
  | .mk table plan joins => .mk table plan.scanning (Join.scanningAll joins)

/-- The joins with queries that evaluate everything row by row. -/
def Join.scanningAll : List Join → List Join
  | [] => []
  | .mk foreign accepts :: rest => .mk foreign.scanning accepts :: Join.scanningAll rest

end

namespace Plan

/-- A plan and the one that evaluates everything row by row have the same limit. -/
@[simp]
theorem limit_scanning (plan : Plan) : plan.scanning.limit = plan.limit :=
  limit_foldl_fallBack plan _

/-- A plan and the one that evaluates everything row by row have the same selection. -/
@[simp]
theorem selected_scanning (plan : Plan) : plan.scanning.selected = plan.selected :=
  selected_foldl_fallBack plan _

/-- Evaluating everything row by row is done once. -/
@[simp]
theorem scanning_scanning (plan : Plan) : plan.scanning.scanning = plan.scanning :=
  scanning_of_lookups_eq_empty (lookups_scanning plan)

/-- A plan and the one that evaluates everything row by row show the same columns. -/
@[simp]
theorem project_scanning (plan : Plan) : plan.scanning.project = plan.project := by
  funext row
  rw [project, project, selected_scanning]

/-- Selecting columns has nothing to do with what is looked up. -/
theorem scanning_select (plan : Plan) (columns : List String) :
    (plan.select columns).scanning = plan.scanning.select columns := by
  apply ext_getElem?
  · simp [select]
  · simp [select]
  · intro column
    simp [select, predicates_scanning]
  · intro column
    simp [select]

/-- Bounding the rows has nothing to do with what is looked up. -/
theorem scanning_withLimit (plan : Plan) (bound : UInt64) :
    (plan.withLimit bound).scanning = plan.scanning.withLimit bound := by
  apply ext_getElem?
  · simp [withLimit]
  · simp [withLimit]
  · intro column
    simp [withLimit, predicates_scanning]
  · intro column
    simp [withLimit]

end Plan

/-- A plan and the one that evaluates everything row by row select the same rows. -/
@[simp]
theorem Ledger.selected_scanning (ledger : Ledger) (plan : Plan) :
    ledger.selected plan.scanning = ledger.selected plan := by
  rw [selected, selected, Plan.scanning_scanning, Plan.room, Plan.room, Plan.limit_scanning]

namespace Query

variable {ledgers : String → Ledger}

/-- Evaluating everything row by row is done on the same table. -/
@[simp]
theorem table_scanning (query : Query) : query.scanning.table = query.table := by
  cases query
  rfl

/-- The plan of the query that evaluates everything row by row. -/
@[simp]
theorem plan_scanning (query : Query) : query.scanning.plan = query.plan.scanning := by
  cases query
  rfl

/-- The joins of the query that evaluates everything row by row. -/
@[simp]
theorem joins_scanning (query : Query) : query.scanning.joins = Join.scanningAll query.joins := by
  cases query
  rfl

/-- The query for all rows looks nothing up. -/
@[simp]
theorem scanning_all (table : Table) : (all table).scanning = all table := by
  rw [all, scanning, Plan.scanning_of_lookups_eq_empty rfl, Join.scanningAll]

/-- Selecting columns has nothing to do with what is looked up. -/
@[simp]
theorem scanning_select (query : Query) (columns : List String) :
    (query.select columns).scanning = query.scanning.select columns := by
  obtain ⟨table, plan, joins⟩ := query
  rw [select, scanning, Plan.scanning_select]
  rfl

/-- Bounding the rows has nothing to do with what is looked up. -/
@[simp]
theorem scanning_limit (query : Query) (bound : UInt64) :
    (query.limit bound).scanning = query.scanning.limit bound := by
  obtain ⟨table, plan, joins⟩ := query
  rw [limit, scanning, Plan.scanning_withLimit]
  rfl

/-- One more join is one more query that evaluates everything row by row. -/
theorem scanningAll_append (joins : List Join) (foreign : Query) (accepts : Row → Row → Bool) :
    Join.scanningAll (joins ++ [.mk foreign accepts]) =
      Join.scanningAll joins ++ [.mk foreign.scanning accepts] := by
  induction joins with
  | nil => rfl
  | cons join rest ih =>
      obtain ⟨other, pairs⟩ := join
      rw [List.cons_append, Join.scanningAll, ih]
      rfl

/-- A join joins with the query that evaluates everything row by row. -/
@[simp]
theorem scanning_join (query foreign : Query) (accepts : Row → Row → Bool) :
    (Query.join foreign accepts query).scanning =
      Query.join foreign.scanning accepts query.scanning := by
  obtain ⟨table, plan, joins⟩ := query
  rw [join, scanning, scanningAll_append]
  rfl

/-- Joins join the same rows, however these were found. -/
@[simp]
theorem applyAll_scanningAll (joins : List Join) (fetched : List (List Row)) (rows : List Row) :
    Join.applyAll (Join.scanningAll joins) fetched rows = Join.applyAll joins fetched rows := by
  induction joins generalizing fetched rows with
  | nil => rfl
  | cons join rest ih =>
      obtain ⟨other, pairs⟩ := join
      cases fetched with
      | nil => rfl
      | cons foreign others => exact ih others _

mutual

/-- A query answers the same rows when it evaluates everything row by row. -/
@[simp]
theorem rowsIn_scanning : ∀ query : Query, query.scanning.rowsIn ledgers = query.rowsIn ledgers
  | .mk table plan joins => by
      rw [scanning, rowsIn, rowsIn, rowsInAll_scanningAll, applyAll_scanningAll,
        Ledger.selected_scanning, Plan.project_scanning]

/-- Queries that are joined with answer the same rows when they evaluate everything row by
row. -/
@[simp]
theorem rowsInAll_scanningAll : ∀ joins : List Join,
    Join.rowsInAll ledgers (Join.scanningAll joins) = Join.rowsInAll ledgers joins
  | [] => rfl
  | .mk foreign _ :: rest => by
      rw [Join.scanningAll, Join.rowsInAll, Join.rowsInAll, rowsIn_scanning,
        rowsInAll_scanningAll]

end

/-- A query removes the same rows when it evaluates everything row by row. -/
@[simp]
theorem deleteIn_scanning (query : Query) :
    query.scanning.deleteIn ledgers = query.deleteIn ledgers := by
  rw [deleteIn, deleteIn, ledgerAfter, ledgerAfter, rowsIn_scanning, table_scanning,
    plan_scanning, Ledger.selected_scanning]

/-- A query changes the same rows when it evaluates everything row by row. -/
@[simp]
theorem setIn_scanning (query : Query) (changes : Row) :
    query.scanning.setIn ledgers changes = query.setIn ledgers changes := by
  obtain ⟨table, plan, joins⟩ := query
  simp only [setIn, ledgerAfter, scanning, Query.table, Query.plan, Query.joins,
    Ledger.selected_scanning, Plan.project_scanning, rowsInAll_scanningAll, applyAll_scanningAll]
  rfl

end Query

end TableStore
