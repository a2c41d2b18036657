/-
# Queries

A query is a table, a plan for it, and the queries that its rows are joined with. Running it
finds the candidates, fetches the rows of all joined queries, visits the rows that meet the
criteria until the limit is reached, and only then joins. So what a query changes never shows in
what it joins with, and a join that fails keeps it from changing anything.
-/

import TableStore.Query.Error
import TableStore.Query.Plan
import TableStore.Table.Write

namespace TableStore

mutual

/-- A plan for the rows of a table, and the joins of these rows. -/
inductive Query where
  | mk (table : Table) (plan : Plan) (joins : List Join)

/-- A query to join with, and which pairs of rows belong together: a row so far and one of the
joined query. -/
inductive Join where
  | mk (foreign : Query) (accepts : Row → Row → Bool)

end

/-- An operation that runs a query. -/
abbrev QueryM :=
  StoreM QueryError

/-- An operation on a table, whose failures are failures of the query. -/
def QueryM.onTable {α : Type} (operation : TableM α) : QueryM α :=
  ExceptT.adapt QueryError.table operation

/-- An operation on a joined table. -/
def QueryM.onJoined {α : Type} (table : String) (operation : QueryM α) : QueryM α :=
  ExceptT.adapt (QueryError.join table) operation

namespace Query

/-- The table of a query. -/
def table : Query → Table
  | .mk table _ _ => table

/-- The plan of a query. -/
def plan : Query → Plan
  | .mk _ plan _ => plan

/-- The joins of a query. -/
def joins : Query → List Join
  | .mk _ _ joins => joins

/-- The query for all rows of a table. -/
def all (table : Table) : Query :=
  .mk table .empty []

end Query

/-- The query that is joined with. -/
def Join.foreign : Join → Query
  | .mk foreign _ => foreign

/-- Which pairs of rows belong together. -/
def Join.accepts : Join → Row → Row → Bool
  | .mk _ accepts => accepts

/-- All merges of a row with a foreign row that belongs to it, row by row. -/
def Join.apply (join : Join) (foreign rows : List Row) : List Row :=
  rows.flatMap fun row => (foreign.filter (join.accepts row)).map row.merge

/-- Apply the joins one after another, each with the rows fetched for it. -/
def Join.applyAll : List Join → List (List Row) → List Row → List Row
  | join :: joins, foreign :: fetched, rows => applyAll joins fetched (join.apply foreign rows)
  | _, _, rows => rows

namespace Query

/-- Split criteria by what answers them: literals on columns that have an index now, and all
other predicates. -/
def route (table : Table) : List (String × Predicate) → Plan → StateM Store Plan
  | [], plan => return plan
  | (column, predicate) :: rest, plan => do
      let scanned := { plan with criteria := plan.criteria.insert column predicate }
      match predicate.literal? with
      | some value =>
          if predicate.isIndexable then
            if ← table.hasIndex column then
              route table rest { plan with lookups := plan.lookups.insert column value }
            else route table rest scanned
          else route table rest scanned
      | none => route table rest scanned

/-- Take only the rows that meet criteria, which replace all earlier ones. -/
def filter (criteria : Criteria) : Query → StateM Store Query
  | .mk table plan joins => do
      let plan ← route table criteria.toList { plan with criteria := .empty, lookups := ∅ }
      return .mk table plan joins

/-- Show only the given columns. -/
def select (columns : List String) : Query → Query
  | .mk table plan joins => .mk table (plan.select columns) joins

/-- Take at most so many rows of the own table. -/
def limit (bound : UInt64) : Query → Query
  | .mk table plan joins => .mk table (plan.withLimit bound) joins

/-- Join with the rows of another query. -/
def join (foreign : Query) (accepts : Row → Row → Bool) : Query → Query
  | .mk table plan joins => .mk table plan (joins ++ [.mk foreign accepts])

/-- Visit the rows among the candidates that meet the criteria of a plan, until its limit is
reached, and collect what the visits answer. A candidate without a row is an inconsistency if an
index named it, and nothing if it was only listed. -/
def collect (table : Table) (plan : Plan) (visit : RowId → Row → TableM Row) :
    (found : Nat) → List RowId → TableM (List Row)
  | _, [] => return []
  | found, id :: rest => do
      if !plan.allows found then return []
      match ← table.read id with
      | some row =>
          if plan.criteria.accept row then
            let answer ← visit id row
            return answer :: (← collect table plan visit (found + 1) rest)
          else collect table plan visit found rest
      | none =>
          match plan.lookups.keys.head? with
          | some column =>
              Store.report (.missingRow table.name column id)
              throw (.indexInconsistent column id)
          | none => collect table plan visit found rest

mutual

/-- The rows of a query, projected and joined. -/
def get : Query → QueryM (List Row)
  | .mk table plan joins => do
      let resolved ← plan.resolve table
      let ids ← QueryM.onTable (resolved.startingIds table)
      let fetched ← fetchAll joins
      let rows ← QueryM.onTable
        (collect table resolved (fun _ row => return plan.project row) 0 ids)
      return Join.applyAll joins fetched rows

/-- The rows of the joined queries, one list for each join. -/
def fetchAll : List Join → QueryM (List (List Row))
  | [] => return []
  | .mk foreign _ :: rest => do
      let rows ← QueryM.onJoined foreign.table.name (get foreign)
      return rows :: (← fetchAll rest)

end

/-- Run a query with a visit of its own to each row. -/
def traverse (query : Query) (visit : RowId → Row → TableM Row) : QueryM (List Row) := do
  let resolved ← query.plan.resolve query.table
  let ids ← QueryM.onTable (resolved.startingIds query.table)
  let fetched ← fetchAll query.joins
  let rows ← QueryM.onTable (collect query.table resolved visit 0 ids)
  return Join.applyAll query.joins fetched rows

/-- The rows of a query are what a traversal shows that changes nothing. -/
theorem get_eq_traverse (query : Query) :
    query.get = query.traverse fun _ row => return query.plan.project row := by
  cases query; rfl

/-- The number of rows of a query. -/
def count (query : Query) : QueryM Nat := do
  return (← query.get).length

/-- Remove the rows of a query, and answer them as they were. -/
def delete (query : Query) : QueryM (List Row) :=
  query.traverse fun id row => do
    discard (query.table.erase id)
    return query.plan.project row

/-- Merge changes into the rows of a query, and answer the changed rows. -/
def set (query : Query) (changes : Row) : QueryM (List Row) :=
  query.traverse fun id _ => do
    return query.plan.project (← query.table.update id changes)

end Query

end TableStore
