/-
# Query plans

A plan says which rows of one table are wanted and how they are shown: equalities to look up in
indexes, criteria to evaluate row by row, a bound on the number of rows, and the columns to keep.
A plan is a plain value; changing one leaves every other untouched.
-/

import TableStore.Query.Predicate
import TableStore.Table.Index

namespace TableStore

/-- What a query asks of its own table. -/
structure Plan where
  /-- The greatest number of rows, if there is one. -/
  limit : Option UInt64
  /-- The columns to keep, in order; without a selection a row is kept whole. -/
  selected : Option (List String)
  /-- Predicates evaluated on every candidate. -/
  criteria : Criteria
  /-- Equalities answered by indexes, by column. -/
  lookups : Std.ExtTreeMap String Json

namespace Plan

/-- The plan that takes every row whole. -/
def empty : Plan where
  limit := none
  selected := none
  criteria := .empty
  lookups := ∅

/-- The name that stands for all columns. -/
def wildcard : String :=
  "*"

/-- Bound the number of rows. -/
def withLimit (plan : Plan) (limit : UInt64) : Plan :=
  { plan with limit := some limit }

/-- The columns of a list, each once and where it is first given, after those that were seen before,
the last of which comes first. There are none to tell apart once the wildcard is met. -/
def distinctColumns? : (seen : List String) → List String → Option (List String)
  | seen, [] => some seen.reverse
  | seen, column :: rest =>
      if column = wildcard then none
      else if seen.contains column then distinctColumns? seen rest
      else distinctColumns? (column :: seen) rest

/-- Keep the given columns, each once; the wildcard among them keeps all. -/
def select (plan : Plan) (columns : List String) : Plan :=
  { plan with selected := distinctColumns? [] columns }

/-- Whether a row may be added to the given number of rows. -/
def allows (plan : Plan) (count : Nat) : Bool :=
  match plan.limit with
  | some limit => count < limit.toNat
  | none => true

/-- The part of a row that is shown. -/
def project (plan : Plan) (row : Row) : Row :=
  match plan.selected with
  | some columns => row.extract columns
  | none => row

/-- Whether any index is used. -/
def usesIndex (plan : Plan) : Bool :=
  !plan.lookups.isEmpty

/-- Evaluate the equality on a column row by row instead of looking it up. -/
def fallBack (plan : Plan) (column : String) : Plan :=
  match plan.lookups[column]? with
  | some value =>
      { plan with
        lookups := plan.lookups.erase column
        criteria := plan.criteria.insert column (.literal value) }
  | none => plan

/-- Keep the identifiers that further lookups find too. Once none is left, no index is read. -/
def narrow (table : Table) : (ids : List RowId) → List (String × Json) → TableM (List RowId)
  | ids, [] => return ids
  | [], _ => return []
  | ids, (column, value) :: rest => do
      let found := (← table.readIndex column).lookupValue value
      narrow table (ids.filter found.contains) rest

/-- The candidates, ascending: the rows that all lookups find, or all rows if there are none. -/
def startingIds (plan : Plan) (table : Table) : TableM (List RowId) :=
  match plan.lookups.toList with
  | [] => table.rowIds
  | (column, value) :: rest => do
      let found := (← table.readIndex column).lookupValue value
      narrow table found rest

/-- The columns of a list that have no index now. -/
def unindexed (table : Table) : List String → StateM Store (List String)
  | [] => return []
  | column :: rest => do
      let indexed ← table.hasIndex column
      let others ← unindexed table rest
      return (if indexed then others else column :: others)

/-- The plan as it can run now: equalities whose index has been removed are evaluated row by
row. -/
def resolve (plan : Plan) (table : Table) : StateM Store Plan := do
  let stale ← unindexed table plan.lookups.keys
  stale.forM fun column => Store.report (.scanningInstead table.name column)
  return stale.foldl fallBack plan

end Plan

end TableStore
