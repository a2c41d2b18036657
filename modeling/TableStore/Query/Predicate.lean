/-
# Predicates and criteria

A predicate accepts or refuses the value of one column, either by equality with a literal or by
a test. Criteria give at most one predicate to each column, and a row meets them when every
column is accepted, where a column that the row does not have reads as null.
-/

import Std.Data.ExtTreeMap
import TableStore.Index.Key
import TableStore.Row.Basic

namespace TableStore

/-- A condition on the value of a column. -/
inductive Predicate where
  /-- Equality with a value, without any conversion. -/
  | literal (value : Json)
  | custom (test : Json → Bool)

namespace Predicate

/-- Whether a value is accepted. -/
def accepts : Predicate → Json → Bool
  | .literal expected, value => value.same expected
  | .custom test, value => test value

/-- The literal of a predicate that has one. -/
def literal? : Predicate → Option Json
  | .literal value => some value
  | .custom _ => none

/-- Whether an index can answer the predicate: it is equality with a scalar. -/
def isIndexable (predicate : Predicate) : Bool :=
  predicate.literal?.any Json.isScalar

/-- The text of a predicate, which follows the name of its column. -/
def toText : Predicate → String
  | .literal value => "= " ++ value.toText
  | .custom _ => "matches <fn>"

end Predicate

/-- At most one predicate for each column. -/
structure Criteria where
  predicates : Std.ExtTreeMap String Predicate

namespace Criteria

/-- The criteria that every row meets. -/
def empty : Criteria where
  predicates := ∅

/-- Set the predicate of a column. -/
def insert (criteria : Criteria) (column : String) (predicate : Predicate) : Criteria where
  predicates := criteria.predicates.insert column predicate

/-- Criteria from predicates by column, the last one of a column counting. -/
def ofList (predicates : List (String × Predicate)) : Criteria :=
  predicates.foldl (fun criteria entry => criteria.insert entry.1 entry.2) empty

/-- The predicates by column, ascending. -/
def toList (criteria : Criteria) : List (String × Predicate) :=
  criteria.predicates.toList

/-- The predicate of a column. -/
def get? (criteria : Criteria) (column : String) : Option Predicate :=
  criteria.predicates[column]?

/-- The number of columns with a predicate. -/
def size (criteria : Criteria) : Nat :=
  criteria.predicates.size

/-- Whether a row meets all predicates. -/
def accept (criteria : Criteria) (row : Row) : Bool :=
  criteria.toList.all fun entry => entry.2.accepts (row.value entry.1)

end Criteria

end TableStore
