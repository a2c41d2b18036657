/-
# Failures of queries

A query fails with a failure of its own table or of a table that it joins. A failed join names
the joined table and otherwise counts as what made it fail.
-/

import TableStore.Table.Error

namespace TableStore

/-- Why a query failed. -/
inductive QueryError where
  | table (error : TableError)
  | join (name : String) (cause : QueryError)
  deriving DecidableEq, Repr

namespace QueryError

/-- The failure of a table at the bottom of a failure. -/
def root : QueryError → TableError
  | .table error => error
  | .join _ cause => cause.root

/-- The stable code of a failure. -/
def code (error : QueryError) : String :=
  error.root.code

/-- How bad a failure is. -/
def severity (error : QueryError) : Severity :=
  error.root.severity

/-- Whether the failure is that a row does not exist. -/
def isNotFound (error : QueryError) : Bool :=
  error.root.isNotFound

/-- The text of a failure. -/
def message (wording : Wording) : QueryError → String
  | .table error => error.message wording
  | .join name cause =>
      "Join against table " ++ Text.quoted name ++ " failed: " ++ cause.message wording

end QueryError

end TableStore
