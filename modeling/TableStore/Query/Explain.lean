/-
# Explaining queries

What running a query would do now: which predicates its indexes answer, which are evaluated row
by row, and what happens to the rows after that.
-/

import TableStore.Query.Basic

namespace TableStore

/-- A description of how a query would run. -/
structure Explanation where
  table : String
  usesIndex : Bool
  /-- The equalities that indexes answer, ascending by column. -/
  lookups : List String
  /-- The predicates evaluated row by row, ascending by column. -/
  filters : List String
  selected : Option (List String)
  limit : Option UInt64
  /-- The joined tables, in order. -/
  joins : List String

namespace Explanation

/-- The name of the way in which candidates are found. -/
def scanName (explanation : Explanation) : String :=
  if explanation.usesIndex then "INDEX_LOOKUP" else "FULL_SCAN"

/-- The description as an object. -/
def toJson (explanation : Explanation) : Json :=
  .object
    [("table", .string explanation.table),
     ("scan", .string explanation.scanName),
     ("index_lookups", .ofStrings explanation.lookups),
     ("filters", .ofStrings explanation.filters),
     ("selected", (explanation.selected.map Json.ofStrings).getD .null),
     ("limit", (explanation.limit.map Json.ofUInt64).getD .null),
     ("joins", .ofStrings explanation.joins)]

/-- A headed list, left out if it is empty. -/
def headed (heading : String) (items : List String) : List String :=
  if items.isEmpty then [] else heading :: items.map fun item => "  - " ++ item

/-- The lines of the description. -/
def lines (explanation : Explanation) : List String :=
  ["=== EXPLAIN PLAN ===", "Table: " ++ explanation.table,
    "Scan Type: " ++ explanation.scanName] ++
  headed "Index Lookups:" explanation.lookups ++
  headed "Filters:" explanation.filters ++
  ["Select: " ++ (explanation.selected.map (", ".intercalate ·)).getD Plan.wildcard] ++
  (explanation.limit.map fun limit => "Limit: " ++ toString limit.toNat).toList ++
  explanation.joins.map fun table => "Inner Join: " ++ table

/-- The description as text, every line ended. -/
def toText (explanation : Explanation) : String :=
  String.join (explanation.lines.map fun line => line ++ "\n")

end Explanation

/-- The equalities that indexes answer, as text. -/
def Plan.lookupTexts (plan : Plan) : List String :=
  plan.lookups.toList.map fun entry => entry.1 ++ " = " ++ entry.2.toText

/-- The predicates evaluated row by row, as text. -/
def Plan.filterTexts (plan : Plan) : List String :=
  plan.criteria.toList.map fun entry => entry.1 ++ " " ++ entry.2.toText

/-- Describe how a query would run now. -/
def Query.explain (query : Query) : StateM Store Explanation := do
  let plan ← query.plan.resolve query.table
  return {
    table := query.table.name
    usesIndex := plan.usesIndex
    lookups := plan.lookupTexts
    filters := plan.filterTexts
    selected := plan.selected
    limit := plan.limit
    joins := query.joins.map fun join => join.foreign.table.name }

end TableStore
