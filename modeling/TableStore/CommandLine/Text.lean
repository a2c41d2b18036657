/-
# Rows and conditions as text

Rows come in as JSON objects and go out as one line of JSON each. A condition is a column and a
value around an equals sign, where a value that is not JSON is taken as a string.
-/

import TableStore.CommandLine.Error
import TableStore.Query.Predicate

namespace TableStore.CommandLine

/-- Read a row. -/
def parseRow (text : String) : Except CommandError Row :=
  match Json.ofText? text with
  | none => .error .malformedJson
  | some value =>
      match Row.ofJson? value with
      | some row => .ok row
      | none => .error (.notARow value)

/-- Read a condition. The column ends at the first equals sign. -/
def parseFilter (text : String) : Except CommandError (String × Json) :=
  let column := text.toList.takeWhile fun c => c ≠ '='
  match text.toList.dropWhile fun c => c ≠ '=' with
  | [] => .error (.malformedFilter text)
  | _ :: value =>
      if column.isEmpty then .error (.emptyColumn text)
      else
        let literal := (Json.read? (value.map some)).getD (.string (String.ofList value))
        .ok (String.ofList column, literal)

/-- Read conditions; of several on one column the last counts. -/
def parseFilters (texts : List String) : Except CommandError Criteria :=
  let add (criteria : Criteria) (text : String) : Except CommandError Criteria := do
    let (column, value) ← parseFilter text
    return criteria.insert column (.literal value)
  texts.foldlM add .empty

/-- A value on a line of its own. -/
def line (value : Json) : List Char :=
  value.compact ++ ['\n']

/-- Values, each on a line of its own. -/
def writeLines (values : List Json) : Bytes :=
  Utf8.encode (values.flatMap line)

end TableStore.CommandLine
