/-
# Failures of commands

Why a command did not finish: its arguments mean nothing, or what it started failed.
-/

import TableStore.Config
import TableStore.Json.Printer
import TableStore.Query.Error

namespace TableStore.CommandLine

/-- Why a command did not finish. -/
inductive CommandError where
  | config (error : ConfigError)
  | table (error : TableError)
  | query (error : QueryError)
  /-- An argument that was to be a row is another value. -/
  | notARow (value : Json)
  /-- A condition without an equals sign. -/
  | malformedFilter (text : String)
  /-- A condition on a column without a name. -/
  | emptyColumn (text : String)
  /-- An argument that was to be a row is not JSON. -/
  | malformedJson

namespace CommandError

/-- The stable code of a failure. -/
def code : CommandError → String
  | .config error => error.code
  | .table error => error.code
  | .query error => error.code
  | .notARow _ => "ROWQUERY_CLI_INVALID_ARGUMENT"
  | .malformedFilter _ => "ROWQUERY_CLI_INVALID_ARGUMENT"
  | .emptyColumn _ => "ROWQUERY_CLI_INVALID_ARGUMENT"
  | .malformedJson => "ROWQUERY_CLI_JSON_ERROR"

/-- The text of a failure. -/
def message (wording : Wording) : CommandError → String
  | .config error => error.message wording
  | .table error => error.message wording
  | .query error => error.message wording
  | .notARow value => "Invalid argument: expected a JSON object, got " ++ value.toText
  | .malformedFilter text =>
      "Invalid argument: expected COLUMN=VALUE, got " ++ Text.quoted text
  | .emptyColumn text => "Invalid argument: empty column in " ++ Text.quoted text
  | .malformedJson => "JSON error: " ++ wording.malformed

end CommandError

end TableStore.CommandLine
