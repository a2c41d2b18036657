/-
# Invocations

What a command line asks for: one command on the tables, and where to find configuration and
data.
-/

import TableStore.CommandLine.Grammar

namespace TableStore.CommandLine

/-- The rows that a command works on. -/
structure Selection where
  table : String
  /-- Conditions as `column=value`. -/
  filters : List String
  columns : List String
  limit : Option UInt64
  /-- Describe the query instead of running it. -/
  explain : Bool
  deriving DecidableEq, Repr

/-- A command on the tables. Rows and changes are still text. -/
inductive Command where
  | tables
  | insert (table row : String)
  | get (selection : Selection)
  | count (selection : Selection)
  | delete (selection : Selection)
  | set (selection : Selection) (changes : String)
  | addIndex (table column : String)
  | removeIndex (table column : String)
  | listIndexes (table : String)
  | drop (table : String)
  deriving DecidableEq, Repr

/-- A command line that can be run. -/
structure Invocation where
  /-- The configuration file. -/
  config : Option String
  /-- Where the data is, in place of what the configuration says. -/
  dataDirectory : Option String
  command : Command
  deriving DecidableEq, Repr

/-- Where the configuration is. -/
def configOption : OptionSpec where
  name := "config"
  kind := .path
  repeatable := false
  placeholder := "CONFIG"
  summary := "Path to configuration file (default: ./rowquery.json if present)"

/-- Where the data is. -/
def dataOption : OptionSpec where
  name := "data-dir"
  kind := .path
  repeatable := false
  placeholder := "DATA_DIR"
  summary := "Data directory, overriding the configuration"

/-- Which rows match. -/
def whereOption : OptionSpec where
  name := "where"
  kind := .text
  repeatable := true
  placeholder := "COLUMN=VALUE"
  summary := "Equality filter; the value is parsed as JSON, falling back to a string"

/-- Which columns of a row are kept. -/
def selectOption : OptionSpec where
  name := "select"
  kind := .texts
  repeatable := true
  placeholder := "SELECT"
  summary := "Columns to keep, comma-separated; `*` for all"

/-- How many rows are taken. -/
def limitOption : OptionSpec where
  name := "limit"
  kind := .count
  repeatable := false
  placeholder := "LIMIT"
  summary := "Maximum number of own rows"

/-- Whether the query is only described. -/
def explainOption : OptionSpec where
  name := "explain"
  kind := .flag
  repeatable := false
  placeholder := ""
  summary := "Print the plan instead of running it"

/-- Options that every command takes. -/
def commonOptions : List OptionSpec :=
  [configOption, dataOption]

/-- The options of a command that selects rows, those that every command takes included. -/
def selectionOptions : List OptionSpec :=
  [configOption, whereOption, dataOption, selectOption, limitOption, explainOption]

/-- The name of a table. -/
def tableWord : WordSpec :=
  ⟨"TABLE", ""⟩

/-- The name of a column. -/
def columnWord : WordSpec :=
  ⟨"COLUMN", ""⟩

/-- A command that takes words. -/
def wordCommand (name summary : String) (words : List WordSpec) : String × Grammar :=
  (name, .mk summary commonOptions words [] false)

/-- A command that selects rows of a table. -/
def selectionCommand (name summary : String) (words : List WordSpec) : String × Grammar :=
  (name, .mk summary selectionOptions (tableWord :: words) [] false)

/-- The commands on indexes. -/
def indexCommands : List (String × Grammar) :=
  [wordCommand "add" "Build an index table for a column" [tableWord, columnWord],
    wordCommand "remove" "Remove the index table for a column" [tableWord, columnWord],
    wordCommand "list" "List indexed columns" [tableWord]]

/-- All commands. -/
def commands : List (String × Grammar) :=
  [wordCommand "tables" "List tables holding data" [],
    wordCommand "insert" "Insert one row given as a JSON object"
      [tableWord, ⟨"ROW", "Row as a JSON object"⟩],
    selectionCommand "get" "Print matching rows" [],
    selectionCommand "count" "Print the number of matching rows" [],
    selectionCommand "delete" "Delete matching rows and print them" [],
    selectionCommand "set" "Merge a JSON object into matching rows and print the results"
      [⟨"CHANGES", "Changes as a JSON object"⟩],
    ("index", .mk "Manage index tables" commonOptions [] indexCommands false),
    wordCommand "drop" "Remove a table with all rows and index tables" [tableWord]]

/-- What a command line may be. -/
def grammar : Grammar :=
  .mk "An embedded, file-backed row store with secondary indexes and a fluent query builder"
    commonOptions [] commands true

/-- The selection that a command was given. -/
def Level.selection (level : Level) (table : String) : Selection where
  table
  filters := level.values "where"
  columns := level.values "select"
  limit := (level.values "limit").head?.bind readCount?
  explain := level.has "explain"

/-- The command at the end of a path of names, with its words and options. -/
def command? (path : List String) (level : Level) : Option Command :=
  match path, level.words with
  | ["tables"], [] => some .tables
  | ["insert"], [table, row] => some (.insert table row)
  | ["get"], [table] => some (.get (level.selection table))
  | ["count"], [table] => some (.count (level.selection table))
  | ["delete"], [table] => some (.delete (level.selection table))
  | ["set"], [table, changes] => some (.set (level.selection table) changes)
  | ["index", "add"], [table, column] => some (.addIndex table column)
  | ["index", "remove"], [table, column] => some (.removeIndex table column)
  | ["index", "list"], [table] => some (.listIndexes table)
  | ["drop"], [table] => some (.drop table)
  | _, _ => none

/-- The value of an option that every command takes; the innermost command counts. -/
def innermost (levels : List Level) (name : String) : Option String :=
  (levels.flatMap fun level => level.values name).getLast?

/-- Read a command line. -/
def Invocation.ofArguments (arguments : List String) : Except UsageError Invocation := do
  let levels ← readLevels grammar .start arguments
  let path := levels.filterMap Prod.fst
  let given := levels.map Prod.snd
  match given.getLast?.bind (command? path) with
  | some command =>
      return {
        config := innermost given "config"
        dataDirectory := innermost given "data-dir"
        command }
  | none => throw .missingCommand

end TableStore.CommandLine
