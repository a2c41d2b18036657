/-
# The journal

What the store reports about its work, besides its answers. An event has a source, a level, a
headline and named details; which events are shown is for the reader of the journal to decide.
-/

import TableStore.Files.Failure
import TableStore.Row.Id

namespace TableStore

/-- How much an event matters, from what must be seen to what only helps in a search. -/
inductive Level where
  | error
  | warn
  | info
  | debug
  | trace
  deriving DecidableEq, Repr

namespace Level

/-- A number that grows as levels matter less. -/
def detail : Level → Nat
  | .error => 1
  | .warn => 2
  | .info => 3
  | .debug => 4
  | .trace => 5

/-- The name of a level. -/
def name : Level → String
  | .error => "ERROR"
  | .warn => "WARN"
  | .info => "INFO"
  | .debug => "DEBUG"
  | .trace => "TRACE"

/-- All levels, from what must be seen on. -/
def all : List Level :=
  [.error, .warn, .info, .debug, .trace]

end Level

/-- Something that the store reports. -/
inductive Event where
  | openingDatabase (dataDirectory : String)
  | foreignFile (table file : String)
  | rowPersisted (table : String) (id : RowId) (removed : Bool) (indexesTouched : Nat)
  | missingFromIndex (table column : String) (id : RowId)
  | indexBuilt (table column : String) (keys rows : Nat)
  | indexProbeFailed (table column : String) (error : FileError)
  | indexRemoved (table column : String)
  | tableDropped (table : String)
  | scanningInstead (table column : String)
  | missingRow (table column : String) (id : RowId)
  | rowsDeleted (table : String) (rows : Nat)
  deriving DecidableEq, Repr

namespace Event

/-- The name under which the program reports events. -/
def programName : String :=
  "rowquery"

/-- The part of the program that an event is reported from, by its full name. -/
def source (event : Event) : String :=
  let part :=
    match event with
    | .openingDatabase _ => "database"
    | .scanningInstead _ _ => "query::builder"
    | .missingRow _ _ _ => "query::builder"
    | .rowsDeleted _ _ => "cli::commands"
    | _ => "table::store"
  programName ++ "::" ++ part

/-- How much an event matters. -/
def level : Event → Level
  | .openingDatabase _ => .debug
  | .foreignFile _ _ => .warn
  | .rowPersisted _ _ _ _ => .debug
  | .missingFromIndex _ _ _ => .warn
  | .indexBuilt _ _ _ _ => .info
  | .indexProbeFailed _ _ _ => .warn
  | .indexRemoved _ _ => .info
  | .tableDropped _ => .info
  | .scanningInstead _ _ => .debug
  | .missingRow _ _ _ => .error
  | .rowsDeleted _ _ => .info

/-- The headline of an event. -/
def headline : Event → String
  | .openingDatabase _ => "opening database"
  | .foreignFile _ _ => "skipping foreign file in rows directory"
  | .rowPersisted _ _ _ _ => "row persisted"
  | .missingFromIndex _ _ _ => "row was missing from index before update"
  | .indexBuilt _ _ _ _ => "index table built"
  | .indexProbeFailed _ _ _ => "index existence check failed"
  | .indexRemoved _ _ => "index table removed"
  | .tableDropped _ => "table dropped"
  | .scanningInstead _ _ => "index removed, scanning instead"
  | .missingRow _ _ _ => "index references a missing row"
  | .rowsDeleted _ _ => "rows deleted"

/-- The names of the details of an event. -/
def detailNames : Event → List String
  | .openingDatabase _ => ["data_dir"]
  | .foreignFile _ _ => ["table", "file"]
  | .rowPersisted _ _ _ _ => ["table", "id", "op", "indexes_touched"]
  | .missingFromIndex _ _ _ => ["table", "column", "id"]
  | .indexBuilt _ _ _ _ => ["table", "column", "keys", "rows"]
  | .indexProbeFailed _ _ _ => ["table", "column", "error"]
  | .indexRemoved _ _ => ["table", "column"]
  | .tableDropped _ => ["table"]
  | .scanningInstead _ _ => ["table", "column"]
  | .missingRow _ _ _ => ["table", "column", "id"]
  | .rowsDeleted _ _ => ["table", "rows"]

/-- The texts of the details of an event, in the order of their names. -/
def detailTexts (wording : Wording) : Event → List String
  | .openingDatabase dataDirectory => [dataDirectory]
  | .foreignFile table file => [table, file]
  | .rowPersisted table id removed indexesTouched =>
      [table, id.toText, if removed then "\"delete\"" else "\"write\"", toString indexesTouched]
  | .missingFromIndex table column id => [table, column, id.toText]
  | .indexBuilt table column keys rows => [table, column, toString keys, toString rows]
  | .indexProbeFailed table column error => [table, column, error.message wording]
  | .indexRemoved table column => [table, column]
  | .tableDropped table => [table]
  | .scanningInstead table column => [table, column]
  | .missingRow table column id => [table, column, id.toText]
  | .rowsDeleted table rows => [table, toString rows]

/-- The names of the fields of an event: the headline is one of them. -/
def fieldNames (event : Event) : List String :=
  "message" :: event.detailNames

/-- The line of an event: level, headline, and the details as `name=text`. -/
def line (wording : Wording) (event : Event) : String :=
  let detail := fun (name text : String) => " " ++ name ++ "=" ++ text
  event.level.name ++ " " ++ event.headline ++
    String.join (List.zipWith detail event.detailNames (event.detailTexts wording))

end Event

end TableStore
