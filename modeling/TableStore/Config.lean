/-
# Configuration

A configuration is a JSON record whose fields are all optional. It says where the tables are,
how rows are written, and which events of the journal are shown.
-/

import TableStore.Files.Disk
import TableStore.Json.Reader
import TableStore.Table.Basic

namespace TableStore

/-- What can be configured. -/
structure Config where
  dataDirectory : String
  idColumn : Option String
  prettyRows : Bool
  logFilter : String
  deriving DecidableEq, Repr

/-- Why there is no configuration. -/
inductive ConfigError where
  /-- The file cannot be read, or is not text. -/
  | unreadable (path : String) (failure : HostFailure)
  /-- The file is not a JSON record of the right shape. -/
  | malformed (path : String)
  | emptyDataDirectory
  | invalidIdColumn (column : String)
  deriving DecidableEq, Repr

namespace ConfigError

/-- The stable code of a failure. -/
def code : ConfigError → String
  | .unreadable _ _ => "ROWQUERY_CONFIG_READ_ERROR"
  | .malformed _ => "ROWQUERY_CONFIG_PARSE_ERROR"
  | .emptyDataDirectory => "ROWQUERY_CONFIG_INVALID"
  | .invalidIdColumn _ => "ROWQUERY_CONFIG_INVALID"

/-- The text of a failure. -/
def message (wording : Wording) : ConfigError → String
  | .unreadable path failure =>
      "Failed to read config " ++ Text.quoted path ++ ": " ++ wording.host failure
  | .malformed path =>
      "Invalid config JSON in " ++ Text.quoted path ++ ": " ++ wording.malformed
  | .emptyDataDirectory => "Invalid config: data_dir must not be empty"
  | .invalidIdColumn column => "Invalid config: Invalid id_column: " ++ Text.quoted column

end ConfigError

namespace Config

/-- The configuration of a record without fields. -/
def default : Config where
  dataDirectory := "./data"
  idColumn := some "id"
  prettyRows := false
  logFilter := "warn"

/-- Whether a configuration says what the default says, however it spells the directory. -/
def isDefault (config : Config) : Bool :=
  HostPath.same config.dataDirectory default.dataDirectory &&
    config = { default with dataDirectory := config.dataDirectory }

/-- The file that is read when no other is named. -/
def defaultPath : String :=
  "./rowquery.json"

/-- The fields of a configuration, in order. -/
def fieldNames : List String :=
  ["data_dir", "id_column", "pretty_rows", "log_filter"]

/-- Read the source of a field that may be missing. -/
def field? {α : Type} (fields : List (String × Json.Source)) (name : String) (missing : α)
    (read : Json.Source → Option α) : Option α :=
  match fields.lookup name with
  | some source => read source
  | none => some missing

/-- Read a name that may be null. -/
def nameOrNull? : Json.Source → Option (Option String)
  | .null => some none
  | source => source.string?.map some

/-- Read a truth value. -/
def truth? : Json.Source → Option Bool
  | .bool value => some value
  | _ => none

/-- Read a record. -/
def ofSource? (source : Json.Source) : Option Config := do
  let fields ← source.record? fieldNames
  let dataDirectory ← field? fields "data_dir" default.dataDirectory Json.Source.string?
  let idColumn ← field? fields "id_column" default.idColumn nameOrNull?
  let prettyRows ← field? fields "pretty_rows" default.prettyRows truth?
  let logFilter ← field? fields "log_filter" default.logFilter Json.Source.string?
  return { dataDirectory, idColumn, prettyRows, logFilter }

/-- Refuse a configuration that could not be used. -/
def validate (config : Config) : Except ConfigError Config :=
  if config.dataDirectory = "" then .error .emptyDataDirectory
  else
    match config.idColumn with
    | some column =>
        if FileName.isSegment column then .ok config else .error (.invalidIdColumn column)
    | none => .ok config

/-- Read the contents of a configuration file. -/
def ofBytes (path : String) (bytes : Bytes) : Except ConfigError Config :=
  match Utf8.text? bytes with
  | none => .error (.unreadable path .notText)
  | some text =>
      match (Json.Source.ofText? (text.map some)).bind ofSource? with
      | none => .error (.malformed path)
      | some config => config.validate

/-- Read a configuration file. -/
def load (disk : Disk) (path : String) : Except ConfigError Config :=
  match disk.read path with
  | .ok bytes => ofBytes path bytes
  | .error failure => .error (.unreadable path failure)

/-- Read the named configuration file, or else the one with the usual name if it is there. -/
def loadOrDefault (disk : Disk) : Option String → Except ConfigError Config
  | some path => load disk path
  | none => if disk.isFile defaultPath then load disk defaultPath else .ok default

/-- How tables are opened under a configuration. -/
def tableOptions (config : Config) : TableOptions where
  idColumn := config.idColumn
  prettyRows := config.prettyRows

/-- The configuration as an object with all fields. -/
def toJson (config : Config) : Json :=
  .object
    [("data_dir", .string config.dataDirectory),
     ("id_column", .ofString? config.idColumn),
     ("pretty_rows", .bool config.prettyRows),
     ("log_filter", .string config.logFilter)]

end Config

end TableStore
