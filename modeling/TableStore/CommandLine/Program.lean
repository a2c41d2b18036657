/-
# The program

One run of the program on a disk: it reads the configuration, opens the database in the data
directory and runs one command. The run shows the lines of the command's output and those events
that the configured filter lets through, and it leaves a disk.
-/

import TableStore.CommandLine.Help
import TableStore.CommandLine.Run
import TableStore.LogFilter.Basic

namespace TableStore.CommandLine

/-- The exit status after a command line that is not run. Asking for help is no mistake. -/
def UsageError.exitStatus : UsageError → Nat
  | .helpAsked _ => 0
  | .versionAsked => 0
  | _ => 2

/-- The version of the program. -/
def version : String :=
  "0.1.0"

/-- What is printed for a command line that is not run, if the program is called by a name. What
was asked for is printed as output; a mistake leaves the output empty. -/
def UsageError.outputText (callName : String) : UsageError → String
  | .helpAsked path => (HelpPage.ofPath grammar [callName] path).text
  | .versionAsked => Event.programName ++ " " ++ version ++ "\n"
  | _ => ""

/-- Why a run fails. -/
inductive RunFailure where
  | command (error : CommandError)
  /-- The configured filter has a part that splits a character. -/
  | brokenFilter

/-- The exit status of a run that fails. -/
def RunFailure.exitStatus : RunFailure → Nat
  | .command _ => 1
  | .brokenFilter => 101

/-- What is said about a run that fails. -/
def RunFailure.line (wording : Wording) : RunFailure → String
  | .command error => error.code ++ ": " ++ error.message wording
  | .brokenFilter => "the configured filter cannot be read"

/-- What a run shows. -/
structure Report where
  output : List Json
  events : List Event
  /-- Why the run failed, if it did. -/
  failure : Option RunFailure

namespace Report

/-- The exit status of a run. -/
def exitStatus (report : Report) : Nat :=
  (report.failure.map RunFailure.exitStatus).getD 0

/-- The text of the output. -/
def outputText (report : Report) : String :=
  String.ofList (report.output.flatMap line)

/-- The lines of the events. -/
def eventLines (wording : Wording) (report : Report) : List String :=
  report.events.map (Event.line wording)

end Report

/-- The configuration of an invocation. A data directory of its own takes the place of the
configured one. -/
def Invocation.configuration (invocation : Invocation) (disk : Disk) :
    Except ConfigError Config := do
  let config ← Config.loadOrDefault disk invocation.config
  return { config with
    dataDirectory := invocation.dataDirectory.getD config.dataDirectory }

/-- A report of nothing but a failure. -/
def Report.ofFailure (failure : RunFailure) : Report where
  output := []
  events := []
  failure := some failure

/-- Run a command on the database that a configuration describes, and show the events that pass
a filter. -/
def Command.runOn (disk : Disk) (config : Config) (filter : LogFilter) (command : Command) :
    Report × Disk :=
  let store : Store :=
    { files := .disk disk config.dataDirectory
      faults := []
      journal := [.openingDatabase config.dataDirectory] }
  let (outcome, store) := (command.run ⟨config.tableOptions⟩).run store
  let events := store.journal.filter filter.shows
  let left :=
    match store.files with
    | .disk tree _ => tree
    | .memory _ => disk
  match outcome with
  | .ok output => ({ output, events, failure := none }, left)
  | .error error => ({ output := [], events, failure := some (.command error) }, left)

/-- Run the program as it was invoked. -/
def Invocation.run (invocation : Invocation) (disk : Disk) : Report × Disk :=
  match invocation.configuration disk with
  | .error error => (.ofFailure (.command (.config error)), disk)
  | .ok config =>
      match LogFilter.ofText? config.logFilter with
      | some filter => invocation.command.runOn disk config filter
      | none => (.ofFailure .brokenFilter, disk)

end TableStore.CommandLine
