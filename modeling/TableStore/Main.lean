/-
# The program

The outermost layer. It brings the part of the file system that a command can touch into a disk,
runs the command on that disk, carries out the changes that the run has made, and prints what the
run shows.
-/

import TableStore.CommandLine.Program
import TableStore.Files.Change

namespace TableStore.CommandLine

/-- What the reader of JSON and the file system have to say. -/
def wording : Wording where
  malformed := "malformed text"
  host
    | .missing => "no such file or directory"
    | .notDirectory => "not a directory"
    | .isDirectory => "is a directory"
    | .nameTooLong => "name too long"
    | .invalidPath => "path holds a null character"
    | .busy => "directory in use"
    | .notText => "not valid text"

/-- What is said about a mistake in a command line, if the program is called by a name. -/
def UsageError.complaint (callName : String) : UsageError → String
  | .helpAsked _ => ""
  | .versionAsked => ""
  | .nothingGiven path => (HelpPage.ofPath grammar [callName] path).text
  | .missingCommand => "error: a command is required\n"
  | .unknownCommand => "error: unrecognized command\n"
  | .missingWord => "error: a required argument was not provided\n"
  | .unknownArgument => "error: unexpected argument\n"
  | .missingValue => "error: an option needs a value\n"
  | .unexpectedValue => "error: an option takes no value\n"
  | .invalidCount => "error: a limit must be an unsigned number\n"
  | .repeatedOption => "error: an option was given more than once\n"

/-- The locations that a walk along a path passes, its start and its end included. -/
def passed (location : List String) : List String → List (List String)
  | [] => [location]
  | part :: rest =>
      let next :=
        if part = "." then location
        else if part = ".." then location.dropLast
        else location ++ [part]
      location :: passed next rest

/-- The name of a location in the file system. -/
def hostName (location : List String) : String :=
  "/" ++ "/".intercalate location

/-- Bring what is at a location into a disk, and so many levels below it. -/
def load : (levels : Nat) → (disk : Disk) → (location : List String) → IO Disk
  | levels, disk, location => do
      let place := (← IO.currentDir) / hostName location
      if ← place.isDir then
        let disk := { disk with nodes := disk.nodes.insert location .directory }
        match levels with
        | 0 => return disk
        | levels + 1 =>
            (← place.readDir).foldlM
              (fun disk entry => load levels disk (location ++ [entry.fileName])) disk
      else if ← place.pathExists then
        let contents ← IO.FS.readBinFile place
        return { disk with nodes := disk.nodes.insert location (.file contents.toList) }
      else return disk

/-- Bring everything along a path into a disk, and so many levels below its end. -/
def loadAlong (levels : Nat) (disk : Disk) (path : String) : IO Disk := do
  let start := if HostPath.isAbsolute path then [] else disk.workingDirectory
  let locations := passed start (HostPath.partsOf path)
  let disk ← locations.foldlM (load 0) disk
  load levels disk (locations.getLast?.getD start)

/-- How far below the data directory anything is stored: tables, their two directories, and the
files in these. -/
def storeLevels : Nat :=
  3

/-- Carry out a change in the file system. -/
def carryOut : Change → IO Unit
  | .removeFile location => IO.FS.removeFile (hostName location)
  | .removeDirectory location => IO.FS.removeDirAll (hostName location)
  | .makeDirectory location => IO.FS.createDirAll (hostName location)
  | .writeFile location contents =>
      IO.FS.writeBinFile (hostName location) ⟨contents.toArray⟩

/-- Run a command on the file system. -/
def Invocation.perform (invocation : Invocation) : IO Report := do
  let here := HostPath.partsOf (← IO.currentDir).toString
  let disk ← loadAlong 0 { Disk.empty with workingDirectory := here }
    (invocation.config.getD Config.defaultPath)
  let disk ←
    match invocation.configuration disk with
    | .ok config => loadAlong storeLevels disk config.dataDirectory
    | .error _ => pure disk
  let (report, after) := invocation.run disk
  (Change.between disk after).forM carryOut
  return report

/-- Run one command line. Output goes to standard output, and events and failures to standard
error. -/
def perform (arguments : List String) : IO UInt32 := do
  match Invocation.ofArguments arguments with
  | .error error =>
      let callName := (← IO.appPath).fileName.getD Event.programName
      IO.print (error.outputText callName)
      IO.eprint (error.complaint callName)
      return UInt32.ofNat error.exitStatus
  | .ok invocation =>
      let report ← invocation.perform
      (report.eventLines wording).forM fun text => IO.eprintln text
      IO.print report.outputText
      if let some failure := report.failure then
        IO.eprintln (failure.line wording)
      return UInt32.ofNat report.exitStatus

end TableStore.CommandLine

/-- The program. -/
def main (arguments : List String) : IO UInt32 :=
  TableStore.CommandLine.perform arguments
