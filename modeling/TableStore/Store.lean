/-
# The store

The state that all tables share: the stored files, the failures that have been asked for, and
the journal. An operation on the store either answers or fails, and in both cases leaves a
store: what it had written before it failed stays written.
-/

import TableStore.Event
import TableStore.Files.Basic

namespace TableStore

/-- A kind of access to the files. -/
inductive Access where
  | write
  | read
  | delete
  | probe
  | list
  | deleteAll
  deriving DecidableEq, Repr

/-- An order that one kind of access to exactly one path shall fail. -/
structure Fault where
  access : Access
  path : String
  deriving DecidableEq, Repr

/-- The files, the ordered failures, and the events so far. -/
structure Store where
  files : Files
  faults : List Fault
  journal : List Event
  /-- Whether the next probes shall fail, one after another, whatever their path; those after the
  last of these do not. -/
  failingProbes : List Bool := []

/-- An operation on the store that may fail. A failure keeps what was done before it. -/
abbrev StoreM (ε : Type) :=
  ExceptT ε (StateM Store)

namespace Store

/-- A store without faults and events. -/
def ofFiles (files : Files) : Store where
  files
  faults := []
  journal := []

/-- Report an event. -/
def report (event : Event) : StateM Store Unit :=
  modify fun store => { store with journal := store.journal ++ [event] }

/-- Fail if this access to this path was ordered to fail. -/
def checkFault (access : Access) (path : String) : StoreM FileError Unit := do
  if (← get).faults.contains ⟨access, path⟩ then throw (.io path .injected)

/-- Run an operation that changes the files. -/
def change (operation : Files → Except FileError Unit × Files) : StoreM FileError Unit := do
  let store ← get
  let (outcome, files) := operation store.files
  set { store with files }
  ExceptT.mk (pure outcome)

/-- Run an operation that only looks at the files. -/
def inspect {α : Type} (operation : Files → Except FileError α) : StoreM FileError α := do
  ExceptT.mk (pure (operation (← get).files))

/-- Store a file, replacing what was there. -/
def write (path : String) (bytes : Bytes) : StoreM FileError Unit := do
  checkFault .write path
  change (Files.write path bytes)

/-- The contents of a file. -/
def read (path : String) : StoreM FileError Bytes := do
  checkFault .read path
  inspect (Files.read path)

/-- Remove a file. -/
def delete (path : String) : StoreM FileError Unit := do
  checkFault .delete path
  change (Files.delete path)

/-- Fail if the next probe was ordered to fail. -/
def checkProbe (path : String) : StoreM FileError Unit := do
  let store ← get
  set { store with failingProbes := store.failingProbes.tail }
  if store.failingProbes.head? = some true then throw (.io path .injected)

/-- Whether a path names a file. -/
def isFile (path : String) : StoreM FileError Bool := do
  checkFault .probe path
  checkProbe path
  inspect fun files => .ok (files.isFile path)

/-- The names directly below a directory, ascending. -/
def list (directory : String) : StoreM FileError (List String) := do
  checkFault .list directory
  inspect (Files.list directory)

/-- Remove a directory and everything below it. -/
def deleteAll (directory : String) : StoreM FileError Unit := do
  checkFault .deleteAll directory
  change (Files.deleteAll directory)

end Store

end TableStore
