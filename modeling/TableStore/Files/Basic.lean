/-
# Stored files

Files are kept in memory or below one directory of a disk. Either way they are named by relative
paths of segments between slashes, and there is just enough of a directory structure to list and
to remove what lies below a path.
-/

import TableStore.Files.Disk
import TableStore.Files.Memory

namespace TableStore

/-- Where the files are kept. -/
inductive Files where
  | memory (files : MemoryFiles)
  /-- The directory of a disk that the paths are relative to need not be there yet. -/
  | disk (tree : Disk) (root : String)

namespace Files

/-- The answer of a disk, with its refusals as failures of a path. -/
def answered {α : Type} (path : String) : Except HostFailure α → Except FileError α
  | .ok value => .ok value
  | .error failure => .error (.ofHost path failure)

/-- Store a file, replacing what was there. -/
def write (path : String) (bytes : Bytes) : Files → Except FileError Unit × Files
  | .memory files => (.ok (), .memory (files.write path bytes))
  | .disk tree root =>
      let (outcome, tree) := tree.write (HostPath.join root path) bytes
      (answered path outcome, .disk tree root)

/-- The contents of a file. -/
def read (path : String) : Files → Except FileError Bytes
  | .memory files => files.read path
  | .disk tree root => answered path (tree.read (HostPath.join root path))

/-- Remove a file. -/
def delete (path : String) (files : Files) : Except FileError Unit × Files :=
  match files with
  | .memory stored =>
      match stored.delete path with
      | .ok rest => (.ok (), .memory rest)
      | .error error => (.error error, files)
  | .disk tree root =>
      match tree.delete (HostPath.join root path) with
      | .ok rest => (.ok (), .disk rest root)
      | .error failure => (.error (.ofHost path failure), files)

/-- Whether a path names a file. -/
def isFile (path : String) : Files → Bool
  | .memory files => files.isFile path
  | .disk tree root => tree.isFile (HostPath.join root path)

/-- The names directly below a directory, ascending. A directory that is not there has none. -/
def list (directory : String) : Files → Except FileError (List String)
  | .memory files => .ok (files.list directory)
  | .disk tree root =>
      match tree.list (HostPath.join root directory) with
      | .error .missing => .ok []
      | outcome => answered directory outcome

/-- Remove a directory and everything below it. One that is not there needs no removing. -/
def deleteAll (directory : String) : Files → Except FileError Unit × Files
  | .memory files => (.ok (), .memory (files.deleteAll directory))
  | .disk tree root =>
      match tree.deleteAll (HostPath.join root directory) with
      | (.error .missing, tree) => (.ok (), .disk tree root)
      | (outcome, tree) => (answered directory outcome, .disk tree root)

/-- The files that a walk from the root finds, ascending by path. -/
def reachable : Files → List (String × Bytes)
  | .memory files => files.reachable
  | .disk tree root =>
      match tree.locate root with
      | .ok (location, .directory) =>
          (tree.filesWithin location).map fun file => ("/".intercalate file.1, file.2)
      | _ => []

end Files

end TableStore
