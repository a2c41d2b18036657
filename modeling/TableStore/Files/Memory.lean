/-
# Files in memory

A flat, sorted map from paths to contents. Directories are only a way of reading paths: what
lies below a directory is a contiguous stretch of the map.
-/

import Std.Data.ExtTreeMap
import Std.Data.ExtTreeSet
import TableStore.Files.Failure
import TableStore.Text.Utf8

namespace TableStore

/-- Files in memory, by path. -/
structure MemoryFiles where
  contents : Std.ExtTreeMap String Bytes

namespace MemoryFiles

/-- No files. -/
def empty : MemoryFiles where
  contents := ∅

/-- What every path below a directory starts with: the directory without trailing slashes, and
one slash. The directory without a name holds everything. -/
def stem (directory : String) : List Char :=
  if directory = "" then []
  else (directory.toList.reverse.dropWhile fun c => c = '/').reverse ++ ['/']

/-- Whether a path lies below a directory. -/
def isBelow (directory path : String) : Bool :=
  (stem directory).isPrefixOf path.toList

/-- The paths below a directory, ascending: the first that is not less than the stem, and from
there on as long as they start with it. -/
def pathsBelow (files : MemoryFiles) (directory : String) : List String :=
  (files.contents.keys.dropWhile fun path => path < String.ofList (stem directory)).takeWhile
    (isBelow directory)

/-- The first segment of a path after the stem of a directory. -/
def segmentAfter (directory path : String) : String :=
  String.ofList ((path.toList.drop (stem directory).length).takeWhile fun c => c ≠ '/')

/-- Store a file. -/
def write (files : MemoryFiles) (path : String) (bytes : Bytes) : MemoryFiles where
  contents := files.contents.insert path bytes

/-- The contents of a file. -/
def read (files : MemoryFiles) (path : String) : Except FileError Bytes :=
  match files.contents[path]? with
  | some bytes => .ok bytes
  | none => .error (.notFound path)

/-- Remove a file. -/
def delete (files : MemoryFiles) (path : String) : Except FileError MemoryFiles :=
  if files.contents.contains path then .ok ⟨files.contents.erase path⟩
  else .error (.notFound path)

/-- Whether a file is stored under a path. -/
def isFile (files : MemoryFiles) (path : String) : Bool :=
  files.contents.contains path

/-- The names directly below a directory, ascending. -/
def list (files : MemoryFiles) (directory : String) : List String :=
  let names := (files.pathsBelow directory).map (segmentAfter directory)
  (Std.ExtTreeSet.ofList (names.filter fun name => name ≠ "")).toList

/-- Remove everything below a directory. -/
def deleteAll (files : MemoryFiles) (directory : String) : MemoryFiles where
  contents := files.contents.filter fun path _ => !isBelow directory path

/-- The files that a walk along listed names finds: those whose path has no empty segment. -/
def reachable (files : MemoryFiles) : List (String × Bytes) :=
  files.contents.toList.filter fun file => (file.1.splitOn "/").all fun segment => segment ≠ ""

end MemoryFiles

end TableStore
