/-
# Files on a disk

A disk is a tree of directories and files, kept as a map from locations to what is there. Every
location is named from the top, so the map is the tree. A path is walked one part at a time, and
each part that another follows must be a directory. Directories are there in their own right:
they are made before a file is written into them and stay when it is gone.
-/

import Std.Data.ExtTreeMap
import TableStore.Files.Failure
import TableStore.Text.Utf8

namespace TableStore

/-- What is at a location. -/
inductive Node where
  | directory
  | file (contents : Bytes)
  deriving DecidableEq

/-- A path, taken apart. -/
structure HostPath where
  /-- Whether the path starts at the top rather than in the working directory. -/
  absolute : Bool
  /-- The parts between slashes that are not empty. -/
  parts : List String
  /-- Whether a slash follows the last part. -/
  trailingSlash : Bool

namespace HostPath

/-- Whether a text starts at the top. -/
def isAbsolute (text : String) : Bool :=
  text.toList.head? = some '/'

/-- What stands between the slashes of a text, be it empty. -/
def segmentsOf (text : String) : List String :=
  (text.toList.splitOn '/').map String.ofList

/-- The parts of a text between slashes that are not empty. -/
def partsOf (text : String) : List String :=
  (segmentsOf text).filter fun part => part ≠ ""

/-- Take a path apart. -/
def ofText (text : String) : HostPath where
  absolute := isAbsolute text
  parts := partsOf text
  trailingSlash := partsOf text ≠ [] && text.toList.getLast? = some '/'

/-- Whether parts can be handed to the file system, where a null character ends every path. -/
def areProper (parts : List String) : Bool :=
  parts.all fun part => !part.toList.contains '\x00'

/-- The greatest size of a path, in bytes. -/
def sizeLimit : Nat :=
  4095

/-- Whether the file system refuses a text as a path because of its size, whatever it names. -/
def isTooLong (text : String) : Bool :=
  sizeLimit < text.utf8ByteSize

/-- Segments without the empty ones and the dots at the end, which add nothing to a path. -/
def withoutTail (segments : List String) : List String :=
  (segments.reverse.dropWhile fun segment => segment = "" ∨ segment = ".").reverse

/-- The part of a text that names the directory in which the path lies. -/
def parentText (text : String) : String :=
  "/".intercalate (withoutTail (withoutTail (segmentsOf text)).dropLast)

/-- The parts that tell a path from others. A dot counts only at the start of a path that does
not start at the top. -/
def essentialParts (text : String) : List String :=
  let parts := partsOf text
  let leading := parts.takeWhile fun part => part = "."
  (if isAbsolute text then [] else leading.take 1) ++ parts.filter fun part => part ≠ "."

/-- Whether two texts are the same path: how many slashes they have in one place, and whether
there are any at the end, does not matter. -/
def same (first second : String) : Bool :=
  isAbsolute first = isAbsolute second && essentialParts first = essentialParts second

/-- The parts to walk: a slash at the end asks for a directory, as does a single dot. -/
def steps (path : HostPath) : List String :=
  if path.trailingSlash then path.parts ++ ["."] else path.parts

/-- Whether the last part is a dot or two, which name a directory by where they stand. -/
def endsInDots (path : HostPath) : Bool :=
  path.parts.getLast? = some "." || path.parts.getLast? = some ".."

/-- The parts of the directory that a path lies in. Dots at its end do not count. -/
def parent (path : HostPath) : List String :=
  ((path.parts.reverse.dropWhile fun part => part = ".").drop 1).reverse

/-- A path below a root. A path that starts at the top ignores the root. -/
def join (root path : String) : String :=
  if path = "" then root
  else if isAbsolute path then path
  else if root = "" ∨ root.toList.getLast? = some '/' then root ++ path
  else root ++ "/" ++ path

end HostPath

/-- A tree of directories and files. The top itself is always a directory. -/
structure Disk where
  nodes : Std.ExtTreeMap (List String) Node
  /-- Where paths start that do not start at the top. -/
  workingDirectory : List String

namespace Disk

/-- A disk without files whose working directory is the top. -/
def empty : Disk where
  nodes := ∅
  workingDirectory := []

/-- What is at a location. -/
def node? (disk : Disk) : List String → Option Node
  | [] => some .directory
  | location => disk.nodes[location]?

/-- Where a path starts. -/
def start (disk : Disk) (path : HostPath) : List String :=
  if path.absolute then [] else disk.workingDirectory

/-- The greatest size of a name, in bytes. -/
def nameLimit : Nat :=
  255

/-- Walk from a location. Every part is looked up in a directory; what the last part names need
not be there. -/
def walk (disk : Disk) : (location : List String) → (parts : List String) →
    Except HostFailure (List String)
  | location, [] => .ok location
  | location, part :: rest =>
      match disk.node? location with
      | none => .error .missing
      | some (.file _) => .error .notDirectory
      | some .directory =>
          if part = "." then disk.walk location rest
          else if part = ".." then disk.walk location.dropLast rest
          else if nameLimit < part.utf8ByteSize then .error .nameTooLong
          else disk.walk (location ++ [part]) rest

/-- The location that a path names, and what is there. -/
def locate (disk : Disk) (text : String) : Except HostFailure (List String × Node) := do
  let path := HostPath.ofText text
  if !HostPath.areProper path.parts then throw .invalidPath
  if HostPath.isTooLong text then throw .nameTooLong
  let location ← disk.walk (disk.start path) path.steps
  match disk.node? location with
  | some node => return (location, node)
  | none => throw .missing

/-- Make the directories along a path that are not there, up to the first failure. -/
def makeDirectories (disk : Disk) : (location : List String) → (parts : List String) →
    Except HostFailure Unit × Disk
  | _, [] => (.ok (), disk)
  | location, part :: rest =>
      if part = "." then disk.makeDirectories location rest
      else if part = ".." then disk.makeDirectories location.dropLast rest
      else if nameLimit < part.utf8ByteSize then (.error .nameTooLong, disk)
      else
        let next := location ++ [part]
        match disk.node? next with
        | some .directory => disk.makeDirectories next rest
        | some (.file _) => (.error .notDirectory, disk)
        | none =>
            { disk with nodes := disk.nodes.insert next .directory }.makeDirectories next rest

/-- Put contents at a location, which must be free or hold a file. -/
def put (disk : Disk) (location : List String) (bytes : Bytes) : Except HostFailure Disk :=
  match disk.node? location with
  | some .directory => .error .isDirectory
  | _ => .ok { disk with nodes := disk.nodes.insert location (.file bytes) }

/-- Write a file, making the directories above it. The directories stay if the write fails. -/
def write (disk : Disk) (text : String) (bytes : Bytes) : Except HostFailure Unit × Disk :=
  let path := HostPath.ofText text
  if !HostPath.areProper path.parent then (.error .invalidPath, disk)
  else if HostPath.isTooLong (HostPath.parentText text) then (.error .nameTooLong, disk)
  else
    match disk.makeDirectories (disk.start path) path.parent with
    | (.error failure, disk) => (.error failure, disk)
    | (.ok (), disk) =>
        if !HostPath.areProper path.parts then (.error .invalidPath, disk)
        else if HostPath.isTooLong text then (.error .nameTooLong, disk)
        else if path.trailingSlash && !path.endsInDots then (.error .isDirectory, disk)
        else
          match (disk.walk (disk.start path) path.steps).bind (disk.put · bytes) with
          | .error failure => (.error failure, disk)
          | .ok disk => (.ok (), disk)

/-- The contents of a file. -/
def read (disk : Disk) (text : String) : Except HostFailure Bytes := do
  match ← disk.locate text with
  | (_, .file contents) => return contents
  | (_, .directory) => throw .isDirectory

/-- Remove a file. -/
def delete (disk : Disk) (text : String) : Except HostFailure Disk := do
  match ← disk.locate text with
  | (location, .file _) => return { disk with nodes := disk.nodes.erase location }
  | (_, .directory) => throw .isDirectory

/-- Whether a path names a file. -/
def isFile (disk : Disk) (text : String) : Bool :=
  match disk.locate text with
  | .ok (_, .file _) => true
  | _ => false

/-- The names in the directory at a location, ascending. -/
def children (disk : Disk) (location : List String) : List String :=
  disk.nodes.keys.filterMap fun other =>
    if other.dropLast = location then other.getLast? else none

/-- The names in a directory, ascending. -/
def list (disk : Disk) (text : String) : Except HostFailure (List String) := do
  match ← disk.locate text with
  | (location, .directory) => return disk.children location
  | (_, .file _) => throw .notDirectory

/-- Whether a location is another one or lies below it. -/
def isWithin (location other : List String) : Bool :=
  location.isPrefixOf other

/-- Remove a directory with all that is below it. What is below goes first, and then the path is
walked again up to its last part, which fails if it led through something that is gone. The
directory itself stays then, as it does if the path names it by dots or if it is the top. -/
def deleteAll (disk : Disk) (text : String) : Except HostFailure Unit × Disk :=
  match disk.locate text with
  | .error failure => (.error failure, disk)
  | .ok (_, .file _) => (.error .notDirectory, disk)
  | .ok (location, .directory) =>
      let path := HostPath.ofText text
      let emptied :=
        { disk with
          nodes := disk.nodes.filter fun other _ =>
            other = location || !isWithin location other }
      match emptied.walk (disk.start path) (path.parts.dropLast ++ ["."]) with
      | .error failure => (.error failure, emptied)
      | .ok _ =>
          if location = [] ∨ path.endsInDots then (.error .busy, emptied)
          else (.ok (), { emptied with nodes := emptied.nodes.erase location })

/-- All files at or below a location, each with the parts of its path from there. -/
def filesWithin (disk : Disk) (location : List String) : List (List String × Bytes) :=
  disk.nodes.toList.filterMap fun entry =>
    match entry with
    | (other, .file contents) =>
        if isWithin location other then some (other.drop location.length, contents) else none
    | (_, .directory) => none

end Disk

end TableStore
