/-
# Changes to a disk

What turns one tree of files into another, as a list of steps that can be carried out one after
another on the file system itself. What is to go is removed from the leaves up, and what is new
is made from the top down.
-/

import TableStore.Files.Disk

namespace TableStore

/-- One step on the way from one tree of files to another. -/
inductive Change where
  | removeFile (location : List String)
  | removeDirectory (location : List String)
  | makeDirectory (location : List String)
  | writeFile (location : List String) (contents : Bytes)
  deriving DecidableEq

namespace Change

/-- The step that removes what is at a location. -/
def removing (location : List String) : Node → Change
  | .directory => .removeDirectory location
  | .file _ => .removeFile location

/-- The step that puts something at a location. -/
def making (location : List String) : Node → Change
  | .directory => .makeDirectory location
  | .file contents => .writeFile location contents

/-- Whether a location can only get its new node after the old one has gone: it is to be free, or
a directory is to take the place of a file, or a file that of a directory. -/
def isRemoved (old : Node) : Option Node → Bool
  | none => true
  | some new => (old = .directory) ≠ (new = .directory)

/-- The steps from one tree of files to another. Locations are listed with a directory before
what it holds, so the removals run through them backwards. -/
def between (before after : Disk) : List Change :=
  let removed := before.nodes.toList.filter fun entry => isRemoved entry.2 (after.node? entry.1)
  let made := after.nodes.toList.filter fun entry => before.node? entry.1 ≠ some entry.2
  removed.reverse.map (fun entry => removing entry.1 entry.2) ++
    made.map fun entry => making entry.1 entry.2

end Change

end TableStore
