/-
# What is stored under a path

The files of a store by their paths, whatever keeps them: what a path of the store names below the
root, and nothing else of the disk.
-/

import TableStore.Proofs.Files.Medium
import TableStore.Proofs.Files.Region

namespace TableStore

open HostPath

/-- The contents of the file at a location, if there is one. -/
def Disk.file? (disk : Disk) (location : List String) : Option Bytes :=
  match disk.node? location with
  | some (.file bytes) => some bytes
  | _ => none

/-- A file is at a location if it is what is there. -/
theorem Disk.file?_eq_some_iff {disk : Disk} {location : List String} {bytes : Bytes} :
    disk.file? location = some bytes ↔ disk.node? location = some (.file bytes) := by
  rw [file?]
  split
  · next other there => rw [there, Option.some.injEq, Option.some.injEq, Node.file.injEq]
  · next noFile => exact iff_of_false nofun (noFile bytes)

/-- What is listed is ascending. -/
theorem Files.pairwise_list (files : Files) {directory : String} {names : List String}
    (listed : files.list directory = .ok names) : names.Pairwise (· < ·) := by
  cases files with
  | memory files =>
      cases listed
      exact files.pairwise_list directory
  | disk tree root =>
      rw [Files.list, Disk.list] at listed
      cases located : tree.locate (join root directory) with
      | error failure =>
          rw [located] at listed
          cases failure <;> cases listed
          exact .nil
      | ok found =>
          obtain ⟨location, node⟩ := found
          rw [located] at listed
          cases node with
          | file bytes => cases listed
          | directory =>
              cases listed
              exact Disk.pairwise_children tree location

/-- The contents of the file that is stored under a path, if there is one. -/
def Files.stored? (path : String) : Files → Option Bytes
  | .memory files => files.contents[path]?
  | .disk tree root =>
      match tree.walk (tree.origin root) (partsOf root) with
      | .ok location => tree.file? (location ++ segmentsOf path)
      | .error _ => none

/-- What stands between the slashes of the path of a place are its parts. -/
theorem Place.segmentsOf_path (place : Place) : segmentsOf place.path = place.names := by
  rw [place.path_eq_intercalate]
  exact segmentsOf_intercalate (List.cons_ne_nil _ _) place.isSegment_of_mem_names

namespace Disk

variable {disk : Disk} {root : String}

/-- Below a root where files can be kept, what is stored under a path is at the location of its
parts. -/
theorem Rooted.stored? (rooted : disk.Rooted root) (path : String) :
    (Files.disk disk root).stored? path = disk.file? (disk.base root ++ segmentsOf path) := by
  rw [Files.stored?]
  rcases rooted.walk_root with walked | ⟨walked, missing⟩
  · rw [walked]
  · have apart : disk.base root ≠ disk.base root ++ segmentsOf path := by
      simpa using segmentsOf_ne_nil path
    rw [walked, file?, rooted.isTree.node?_eq_none (List.prefix_append _ _) apart
      (by rw [missing]; simp)]

end Disk

namespace Medium.Holds

variable {medium : Medium} {content : Content} {files : Files}

/-- Under the path of a place, what is held there is stored. -/
theorem stored?_path (holds : medium.Holds content files) (place : Place) :
    files.stored? place.path = content place := by
  cases holds with
  | memory holds => exact holds.getElem? place
  | disk holds =>
      rw [holds.stored?, Disk.file?, place.segmentsOf_path, holds.node?_place]
      cases content place <;> rfl

/-- What is stored is stored at a place. -/
theorem exists_place (holds : medium.Holds content files) {path : String}
    (stored : (files.stored? path).isSome = true) : ∃ place : Place, place.path = path := by
  cases holds with
  | memory holds =>
      exact holds.exists_place path (Std.ExtTreeMap.mem_iff_isSome_getElem?.mpr stored)
  | disk holds =>
      rw [holds.stored?, Disk.file?] at stored
      split at stored
      · next bytes there =>
          generalize same : segmentsOf path = names at there
          cases holds.layout names _ (same ▸ segmentsOf_ne_nil path) there with
          | file place bytes =>
              exact ⟨place, segmentsOf_injective (place.segmentsOf_path.trans same.symm)⟩
      · cases stored

/-- Files with the same contents at all places are stored under the same paths. -/
theorem stored?_congr {other : Medium} {others : Files} (holds : medium.Holds content files)
    (alsoHolds : other.Holds content others) (path : String) :
    files.stored? path = others.stored? path := by
  by_cases atPlace : ∃ place : Place, place.path = path
  · obtain ⟨place, rfl⟩ := atPlace
    rw [holds.stored?_path, alsoHolds.stored?_path]
  · have nothing := mt holds.exists_place atPlace
    have alsoNothing := mt alsoHolds.exists_place atPlace
    rw [Bool.not_eq_true, Option.isSome_eq_false_iff, Option.isNone_iff_eq_none]
      at nothing alsoNothing
    rw [nothing, alsoNothing]

end Medium.Holds

end TableStore
