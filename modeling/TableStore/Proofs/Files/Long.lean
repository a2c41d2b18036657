/-
# Names that are too long

A table may have any name, but the name of a directory is bounded. As long as there is no root, a
table with too long a name is empty like any other; and nothing can ever be written for it.
-/

import TableStore.Proofs.Files.Apart
import TableStore.Proofs.Files.Fresh

namespace TableStore

open HostPath

/-- A name of one letter, and some more of them. -/
def longName : Nat → String
  | 0 => "m"
  | count + 1 => (longName count).push 'm'

/-- Names of any length are valid. -/
theorem isSegment_longName (count : Nat) : FileName.isSegment (longName count) = true := by
  induction count with
  | zero => decide
  | succ count ih =>
      have apart : ∀ other : String, other.toList.getLast? ≠ some 'm' →
          (longName count).push 'm' ≠ other := by
        rintro other differs rfl
        exact differs (by simp)
      have noDot := apart "." (by decide)
      have noDots := apart ".." (by decide)
      rw [FileName.isSegment, Bool.and_eq_true] at ih
      simp only [longName, FileName.isSegment, String.toList_push, List.all_append, ih.2]
      simp [noDot, noDots]

/-- The size of a long name. -/
theorem utf8ByteSize_longName (count : Nat) : (longName count).utf8ByteSize = count + 1 := by
  induction count with
  | zero => decide
  | succ count ih =>
      rw [longName, String.utf8ByteSize_push, ih]
      rfl

/-- The path of the rows of a table with a name of this size is not too long. -/
theorem HostPath.isTooLong_rowDirectory {name : String} (size : name.utf8ByteSize = 256) :
    isTooLong (join "data" (Area.rows.directory name)) = false := by
  have path := Disk.utf8ByteSize_join_le "data" (Area.rows.directory name)
  have directory : (Area.rows.directory name).utf8ByteSize = 261 := by
    rw [Area.directory, String.utf8ByteSize_append, size]
    rfl
  have root : "data".utf8ByteSize = 4 := rfl
  rw [root, directory] at path
  exact decide_eq_false (Nat.not_lt.mpr (Nat.le_trans path (by decide)))

namespace Disk

variable {disk : Disk} {root table : String} {names : List String}

/-- Files can be kept below a plain root on a disk without files. -/
theorem rooted_data : Disk.empty.Rooted "data" := by
  have parts : partsOf "data" = ["data"] := by decide
  refine (holds_empty ?_ ?_ ?_).toRooted <;> rw [parts] <;> decide

namespace Rooted

variable (rooted : disk.Rooted root) (long : nameLimit < table.utf8ByteSize)
  (segments : ∀ name ∈ table :: names, FileName.isSegment name = true)

include rooted long segments

/-- There is no file in the directory of a table whose name is too long. -/
theorem isFile_of_long : disk.isFile (join root ("/".intercalate (table :: names))) = false := by
  rw [Disk.isFile]
  rcases rooted.node?_root with there | missing
  · rw [rooted.locate_of_long there long segments]
  · rw [rooted.locate_of_bare (.inl missing) segments]
    cases isTooLong (join root ("/".intercalate (table :: names))) <;> rfl

/-- Nothing can be written into the directory of a table whose name is too long, though the root may
be made in the attempt. -/
theorem write_of_long (several : names ≠ []) (bytes : Bytes) :
    ∃ left, disk.write (join root ("/".intercalate (table :: names))) bytes =
      (.error .nameTooLong, left) ∧ left.Rooted root := by
  rw [write_eq disk rooted.proper (List.cons_ne_nil _ _) segments,
    List.dropLast_cons_of_ne_nil several]
  split
  · exact ⟨disk, rfl, rooted⟩
  obtain ⟨made, making, beside, -, -⟩ := rooted.makeRoot table
  obtain ⟨noDot, noUp⟩ := ne_dots_of_isSegment (segments table List.mem_cons_self)
  rw [makeDirectories_append disk, making]
  simp only [Disk.makeDirectories, if_neg noDot, if_neg noUp, if_pos long]
  exact ⟨made, rfl, beside.rooted⟩

end Rooted

end Disk

namespace Files

/-- As long as there is no root, the directories of all tables are empty. -/
theorem list_of_missing {tree : Disk} {root table : String} (rooted : tree.Rooted root)
    (isTable : FileName.isSegment table = true) (missing : tree.node? (tree.base root) = none)
    (area : Area) (room : HostPath.isTooLong (HostPath.join root (area.directory table)) = false) :
    Files.list (area.directory table) (.disk tree root) = .ok [] := by
  rw [Files.list, Disk.list]
  rw [Place.directory_eq_intercalate] at room ⊢
  rw [rooted.locate_of_bare (.inl missing) (Place.isSegment_of_mem_directory isTable area), room]
  rfl

/-- The directories of a table whose name is too long for a file are empty as long as there is no
root, and then cannot be listed. -/
theorem list_of_long {tree : Disk} {root table : String} (rooted : tree.Rooted root)
    (isTable : FileName.isSegment table = true) (long : Disk.nameLimit < table.utf8ByteSize)
    (area : Area) (room : HostPath.isTooLong (HostPath.join root (area.directory table)) = false) :
    Files.list (area.directory table) (.disk tree root) =
      if tree.node? (tree.base root) = none then .ok []
      else .error (.io (area.directory table) (.host .nameTooLong)) := by
  rcases rooted.node?_root with there | missing
  · rw [Files.list, Disk.list, Place.directory_eq_intercalate, rooted.locate_of_long there long
      (Place.isSegment_of_mem_directory isTable area), if_neg (by simp [there])]
    rfl
  · rw [if_pos missing, list_of_missing rooted isTable missing area room]

section

variable {tree : Disk} {root : String} (rooted : tree.Rooted root) (place : Place)
  (long : Disk.nameLimit < place.table.utf8ByteSize)

include rooted long

/-- A table whose name is too long for a directory has no files. -/
theorem isFile_of_long : Files.isFile place.path (.disk tree root) = false := by
  rw [Files.isFile, place.path_eq_intercalate]
  exact rooted.isFile_of_long long place.isSegment_of_mem_names

/-- A file of a table whose name is too long for a directory is refused. -/
theorem write_of_long (bytes : Bytes) :
    ∃ left, Files.write place.path bytes (.disk tree root) =
      (.error (.io place.path (.host .nameTooLong)), .disk left root) ∧ left.Rooted root := by
  obtain ⟨left, refused, alsoRooted⟩ := rooted.write_of_long long place.isSegment_of_mem_names
    (List.cons_ne_nil _ _) bytes
  refine ⟨left, ?_, alsoRooted⟩
  change tree.write (join root ("/".intercalate place.names)) bytes = _ at refused
  rw [← place.path_eq_intercalate] at refused
  rw [write_disk, refused]
  rfl

end

end Files

end TableStore
