/-
# Written files

Wherever files are kept and whatever else is stored, a file that has been written is read with the
bytes it was written with and no other file has changed, and a file that is there is among the names
that its directory lists.
-/

import TableStore.Proofs.Files.Stored

namespace TableStore

open HostPath

namespace Disk

variable {disk after : Disk} {text : String} {bytes : Bytes}

/-- Whether a text can be the path of a file that is written, whatever is on the disk. -/
structure Writable (text : String) : Prop where
  properParent : areProper (ofText text).parent = true
  shortParent : isTooLong (parentText text) = false
  proper : areProper (ofText text).parts = true
  short : isTooLong text = false
  noDirectory : ((ofText text).trailingSlash && !(ofText text).endsInDots) = false

/-- A write succeeds if the directories above can be made and contents can be put where the path
then leads. -/
theorem write_eq_ok_iff :
    disk.write text bytes = (.ok (), after) ↔ Writable text ∧ ∃ made location,
      disk.makeDirectories (disk.start (ofText text)) (ofText text).parent = (.ok (), made) ∧
        made.walk (made.start (ofText text)) (ofText text).steps = .ok location ∧
        made.put location bytes = .ok after := by
  constructor
  · intro written
    rw [write] at written
    split at written
    · cases written
    next properParent =>
    split at written
    · cases written
    next shortParent =>
    split at written
    · cases written
    next made making =>
    split at written
    · cases written
    next proper =>
    split at written
    · cases written
    next short =>
    split at written
    · cases written
    next noDirectory =>
    refine ⟨⟨by simpa using properParent, by simpa using shortParent, by simpa using proper,
      by simpa using short, by simpa using noDirectory⟩, made, ?_⟩
    cases walked : made.walk (made.start (ofText text)) (ofText text).steps with
    | error failure =>
        rw [walked] at written
        cases written
    | ok location =>
        rw [walked, Except.bind] at written
        cases put : made.put location bytes with
        | error failure =>
            rw [put] at written
            cases written
        | ok last =>
            rw [put] at written
            cases written
            exact ⟨location, making, rfl, put⟩
  · rintro ⟨writable, made, location, making, walked, put⟩
    rw [write]
    simp only [writable.properParent, writable.shortParent, writable.proper, writable.short,
      writable.noDirectory, making, walked, Except.bind, put, Bool.not_true, Bool.false_eq_true,
      if_false]

/-- After a write the path leads to the file, and no other file has changed: the directories that
were made take the place of none. -/
theorem locate_of_write (written : disk.write text bytes = (.ok (), after)) :
    ∃ location, after.locate text = .ok (location, .file bytes) ∧
      ∀ other, other ≠ location → after.file? other = disk.file? other := by
  obtain ⟨writable, made, location, making, walked, put⟩ := write_eq_ok_iff.mp written
  -- The walk goes through directories only, none of which has been replaced.
  have stay := node?_directory_of_put put
  obtain ⟨-, below, rfl⟩ := of_put put
  refine ⟨location, ?_, fun other apart => ?_⟩
  · refine locate_eq_ok_iff.mpr ⟨⟨writable.proper, writable.short⟩, walk_mono stay walked, ?_⟩
    rw [node?_insert made below, if_pos rfl]
  · have kept := node?_makeDirectories disk (disk.start (ofText text)) (ofText text).parent other
    rw [making] at kept
    rw [file?, file?, node?_insert made below, if_neg apart]
    rcases kept with same | ⟨missing, directory⟩
    · rw [same]
    · rw [missing, directory]

/-- A file that is written is read as it was written. -/
theorem read_of_write (written : disk.write text bytes = (.ok (), after)) :
    after.read text = .ok bytes := by
  obtain ⟨location, located, -⟩ := locate_of_write written
  exact read_eq_ok_iff.mpr ⟨location, located⟩

/-- Where the path of a file below a root leads is in a directory, to which the path without its
last part leads. -/
theorem walk_of_isFile {root name : String} {names : List String}
    (segments : ∀ part ∈ names ++ [name], FileName.isSegment part = true)
    (isFile : disk.isFile (join root ("/".intercalate (names ++ [name]))) = true) :
    areProper (partsOf root) = true ∧ ∃ location,
      disk.walk (disk.origin root) (partsOf root ++ names) = .ok location ∧
      disk.node? location = some .directory ∧
      (disk.node? (location ++ [name])).isSome = true := by
  have nonempty : names ++ [name] ≠ [] := by simp
  obtain ⟨bytes, read⟩ := isFile_iff.mp isFile
  obtain ⟨reached, located⟩ := read_eq_ok_iff.mp read
  refine ⟨proper_of_locate nonempty segments located, ?_⟩
  obtain ⟨-, walked, there⟩ :=
    (locate_join_eq_ok_iff (isPlain_intercalate nonempty segments)).mp located
  rw [segmentsOf_intercalate nonempty segments, ← List.append_assoc,
    walk_append_eq_ok_iff] at walked
  obtain ⟨location, above, last⟩ := walked
  have same := prefix_of_walk (fun part member =>
    segments part (List.mem_append_right names member)) last
  exact ⟨location, above, node?_of_walk last, by rw [← same, there]; rfl⟩

/-- A file is among the names that its directory lists. -/
theorem mem_list_of_isFile {root name : String} {names listed : List String} (several : names ≠ [])
    (segments : ∀ part ∈ names ++ [name], FileName.isSegment part = true)
    (isFile : disk.isFile (join root ("/".intercalate (names ++ [name]))) = true)
    (answered : (Files.disk disk root).list ("/".intercalate names) = .ok listed) :
    name ∈ listed := by
  have initial : ∀ part ∈ names, FileName.isSegment part = true := fun part member =>
    segments part (List.mem_append_left [name] member)
  obtain ⟨proper, location, walked, directory, there⟩ := walk_of_isFile segments isFile
  have located := locate_eq disk proper several initial
  rw [walked, Except.bind, directory] at located
  rw [Files.list, list, located] at answered
  by_cases long : isTooLong (join root ("/".intercalate names)) = true
  · rw [if_pos long] at answered
    cases answered
  · rw [if_neg long] at answered
    cases answered
    exact mem_children.mpr there

end Disk

namespace Files

variable {files : Files} {path : String} {bytes : Bytes}

/-- On a disk, a file is read if the disk can read it. -/
theorem read_disk_eq_ok_iff {tree : Disk} {root : String} :
    (Files.disk tree root).read path = .ok bytes ↔ tree.read (join root path) = .ok bytes := by
  rw [read]
  rcases tree.read (join root path) with failure | contents
  · constructor <;> (intro read; cases read)
  · simp [answered]

/-- In memory, a file is read if it is stored under the path. -/
theorem read_memory_eq_ok_iff {files : MemoryFiles} :
    (Files.memory files).read path = .ok bytes ↔ files.contents[path]? = some bytes := by
  rw [read, MemoryFiles.read]
  cases files.contents[path]? with
  | none => constructor <;> (intro read; cases read)
  | some contents => simp

/-- A file that is written is read as it was written. -/
theorem read_of_write (written : (files.write path bytes).1 = .ok ()) :
    (files.write path bytes).2.read path = .ok bytes := by
  cases files with
  | memory files =>
      simp [write, read, MemoryFiles.write, MemoryFiles.read]
  | disk tree root =>
      rw [write] at written ⊢
      cases outcome : tree.write (join root path) bytes with
      | mk answer after =>
          rw [outcome] at written
          cases answer with
          | error failure => cases written
          | ok _ => exact read_disk_eq_ok_iff.mpr (Disk.read_of_write outcome)

/-- A path names a file if one can be read. -/
theorem isFile_iff : files.isFile path = true ↔ ∃ bytes, files.read path = .ok bytes := by
  cases files with
  | memory files =>
      simp only [read_memory_eq_ok_iff]
      rw [isFile, MemoryFiles.isFile, Std.ExtTreeMap.contains_eq_isSome_getElem?,
        Option.isSome_iff_exists]
  | disk tree root =>
      simp only [read_disk_eq_ok_iff]
      exact Disk.isFile_iff

/-- A file that lies at a place is among the names that are listed in its area. -/
theorem mem_list_of_isFile {place : Place} {names : List String}
    (listed : files.list (place.area.directory place.table) = .ok names)
    (isFile : files.isFile place.path = true) : place.name ∈ names := by
  cases files with
  | memory files =>
      cases listed
      exact MemoryFiles.mem_list.mpr ⟨FileName.ne_empty_of_isSegment place.isName, place.path,
        isFile, (MemoryFiles.isBelow_directory place.isTable place.area place).mpr ⟨rfl, rfl⟩,
        MemoryFiles.segmentAfter_directory place⟩
  | disk tree root =>
      rw [Files.isFile, Place.path_eq_intercalate] at isFile
      rw [Place.directory_eq_intercalate] at listed
      exact @Disk.mem_list_of_isFile tree root place.name [place.table, place.area.name] names
        (List.cons_ne_nil _ _) place.isSegment_of_mem_names isFile listed

end Files

end TableStore
