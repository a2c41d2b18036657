/-
# Tables apart

Every path of a table starts with the name of the table and a slash. So files that look the same
below it answer every access to the table alike, and an access changes nothing that is stored
under other paths, be they foreign files or those of a table whose name starts the same.
-/

import TableStore.Proofs.Files.Shut
import TableStore.Proofs.Files.Stored
import TableStore.Proofs.Files.Subtree

namespace TableStore

open HostPath MemoryFiles

/-- A path lies below a table if its first segment of several is the table. -/
theorem isBelow_iff_segmentsOf {table : String} (isTable : FileName.isSegment table = true)
    (path : String) :
    isBelow table path = true ↔ ∃ rest, rest ≠ [] ∧ segmentsOf path = table :: rest := by
  have noSlash := FileName.slash_notMem_of_isSegment isTable
  rw [isBelow_iff, stem_table isTable]
  constructor
  · rintro ⟨tail, letters⟩
    have text : path = table ++ "/" ++ String.ofList tail := by
      apply String.toList_inj.mp
      rw [← letters]
      simp
    refine ⟨segmentsOf (String.ofList tail), segmentsOf_ne_nil _, ?_⟩
    rw [text, segmentsOf_append_slash, segmentsOf_of_notMem noSlash, List.singleton_append]
  · rintro ⟨rest, several, segments⟩
    have text := intercalate_segmentsOf path
    rw [segments, String.intercalate_cons_of_ne_nil several] at text
    rw [← text]
    exact ⟨("/".intercalate rest).toList, by simp⟩

namespace MemoryFiles

/-- What lies below the directory of an area lies below the table. -/
theorem isBelow_of_isBelow_directory {table : String} (isTable : FileName.isSegment table = true)
    {area : Area} {path : String} (below : isBelow (area.directory table) path = true) :
    isBelow table path = true := by
  rw [isBelow_iff] at below ⊢
  refine List.IsPrefix.trans ?_ below
  rw [stem_table isTable, stem_directory, area.toList_directory]
  exact ⟨area.name.toList ++ ['/'], by simp⟩

/-- A directory is listed alike if there are files below it under the same paths, whatever is in
them. -/
theorem list_eq_of_mem_iff {first second : MemoryFiles} {directory : String}
    (same : ∀ path, isBelow directory path = true →
      (path ∈ first.contents ↔ path ∈ second.contents)) :
    first.list directory = second.list directory := by
  refine eq_of_ascending (pairwise_list _ _) (pairwise_list _ _) fun name => ?_
  rw [mem_list, mem_list]
  refine and_congr_right fun _ => exists_congr fun path => ?_
  constructor
  · rintro ⟨stored, below, named⟩
    exact ⟨(same path below).mp stored, below, named⟩
  · rintro ⟨stored, below, named⟩
    exact ⟨(same path below).mpr stored, below, named⟩

/-- A directory below which the same files are is listed alike. -/
theorem list_congr {first second : MemoryFiles} {directory : String}
    (same : ∀ path, isBelow directory path = true →
      first.contents[path]? = second.contents[path]?) :
    first.list directory = second.list directory :=
  list_eq_of_mem_iff fun path below => by
    rw [Std.ExtTreeMap.mem_iff_isSome_getElem?, Std.ExtTreeMap.mem_iff_isSome_getElem?,
      same path below]

end MemoryFiles

namespace Files

/-- Whether the root of files stays where it is when directories are made. -/
def Anchored : Files → Prop
  | .memory _ => True
  | .disk tree root => tree.Anchored root

/-- Whether the root of files stays where it is when a table is removed. -/
def Bypasses (table : String) : Files → Prop
  | .memory _ => True
  | .disk tree root => tree.Bypasses root table

/-- Whether the root of files stays where it is, whatever is made and removed. -/
structure Steady (files : Files) : Prop where
  anchored : files.Anchored
  bypasses : ∀ table, FileName.isSegment table = true → files.Bypasses table

/-- Whether files tell that they have no table with a name. A disk whose root is not there does so
for all names, but as soon as there is a root it refuses those that are too long for a file. -/
def Hosts (table : String) : Files → Prop
  | .memory _ => True
  | .disk tree root =>
      tree.node? (tree.base root) = some .directory ∨ table.utf8ByteSize ≤ Disk.nameLimit

/-- Whether files look the same below a table. -/
inductive AlikeBelow (table : String) : Files → Files → Prop where
  | memory {first second : MemoryFiles}
      (same : ∀ path, isBelow table path = true →
        first.contents[path]? = second.contents[path]?) :
      AlikeBelow table (.memory first) (.memory second)
  | disk {first second : Disk} {root : String}
      (alike : Disk.AlikeBelow root table first second) :
      AlikeBelow table (.disk first root) (.disk second root)
  | shut {tree : Disk} {root : String} (shut : tree.Shut root) :
      AlikeBelow table (.disk tree root) (.disk tree root)

/-- Whether files have come from others by changes below a table only. -/
inductive Beside (table : String) : Files → Files → Prop where
  | memory {first second : MemoryFiles}
      (same : ∀ path, isBelow table path = false →
        second.contents[path]? = first.contents[path]?) :
      Beside table (.memory first) (.memory second)
  | disk {first second : Disk} {root : String} (rooted : first.Rooted root)
      (beside : Disk.Beside root table first second) :
      Beside table (.disk first root) (.disk second root)
  | shut {tree : Disk} {root : String} (shut : tree.Shut root) :
      Beside table (.disk tree root) (.disk tree root)

section

variable {table : String} {files first second third : Files}

namespace AlikeBelow

/-- Files look like themselves. -/
theorem refl (anchored : files.Anchored) : AlikeBelow table files files := by
  cases files with
  | memory files => exact .memory fun _ _ => rfl
  | disk tree root =>
      rcases anchored.rooted_or_shut with rooted | shut
      · exact .disk (.refl rooted)
      · exact .shut shut

/-- The root of files that look the same stays where it is. -/
theorem anchored (alike : AlikeBelow table first second) : first.Anchored := by
  cases alike with
  | memory same => trivial
  | disk alike => exact .of_rooted alike.rooted
  | shut shut => exact .of_shut shut

/-- The same tables are bypassed where files look the same. -/
theorem bypasses (alike : AlikeBelow table first second) {other : String}
    (bypasses : first.Bypasses other) : second.Bypasses other := by
  cases alike with
  | memory same => trivial
  | disk alike => exact Disk.Bypasses.of_working bypasses alike.working
  | shut _ => exact bypasses

/-- Files look the same both ways. -/
theorem symm (alike : AlikeBelow table first second) : AlikeBelow table second first := by
  cases alike with
  | memory same => exact .memory fun path below => (same path below).symm
  | disk alike => exact .disk alike.symm
  | shut shut => exact .shut shut

/-- Files that look like the same ones look the same. -/
theorem trans (alike : AlikeBelow table first second) (further : AlikeBelow table second third) :
    AlikeBelow table first third := by
  cases alike with
  | memory same =>
      cases further with
      | memory alsoSame =>
          exact .memory fun path below => (same path below).trans (alsoSame path below)
  | disk alike =>
      cases further with
      | disk further => exact .disk (alike.trans further)
      | shut _ => exact .disk alike
  | shut _ => exact further

/-- Files that look the same have the same files below the table. -/
theorem stored? (alike : AlikeBelow table first second) (isTable : FileName.isSegment table = true)
    {path : String} (below : isBelow table path = true) :
    first.stored? path = second.stored? path := by
  cases alike with
  | memory same => exact same path below
  | disk alike =>
      obtain ⟨rest, -, segments⟩ := (isBelow_iff_segmentsOf isTable path).mp below
      rw [alike.rooted.stored?, alike.alsoRooted.stored?, Disk.file?, Disk.file?,
        Disk.base_eq alike.working, alike.nodes]
      rw [segments, List.prefix_append_right_inj]
      exact ⟨rest, rfl⟩
  | shut shut => rfl

end AlikeBelow

namespace Beside

/-- Where nothing has changed, nothing has come from elsewhere. -/
theorem refl (anchored : files.Anchored) : Beside table files files := by
  cases files with
  | memory files => exact .memory fun _ _ => rfl
  | disk tree root =>
      rcases anchored.rooted_or_shut with rooted | shut
      · exact .disk rooted (.refl rooted)
      · exact .shut shut

/-- Changes below a table, one after another. -/
theorem trans (beside : Beside table first second) (further : Beside table second third) :
    Beside table first third := by
  cases beside with
  | memory same =>
      cases further with
      | memory alsoSame =>
          exact .memory fun path outside => (alsoSame path outside).trans (same path outside)
  | disk rooted beside =>
      cases further with
      | disk alsoRooted further => exact .disk rooted (beside.trans further)
      | shut _ => exact .disk rooted beside
  | shut _ => exact further

/-- Changes below a table change nothing that is stored elsewhere. -/
theorem stored? (beside : Beside table first second) (isTable : FileName.isSegment table = true)
    {path : String} (outside : isBelow table path = false) :
    second.stored? path = first.stored? path := by
  cases beside with
  | memory same => exact same path outside
  | @disk first second root rooted beside =>
      rw [rooted.stored?, beside.rooted.stored?, Disk.base_eq beside.working]
      by_cases place : segmentsOf path = [table]
      · apply Option.ext
        intro bytes
        rw [place, Disk.file?_eq_some_iff, Disk.file?_eq_some_iff]
        exact beside.file bytes
      · have apart : ¬first.base root ++ [table] <+: first.base root ++ segmentsOf path := by
          rw [List.prefix_append_right_inj]
          rintro ⟨rest, segments⟩
          have below := (isBelow_iff_segmentsOf isTable path).mpr
            ⟨rest, fun empty => place (by rw [← segments, empty]; rfl), segments.symm⟩
          rw [below] at outside
          cases outside
        rcases beside.nodes _ apart with same | ⟨above, -⟩
        · rw [Disk.file?, Disk.file?, same]
        · have short := above.length_le
          rw [List.length_append] at short
          exact absurd (List.length_eq_zero_iff.mp (by omega)) (segmentsOf_ne_nil path)
  | shut shut => rfl

/-- Changes below a table leave the files of every other table as they are. -/
theorem alikeBelow (beside : Beside table first second)
    (isTable : FileName.isSegment table = true) {other : String}
    (isOther : FileName.isSegment other = true) (apart : other ≠ table)
    (hosts : first.Hosts other) : AlikeBelow other first second := by
  cases beside with
  | memory same =>
      refine .memory fun path below => (same path ?_).symm
      obtain ⟨rest, -, segments⟩ := (isBelow_iff_segmentsOf isOther path).mp below
      rw [Bool.eq_false_iff, ne_eq, isBelow_iff_segmentsOf isTable]
      rintro ⟨others, -, alsoSegments⟩
      exact apart (List.cons.inj (segments.symm.trans alsoSegments)).1
  | @disk first second root rooted beside =>
      have elsewhere : ∀ location, first.base root ++ [other] <+: location →
          second.node? location = first.node? location := by
        intro location below
        have outside : ¬first.base root ++ [table] <+: location := by
          intro inside
          have same := List.IsPrefix.eq_of_length
            (List.prefix_of_prefix_length_le below inside (by simp)) (by simp)
          exact apart (List.cons.inj (List.append_cancel_left same)).1
        refine (beside.nodes location outside).resolve_right fun above => ?_
        exact concat_not_isPrefix _ _ (below.trans above.1)
      refine .disk ⟨beside.working, rooted, beside.rooted,
        fun location below => (elsewhere location below).symm, ?_⟩
      exact hosts.imp_left fun there => (beside.root_of_root there).trans there.symm
  | shut shut => exact .shut shut

/-- Changes below a table leave the root where it is. -/
theorem hosts (beside : Beside table first second) {other : String} (hosts : first.Hosts other) :
    second.Hosts other := by
  cases beside with
  | memory same => trivial
  | @disk first second root rooted beside =>
      refine hosts.imp_left fun there => ?_
      rw [Disk.base_eq beside.working]
      exact beside.root_of_root there
  | shut shut => exact hosts

/-- Changes below a table change nothing about which tables the root bypasses. -/
theorem bypasses (beside : Beside table first second) {other : String}
    (bypasses : first.Bypasses other) : second.Bypasses other := by
  cases beside with
  | memory same => trivial
  | disk _ beside => exact Disk.Bypasses.of_working bypasses beside.working
  | shut _ => exact bypasses

end Beside

/-- Writing on a disk answers and leaves what the disk does. -/
theorem write_disk (path : String) (bytes : Bytes) (tree : Disk) (root : String) :
    Files.write path bytes (.disk tree root) =
      (answered path (tree.write (join root path) bytes).1,
        .disk (tree.write (join root path) bytes).2 root) := by
  rw [Files.write]

/-- The answer to a removal, for which what is missing needs no removing. -/
def gone (directory : String) : Except HostFailure Unit → Except FileError Unit
  | .error .missing => .ok ()
  | outcome => answered directory outcome

/-- After a removal, a directory was removed or was not there. -/
theorem of_gone {directory : String} {outcome : Except HostFailure Unit}
    (removed : gone directory outcome = .ok ()) : outcome = .ok () ∨ outcome = .error .missing := by
  match outcome with
  | .ok _ => exact .inl rfl
  | .error .missing => exact .inr rfl
  | .error .notDirectory | .error .isDirectory | .error .nameTooLong | .error .invalidPath
  | .error .busy | .error .notText => cases removed

/-- Removing a directory of a disk answers and leaves what the disk does. -/
theorem deleteAll_disk (directory : String) (tree : Disk) (root : String) :
    Files.deleteAll directory (.disk tree root) =
      (gone directory (tree.deleteAll (join root directory)).1,
        .disk (tree.deleteAll (join root directory)).2 root) := by
  rw [Files.deleteAll]
  cases tree.deleteAll (join root directory) with
  | mk outcome after =>
      cases outcome with
      | ok _ => rfl
      | error failure => cases failure <;> rfl

section

variable {tree : Disk} {root : String} (shut : tree.Shut root)

include shut

/-- Writing changes nothing below a shut root. -/
theorem write_of_shut (place : Place) (bytes : Bytes) :
    (Files.write place.path bytes (.disk tree root)).2 = .disk tree root := by
  rw [write_disk, place.path_eq_intercalate]
  exact congrArg (Files.disk · root)
    (shut.write place.names_ne_nil place.isSegment_of_mem_names bytes)

/-- Nothing is removed below a shut root. -/
theorem delete_of_shut (place : Place) :
    (Files.delete place.path (.disk tree root)).2 = .disk tree root := by
  obtain ⟨failure, -, located⟩ := shut.locate place.names_ne_nil place.isSegment_of_mem_names
  rw [Files.delete, place.path_eq_intercalate, Disk.delete, located]
  rfl

/-- No table is removed below a shut root, and none is said to have been. -/
theorem deleteAll_of_shut (isTable : FileName.isSegment table = true) :
    (Files.deleteAll table (.disk tree root)).2 = .disk tree root ∧
      (Files.deleteAll table (.disk tree root)).1 ≠ .ok () := by
  have path : "/".intercalate [table] = table := String.intercalate_singleton
  obtain ⟨failure, blocked, located⟩ := shut.locate (List.cons_ne_nil table [])
    (List.forall_mem_singleton.mpr isTable)
  rw [path] at located
  rw [deleteAll_disk, Disk.deleteAll, located]
  refine ⟨rfl, fun removed => ?_⟩
  rcases of_gone removed with done | missing
  · cases done
  · exact blocked (Except.error.inj missing)

end

/-- Whether a change does the same to two collections of files below a table, and nothing to the
first of them elsewhere. -/
def Confined (table : String) (operation : Files → Except FileError Unit × Files)
    (first second : Files) : Prop :=
  (operation first).1 = (operation second).1 ∧
    AlikeBelow table (operation first).2 (operation second).2 ∧
    Beside table first (operation first).2

/-- A steady root stays so when a change is confined to a table. -/
theorem Confined.steady {operation : Files → Except FileError Unit × Files}
    (confined : Confined table operation files files) (steady : files.Steady) :
    (operation files).2.Steady where
  anchored := confined.2.1.anchored
  bypasses other isOther := confined.2.2.bypasses (steady.bypasses other isOther)

/-- A file of a table is read alike. -/
theorem AlikeBelow.read (place : Place) (alike : AlikeBelow place.table first second) :
    first.read place.path = second.read place.path := by
  cases alike with
  | memory same =>
      have below := (isBelow_table place.isTable place).mpr rfl
      rw [Files.read, Files.read, MemoryFiles.read, MemoryFiles.read, same _ below]
  | disk alike =>
      rw [Files.read, Files.read, place.path_eq_intercalate, Place.names,
        alike.read place.isSegment_of_mem_names]
  | shut shut => rfl

/-- A file of a table is found alike. -/
theorem AlikeBelow.isFile (place : Place) (alike : AlikeBelow place.table first second) :
    first.isFile place.path = second.isFile place.path := by
  cases alike with
  | memory same =>
      have below := (isBelow_table place.isTable place).mpr rfl
      rw [Files.isFile, Files.isFile, MemoryFiles.isFile, MemoryFiles.isFile,
        Std.ExtTreeMap.contains_eq_isSome_getElem?, Std.ExtTreeMap.contains_eq_isSome_getElem?,
        same _ below]
  | disk alike =>
      rw [Files.isFile, Files.isFile, place.path_eq_intercalate, Place.names,
        alike.isFile place.isSegment_of_mem_names]
  | shut shut => rfl

/-- An area of a table is listed alike. -/
theorem AlikeBelow.list (alike : AlikeBelow table first second)
    (isTable : FileName.isSegment table = true) (area : Area) :
    first.list (area.directory table) = second.list (area.directory table) := by
  cases alike with
  | memory same =>
      exact congrArg Except.ok (list_congr fun path below =>
        same path (isBelow_of_isBelow_directory isTable below))
  | disk alike =>
      rw [Files.list, Files.list, Place.directory_eq_intercalate,
        alike.list (Place.isSegment_of_mem_directory isTable area)]
  | shut shut => rfl

/-- Writing a file of a table does nothing elsewhere. -/
theorem confined_write (place : Place) (bytes : Bytes)
    (alike : AlikeBelow place.table first second) :
    Confined place.table (Files.write place.path bytes) first second := by
  cases alike with
  | memory same =>
      have below := (isBelow_table place.isTable place).mpr rfl
      refine ⟨rfl, .memory fun path inside => ?_, .memory fun path outside => ?_⟩
      · rw [MemoryFiles.write, MemoryFiles.write, Std.ExtTreeMap.getElem?_insert,
          Std.ExtTreeMap.getElem?_insert, same path inside]
      · have apart : place.path ≠ path := by
          rintro rfl
          cases below.symm.trans outside
        rw [MemoryFiles.write, Std.ExtTreeMap.getElem?_insert]
        simp [apart]
  | disk alike =>
      obtain ⟨outcomes, after, beside⟩ := alike.write place.isSegment_of_mem_names bytes
      rw [Confined, write_disk, write_disk, place.path_eq_intercalate, Place.names]
      dsimp only
      rw [outcomes]
      exact ⟨rfl, .disk after, .disk alike.rooted beside⟩
  | shut shut =>
      rw [Confined, write_of_shut shut place bytes]
      exact ⟨rfl, .shut shut, .shut shut⟩

/-- Removing a file of a table does nothing elsewhere. -/
theorem confined_delete (place : Place) (alike : AlikeBelow place.table first second) :
    Confined place.table (Files.delete place.path) first second := by
  have anchored := alike.anchored
  cases alike with
  | @memory first second same =>
      have below := (isBelow_table place.isTable place).mpr rfl
      have stored : first.contents.contains place.path = second.contents.contains place.path := by
        rw [Std.ExtTreeMap.contains_eq_isSome_getElem?,
          Std.ExtTreeMap.contains_eq_isSome_getElem?, same _ below]
      rw [Confined, Files.delete, Files.delete, MemoryFiles.delete, MemoryFiles.delete, stored]
      cases second.contents.contains place.path with
      | false => exact ⟨rfl, .memory same, .refl anchored⟩
      | true =>
          refine ⟨rfl, .memory fun path inside => ?_, .memory fun path outside => ?_⟩
          · rw [Std.ExtTreeMap.getElem?_erase, Std.ExtTreeMap.getElem?_erase, same path inside]
          · have apart : place.path ≠ path := by
              rintro rfl
              cases below.symm.trans outside
            rw [Std.ExtTreeMap.getElem?_erase]
            simp [apart]
  | disk alike =>
      rw [Confined, Files.delete, Files.delete, place.path_eq_intercalate, Place.names]
      rcases alike.delete place.isSegment_of_mem_names with
        ⟨failure, failed, alsoFailed⟩ | ⟨after, other, deleted, alsoDeleted, alikeAfter, beside⟩
      · rw [failed, alsoFailed]
        exact ⟨rfl, .disk alike, .refl anchored⟩
      · rw [deleted, alsoDeleted]
        exact ⟨rfl, .disk alikeAfter, .disk alike.rooted beside⟩
  | shut shut =>
      rw [Confined, delete_of_shut shut place]
      exact ⟨rfl, .shut shut, .shut shut⟩

/-- Removing a table that the root bypasses does nothing elsewhere. -/
theorem confined_deleteAll (isTable : FileName.isSegment table = true)
    (bypasses : first.Bypasses table) (alike : AlikeBelow table first second) :
    Confined table (Files.deleteAll table) first second := by
  cases alike with
  | @memory first second same =>
      refine ⟨rfl, .memory fun path inside => ?_, .memory fun path outside => ?_⟩
      · rw [MemoryFiles.getElem?_deleteAll, MemoryFiles.getElem?_deleteAll, same path inside]
      · rw [MemoryFiles.getElem?_deleteAll, if_neg (Bool.eq_false_iff.mp outside)]
  | @disk first second root alike =>
      obtain ⟨outcomes, after, beside⟩ := alike.deleteAll isTable bypasses
      rw [Confined, deleteAll_disk, deleteAll_disk]
      dsimp only
      rw [outcomes]
      exact ⟨rfl, .disk after, .disk alike.rooted beside⟩
  | shut shut =>
      rw [Confined, (deleteAll_of_shut shut isTable).1]
      exact ⟨rfl, .shut shut, .shut shut⟩

/-- A table that the root bypasses has no file left once it was removed. -/
theorem stored?_deleteAll (anchored : files.Anchored) (bypasses : files.Bypasses table)
    (isTable : FileName.isSegment table = true)
    (removed : (files.deleteAll table).1 = .ok ()) {path : String}
    (below : isBelow table path = true) : (files.deleteAll table).2.stored? path = none := by
  cases files with
  | memory files =>
      rw [Files.deleteAll, Files.stored?, MemoryFiles.getElem?_deleteAll, if_pos below]
  | disk tree root =>
      rcases anchored.rooted_or_shut with rooted | shut
      · rw [deleteAll_disk] at removed ⊢
        have none := @Disk.Rooted.bare_of_deleteAll root table tree rooted isTable bypasses
          (of_gone removed)
        obtain ⟨-, -, beside⟩ := (Disk.AlikeBelow.refl rooted).deleteAll isTable bypasses
        obtain ⟨rest, -, segments⟩ := (isBelow_iff_segmentsOf isTable path).mp below
        rw [beside.rooted.stored?, Disk.base_eq beside.working, Disk.file?, none]
        rw [segments, List.prefix_append_right_inj]
        exact ⟨rest, rfl⟩
      · exact absurd removed (deleteAll_of_shut shut isTable).2

end

end Files

namespace Medium.Holds

variable {medium : Medium} {content : Content} {files : Files}

/-- The root of the files of a medium is steady. -/
theorem steady (holds : medium.Holds content files) : files.Steady := by
  cases holds with
  | memory holds => exact ⟨trivial, fun _ _ => trivial⟩
  | disk holds => exact ⟨.of_rooted holds.toRooted, holds.bypasses⟩

end Medium.Holds

end TableStore
