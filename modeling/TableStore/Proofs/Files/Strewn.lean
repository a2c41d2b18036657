/-
# Files with foreign entries

Wherever files are kept, entries among the rows of a table that are not named for rows change
neither what is read and listed of rows and indexes nor what an access leaves of these, and no
access to a row or an index changes them.
-/

import TableStore.Proofs.Files.Apart
import TableStore.Proofs.Files.Foreign
import TableStore.Proofs.Table.Basic

namespace TableStore

open HostPath

/-- The first of what stands between the slashes of a text is what stands before the first of
them. -/
theorem HostPath.segmentsOf_eq_cons (text : String) :
    ∃ rest, segmentsOf text = String.ofList (text.toList.takeWhile fun c => c ≠ '/') :: rest := by
  have stops : ∀ before after : List Char, '/' ∉ before →
      (before ++ after).takeWhile (fun c => c ≠ '/') =
        before ++ after.takeWhile fun c => c ≠ '/' := fun before after plain =>
    List.takeWhile_append_of_pos fun c member => by
      simpa using fun slash : c = '/' => plain (slash ▸ member)
  by_cases slash : '/' ∈ text.toList
  · obtain ⟨before, after, letters, plain⟩ := List.eq_append_cons_of_mem slash
    have whole : text = String.ofList before ++ "/" ++ String.ofList after :=
      String.toList_inj.mp (by rw [letters]; simp)
    refine ⟨segmentsOf (String.ofList after), ?_⟩
    rw [letters, stops before _ plain, List.takeWhile_cons_of_neg (by simp), List.append_nil, whole,
      segmentsOf_append_slash, segmentsOf_of_notMem (by simpa using plain)]
    rfl
  · refine ⟨[], ?_⟩
    rw [segmentsOf_of_notMem slash, ← List.append_nil text.toList, stops _ _ slash,
      List.takeWhile_nil, List.append_nil, String.ofList_toList]

namespace MemoryFiles

variable {table : String} (area : Area)

/-- What lies below the directory of an area has its path in front. -/
theorem isBelow_directory_iff {path : String} :
    isBelow (area.directory table) path = true ↔
      ∃ text, path = area.directory table ++ "/" ++ text := by
  rw [isBelow_iff, stem_directory]
  constructor
  · rintro ⟨rest, letters⟩
    exact ⟨String.ofList rest, String.toList_inj.mp (by rw [← letters]; simp)⟩
  · rintro ⟨text, rfl⟩
    exact ⟨text.toList, by simp⟩

/-- The names that are listed in the directory of an area are the third segments of paths. -/
theorem mem_list_directory_iff {files : MemoryFiles} (isTable : FileName.isSegment table = true)
    {name : String} :
    name ∈ files.list (area.directory table) ↔
      name ≠ "" ∧ ∃ path ∈ files.contents, ∃ rest,
        segmentsOf path = table :: area.name :: name :: rest := by
  have directory : segmentsOf (area.directory table) = [table, area.name] := by
    rw [Place.directory_eq_intercalate]
    exact segmentsOf_intercalate (List.cons_ne_nil _ _)
      (Place.isSegment_of_mem_directory isTable area)
  have after : ∀ text, segmentAfter (area.directory table) (area.directory table ++ "/" ++ text) =
      String.ofList (text.toList.takeWhile fun c => c ≠ '/') := by
    intro text
    have letters : (area.directory table ++ "/" ++ text).toList =
        stem (area.directory table) ++ text.toList := by
      rw [stem_directory]
      simp
    rw [segmentAfter, letters, List.drop_left]
  rw [mem_list]
  refine and_congr_right fun _ => exists_congr fun path => and_congr_right fun _ => ?_
  rw [isBelow_directory_iff]
  constructor
  · rintro ⟨⟨text, rfl⟩, named⟩
    obtain ⟨rest, segments⟩ := segmentsOf_eq_cons text
    rw [after] at named
    exact ⟨rest, by rw [segmentsOf_append_slash, directory, segments, named]; rfl⟩
  · rintro ⟨rest, segments⟩
    have whole : path = area.directory table ++ "/" ++ "/".intercalate (name :: rest) := by
      rw [← intercalate_segmentsOf path, segments, Place.directory_eq_intercalate,
        String.intercalate_cons_of_ne_nil (List.cons_ne_nil _ _),
        String.intercalate_cons_of_ne_nil (List.cons_ne_nil _ _),
        String.intercalate_cons_of_ne_nil (List.cons_ne_nil _ _), String.intercalate_singleton]
      simp [String.append_assoc]
    refine ⟨⟨_, whole⟩, ?_⟩
    rw [whole, segmentsOf_append_slash, directory] at segments
    obtain ⟨others, first⟩ := segmentsOf_eq_cons ("/".intercalate (name :: rest))
    rw [first] at segments
    rw [whole, after]
    exact (List.cons.inj (List.append_cancel_left segments)).1

end MemoryFiles

namespace Files

/-- Whether files are others among which foreign entries may have been strewn in the directory of
the rows of a table. -/
inductive Strewn (table : String) : Files → Files → Prop where
  | memory {first second : MemoryFiles}
      (same : ∀ path, ¬IsForeign table (segmentsOf path) →
        first.contents[path]? = second.contents[path]?) :
      Strewn table (.memory first) (.memory second)
  | disk {first second : Disk} {root : String} (strewn : Disk.Strewn root table first second) :
      Strewn table (.disk first root) (.disk second root)
  | shut {tree : Disk} {root : String} (shut : tree.Shut root) :
      Strewn table (.disk tree root) (.disk tree root)

/-- Whether the foreign entries among the rows of a table are what they were. -/
inductive Untouched (table : String) : Files → Files → Prop where
  | memory {before after : MemoryFiles}
      (same : ∀ path, IsForeign table (segmentsOf path) →
        after.contents[path]? = before.contents[path]?) :
      Untouched table (.memory before) (.memory after)
  | disk {before after : Disk} {root : String}
      (untouched : Disk.Untouched root table before after) :
      Untouched table (.disk before root) (.disk after root)

section

variable {table : String} {files first second third : Files}

namespace Untouched

/-- Foreign entries are what they are. -/
theorem refl (table : String) (files : Files) : Untouched table files files := by
  cases files with
  | memory files => exact .memory fun _ _ => rfl
  | disk tree root => exact .disk (.refl tree)

/-- Changes that leave foreign entries alone, one after another. -/
theorem trans (untouched : Untouched table first second)
    (further : Untouched table second third) : Untouched table first third := by
  cases untouched with
  | memory same =>
      cases further with
      | memory alsoSame =>
          exact .memory fun path isForeign => (alsoSame path isForeign).trans (same path isForeign)
  | disk untouched =>
      cases further with
      | disk further => exact .disk (untouched.trans further)

end Untouched

/-- Whether a change has the same outcome on files among which foreign entries of a table have been
strewn and leaves the same there, and the foreign entries as they were. -/
def Overlooks (table : String) (operation : Files → Except FileError Unit × Files)
    (first second : Files) : Prop :=
  (operation first).1 = (operation second).1 ∧
    Strewn table (operation first).2 (operation second).2 ∧
    Untouched table second (operation second).2

namespace Strewn

/-- Foreign entries are strewn below the same root of a disk. -/
theorem exists_disk {tree : Disk} {root : String} (rooted : tree.Rooted root)
    (strewn : Strewn table (.disk tree root) second) :
    ∃ other, second = .disk other root ∧ other.Rooted root := by
  cases strewn with
  | disk strewn => exact ⟨_, rfl, strewn.alsoRooted⟩
  | shut _ => exact ⟨tree, rfl, rooted⟩

variable (strewn : Strewn table first second)

include strewn

/-- The root of files without foreign entries stays where it is. -/
theorem anchored : first.Anchored := by
  cases strewn with
  | memory same => trivial
  | disk strewn => exact .of_rooted strewn.rooted
  | shut shut => exact .of_shut shut

/-- The root bypasses the same tables with and without foreign entries. -/
theorem bypasses_iff {other : String} : first.Bypasses other ↔ second.Bypasses other := by
  cases strewn with
  | memory _ => exact Iff.rfl
  | disk strewn =>
      exact ⟨fun bypasses => Disk.Bypasses.of_working bypasses strewn.working,
        fun bypasses => Disk.Bypasses.of_working bypasses strewn.working.symm⟩
  | shut _ => exact Iff.rfl

/-- Apart from foreign entries, the same files are stored. -/
theorem stored? {path : String} (plain : ¬IsForeign table (segmentsOf path)) :
    first.stored? path = second.stored? path := by
  cases strewn with
  | memory same => exact same path plain
  | disk strewn =>
      rw [strewn.rooted.stored?, strewn.alsoRooted.stored?, Disk.file?, Disk.file?,
        Disk.base_eq strewn.working]
      rcases strewn.nodes _ plain with same | ⟨-, missing, directory⟩
      · rw [same]
      · rw [missing, directory]
  | shut shut => rfl

section

variable {place : Place} (plain : ¬IsForeign table place.names) (hosts : first.Hosts place.table)

include plain hosts

/-- The file at a place is read alike. -/
theorem read : first.read place.path = second.read place.path := by
  cases strewn with
  | memory same =>
      rw [Files.read, Files.read, MemoryFiles.read, MemoryFiles.read,
        same _ (place.segmentsOf_path ▸ plain)]
  | disk strewn =>
      rw [Files.read, Files.read, place.path_eq_intercalate, strewn.read plain hosts]
  | shut shut => rfl

/-- The file at a place is found alike. -/
theorem isFile : first.isFile place.path = second.isFile place.path := by
  cases strewn with
  | memory same =>
      rw [Files.isFile, Files.isFile, MemoryFiles.isFile, MemoryFiles.isFile,
        Std.ExtTreeMap.contains_eq_isSome_getElem?, Std.ExtTreeMap.contains_eq_isSome_getElem?,
        same _ (place.segmentsOf_path ▸ plain)]
  | disk strewn =>
      rw [Files.isFile, Files.isFile, place.path_eq_intercalate, strewn.isFile plain hosts]
  | shut shut => rfl

/-- The file at a place is removed alike. -/
theorem delete : Overlooks table (Files.delete place.path) first second := by
  cases strewn with
  | @memory first second same =>
      have here := same _ (place.segmentsOf_path ▸ plain)
      have stored : first.contents.contains place.path = second.contents.contains place.path := by
        rw [Std.ExtTreeMap.contains_eq_isSome_getElem?,
          Std.ExtTreeMap.contains_eq_isSome_getElem?, here]
      rw [Overlooks, Files.delete, Files.delete, MemoryFiles.delete, MemoryFiles.delete, stored]
      cases second.contents.contains place.path with
      | false => exact ⟨rfl, .memory same, .refl table _⟩
      | true =>
          refine ⟨rfl, .memory fun path elsewhere => ?_, .memory fun path isForeign => ?_⟩
          · rw [Std.ExtTreeMap.getElem?_erase, Std.ExtTreeMap.getElem?_erase, same path elsewhere]
          · have apart : place.path ≠ path := by
              rintro rfl
              exact plain (place.segmentsOf_path ▸ isForeign)
            rw [Std.ExtTreeMap.getElem?_erase]
            simp [apart]
  | disk strewn =>
      rw [Overlooks, Files.delete, Files.delete, place.path_eq_intercalate]
      rcases strewn.delete plain hosts with
        ⟨failure, failed, alsoFailed⟩ | ⟨after, other, deleted, alsoDeleted, left, untouched⟩
      · rw [failed, alsoFailed]
        exact ⟨rfl, .disk strewn, .refl table _⟩
      · rw [deleted, alsoDeleted]
        exact ⟨rfl, .disk left, .disk untouched⟩
  | shut shut =>
      rw [Overlooks, delete_of_shut shut place]
      exact ⟨rfl, .shut shut, .refl table _⟩

omit hosts in
/-- The file at a place is written alike. -/
theorem write (bytes : Bytes) : Overlooks table (Files.write place.path bytes) first second := by
  cases strewn with
  | memory same =>
      refine ⟨rfl, .memory fun path elsewhere => ?_, .memory fun path isForeign => ?_⟩
      · rw [MemoryFiles.write, MemoryFiles.write, Std.ExtTreeMap.getElem?_insert,
          Std.ExtTreeMap.getElem?_insert, same path elsewhere]
      · have apart : place.path ≠ path := by
          rintro rfl
          exact plain (place.segmentsOf_path ▸ isForeign)
        rw [MemoryFiles.write, Std.ExtTreeMap.getElem?_insert]
        simp [apart]
  | disk strewn =>
      obtain ⟨outcomes, left, untouched⟩ := strewn.write plain bytes
      rw [Overlooks, write_disk, write_disk, place.path_eq_intercalate]
      dsimp only
      rw [outcomes]
      exact ⟨rfl, .disk left, .disk untouched⟩
  | shut shut =>
      rw [Overlooks, write_of_shut shut place bytes]
      exact ⟨rfl, .shut shut, .refl table _⟩

end

section

variable {other : String} (isTable : FileName.isSegment other = true) (hosts : first.Hosts other)

include isTable hosts

/-- A directory of an area is listed with the same names but those of foreign entries. -/
theorem list (area : Area) :
    (∃ error, first.list (area.directory other) = .error error ∧
      second.list (area.directory other) = .error error) ∨
    ∃ names others, first.list (area.directory other) = .ok names ∧
      second.list (area.directory other) = .ok others ∧
      ∀ name, ¬IsForeign table [other, area.name, name] → (name ∈ names ↔ name ∈ others) := by
  cases strewn with
  | memory same =>
      refine .inr ⟨_, _, rfl, rfl, fun name plain => ?_⟩
      rw [MemoryFiles.mem_list_directory_iff area isTable,
        MemoryFiles.mem_list_directory_iff area isTable]
      refine and_congr_right fun _ => exists_congr fun path => ?_
      rw [Std.ExtTreeMap.mem_iff_isSome_getElem?, Std.ExtTreeMap.mem_iff_isSome_getElem?]
      refine and_congr_left ?_
      rintro ⟨rest, segments⟩
      rw [same path fun isForeign => plain (segments ▸ isForeign).of_cons]
  | disk strewn => exact strewn.list isTable hosts area
  | @shut tree root _ =>
      cases listed : Files.list (area.directory other) (.disk tree root) with
      | error error => exact .inl ⟨error, rfl, rfl⟩
      | ok names => exact .inr ⟨names, names, rfl, rfl, fun _ _ => Iff.rfl⟩

/-- The same rows are listed. -/
theorem identified :
    (first.list (Area.rows.directory other)).map Table.identified =
      (second.list (Area.rows.directory other)).map Table.identified := by
  rcases strewn.list isTable hosts .rows with
    ⟨error, failed, alsoFailed⟩ | ⟨names, others, listed, alsoListed, same⟩
  · rw [failed, alsoFailed]
  · rw [listed, alsoListed]
    refine congrArg Except.ok (Table.Ascending.eq_of_mem_iff
      (Table.ascending_identified (first.pairwise_list listed))
      (Table.ascending_identified (second.pairwise_list alsoListed)) fun id => ?_)
    rw [Table.mem_identified, Table.mem_identified]
    exact same _ (Place.not_isForeign_row isTable id table)

/-- The same indexes are listed. -/
theorem list_indexes :
    first.list (Area.indexes.directory other) = second.list (Area.indexes.directory other) := by
  rcases strewn.list isTable hosts .indexes with
    ⟨error, failed, alsoFailed⟩ | ⟨names, others, listed, alsoListed, same⟩
  · rw [failed, alsoFailed]
  · rw [listed, alsoListed]
    refine congrArg Except.ok (eq_of_ascending (first.pairwise_list listed)
      (second.pairwise_list alsoListed) fun name => same name ?_)
    rintro ⟨_, _, names, -⟩
    simp only [List.cons.injEq] at names
    exact absurd names.2.1 (by decide)

/-- The directory of another table is removed alike if the root bypasses it. -/
theorem deleteAll (bypasses : first.Bypasses other) (apart : other ≠ table) :
    Overlooks table (Files.deleteAll other) first second := by
  cases strewn with
  | @memory first second same =>
      refine ⟨rfl, .memory fun path plain => ?_, .memory fun path isForeign => ?_⟩
      · rw [MemoryFiles.getElem?_deleteAll, MemoryFiles.getElem?_deleteAll, same path plain]
      · have outside : MemoryFiles.isBelow other path = false := by
          rw [Bool.eq_false_iff, ne_eq, isBelow_iff_segmentsOf isTable]
          rintro ⟨rest, -, segments⟩
          obtain ⟨name, others, names, -⟩ := isForeign
          exact apart (List.cons.inj (segments.symm.trans names)).1
        rw [MemoryFiles.getElem?_deleteAll, if_neg (Bool.eq_false_iff.mp outside)]
  | disk strewn =>
      obtain ⟨outcomes, left, untouched⟩ := strewn.deleteAll isTable hosts bypasses apart
      rw [Overlooks, deleteAll_disk, deleteAll_disk]
      dsimp only
      rw [outcomes]
      exact ⟨rfl, .disk left, .disk untouched⟩
  | shut shut =>
      rw [Overlooks, (deleteAll_of_shut shut isTable).1]
      exact ⟨rfl, .shut shut, .refl table _⟩

end

end Strewn

/-- Writing a foreign file strews nothing else. -/
theorem strewn_write (anchored : files.Anchored) {place : Place}
    (isForeign : IsForeign table place.names) (bytes : Bytes) :
    Strewn table files (files.write place.path bytes).2 := by
  cases files with
  | memory files =>
      refine .memory fun path plain => ?_
      have apart : place.path ≠ path := by
        rintro rfl
        exact plain (place.segmentsOf_path ▸ isForeign)
      rw [MemoryFiles.write, Std.ExtTreeMap.getElem?_insert]
      simp [apart]
  | disk tree root =>
      rcases anchored.rooted_or_shut with rooted | shut
      · rw [write_disk, place.path_eq_intercalate]
        exact .disk (Disk.Rooted.strewn_write rooted isForeign bytes)
      · rw [write_of_shut shut place bytes]
        exact .shut shut

end

end Files

end TableStore
