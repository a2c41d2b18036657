/-
# Files of tables in memory

Files that all lie at places of tables are listed by the names of their places, and what is
removed with the directory of a table are the files of this table.
-/

import Mathlib.Logic.Function.Basic
import TableStore.Proofs.Files.Place
import TableStore.Proofs.Files.Scan

namespace TableStore

namespace MemoryFiles

/-- The stem of a directory that is not named with a slash at its end. -/
theorem stem_eq {directory : String} {letters : List Char} {last : Char}
    (text : directory.toList = letters ++ [last]) (plain : last ≠ '/') :
    stem directory = directory.toList ++ ['/'] := by
  have nonempty : directory ≠ "" := by
    rintro rfl
    simp at text
  rw [stem, if_neg nonempty, text, List.reverse_append, List.reverse_cons, List.reverse_nil,
    List.nil_append, List.singleton_append, List.dropWhile_cons_of_neg (by simpa using plain)]
  simp

/-- The stem of the directory of an area. -/
theorem stem_directory (table : String) (area : Area) :
    stem (area.directory table) = (area.directory table).toList ++ ['/'] := by
  cases area
  · exact @stem_eq _ (table.toList ++ ['/', 'r', 'o', 'w']) 's' (by simp [Area.directory])
      (by decide)
  · exact @stem_eq _ (table.toList ++ ['/', 'i', 'n', 'd', 'e', 'x', 'e']) 's'
      (by simp [Area.directory]) (by decide)

/-- The stem of the directory of a table. -/
theorem stem_table {table : String} (isTable : FileName.isSegment table = true) :
    stem table = table.toList ++ ['/'] := by
  have nonempty : table.toList ≠ [] := by
    intro empty
    exact FileName.ne_empty_of_isSegment isTable (String.toList_inj.mp empty)
  refine stem_eq (List.dropLast_concat_getLast nonempty).symm fun slash => ?_
  exact FileName.slash_notMem_of_isSegment isTable (slash ▸ List.getLast_mem nonempty)

/-- The places below the directory of an area are those of this area. -/
theorem isBelow_directory {table : String} (isTable : FileName.isSegment table = true)
    (area : Area) (place : Place) :
    isBelow (area.directory table) place.path = true ↔ place.table = table ∧ place.area = area := by
  rw [isBelow_iff, stem_directory, Place.toList_path,
    Area.toList_directory]
  constructor
  · rintro ⟨rest, text⟩
    simp only [List.append_assoc, List.cons_append, List.nil_append] at text
    obtain ⟨tables, tail⟩ := Place.append_slash_inj (FileName.slash_notMem_of_isSegment isTable)
      (FileName.slash_notMem_of_isSegment place.isTable) text
    obtain ⟨areas, -⟩ := Place.append_slash_inj area.slash_notMem_name
      place.area.slash_notMem_name tail
    exact ⟨(String.toList_inj.mp tables).symm,
      (Area.name_injective (String.toList_inj.mp areas)).symm⟩
  · rintro ⟨rfl, rfl⟩
    exact ⟨place.name.toList, by simp⟩

/-- The places below the directory of a table are those of this table. -/
theorem isBelow_table {table : String} (isTable : FileName.isSegment table = true)
    (place : Place) : isBelow table place.path = true ↔ place.table = table := by
  rw [isBelow_iff, stem_table isTable, Place.toList_path]
  constructor
  · rintro ⟨rest, text⟩
    simp only [List.append_assoc, List.cons_append, List.nil_append] at text
    exact (String.toList_inj.mp (Place.append_slash_inj
      (FileName.slash_notMem_of_isSegment isTable)
      (FileName.slash_notMem_of_isSegment place.isTable) text).1).symm
  · rintro rfl
    exact ⟨place.area.name.toList ++ '/' :: place.name.toList, by simp⟩

/-- The segment of a place after the stem of its area is its name. -/
theorem segmentAfter_directory (place : Place) :
    segmentAfter (place.area.directory place.table) place.path = place.name := by
  have text : place.path.toList =
      stem (place.area.directory place.table) ++ place.name.toList := by
    rw [stem_directory, Place.path]
    simp
  exact (isFirstSegment_iff.mp
    ⟨FileName.slash_notMem_of_isSegment place.isName, .inl text⟩).2

/-- Whether memory holds given files at their places, and no others. -/
structure Holds (files : MemoryFiles) (content : Content) : Prop where
  getElem? : ∀ place : Place, files.contents[place.path]? = content place
  exists_place : ∀ path ∈ files.contents, ∃ place : Place, place.path = path

namespace Holds

variable {files : MemoryFiles} {content : Content}

/-- Without files, nothing is held anywhere. -/
theorem empty : MemoryFiles.empty.Holds fun _ => none where
  getElem? _ := Std.ExtTreeMap.getElem?_empty
  exists_place _ member := absurd member Std.ExtTreeMap.not_mem_empty

/-- A file is there where something is held. -/
theorem mem_iff (holds : files.Holds content) (place : Place) :
    place.path ∈ files.contents ↔ (content place).isSome = true := by
  rw [Std.ExtTreeMap.mem_iff_isSome_getElem?, holds.getElem?]

/-- The names in an area are those under which something is held. -/
theorem mem_list_directory (holds : files.Holds content) {table : String}
    (isTable : FileName.isSegment table = true) (area : Area) (name : String) :
    name ∈ files.list (area.directory table) ↔
      ∃ place : Place, place.table = table ∧ place.area = area ∧ place.name = name ∧
        (content place).isSome = true := by
  rw [mem_list]
  constructor
  · rintro ⟨-, path, member, below, segment⟩
    obtain ⟨place, rfl⟩ := holds.exists_place path member
    obtain ⟨rfl, rfl⟩ := (isBelow_directory isTable area place).mp below
    rw [segmentAfter_directory] at segment
    exact ⟨place, rfl, rfl, segment, (holds.mem_iff place).mp member⟩
  · rintro ⟨place, rfl, rfl, rfl, stored⟩
    exact ⟨FileName.ne_empty_of_isSegment place.isName, place.path,
      (holds.mem_iff place).mpr stored,
      (isBelow_directory isTable place.area place).mpr ⟨rfl, rfl⟩, segmentAfter_directory place⟩

/-- Writing a file changes what is held at its place. -/
theorem write (holds : files.Holds content) (place : Place) (bytes : Bytes) :
    (files.write place.path bytes).Holds (Function.update content place (some bytes)) where
  getElem? other := by
    rw [MemoryFiles.write, Std.ExtTreeMap.getElem?_insert, Function.update_apply,
      holds.getElem? other]
    by_cases same : other = place
    · simp [same]
    · have apart : place.path ≠ other.path := fun paths => same (Place.path_injective paths).symm
      simp [same, apart]
  exists_place path member := by
    rcases Std.ExtTreeMap.mem_insert.mp member with same | member
    · exact ⟨place, Std.LawfulEqOrd.eq_of_compare same⟩
    · exact holds.exists_place path member

/-- Removing a file changes what is held at its place. -/
theorem erase (holds : files.Holds content) (place : Place) :
    (MemoryFiles.mk (files.contents.erase place.path)).Holds
      (Function.update content place none) where
  getElem? other := by
    rw [Std.ExtTreeMap.getElem?_erase, Function.update_apply, holds.getElem? other]
    by_cases same : other = place
    · simp [same]
    · have apart : place.path ≠ other.path := fun paths => same (Place.path_injective paths).symm
      simp [same, apart]
  exists_place path member :=
    holds.exists_place path (Std.ExtTreeMap.mem_of_mem_erase member)

/-- Removing all files below the directory of a table leaves those of the other tables. -/
theorem deleteAll (holds : files.Holds content) {table : String}
    (isTable : FileName.isSegment table = true) :
    (files.deleteAll table).Holds fun place =>
      if place.table = table then none else content place where
  getElem? place := by
    rw [getElem?_deleteAll, holds.getElem? place]
    simp only [isBelow_table isTable place]
  exists_place path member :=
    holds.exists_place path (Std.ExtTreeMap.mem_of_mem_filter member)

end Holds

end MemoryFiles

end TableStore
