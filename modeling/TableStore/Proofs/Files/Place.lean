/-
# Places of stored files

Every file of a table lies in one of two areas, under a name that is one segment of a path. So a
path tells its table, its area and its name, and files of different tables never meet.
-/

import TableStore.Proofs.Row.Id
import TableStore.Table.Index

namespace TableStore

namespace FileName

/-- A segment has no slash in it. -/
theorem slash_notMem_of_isSegment {name : String} (segment : isSegment name = true) :
    '/' ∉ name.toList := by
  intro member
  simp only [isSegment, Bool.and_eq_true, List.all_eq_true] at segment
  have plain := segment.2 '/' member
  simp at plain

/-- A segment is not empty. -/
theorem ne_empty_of_isSegment {name : String} (segment : isSegment name = true) : name ≠ "" := by
  rintro rfl
  simp [isSegment] at segment

/-- A name is a segment if it has more than two characters, all of which may stand in one. -/
theorem isSegment_of_long {name : String} (long : 2 < name.toList.length)
    (plain : ∀ c ∈ name.toList, c ≠ '/' ∧ c ≠ '\\' ∧ c ≠ '\x00') : isSegment name = true := by
  have apart : ∀ short : String, short.toList.length ≤ 2 → name ≠ short := by
    rintro short few rfl
    omega
  simp only [isSegment, Bool.and_eq_true, List.all_eq_true, decide_eq_true_eq, ne_eq]
  refine ⟨⟨⟨apart "" (by decide), apart "." (by decide)⟩, apart ".." (by decide)⟩, ?_⟩
  intro c member
  simpa [and_assoc] using plain c member

/-- A segment with the ending of stored files is a segment. -/
theorem isSegment_ofStem {stem : String} (segment : isSegment stem = true) :
    isSegment (ofStem stem) = true := by
  refine isSegment_of_long (by simp [ofStem, ending]) fun c member => ?_
  rw [ofStem, String.toList_ofList] at member
  rcases List.mem_append.mp member with letter | last
  · simp only [isSegment, Bool.and_eq_true, List.all_eq_true] at segment
    simpa [and_assoc] using segment.2 c letter
  · have plain : ∀ d ∈ ending, d ≠ '/' ∧ d ≠ '\\' ∧ d ≠ '\x00' := by simp [ending]
    exact plain c last

end FileName

/-- The name of the file of a row is a segment. -/
theorem RowId.isSegment_fileName (id : RowId) : FileName.isSegment id.fileName = true := by
  refine FileName.isSegment_of_long (by simp [fileName, FileName.ofStem, FileName.ending])
    fun c member => ?_
  rw [fileName, FileName.ofStem, String.toList_ofList, toText, String.toList_ofList] at member
  rcases List.mem_append.mp member with digit | last
  · have isDigit := isDigit_of_mem_digits digit
    refine ⟨?_, ?_, ?_⟩
    all_goals
      rintro rfl
      revert isDigit
      decide
  · have plain : ∀ d ∈ FileName.ending, d ≠ '/' ∧ d ≠ '\\' ∧ d ≠ '\x00' := by
      simp [FileName.ending]
    exact plain c last

/-- The kinds of files that a table has. -/
inductive Area where
  | rows
  | indexes
  deriving DecidableEq, Repr

namespace Area

/-- The name of the directory of an area. -/
def name : Area → String
  | .rows => "rows"
  | .indexes => "indexes"

/-- The directory of an area of a table. -/
def directory (table : String) : Area → String
  | .rows => table ++ "/rows"
  | .indexes => table ++ "/indexes"

/-- The directory of an area lies in that of its table. -/
theorem toList_directory (table : String) (area : Area) :
    (area.directory table).toList = table.toList ++ '/' :: area.name.toList := by
  cases area <;> simp [directory, name]

/-- Different areas have different names. -/
theorem name_injective {first second : Area} (same : first.name = second.name) :
    first = second := by
  revert same
  cases first <;> cases second <;> decide

/-- The name of an area has no slash in it. -/
theorem slash_notMem_name (area : Area) : '/' ∉ area.name.toList := by
  cases area <;> decide

end Area

/-- Where a file of a table can lie. -/
@[ext]
structure Place where
  table : String
  area : Area
  name : String
  isTable : FileName.isSegment table = true
  isName : FileName.isSegment name = true
  deriving DecidableEq

namespace Place

/-- The path of a place. -/
def path (place : Place) : String :=
  place.area.directory place.table ++ "/" ++ place.name

/-- The characters of a path, part by part. -/
theorem toList_path (place : Place) :
    place.path.toList =
      place.table.toList ++ '/' :: (place.area.name.toList ++ '/' :: place.name.toList) := by
  simp [path, Area.toList_directory]

/-- What stands before and after the first slash of a text. -/
theorem append_slash_inj {first second rest others : List Char} (noSlash : '/' ∉ first)
    (alsoNone : '/' ∉ second) (same : first ++ '/' :: rest = second ++ '/' :: others) :
    first = second ∧ rest = others := by
  have before : ∀ (part tail : List Char), '/' ∉ part →
      (part ++ '/' :: tail).takeWhile (fun c => c ≠ '/') = part := by
    intro part tail none
    rw [List.takeWhile_append_of_pos fun c member => by
      simpa using fun slash : c = '/' => none (slash ▸ member)]
    simp
  have parts : first = second := by
    rw [← before first rest noSlash, same, before second others alsoNone]
  subst parts
  simpa using same

/-- Different places have different paths. -/
theorem path_injective {first second : Place} (same : first.path = second.path) :
    first = second := by
  have letters := congrArg String.toList same
  rw [toList_path, toList_path] at letters
  obtain ⟨tables, rest⟩ := append_slash_inj (FileName.slash_notMem_of_isSegment first.isTable)
    (FileName.slash_notMem_of_isSegment second.isTable) letters
  obtain ⟨areas, names⟩ := append_slash_inj first.area.slash_notMem_name
    second.area.slash_notMem_name rest
  obtain ⟨table, area, name, isTable, isName⟩ := first
  obtain ⟨otherTable, otherArea, otherName, _, _⟩ := second
  cases String.toList_inj.mp tables
  cases Area.name_injective (String.toList_inj.mp areas)
  cases String.toList_inj.mp names
  rfl

/-- The place of a row. -/
def row (table : String) (isTable : FileName.isSegment table = true) (id : RowId) : Place where
  table
  area := .rows
  name := id.fileName
  isTable
  isName := id.isSegment_fileName

/-- The place of the index on a column. -/
def index (table : String) (isTable : FileName.isSegment table = true) (column : String)
    (isColumn : FileName.isSegment column = true) : Place where
  table
  area := .indexes
  name := FileName.ofStem column
  isTable
  isName := FileName.isSegment_ofStem isColumn

/-- Different rows have different places. -/
theorem row_injective {table : String} {isTable : FileName.isSegment table = true}
    {first second : RowId} (same : row table isTable first = row table isTable second) :
    first = second := by
  have names : (row table isTable first).name = (row table isTable second).name :=
    congrArg Place.name same
  exact RowId.fileName_injective names

/-- Indexes on different columns have different places. -/
theorem index_injective {table : String} {isTable : FileName.isSegment table = true}
    {first second : String} {isFirst : FileName.isSegment first = true}
    {isSecond : FileName.isSegment second = true}
    (same : index table isTable first isFirst = index table isTable second isSecond) :
    first = second := by
  have names : (index table isTable first isFirst).name =
      (index table isTable second isSecond).name :=
    congrArg Place.name same
  exact FileName.ofStem_injective names

/-- Rows and indexes have different places. -/
theorem row_ne_index {table other : String} {isTable : FileName.isSegment table = true}
    {isOther : FileName.isSegment other = true} (id : RowId) {column : String}
    (isColumn : FileName.isSegment column = true) :
    row table isTable id ≠ index other isOther column isColumn := by
  intro same
  have areas : (row table isTable id).area = (index other isOther column isColumn).area :=
    congrArg Place.area same
  simp [row, index] at areas

/-- The path of the place of a row is that of the row's file. -/
theorem path_row (table : Table) (isTable : FileName.isSegment table.name = true) (id : RowId) :
    (row table.name isTable id).path = table.rowPath id :=
  rfl

/-- The path of the place of an index is that of the index's file. -/
theorem path_index (table : Table) (isTable : FileName.isSegment table.name = true)
    (column : String) (isColumn : FileName.isSegment column = true) :
    (index table.name isTable column isColumn).path = table.indexPath column :=
  rfl

end Place

/-- What is stored at each place. -/
abbrev Content :=
  Place → Option Bytes

end TableStore
