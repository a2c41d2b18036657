/-
# Fresh disks

A disk without files can keep tables below every root whose path does not go up. It takes all
tables and indexes whose names are short enough for the names of files, which the names of rows
always are.
-/

import Mathlib.Data.Nat.Digits.Defs
import TableStore.Proofs.Files.Medium

namespace TableStore

/-- A character takes four bytes at most. -/
theorem utf8ByteSize_ofList_le (letters : List Char) :
    (String.ofList letters).utf8ByteSize ≤ 4 * letters.length := by
  induction letters with
  | nil => exact Nat.le_refl 0
  | cons letter rest ih =>
      have first := letter.utf8Size_le_four
      rw [String.ofList_cons, String.utf8ByteSize_append, String.utf8ByteSize_singleton,
        List.length_cons]
      omega

/-- The name of the file of a row is short. -/
theorem RowId.utf8ByteSize_fileName_le (id : RowId) :
    id.fileName.utf8ByteSize ≤ Disk.nameLimit := by
  have few : (Nat.toDigits 10 id.value.toNat).length ≤ 20 :=
    Nat.toDigits_length 10 _ 20 (by decide) (Nat.lt_trans id.value.toNat_lt (by decide))
  have letters : (id.digits ++ FileName.ending).length ≤ 25 := by
    simp only [digits, width, FileName.ending, List.length_append, List.length_replicate,
      List.length_cons, List.length_nil]
    omega
  have size := utf8ByteSize_ofList_le (id.digits ++ FileName.ending)
  have limit : Disk.nameLimit = 255 := rfl
  rw [fileName, FileName.ofStem, toText, String.toList_ofList]
  omega

namespace Disk

open HostPath

/-- Nothing is on a disk without files but the top. -/
theorem node?_empty {location : List String} (below : location ≠ []) :
    Disk.empty.node? location = none := by
  rw [node?_of_ne_nil _ below]
  exact Std.ExtTreeMap.getElem?_empty

/-- A disk without files holds none below a root whose path does not go up. -/
theorem holds_empty {root : String} (noUp : ".." ∉ partsOf root)
    (short : ∀ part ∈ partsOf root, part.utf8ByteSize ≤ nameLimit)
    (proper : areProper (partsOf root) = true) : Disk.empty.Holds root fun _ => none where
  toRooted := by
    have isTree : Disk.empty.IsTree := fun location below there => by
      rw [node?_empty below] at there
      cases there
    refine .of_noUp isTree proper noUp short ?_ fun above _ bytes there => ?_
    · rw [origin, start]
      split <;> rfl
    · by_cases top : above = []
      · rw [top] at there
        cases there
      · rw [node?_empty top] at there
        cases there
  bypasses _ _ := .of_noUp noUp
  layout names node nonempty there := by
    rw [node?_empty (List.append_ne_nil_of_right_ne_nil _ nonempty)] at there
    cases there
  node?_place place :=
    node?_empty (List.append_ne_nil_of_right_ne_nil _ (List.cons_ne_nil _ _))
  takes _ stored := by cases stored

/-- The size of short names with slashes between them. -/
theorem utf8ByteSize_intercalate_le {names : List String}
    (short : ∀ name ∈ names, name.utf8ByteSize ≤ nameLimit) :
    ("/".intercalate names).utf8ByteSize ≤ (nameLimit + 1) * names.length := by
  induction names with
  | nil => exact Nat.zero_le _
  | cons first rest ih =>
      have here := short first List.mem_cons_self
      have others := ih fun name member => short name (List.mem_cons_of_mem _ member)
      by_cases last : rest = []
      · rw [last, String.intercalate_singleton, List.length_singleton]
        exact Nat.le_trans here (by decide)
      · rw [String.intercalate_cons_of_ne_nil last, String.utf8ByteSize_append,
          String.utf8ByteSize_append, List.length_cons, Nat.mul_succ]
        have slash : "/".utf8ByteSize = 1 := rfl
        omega

/-- The size of a path below a root. -/
theorem utf8ByteSize_join_le (root path : String) :
    (join root path).utf8ByteSize ≤ root.utf8ByteSize + 1 + path.utf8ByteSize := by
  have slash : "/".utf8ByteSize = 1 := rfl
  rw [join]
  split
  · omega
  · split
    · omega
    · split
      · rw [String.utf8ByteSize_append]
        omega
      · rw [String.utf8ByteSize_append, String.utf8ByteSize_append]
        omega

/-- A disk takes paths of up to three short names below a root that is not too long. -/
theorem takes_intercalate {root : String} {names : List String}
    (room : root.utf8ByteSize ≤ 3000) (nonempty : names ≠ []) (few : names.length ≤ 3)
    (segments : ∀ name ∈ names, FileName.isSegment name = true)
    (short : ∀ name ∈ names, name.utf8ByteSize ≤ nameLimit) :
    Takes root ("/".intercalate names) where
  size := by
    have whole := utf8ByteSize_join_le root ("/".intercalate names)
    have parts := utf8ByteSize_intercalate_le short
    have limits : nameLimit = 255 ∧ sizeLimit = 4095 := ⟨rfl, rfl⟩
    rw [limits.1] at parts
    rw [limits.2]
    omega
  names := by
    rw [partsOf, segmentsOf_intercalate nonempty segments, filter_segments segments]
    exact short

end Disk

namespace Medium

variable {root table : String} (room : root.utf8ByteSize ≤ 3000)
  (isTable : FileName.isSegment table = true) (short : table.utf8ByteSize ≤ Disk.nameLimit)

include room isTable short

/-- A disk takes a place of a table with a short name if the name of the file is short. -/
theorem admits_place_disk {place : Place} (here : place.table = table)
    (name : place.name.utf8ByteSize ≤ Disk.nameLimit) : (disk root).Admits place.path := by
  subst here
  rw [Place.path_eq_intercalate]
  refine Disk.takes_intercalate room (List.cons_ne_nil _ _) (Nat.le_refl 3)
    place.isSegment_of_mem_names ?_
  rw [Place.names, List.forall_mem_cons, List.forall_mem_cons, List.forall_mem_singleton]
  refine ⟨short, ?_, name⟩
  cases place.area <;> decide

/-- A disk takes all tables with short names. -/
theorem admitsTable_disk : (disk root).AdmitsTable table where
  directory := by
    have taken := @Disk.takes_intercalate root [table] room (List.cons_ne_nil _ _) (by simp)
      (List.forall_mem_singleton.mpr isTable) (List.forall_mem_singleton.mpr short)
    rwa [String.intercalate_singleton] at taken
  area area := by
    rw [Place.directory_eq_intercalate]
    refine Disk.takes_intercalate room (List.cons_ne_nil _ _) (by simp) ?_ ?_
    · exact Place.isSegment_of_mem_directory isTable area
    · rw [List.forall_mem_cons, List.forall_mem_singleton]
      refine ⟨short, ?_⟩
      cases area <;> decide
  row _ id := admits_place_disk room isTable short rfl id.utf8ByteSize_fileName_le

end Medium

end TableStore
