/-
# Rows side by side

Storing or removing a row, and storing indexes anew, changes nothing that reading another row of
the table could show, whatever else is stored. All this needs is that a row was there: then so are
the directories of the table, and they stay.
-/

import TableStore.Proofs.Files.Region
import TableStore.Proofs.Files.Medium

namespace TableStore

open HostPath

namespace Disk

variable {root table own : String} {place : List String} {disk first second third : Disk}

/-- Whether the directory of a table and that of its rows are there, where a path below a root leads
to. -/
structure HasRows (root table : String) (place : List String) (disk : Disk) : Prop where
  proper : areProper (partsOf root) = true
  walked : disk.walk (disk.origin root) (partsOf root ++ [table]) = .ok place
  directory : disk.node? place = some .directory
  rows : disk.node? (place ++ ["rows"]) = some .directory

/-- Whether one disk has come from another without losing directories and without changes in the
rows of a table, but for one of them. -/
structure SparesRows (place : List String) (own : String) (first second : Disk) : Prop where
  working : second.workingDirectory = first.workingDirectory
  stay : ∀ location, first.node? location = some .directory →
    second.node? location = some .directory
  rows : ∀ name, name ≠ own →
    second.node? (place ++ ["rows", name]) = first.node? (place ++ ["rows", name])

namespace SparesRows

/-- Where nothing changes, other rows are spared. -/
theorem refl : SparesRows place own disk disk where
  working := rfl
  stay _ there := there
  rows _ _ := rfl

/-- Changes that spare other rows, one after another. -/
theorem trans (spares : SparesRows place own first second)
    (further : SparesRows place own second third) : SparesRows place own first third where
  working := further.working.trans spares.working
  stay location there := further.stay location (spares.stay location there)
  rows name apart := (further.rows name apart).trans (spares.rows name apart)

/-- The directories of the table stay. -/
theorem hasRows (spares : SparesRows place own first second)
    (has : HasRows root table place first) : HasRows root table place second where
  proper := has.proper
  walked := by
    rw [origin_eq spares.working]
    exact walk_mono spares.stay has.walked
  directory := spares.stay _ has.directory
  rows := spares.stay _ has.rows

/-- What is put elsewhere than at another row spares it. -/
theorem put {location : List String}
    (elsewhere : ∀ name, name ≠ own → place ++ ["rows", name] ≠ location) {bytes : Bytes}
    {after : Disk} (put : disk.put location bytes = .ok after) :
    SparesRows place own disk after := by
  have stay := node?_directory_of_put put
  obtain ⟨-, below, rfl⟩ := of_put put
  refine ⟨rfl, stay, fun name apart => ?_⟩
  rw [node?_insert disk below, if_neg (elsewhere name apart)]

end SparesRows

namespace HasRows

variable (has : HasRows root table place disk)

include has

/-- The path of a file in the directory of a table leads there, and on from there. -/
theorem walk_append (parts : List String) :
    disk.walk (disk.origin root) (partsOf root ++ table :: parts) = disk.walk place parts := by
  rw [List.append_cons, Disk.walk_append, has.walked]
  rfl

/-- The path of a row leads to its location, unless its name is too long. -/
theorem walk_row {name : String} (segment : FileName.isSegment name = true) :
    disk.walk (disk.origin root) (partsOf root ++ [table, "rows", name]) =
      if nameLimit < name.utf8ByteSize then .error .nameTooLong
      else .ok (place ++ ["rows", name]) := by
  have area : FileName.isSegment "rows" = true := by decide
  rw [has.walk_append, walk_of_directory has.directory, next_segment area, if_neg (by decide),
    Except.bind, walk_of_directory has.rows, next_segment segment]
  split
  · rfl
  · rw [List.append_assoc]
    rfl

/-- What the path of a row names. -/
theorem locate_row {name : String}
    (segments : ∀ part ∈ [table, "rows", name], FileName.isSegment part = true) :
    disk.locate (join root ("/".intercalate [table, "rows", name])) =
      if isTooLong (join root ("/".intercalate [table, "rows", name])) then .error .nameTooLong
      else if nameLimit < name.utf8ByteSize then .error .nameTooLong
      else match disk.node? (place ++ ["rows", name]) with
        | some node => .ok (place ++ ["rows", name], node)
        | none => .error .missing := by
  rw [locate_eq disk has.proper (List.cons_ne_nil _ _) segments,
    has.walk_row (segments name (by simp))]
  by_cases long : nameLimit < name.utf8ByteSize
  · rw [if_pos long, if_pos long]
    rfl
  · rw [if_neg long, if_neg long]
    rfl

/-- Another row is read as before. -/
theorem read_of_spares {second : Disk} (spares : SparesRows place own disk second) {name : String}
    (apart : name ≠ own)
    (segments : ∀ part ∈ [table, "rows", name], FileName.isSegment part = true) :
    second.read (join root ("/".intercalate [table, "rows", name])) =
      disk.read (join root ("/".intercalate [table, "rows", name])) := by
  rw [Disk.read, Disk.read, has.locate_row segments, (spares.hasRows has).locate_row segments,
    spares.rows name apart]

/-- Removing a row spares the others. -/
theorem delete_row (segments : ∀ part ∈ [table, "rows", own], FileName.isSegment part = true)
    {after : Disk}
    (deleted : disk.delete (join root ("/".intercalate [table, "rows", own])) = .ok after) :
    SparesRows place own disk after := by
  rw [Disk.delete, has.locate_row segments] at deleted
  split at deleted
  · cases deleted
  split at deleted
  · cases deleted
  cases there : disk.node? (place ++ ["rows", own]) with
  | none =>
      rw [there] at deleted
      cases deleted
  | some node =>
      rw [there] at deleted
      cases node with
      | directory => cases deleted
      | file bytes =>
          cases deleted
          have below : place ++ ["rows", own] ≠ [] := by simp
          refine ⟨rfl, fun location directory => ?_, fun name apart => ?_⟩
          · have elsewhere : location ≠ place ++ ["rows", own] := by
              rintro rfl
              cases there.symm.trans directory
            rw [node?_erase disk below, if_neg elsewhere, directory]
          · rw [node?_erase disk below, if_neg (by simpa using apart)]

/-- Storing a row spares the others. -/
theorem write_row (segments : ∀ part ∈ [table, "rows", own], FileName.isSegment part = true)
    (bytes : Bytes) :
    SparesRows place own disk
      (disk.write (join root ("/".intercalate [table, "rows", own])) bytes).2 := by
  have reached : disk.walk (disk.origin root) (partsOf root ++ [table, "rows"]) =
      .ok (place ++ ["rows"]) := by
    rw [has.walk_append, walk_of_directory has.directory, next_segment (by decide),
      if_neg (by decide)]
    rfl
  have made := makeDirectories_of_walk reached has.rows []
  rw [List.append_nil] at made
  have upTo : [table, "rows", own].dropLast = [table, "rows"] := rfl
  rw [write_eq disk has.proper (List.cons_ne_nil _ _) segments, upTo, made, makeDirectories]
  dsimp only
  split
  · exact .refl
  split
  · exact .refl
  rw [has.walk_row (segments own (by simp))]
  by_cases long : nameLimit < own.utf8ByteSize
  · rw [if_pos long]
    exact .refl
  rw [if_neg long, Except.bind]
  cases put : disk.put (place ++ ["rows", own]) bytes with
  | error failure =>
      exact .refl
  | ok after =>
      exact .put (fun name apart => by simpa using apart) put

/-- Storing an index spares all rows. -/
theorem write_index {file : String}
    (segments : ∀ part ∈ [table, "indexes", file], FileName.isSegment part = true)
    (bytes : Bytes) :
    SparesRows place own disk
      (disk.write (join root ("/".intercalate [table, "indexes", file])) bytes).2 := by
  have upTo : [table, "indexes", file].dropLast = [table, "indexes"] := rfl
  have going : disk.makeDirectories (disk.origin root) (partsOf root ++ [table, "indexes"]) =
      disk.makeDirectories place ["indexes"] := by
    rw [List.append_cons]
    exact makeDirectories_of_walk has.walked has.directory ["indexes"]
  have made : SparesRows place own disk (disk.makeDirectories place ["indexes"]).2 := by
    refine ⟨workingDirectory_makeDirectories _ _ _,
      fun location => node?_makeDirectories_of_some place ["indexes"], fun name _ => ?_⟩
    have initial : ∀ part ∈ ["indexes"], FileName.isSegment part = true := by decide
    refine node?_makeDirectories_of_ne initial fun upTo _ below here => ?_
    have long := below.length_le
    rw [← List.append_cancel_left here] at long
    simp at long
  rw [write_eq disk has.proper (List.cons_ne_nil _ _) segments, upTo, going]
  split
  · exact .refl
  cases making : disk.makeDirectories place ["indexes"] with
  | mk outcome after =>
      rw [making] at made
      cases outcome with
      | error failure => exact made
      | ok _ =>
          simp only []
          split
          · exact made
          have hasAfter := made.hasRows has
          rw [hasAfter.walk_append]
          cases walked : after.walk place ["indexes", file] with
          | error failure => exact made
          | ok reached =>
              have here : reached = place ++ ["indexes", file] :=
                prefix_of_walk (fun part member => segments part (List.mem_cons_of_mem _ member))
                  walked
              cases put : after.put reached bytes with
              | error failure =>
                  simp only [Except.bind, put]
                  exact made
              | ok last =>
                  simp only [Except.bind, put]
                  refine made.trans (.put (fun name _ same => ?_) put)
                  rw [here] at same
                  simp at same

omit has in
/-- A row that is read has the directories of its table above it. -/
theorem of_read {name : String} (isTable : FileName.isSegment table = true)
    (segment : FileName.isSegment name = true) {bytes : Bytes}
    (read : disk.read (join root ("/".intercalate [table, "rows", name])) = .ok bytes) :
    ∃ place, HasRows root table place disk := by
  have segments : ∀ part ∈ [table, "rows", name], FileName.isSegment part = true :=
    List.forall_mem_cons.mpr ⟨isTable, List.forall_mem_cons.mpr
      ⟨by decide, List.forall_mem_singleton.mpr segment⟩⟩
  obtain ⟨reached, located⟩ := read_eq_ok_iff.mp read
  have proper := proper_of_locate (List.cons_ne_nil _ _) segments located
  obtain ⟨-, walked, -⟩ :=
    (locate_join_eq_ok_iff (isPlain_intercalate (List.cons_ne_nil _ _) segments)).mp located
  rw [segmentsOf_intercalate (List.cons_ne_nil _ _) segments, List.append_cons,
    walk_append_eq_ok_iff] at walked
  obtain ⟨place, toTable, last⟩ := walked
  have directory := node?_of_walk last
  rw [walk_of_directory directory, next_segment (by decide), if_neg (by decide)] at last
  exact ⟨place, proper, toTable, directory, node?_of_walk last⟩

end HasRows

end Disk

namespace Files

/-- Whether files have come from others without changes in the rows of a table, but for one of them.
On a disk, the directories of the table are to be there. -/
inductive SparesRows (table : String) (id : RowId) : Files → Files → Prop where
  | memory {first second : MemoryFiles}
      (same : ∀ (isTable : FileName.isSegment table = true) (other : RowId), other ≠ id →
        second.contents[(Place.row table isTable other).path]? =
          first.contents[(Place.row table isTable other).path]?) :
      SparesRows table id (.memory first) (.memory second)
  | disk {first second : Disk} {root : String} {place : List String}
      (has : first.HasRows root table place)
      (spares : Disk.SparesRows place id.fileName first second) :
      SparesRows table id (.disk first root) (.disk second root)

namespace SparesRows

variable {table : String} {id : RowId} {start files : Files}

/-- Files in which some row is read spare the rows as long as nothing changes. -/
theorem refl (isTable : FileName.isSegment table = true) {some : RowId} {bytes : Bytes}
    (read : files.read (Place.row table isTable some).path = .ok bytes) :
    SparesRows table id files files := by
  cases files with
  | memory files => exact .memory fun _ _ _ => rfl
  | disk tree root =>
      cases shown : tree.read (join root (Place.row table isTable some).path) with
      | error failure =>
          rw [Files.read, shown] at read
          cases read
      | ok bytes =>
          rw [Place.path_eq_intercalate] at shown
          obtain ⟨place, has⟩ := Disk.HasRows.of_read isTable some.isSegment_fileName shown
          exact .disk has .refl

variable (spares : SparesRows table id start files) (isTable : FileName.isSegment table = true)

include spares

/-- Another row is read as before. -/
theorem read {other : RowId} (apart : other ≠ id) :
    files.read (Place.row table isTable other).path =
      start.read (Place.row table isTable other).path := by
  cases spares with
  | memory same =>
      rw [Files.read, Files.read, MemoryFiles.read, MemoryFiles.read, same isTable other apart]
  | disk has spares =>
      have named : other.fileName ≠ id.fileName := fun same =>
        apart (RowId.fileName_injective same)
      rw [Files.read, Files.read, Place.path_eq_intercalate]
      exact congrArg _ (has.read_of_spares spares named
        (Place.row table isTable other).isSegment_of_mem_names)

omit spares in
/-- Rows of a table are spared by what is written elsewhere in memory. -/
theorem write_memory {stored : MemoryFiles} (spares : SparesRows table id start (.memory stored))
    {path : String} (elsewhere : ∀ other, other ≠ id → path ≠ (Place.row table isTable other).path)
    (bytes : Bytes) : SparesRows table id start (.memory (stored.write path bytes)) := by
  cases spares with
  | memory same =>
      refine .memory fun _ other apart => ?_
      rw [MemoryFiles.write, Std.ExtTreeMap.getElem?_insert]
      simp [elsewhere other apart, same isTable other apart]

/-- The row may be stored. -/
theorem write_row (bytes : Bytes) :
    SparesRows table id start (files.write (Place.row table isTable id).path bytes).2 := by
  cases files with
  | memory stored =>
      exact write_memory isTable spares (fun other apart same =>
        apart (Place.row_injective (Place.path_injective same)).symm) bytes
  | disk tree root =>
      cases spares with
      | disk has spares =>
          have stored := (spares.hasRows has).write_row
            (Place.row table isTable id).isSegment_of_mem_names bytes
          rw [Files.write, Place.path_eq_intercalate]
          exact .disk has (spares.trans stored)

/-- Indexes may be stored. -/
theorem write_index {column : String} (isColumn : FileName.isSegment column = true)
    (bytes : Bytes) :
    SparesRows table id start
      (files.write (Place.index table isTable column isColumn).path bytes).2 := by
  cases files with
  | memory stored =>
      exact write_memory isTable spares (fun other _ same =>
        Place.row_ne_index other isColumn (Place.path_injective same).symm) bytes
  | disk tree root =>
      cases spares with
      | disk has spares =>
          rw [Files.write, Place.path_eq_intercalate]
          exact .disk has (spares.trans ((spares.hasRows has).write_index
            (Place.index table isTable column isColumn).isSegment_of_mem_names bytes))

/-- The row may be removed. -/
theorem delete : SparesRows table id start (files.delete (Place.row table isTable id).path).2 := by
  have kept := spares
  cases spares with
  | @memory first second same =>
      rw [Files.delete, MemoryFiles.delete]
      cases second.contents.contains (Place.row table isTable id).path with
      | false => exact kept
      | true =>
          refine .memory fun _ other apart => ?_
          have elsewhere :
              (Place.row table isTable id).path ≠ (Place.row table isTable other).path :=
            fun same => apart (Place.row_injective (Place.path_injective same)).symm
          rw [Std.ExtTreeMap.getElem?_erase]
          simp [elsewhere, same isTable other apart]
  | @disk first second root place has spares =>
      rw [Files.delete, Place.path_eq_intercalate]
      cases deleted : second.delete
          (join root ("/".intercalate (Place.row table isTable id).names)) with
      | error failure => exact kept
      | ok after =>
          have removed := (spares.hasRows has).delete_row
            (Place.row table isTable id).isSegment_of_mem_names deleted
          exact .disk has (spares.trans removed)

end SparesRows

section

variable {table : String} (isTable : FileName.isSegment table = true) {files : Files} {id : RowId}
  {stored : Bytes} (read : files.read (Place.row table isTable id).path = .ok stored)

include read

/-- A row that is read stays as it is when another one is stored. -/
theorem read_row_of_write_row {other : RowId} (apart : id ≠ other) (bytes : Bytes) :
    (files.write (Place.row table isTable other).path bytes).2.read
      (Place.row table isTable id).path = .ok stored := by
  have spares : SparesRows table other files files := .refl isTable read
  rw [(spares.write_row isTable bytes).read isTable apart, read]

/-- A row that is read stays as it is when an index is stored. -/
theorem read_row_of_write_index {column : String} (isColumn : FileName.isSegment column = true)
    (bytes : Bytes) :
    (files.write (Place.index table isTable column isColumn).path bytes).2.read
      (Place.row table isTable id).path = .ok stored := by
  have apart : id ≠ ⟨id.value + 1⟩ := fun same => by
    simpa using congrArg RowId.value same
  have spares : SparesRows table ⟨id.value + 1⟩ files files := .refl isTable read
  rw [(spares.write_index isTable isColumn bytes).read isTable apart, read]

end

end Files

end TableStore
