/-
# Reading tables

What the operations that only look at a table answer, by what is stored at the places of the
table. None of them changes a file. The rows that are listed are those whose files are there, and
their order is that of their numbers, whatever the order of the names of their files.
-/

import TableStore.Proofs.Collections
import TableStore.Proofs.Store
import TableStore.Table.Basic
import TableStore.Table.Index

namespace TableStore

variable {medium : Medium} {faults : List Fault} {content after : Content}

/-- An operation on the files inside one on a table. -/
theorem Ensures.onFiles {α : Type} {operation : StoreM FileError α}
    {post : Except FileError α → Content → Prop}
    (ensures : Ensures medium faults operation.run content post) :
    Ensures medium faults (TableM.onFiles operation).run content fun answer left =>
      ∃ inner, answer = inner.mapError TableError.files ∧ post inner left := by
  change Ensures medium faults (Except.mapError TableError.files <$> operation.run) content _
  rw [map_eq_pure_bind]
  exact ensures.bind fun inner left ensured => .pure ⟨inner, rfl, ensured⟩

/-- An operation on the files, whose failures become those of a table. -/
theorem Runs.onFiles {α : Type} {operation : StoreM FileError α} {outcome : Except FileError α}
    (runs : Runs medium faults operation content outcome after) :
    Runs medium faults (TableM.onFiles operation) content (outcome.mapError TableError.files)
      after := by
  refine (Ensures.onFiles runs).imp ?_
  rintro _ _ ⟨_, rfl, rfl, rfl⟩
  exact ⟨rfl, rfl⟩

/-- What is answered when a file is asked for that may be missing. -/
def TableM.found? {α : Type} : Except FileError α → Except TableError (Option α)
  | .ok value => .ok (some value)
  | .error (.notFound _) => .ok none
  | .error error => .error (.files error)

/-- An operation on the files that asks for something which may be missing. -/
theorem Runs.onFiles? {α : Type} {operation : StoreM FileError α} {outcome : Except FileError α}
    (runs : Runs medium faults operation content outcome after) :
    Runs medium faults (TableM.onFiles? operation) content (TableM.found? outcome) after := by
  refine Ensures.bind runs ?_
  rintro answer _ ⟨rfl, rfl⟩
  match answer with
  | .ok value => exact .pure ⟨rfl, rfl⟩
  | .error (.notFound path) => exact .pure ⟨rfl, rfl⟩
  | .error (.io path cause) => exact .pure ⟨rfl, rfl⟩

namespace Table

/-- A handle that is opened is the one on the table with the name, which is a segment. -/
theorem of_ofName {name : String} {options : TableOptions} {table : Table}
    (opened : ofName name options = .ok table) :
    table = ⟨name, options⟩ ∧ FileName.isSegment name = true := by
  rw [ofName] at opened
  split at opened
  · cases opened
  next segment =>
  split at opened
  · cases opened
  · cases opened
    exact ⟨rfl, by simpa using segment⟩

variable {table : Table} (isTable : FileName.isSegment table.name = true)
  (admits : medium.AdmitsTable table.name)

include isTable admits

/-- A stored row is read. -/
theorem runs_read {id : RowId} {bytes : Bytes} {row : Row}
    (unfaulted : (⟨.read, table.rowPath id⟩ : Fault) ∉ faults)
    (stored : content (.row table.name isTable id) = some bytes)
    (decoded : Row.ofBytes bytes = .ok row) :
    Runs medium faults (table.read id) content (.ok (some row)) content := by
  have found := (Store.runs_read (.row table.name isTable id) unfaulted (admits.row isTable id)
    stored).onFiles?
  refine Runs.bind found ?_
  simp only [decoded]
  exact .pure _

/-- A row that is not stored is not there. -/
theorem runs_read_none {id : RowId}
    (unfaulted : (⟨.read, table.rowPath id⟩ : Fault) ∉ faults)
    (absent : content (.row table.name isTable id) = none) :
    Runs medium faults (table.read id) content (.ok none) content := by
  have missing := (Store.runs_read_none (.row table.name isTable id) unfaulted
    (admits.row isTable id) absent).onFiles?
  exact Runs.bind missing (.pure _)

/-- A damaged row file is reported as such. -/
theorem runs_read_error {id : RowId} {bytes : Bytes} {flaw : Corruption}
    (unfaulted : (⟨.read, table.rowPath id⟩ : Fault) ∉ faults)
    (stored : content (.row table.name isTable id) = some bytes)
    (damaged : Row.ofBytes bytes = .error flaw) :
    Runs medium faults (table.read id) content (.error (.corrupted (table.rowPath id) flaw))
      content := by
  have found := (Store.runs_read (.row table.name isTable id) unfaulted (admits.row isTable id)
    stored).onFiles?
  refine Runs.bind found ?_
  simp only [damaged]
  exact .throw _

omit isTable admits in
/-- The identifiers among names are those of row files. -/
theorem ensures_identify (table : Table) (names : List String) :
    Ensures medium faults (table.identify names) content fun ids left =>
      ids = names.filterMap RowId.ofFileName? ∧ left = content := by
  induction names with
  | nil => exact .pure ⟨rfl, rfl⟩
  | cons name rest ih =>
      rw [identify]
      cases named : RowId.ofFileName? name with
      | some id =>
          refine ih.bind ?_
          rintro ids left ⟨rfl, rfl⟩
          exact .pure ⟨by rw [List.filterMap_cons_some named], rfl⟩
      | none =>
          refine (Ensures.report _).bind ?_
          rintro _ left rfl
          rw [List.filterMap_cons_none named]
          exact ih

omit isTable admits

/-- Identifiers in ascending order, without repetition. -/
def Ascending (ids : List RowId) : Prop :=
  ids.Pairwise fun first second => first.value < second.value

/-- Ascending identifiers are known by which ones they are. -/
theorem Ascending.eq_of_mem_iff {first second : List RowId} (ascending : Ascending first)
    (alsoAscending : Ascending second) (same : ∀ id, id ∈ first ↔ id ∈ second) :
    first = second :=
  eq_of_pairwise (fun _ _ => UInt64.lt_asymm) ascending alsoAscending same

/-- The identifier after the last of ascending ones is greater than all of them. -/
theorem Ascending.lt_of_next? {ids : List RowId} {greatest id other : RowId}
    (ascending : Ascending ids) (last : ids.getLast? = some greatest)
    (next : greatest.next? = some id) (member : other ∈ ids) : other.value < id.value := by
  obtain ⟨before, rfl⟩ := List.getLast?_eq_some_iff.mp last
  have most : other.value ≤ greatest.value := by
    rcases List.mem_append.mp member with earlier | same
    · exact UInt64.le_of_lt
        ((List.pairwise_append.mp ascending).2.2 other earlier greatest List.mem_cons_self)
    · rw [List.mem_singleton.mp same]
      exact UInt64.le_refl _
  rw [RowId.next?] at next
  split at next
  · next room =>
      cases next
      have more : (greatest.value + 1).toNat = greatest.value.toNat + 1 := by
        rw [UInt64.toNat_add]
        exact Nat.mod_eq_of_lt room
      have atMost : other.value.toNat ≤ greatest.value.toNat := UInt64.le_iff_toNat_le.mp most
      refine UInt64.lt_iff_toNat_lt.mpr ?_
      change _ < (greatest.value + 1).toNat
      omega
  · cases next

/-- The identifier after the last of ascending ones is none of them. -/
theorem Ascending.notMem_of_next? {ids : List RowId} {greatest id : RowId}
    (ascending : Ascending ids) (last : ids.getLast? = some greatest)
    (next : greatest.next? = some id) : id ∉ ids :=
  fun member => UInt64.lt_irrefl _ (ascending.lt_of_next? last next member)

/-- Sorting distinct identifiers puts them in ascending order. -/
theorem ascending_mergeSort {ids : List RowId} (distinct : ids.Nodup) :
    Ascending (ids.mergeSort fun first second => first.value ≤ second.value) := by
  have ordered : (ids.mergeSort fun first second => first.value ≤ second.value).Pairwise
      fun first second => decide (first.value ≤ second.value) = true :=
    List.pairwise_mergeSort (fun first second third => by simpa using UInt64.le_trans)
      (fun first second => by simpa using UInt64.le_total first.value second.value) ids
  have apart : (ids.mergeSort fun first second => first.value ≤ second.value).Nodup :=
    (List.mergeSort_perm ids _).nodup_iff.mpr distinct
  refine (ordered.and apart).imp ?_
  rintro ⟨first⟩ ⟨second⟩ ⟨less, different⟩
  exact UInt64.lt_of_le_of_ne (by simpa using less) fun same => different (congrArg RowId.mk same)

/-- The identifiers that names stand for, ascending by number. -/
def identified (names : List String) : List RowId :=
  (names.filterMap RowId.ofFileName?).mergeSort fun first second => first.value ≤ second.value

/-- An identifier stands for its file name and for no other. -/
theorem mem_identified {names : List String} {id : RowId} :
    id ∈ identified names ↔ id.fileName ∈ names := by
  rw [identified, (List.mergeSort_perm _ _).mem_iff, List.mem_filterMap]
  constructor
  · rintro ⟨name, listed, named⟩
    rwa [← RowId.ofFileName?_eq_some_iff.mp named]
  · exact fun listed => ⟨id.fileName, listed, RowId.ofFileName?_fileName id⟩

/-- Distinct names stand for identifiers in ascending order. -/
theorem ascending_identified {names : List String} (ordered : names.Pairwise (· < ·)) :
    Ascending (identified names) := by
  refine ascending_mergeSort (List.Nodup.filterMap ?_
    (ordered.imp fun less => String.ne_of_lt less))
  intro first second id named alsoNamed
  rw [RowId.ofFileName?_eq_some_iff.mp named, RowId.ofFileName?_eq_some_iff.mp alsoNamed]

/-- A place among the rows with the name of a row file is that of the row. -/
theorem place_eq_row {name : String} (isTable : FileName.isSegment name = true) (id : RowId) :
    (∃ place : Place, place.table = name ∧ place.area = .rows ∧ place.name = id.fileName ∧
        (content place).isSome = true) ↔
      (content (.row name isTable id)).isSome = true := by
  constructor
  · rintro ⟨place, tables, areas, names, stored⟩
    have same : place = .row name isTable id := Place.ext tables areas names
    exact same ▸ stored
  · exact fun stored => ⟨.row name isTable id, rfl, rfl, rfl, stored⟩

include isTable admits

/-- The rows that are listed are those whose files are stored, ascending. -/
theorem ensures_rowIds (unfaulted : (⟨.list, table.rowDirectory⟩ : Fault) ∉ faults) :
    Ensures medium faults table.rowIds.run content fun answer left =>
      left = content ∧ ∃ ids, answer = .ok ids ∧ Ascending ids ∧
        ∀ id, id ∈ ids ↔ (content (.row table.name isTable id)).isSome = true := by
  refine Ensures.run_bind (Store.ensures_list .rows unfaulted isTable
    (admits.area .rows)).onFiles ?_ ?_
  · rintro names left ⟨_, answered, rfl, names, rfl, ordered, members⟩
    cases answered
    refine Ensures.run_bind (ensures_identify table names).lift ?_ ?_
    · rintro found left ⟨_, same, rfl, rfl⟩
      cases same
      refine .pure ⟨rfl, _, rfl, ascending_identified ordered, fun id => ?_⟩
      rw [← place_eq_row isTable id, ← members]
      exact mem_identified
    · rintro _ _ ⟨_, same, -, -⟩
      cases same
  · rintro _ _ ⟨_, answered, rfl, names, rfl, -, -⟩
    cases answered

/-- The rows that are listed are known by which ones are stored. -/
theorem runs_rowIds {ids : List RowId}
    (unfaulted : (⟨.list, table.rowDirectory⟩ : Fault) ∉ faults) (ascending : Ascending ids)
    (stored : ∀ id, id ∈ ids ↔ (content (.row table.name isTable id)).isSome = true) :
    Runs medium faults table.rowIds content (.ok ids) content := by
  apply (ensures_rowIds isTable admits unfaulted).imp
  intro answer left reached
  obtain ⟨kept, found, answered, alsoAscending, members⟩ := reached
  have same : found = ids := alsoAscending.eq_of_mem_iff ascending fun id => by
    rw [members, stored]
  exact ⟨same ▸ answered, kept⟩

end Table

end TableStore
