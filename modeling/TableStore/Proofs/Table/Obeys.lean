/-
# Tables obey their machines

Without failures, every call on a table answers what the ledger of the table says, and the files
are afterwards those of the ledger after the call.
-/

import TableStore.Proofs.Table.Machine
import TableStore.Proofs.Table.Operation

namespace TableStore

namespace Table

open Ledger

variable {medium : Medium} {ledgers : String → Ledger} {table : Table}
  (isTable : FileName.isSegment table.name = true) (admits : medium.AdmitsTable table.name)

include isTable admits

/-- The rows that are listed are those of the ledger. -/
theorem runs_rowIds_keys :
    Runs medium [] table.rowIds (content ledgers) (.ok (ledgers table.name).rows.keys)
      (content ledgers) := by
  refine runs_rowIds isTable admits List.not_mem_nil (ascending_keys _) fun id => ?_
  rw [content_row, Option.isSome_map, Std.ExtTreeMap.mem_keys,
    Std.ExtTreeMap.mem_iff_isSome_getElem?]

/-- A row is read as the one of the ledger. -/
theorem runs_read_row? (id : RowId) :
    Runs medium [] (table.read id) (content ledgers) (.ok ((ledgers table.name).row? id))
      (content ledgers) := by
  rw [row?]
  cases found : (ledgers table.name).rows[id]? with
  | none =>
      exact runs_read_none isTable admits List.not_mem_nil (by rw [content_row, found]; rfl)
  | some stored =>
      exact runs_read isTable admits List.not_mem_nil (by rw [content_row, found]; rfl)
        stored.ofBytes_bytes

/-- A row is required to be in the ledger. -/
theorem runs_require (id : RowId) :
    Runs medium [] (table.require id) (content ledgers)
      (((ledgers table.name).require id).map StoredRow.row) (content ledgers) := by
  refine Runs.bind (runs_read_row? isTable admits id) ?_
  rw [row?, Ledger.require]
  cases (ledgers table.name).rows[id]? with
  | none => exact .throw _
  | some stored => exact .pure stored.row

/-- The identifier of the next row is that of the ledger. -/
theorem runs_freshId :
    Runs medium [] table.freshId (content ledgers) (ledgers table.name).freshId
      (content ledgers) := by
  refine Runs.bind (runs_rowIds_keys isTable admits) ?_
  rw [← Std.ExtTreeMap.maxKey?_eq_getLast?_keys, Ledger.freshId]
  cases found : (ledgers table.name).rows.maxKey? with
  | none =>
      have empty := Std.ExtTreeMap.maxKey?_eq_none_iff.mp found
      rw [if_neg (empty ▸ Std.ExtTreeMap.not_mem_empty)]
      exact .pure _
  | some greatest =>
      simp only [next?_eq]
      by_cases last : lastId ∈ (ledgers table.name).rows
      · have same : greatest = lastId := by
          have most := value_le_of_maxKey? found last
          by_contra notLast
          have room := toNat_lt_of_ne_lastId notLast
          have atLeast : lastId.value.toNat ≤ greatest.value.toNat := UInt64.le_iff_toNat_le.mp most
          have bound : lastId.value.toNat = 2 ^ 64 - 1 := rfl
          simp only [UInt64.size] at room
          omega
        rw [if_pos last, if_pos same]
        exact .throw _
      · have notLast : greatest ≠ lastId := by
          rintro rfl
          exact last (Std.ExtTreeMap.maxKey?_mem found)
        rw [if_neg last, if_neg notLast]
        exact .pure _

omit isTable admits in
/-- A row passes the check for scalars if it can be stored. -/
theorem runs_checkScalars {content : Content} (pretty : Bool) (row : Row) :
    Runs medium [] (checkScalars row) content
      ((StoredRow.ofRow pretty row).map fun _ => ()) content := by
  rw [checkScalars, StoredRow.ofRow]
  split
  · next column composite =>
      split
      · next other found =>
          rw [composite] at found
          cases found
          exact .throw _
      · next none =>
          rw [composite] at none
          cases none
  · next none =>
      split
      · next column composite =>
          rw [none] at composite
          cases composite
      · exact .pure _

/-- A scan over all rows builds the index of the ledger. -/
theorem runs_scanInto_keys (absent : RowId → TableM Unit) (column : String) :
    Runs medium []
      (table.scanInto absent (.empty column) (ledgers table.name).rows.keys) (content ledgers)
      (.ok ((ledgers table.name).index column)) (content ledgers) := by
  rw [index_eq_foldl_keys]
  refine runs_scanInto isTable admits rfl (fun _ _ => List.not_mem_nil) fun id member => ?_
  obtain ⟨stored, found⟩ := Option.isSome_iff_exists.mp
    (Std.ExtTreeMap.mem_iff_isSome_getElem?.mp (Std.ExtTreeMap.mem_keys.mp member))
  refine ⟨stored.bytes, by rw [content_row, found]; rfl, ?_⟩
  rw [row?, found]
  exact stored.ofBytes_bytes

/-- An index is built as that of the ledger. -/
theorem runs_addIndex {column : String} (isColumn : FileName.isSegment column = true)
    (admitted : medium.Admits (table.indexPath column)) :
    Runs medium [] (table.addIndex column) (content ledgers) (.ok ())
      (content (Function.update ledgers table.name
        ((ledgers table.name).addColumn column isColumn))) := by
  rw [content_addColumn isTable isColumn, addIndex]
  simp only [isColumn, Bool.not_true, Bool.false_eq_true, if_false]
  refine Runs.bind (runs_rowIds_keys isTable admits) ?_
  refine Runs.bind (runs_scanInto_keys isTable admits _ column) ?_
  exact Runs.bind (runs_writeIndex isTable (column_index _ column) isColumn admitted
    List.not_mem_nil) (.report _)

omit admits in
/-- An index is removed if it is there. -/
theorem runs_removeIndex {column : String}
    (admitted : FileName.isSegment column = true → medium.Admits (table.indexPath column)) :
    Runs medium [] (table.removeIndex column) (content ledgers)
      (.ok ((ledgers table.name).columns.contains column))
      (content (Function.update ledgers table.name
        ((ledgers table.name).removeColumn column))) := by
  rw [removeIndex]
  by_cases isColumn : FileName.isSegment column = true
  swap
  · have absent : column ∉ (ledgers table.name).columns :=
      fun member => isColumn ((ledgers table.name).isColumn column member)
    rw [removeColumn_of_notMem absent, Function.update_eq_self, if_pos (by simpa using isColumn),
      Bool.eq_false_iff.mpr absent]
    exact .pure false
  simp only [isColumn, Bool.not_true, Bool.false_eq_true, if_false]
  rw [content_removeColumn isTable isColumn]
  by_cases member : column ∈ (ledgers table.name).columns
  · have stored : (content ledgers (.index table.name isTable column isColumn)).isSome = true := by
      rw [content_index, if_pos member]
      rfl
    have removed := (Store.runs_delete (.index table.name isTable column isColumn)
      List.not_mem_nil (admitted isColumn) stored).onFiles?
    rw [Std.ExtTreeSet.contains_iff_mem.mpr member]
    exact Runs.bind removed (Runs.bind (.report _) (.pure true))
  · have absent : content ledgers (.index table.name isTable column isColumn) = none := by
      rw [content_index, if_neg member]
    have missing := (Store.runs_delete_none (.index table.name isTable column isColumn)
      List.not_mem_nil (admitted isColumn) absent).onFiles?
    rw [← absent, Function.update_eq_self, Bool.eq_false_iff.mpr member]
    exact Runs.bind missing (.pure false)

/-- Dropping a table empties its ledger. -/
theorem runs_drop :
    Runs medium [] table.drop (content ledgers) (.ok ())
      (content (Function.update ledgers table.name .empty)) := by
  rw [content_update_empty]
  exact Runs.bind (Store.runs_deleteAll List.not_mem_nil isTable admits.directory).onFiles
    (.report _)

/-- A row is put under an identifier that is not in use. -/
theorem runs_insert {row : Row} {stored : StoredRow} {id : RowId}
    (accepted : StoredRow.ofRow table.options.prettyRows row = .ok stored)
    (fresh : (ledgers table.name).freshId = .ok id) :
    Runs medium [] (table.insert row) (content ledgers) (.ok id)
      (content (Function.update ledgers table.name
        ((ledgers table.name).put id (some (stored.withId table.options.idColumn id))))) := by
  obtain ⟨rfl, layout⟩ := StoredRow.of_ofRow accepted
  have checked := @runs_checkScalars medium (content ledgers) table.options.prettyRows stored.row
  have found := @runs_freshId medium ledgers table isTable admits
  rw [accepted] at checked
  rw [fresh] at found
  refine Runs.bind checked (Runs.bind found ?_)
  have absent : (ledgers table.name).row? id = none := by
    rw [row?, Std.ExtTreeMap.getElem?_eq_none (notMem_of_freshId fresh)]
    rfl
  have persisted := @runs_persist medium ledgers table isTable admits id
    (some (stored.withId table.options.idColumn id)) (by
      rintro _ ⟨⟩
      rw [StoredRow.pretty_withId, layout])
    fun impossible => (by cases impossible)
  rw [absent, Option.map_some, StoredRow.row_withId] at persisted
  exact Runs.bind persisted (.pure id)

omit isTable admits in
/-- A row that is required is the one under its identifier. -/
theorem row?_of_require {id : RowId} {old : StoredRow}
    (present : (ledgers table.name).require id = .ok old) :
    (ledgers table.name).row? id = some old.row ∧ id ∈ (ledgers table.name).rows := by
  rw [Ledger.require] at present
  split at present
  · next found =>
      cases present
      exact ⟨by rw [row?, found]; rfl,
        Std.ExtTreeMap.mem_iff_isSome_getElem?.mpr (by rw [found]; rfl)⟩
  · cases present

/-- A row that is there is merged with changes. -/
theorem runs_update {id : RowId} {changes : Row} {stored old : StoredRow}
    (accepted : StoredRow.ofRow table.options.prettyRows changes = .ok stored)
    (present : (ledgers table.name).require id = .ok old) :
    Runs medium [] (table.update id changes) (content ledgers) (.ok (old.merge stored).row)
      (content (Function.update ledgers table.name
        ((ledgers table.name).put id (some (old.merge stored))))) := by
  obtain ⟨rfl, layout⟩ := StoredRow.of_ofRow accepted
  have checked := @runs_checkScalars medium (content ledgers) table.options.prettyRows stored.row
  have found := @runs_require medium ledgers table isTable admits id
  rw [accepted] at checked
  rw [present] at found
  have persisted := @runs_persist medium ledgers table isTable admits id
    (some (old.merge stored)) (by
      rintro _ ⟨⟩
      exact layout)
    fun impossible => (by cases impossible)
  rw [(row?_of_require present).1, Option.map_some] at persisted
  exact Runs.bind checked (Runs.bind found (Runs.bind persisted (.pure _)))

/-- A row that is there is removed. -/
theorem runs_erase {id : RowId} {old : StoredRow}
    (present : (ledgers table.name).require id = .ok old) :
    Runs medium [] (table.erase id) (content ledgers) (.ok old.row)
      (content (Function.update ledgers table.name ((ledgers table.name).put id none))) := by
  have found := @runs_require medium ledgers table isTable admits id
  rw [present] at found
  have persisted := @runs_persist medium ledgers table isTable admits id none (by simp)
    fun _ => (row?_of_require present).2
  rw [(row?_of_require present).1, Option.map_none] at persisted
  exact Runs.bind found (Runs.bind persisted (.pure _))

/-- Whatever is under an identifier is replaced. -/
theorem runs_write_some {id : RowId} {row : Row} {stored : StoredRow}
    (accepted : StoredRow.ofRow table.options.prettyRows row = .ok stored) :
    Runs medium [] (table.write id (some row)) (content ledgers)
      (.ok ((ledgers table.name).row? id))
      (content (Function.update ledgers table.name
        ((ledgers table.name).put id (some stored)))) := by
  obtain ⟨rfl, layout⟩ := StoredRow.of_ofRow accepted
  have checked := @runs_checkScalars medium (content ledgers) table.options.prettyRows stored.row
  rw [accepted] at checked
  have persisted := @runs_persist medium ledgers table isTable admits id (some stored) (by
    rintro _ ⟨⟩
    exact layout)
    fun impossible => (by cases impossible)
  refine Runs.bind checked (Runs.bind (runs_read_row? isTable admits id) ?_)
  simp only [Option.isNone_some, Bool.and_false, Bool.false_eq_true, if_false]
  exact Runs.bind persisted (.pure _)

/-- Whatever is under an identifier is removed. -/
theorem runs_write_none (id : RowId) :
    Runs medium [] (table.write id none) (content ledgers)
      (.ok ((ledgers table.name).row? id))
      (content (Function.update ledgers table.name ((ledgers table.name).put id none))) := by
  refine Runs.bind (runs_read_row? isTable admits id) ?_
  by_cases member : id ∈ (ledgers table.name).rows
  · have persisted := @runs_persist medium ledgers table isTable admits id none (by simp)
      fun _ => member
    obtain ⟨stored, found⟩ :=
      Option.isSome_iff_exists.mp (Std.ExtTreeMap.mem_iff_isSome_getElem?.mp member)
    rw [row?, found, Option.map_none] at persisted
    rw [row?, found]
    exact Runs.bind persisted (.pure _)
  · rw [put_none_of_notMem member, Function.update_eq_self, row?,
      Std.ExtTreeMap.getElem?_eq_none member]
    exact .pure none

/-- Whether a table answers a call as its ledger says and is left with the files of the ledger
after it. -/
def Obeys (medium : Medium) (ledgers : String → Ledger) (table : Table) (call : Call) : Prop :=
  Runs medium [] (table.perform call) (content ledgers)
    ((ledgers table.name).answer table.options call)
    (content (Function.update ledgers table.name ((ledgers table.name).after table.options call)))

omit isTable admits in
/-- A call that is accepted answers and leaves what the ledger says. -/
theorem obeys_of_ok {call : Call} {answer : Answer} {next : Ledger}
    (accepted : (ledgers table.name).step table.options call = .ok (answer, next))
    (runs : Runs medium [] (table.perform call) (content ledgers) (.ok answer)
      (content (Function.update ledgers table.name next))) : Obeys medium ledgers table call := by
  rw [Obeys, Ledger.answer, Ledger.after, accepted]
  exact runs

omit isTable admits in
/-- A call that is rejected leaves the files alone. -/
theorem obeys_of_error {call : Call} {error : TableError}
    (rejected : (ledgers table.name).step table.options call = .error error)
    (runs : Runs medium [] (table.perform call) (content ledgers) (.error error)
      (content ledgers)) : Obeys medium ledgers table call := by
  rw [Obeys, Ledger.answer, Ledger.after, rejected, Function.update_eq_self]
  exact runs

/-- An insertion is refused for a composite value or for want of an identifier, or puts the row
under a fresh one. -/
theorem obeys_insert (row : Row) : Obeys medium ledgers table (.insert row) := by
  have checked := @runs_checkScalars medium (content ledgers) table.options.prettyRows row
  have found := @runs_freshId medium ledgers table isTable admits
  cases accepted : StoredRow.ofRow table.options.prettyRows row with
  | error error =>
      rw [accepted] at checked
      have rejected : (ledgers table.name).step table.options (.insert row) = .error error := by
        simp only [step, accepted]
        rfl
      exact obeys_of_error rejected (Runs.bind_error (Runs.bind_error checked))
  | ok stored =>
      rw [accepted] at checked
      cases fresh : (ledgers table.name).freshId with
      | error error =>
          rw [fresh] at found
          have rejected : (ledgers table.name).step table.options (.insert row) = .error error := by
            simp only [step, accepted, fresh]
            rfl
          exact obeys_of_error rejected
            (Runs.bind_error (Runs.bind checked (Runs.bind_error found)))
      | ok id =>
          have done : (ledgers table.name).step table.options (.insert row) =
              .ok (.id id, (ledgers table.name).put id
                (some (stored.withId table.options.idColumn id))) := by
            simp only [step, accepted, fresh]
            rfl
          exact obeys_of_ok done (Runs.bind (runs_insert isTable admits accepted fresh) (.pure _))

/-- An update is refused for a composite value or for want of the row, or merges the changes into
the row. -/
theorem obeys_update (id : RowId) (changes : Row) :
    Obeys medium ledgers table (.update id changes) := by
  have checked := @runs_checkScalars medium (content ledgers) table.options.prettyRows changes
  have found := @runs_require medium ledgers table isTable admits id
  cases accepted : StoredRow.ofRow table.options.prettyRows changes with
  | error error =>
      rw [accepted] at checked
      have rejected : (ledgers table.name).step table.options (.update id changes) =
          .error error := by
        simp only [step, accepted]
        rfl
      exact obeys_of_error rejected (Runs.bind_error (Runs.bind_error checked))
  | ok stored =>
      rw [accepted] at checked
      cases present : (ledgers table.name).require id with
      | error error =>
          rw [present] at found
          have rejected : (ledgers table.name).step table.options (.update id changes) =
              .error error := by
            simp only [step, accepted, present]
            rfl
          exact obeys_of_error rejected
            (Runs.bind_error (Runs.bind checked (Runs.bind_error found)))
      | ok old =>
          have done : (ledgers table.name).step table.options (.update id changes) =
              .ok (.row (old.merge stored).row,
                (ledgers table.name).put id (some (old.merge stored))) := by
            simp only [step, accepted, present]
            rfl
          exact obeys_of_ok done (Runs.bind (runs_update isTable admits accepted present) (.pure _))

/-- A removal is refused for want of the row, or answers it. -/
theorem obeys_erase (id : RowId) : Obeys medium ledgers table (.erase id) := by
  have found := @runs_require medium ledgers table isTable admits id
  cases present : (ledgers table.name).require id with
  | error error =>
      rw [present] at found
      have rejected : (ledgers table.name).step table.options (.erase id) = .error error := by
        simp only [step, present]
        rfl
      exact obeys_of_error rejected (Runs.bind_error (Runs.bind_error found))
  | ok old =>
      have done : (ledgers table.name).step table.options (.erase id) =
          .ok (.row old.row, (ledgers table.name).put id none) := by
        simp only [step, present]
        rfl
      exact obeys_of_ok done (Runs.bind (runs_erase isTable admits present) (.pure _))

/-- A write is refused for a composite value, or answers what was there. -/
theorem obeys_write (id : RowId) (row? : Option Row) :
    Obeys medium ledgers table (.write id row?) := by
  cases row? with
  | none => exact obeys_of_ok rfl (Runs.bind (runs_write_none isTable admits id) (.pure _))
  | some row =>
      have checked := @runs_checkScalars medium (content ledgers) table.options.prettyRows row
      cases accepted : StoredRow.ofRow table.options.prettyRows row with
      | error error =>
          rw [accepted] at checked
          have rejected : (ledgers table.name).step table.options (.write id (some row)) =
              .error error := by
            simp only [step, accepted]
            rfl
          exact obeys_of_error rejected (Runs.bind_error (Runs.bind_error checked))
      | ok stored =>
          have done : (ledgers table.name).step table.options (.write id (some row)) =
              .ok (.row? ((ledgers table.name).row? id),
                (ledgers table.name).put id (some stored)) := by
            simp only [step, accepted]
            rfl
          exact obeys_of_ok done (Runs.bind (runs_write_some isTable admits accepted) (.pure _))

/-- An index is refused for a column whose name is no segment of a path, or built. -/
theorem obeys_addIndex (column : String)
    (admitted : FileName.isSegment column = true → medium.Admits (table.indexPath column)) :
    Obeys medium ledgers table (.addIndex column) := by
  by_cases isColumn : FileName.isSegment column = true
  · have done : (ledgers table.name).step table.options (.addIndex column) =
        .ok (.done, (ledgers table.name).addColumn column isColumn) := dif_pos isColumn
    exact obeys_of_ok done
      (Runs.bind (runs_addIndex isTable admits isColumn (admitted isColumn)) (.pure _))
  · have rejected : (ledgers table.name).step table.options (.addIndex column) =
        .error (.invalidColumn column) := dif_neg isColumn
    refine obeys_of_error rejected (Runs.bind_error ?_)
    rw [addIndex, if_pos (by simpa using isColumn)]
    exact Runs.bind_error (.throw _)

/-- Every call obeys the ledger. -/
theorem obeys (call : Call) (admitted : call.Admitted medium table) :
    Obeys medium ledgers table call := by
  cases call with
  | insert row => exact obeys_insert isTable admits row
  | read id =>
      refine obeys_of_ok rfl (Runs.bind (runs_read_row? isTable admits id) ?_)
      rw [Function.update_eq_self]
      exact .pure _
  | update id changes => exact obeys_update isTable admits id changes
  | erase id => exact obeys_erase isTable admits id
  | write id row? => exact obeys_write isTable admits id row?
  | rowIds =>
      refine obeys_of_ok rfl (Runs.bind (runs_rowIds_keys isTable admits) ?_)
      rw [Function.update_eq_self]
      exact .pure _
  | size =>
      refine obeys_of_ok rfl
        (Runs.bind (Runs.bind (runs_rowIds_keys isTable admits) (.pure _)) ?_)
      rw [Function.update_eq_self, Std.ExtTreeMap.length_keys]
      exact .pure _
  | addIndex column => exact obeys_addIndex isTable admits column admitted
  | removeIndex column =>
      exact obeys_of_ok rfl (Runs.bind (runs_removeIndex isTable admitted) (.pure _))
  | drop => exact obeys_of_ok rfl (Runs.bind (runs_drop isTable admits) (.pure _))

end Table

end TableStore
