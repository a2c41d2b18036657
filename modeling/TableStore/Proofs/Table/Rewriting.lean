/-
# Writing a row again

What a table keeps of a row is what was last written, in the rows and in all indexes: nothing tells
what was there in between. So two updates after one another are the update with both changes, and
what a write answers can be written back to undo it.
-/

import TableStore.Proofs.Files.Stored
import TableStore.Proofs.Row.Merge
import TableStore.Proofs.Table.Verify

namespace TableStore

namespace StoredRow

/-- Stored rows are alike if their rows and their layouts are. -/
theorem ext {first second : StoredRow} (row : first.row = second.row)
    (pretty : first.pretty = second.pretty) : first = second := by
  cases first
  cases second
  cases row
  cases pretty
  rfl

/-- A row that is stored is accepted as it is stored. -/
theorem ofRow_row (stored : StoredRow) : ofRow stored.pretty stored.row = .ok stored := by
  obtain ⟨accepted, same, row⟩ :=
    exists_ofRow stored.pretty (Row.firstComposite?_eq_none_iff.mpr stored.scalar)
  rw [same]
  exact congrArg Except.ok (ext row (of_ofRow same).2)

/-- Changes that are merged one after another are merged together. -/
theorem merge_merge (stored first second : StoredRow) :
    (stored.merge first).merge second = stored.merge (first.merge second) :=
  ext (Row.merge_assoc stored.row first.row second.row) rfl

end StoredRow

namespace Ledger

/-- Only what is put last under an identifier is kept. -/
theorem put_put (ledger : Ledger) (id : RowId) (first? second? : Option StoredRow) :
    (ledger.put id first?).put id second? = ledger.put id second? := by
  refine ext_rows rfl fun other => ?_
  rw [getElem?_put, getElem?_put, getElem?_put]
  split <;> rfl

/-- The ledgers after something was put under an identifier of a table. -/
def replaced (ledgers : String → Ledger) (table : String) (id : RowId)
    (stored? : Option StoredRow) : String → Ledger :=
  Function.update ledgers table ((ledgers table).put id stored?)

/-- Only what is put last under an identifier of a table is kept. -/
theorem replaced_replaced (ledgers : String → Ledger) (table : String) (id : RowId)
    (first? second? : Option StoredRow) :
    replaced (replaced ledgers table id first?) table id second? =
      replaced ledgers table id second? := by
  rw [replaced, replaced, Function.update_self, Function.update_idem, put_put, replaced]

/-- Putting what is there under an identifier of a table changes nothing. -/
theorem replaced_getElem? (ledgers : String → Ledger) (table : String) (id : RowId) :
    replaced ledgers table id (ledgers table).rows[id]? = ledgers := by
  rw [replaced, put_getElem?, Function.update_eq_self]

/-- Whether all rows have one layout. -/
def Laid (pretty : Bool) (ledger : Ledger) : Prop :=
  ∀ (id : RowId) (stored : StoredRow), ledger.rows[id]? = some stored → stored.pretty = pretty

end Ledger

namespace Table

/-- Whether two updates of a row after one another answer, and leave stored, what the update with
their merge does, and whether the first one, made again, changes nothing. -/
structure Fuses (table : Table) (store : Store) (id : RowId) (old first second : Row) : Prop where
  once : ((table.update id first).run.run store).1 = .ok (old.merge first)
  fused : ((table.update id (first.merge second)).run.run store).1 =
    .ok (old.merge (first.merge second))
  twice : let once := (table.update id first).run.run store
    ((table.update id second).run.run once.2).1 = .ok (old.merge (first.merge second))
  stored : let once := (table.update id first).run.run store
    let twice := (table.update id second).run.run once.2
    let fused := (table.update id (first.merge second)).run.run store
    ∀ path, twice.2.files.stored? path = fused.2.files.stored? path
  again : let once := (table.update id first).run.run store
    ((table.update id first).run.run once.2).1 = .ok (old.merge first)
  unchanged : let once := (table.update id first).run.run store
    let again := (table.update id first).run.run once.2
    ∀ path, again.2.files.stored? path = once.2.files.stored? path

open Ledger

variable {medium : Medium} {ledgers : String → Ledger} {table : Table}
  (isTable : FileName.isSegment table.name = true) (admits : medium.AdmitsTable table.name)

include isTable admits

/-- A write of a row of scalars, or of none, answers what was there and puts it in its place. -/
theorem runs_write (id : RowId) {next? : Option StoredRow}
    (laid : ∀ stored ∈ next?, stored.pretty = table.options.prettyRows) :
    Runs medium [] (table.write id (next?.map StoredRow.row)) (content ledgers)
      (.ok ((ledgers table.name).row? id))
      (content (replaced ledgers table.name id next?)) := by
  cases next? with
  | none => exact runs_write_none isTable admits id
  | some stored =>
      refine runs_write_some isTable admits ?_
      rw [← laid stored rfl]
      exact stored.ofRow_row

variable {store : Store} (holds : medium.Holds (content ledgers) store.files)
  (unfaulted : store.faults = [])

include holds unfaulted

/-- A row that is read is in the ledger. -/
theorem getElem?_of_read {id : RowId} {old : Row}
    (present : ((table.read id).run.run store).1 = .ok (some old)) :
    ∃ stored, (ledgers table.name).rows[id]? = some stored ∧ stored.row = old := by
  rw [(runs_read_row? isTable admits id).answer holds unfaulted] at present
  exact Option.map_eq_some_iff.mp (Except.ok.inj present)

/-- Two updates after one another do what the update with their merge does. -/
theorem update_update {id : RowId} {old first second : Row}
    (present : ((table.read id).run.run store).1 = .ok (some old))
    (scalars : first.firstComposite? = none) (alsoScalars : second.firstComposite? = none) :
    let once := (table.update id first).run.run store
    let twice := (table.update id second).run.run once.2
    let fused := (table.update id (first.merge second)).run.run store
    once.1 = .ok (old.merge first) ∧ fused.1 = .ok (old.merge (first.merge second)) ∧
      twice.1 = fused.1 ∧ ∀ path, twice.2.files.stored? path = fused.2.files.stored? path := by
  intro once twice fused
  obtain ⟨stored, there, rfl⟩ := getElem?_of_read isTable admits holds unfaulted present
  obtain ⟨change, accepted, rfl⟩ := StoredRow.exists_ofRow table.options.prettyRows scalars
  obtain ⟨other, alsoAccepted, rfl⟩ := StoredRow.exists_ofRow table.options.prettyRows alsoScalars
  have bothAccepted : StoredRow.ofRow table.options.prettyRows (change.row.merge other.row) =
      .ok (change.merge other) := by
    rw [← (StoredRow.of_ofRow alsoAccepted).2]
    exact (change.merge other).ofRow_row
  have required : (ledgers table.name).require id = .ok stored := by
    rw [Ledger.require, there]
  have updated := runs_update isTable admits accepted required
  have requiredAgain : (replaced ledgers table.name id (some (stored.merge change))
      table.name).require id = .ok (stored.merge change) := by
    rw [Ledger.require, replaced, Function.update_self, getElem?_put, if_pos rfl]
  have updatedAgain := runs_update isTable admits alsoAccepted requiredAgain
  have updatedOnce := runs_update isTable admits bothAccepted required
  have left := updated.holds holds unfaulted
  have kept := updated.unfaulted holds unfaulted
  change Runs _ _ _ _ _ (content (replaced (replaced _ _ _ _) _ _ _)) at updatedAgain
  rw [replaced_replaced, StoredRow.merge_merge] at updatedAgain
  refine ⟨updated.answer holds unfaulted, updatedOnce.answer holds unfaulted, ?_, fun path => ?_⟩
  · exact (updatedAgain.answer left kept).trans (updatedOnce.answer holds unfaulted).symm
  · exact (updatedAgain.holds left kept).stored?_congr (updatedOnce.holds holds unfaulted) path

/-- Updates fuse. -/
theorem fuses {id : RowId} {old first second : Row}
    (present : ((table.read id).run.run store).1 = .ok (some old))
    (scalars : first.firstComposite? = none) (alsoScalars : second.firstComposite? = none) :
    table.Fuses store id old first second := by
  obtain ⟨once, fused, twice, stored⟩ :=
    update_update isTable admits holds unfaulted present scalars alsoScalars
  -- To make an update again is to merge its changes with themselves.
  obtain ⟨-, -, again, unchanged⟩ :=
    update_update isTable admits holds unfaulted present scalars scalars
  rw [Row.merge_self] at again unchanged
  exact ⟨once, fused, twice.trans fused, stored, again.trans once, unchanged⟩

/-- A write is undone by writing what it answers, through any handle with the same layout, if the
rows of the table have this layout. -/
theorem write_write (laid : (ledgers table.name).Laid table.options.prettyRows) {again : Table}
    (named : again.name = table.name) (alike : again.options.prettyRows = table.options.prettyRows)
    (id : RowId) {next : Option Row} (valid : ∀ row ∈ next, row.firstComposite? = none) :
    ∃ before, ((table.read id).run.run store).1 = .ok before ∧
      let written := (table.write id next).run.run store
      let restored := (again.write id before).run.run written.2
      written.1 = .ok before ∧ restored.1 = .ok next ∧
        ∀ path, restored.2.files.stored? path = store.files.stored? path := by
  obtain ⟨next?, laidNext, rfl⟩ : ∃ next? : Option StoredRow,
      (∀ stored ∈ next?, stored.pretty = table.options.prettyRows) ∧
        next?.map StoredRow.row = next := by
    cases next with
    | none => exact ⟨none, nofun, rfl⟩
    | some row =>
        obtain ⟨stored, accepted, rfl⟩ :=
          StoredRow.exists_ofRow table.options.prettyRows (valid row rfl)
        refine ⟨some stored, ?_, rfl⟩
        rintro _ ⟨⟩
        exact (StoredRow.of_ofRow accepted).2
  have written := @runs_write medium ledgers table isTable admits id next? laidNext
  have laidBefore : ∀ stored ∈ (ledgers table.name).rows[id]?,
      stored.pretty = again.options.prettyRows :=
    fun stored there => (laid id stored there).trans alike.symm
  have restored := @runs_write medium (replaced ledgers table.name id next?) again
    (named ▸ isTable) (named ▸ admits) id _ laidBefore
  have there : (replaced ledgers table.name id next? table.name).row? id =
      next?.map StoredRow.row := by
    rw [replaced, Function.update_self, row?_put, if_pos rfl]
  rw [named, replaced_replaced, replaced_getElem?, there] at restored
  have left := written.holds holds unfaulted
  have kept := written.unfaulted holds unfaulted
  exact ⟨_, (runs_read_row? isTable admits id).answer holds unfaulted,
    written.answer holds unfaulted, restored.answer left kept, fun path =>
      (restored.holds left kept).stored?_congr holds path⟩

end Table

end TableStore
