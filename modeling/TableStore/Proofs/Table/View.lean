/-
# What a table shows

The rows of a table are known by listing and reading them. A table with a ledger shows the rows of
the ledger, and each of its indexes agrees with them, down to the bytes of its file.
-/

import TableStore.Proofs.Table.Verify

namespace TableStore

namespace Table

/-- Whether listing and reading the rows of a table gives exactly these rows, ascending by
number. -/
structure Shows (table : Table) (store : Store) (rows : List (RowId × Row)) : Prop where
  rowIds : (table.rowIds.run.run store).1 = .ok (rows.map Prod.fst)
  ascending : Ascending (rows.map Prod.fst)
  present : ∀ entry ∈ rows, ((table.read entry.1).run.run store).1 = .ok (some entry.2)
  absent : ∀ id, id ∉ rows.map Prod.fst → ((table.read id).run.run store).1 = .ok none

/-- Whether the check of all indexes passes; and every index with a file loads, holds a row under a
key exactly when the row is there and has this key in the column, and is stored as the bytes that
building it now writes. -/
structure IndexesAgree (table : Table) (store : Store) : Prop where
  verified : (table.verifyIndexes.run.run store).1 = .ok ()
  rebuilt : ∀ column, FileName.isSegment column = true →
    store.files.isFile (table.indexPath column) = true → ∃ index bytes,
      ((table.readIndex column).run.run store).1 = .ok index ∧
      (∀ key id, index.contains key id = true ↔
        ∃ row, ((table.read id).run.run store).1 = .ok (some row) ∧
          IndexKey.ofJson? (row.value column) = some key) ∧
      store.files.read (table.indexPath column) = .ok bytes ∧
      ((table.addIndex column).run.run store).1 = .ok () ∧
      ((table.addIndex column).run.run store).2.files.read (table.indexPath column) = .ok bytes

end Table

namespace Medium

/-- Whether all tables that a medium takes show given rows. -/
def ShowsAll (medium : Medium) (store : Store) (rows : String → List (RowId × Row)) : Prop :=
  ∀ table : Table, FileName.isSegment table.name = true → medium.AdmitsTable table.name →
    table.Shows store (rows table.name)

/-- Whether the indexes of all tables that a medium takes agree with the rows. -/
def IndexesAgree (medium : Medium) (store : Store) : Prop :=
  ∀ table : Table, FileName.isSegment table.name = true → medium.AdmitsTable table.name →
    table.IndexesAgree store

end Medium

namespace Ledger

/-- The rows of a ledger, ascending, without the layouts of their files. -/
def entries (ledger : Ledger) : List (RowId × Row) :=
  ledger.rows.toList.map fun entry => (entry.1, entry.2.row)

/-- The entries of a ledger are its rows. -/
theorem mem_entries_iff {ledger : Ledger} {id : RowId} {row : Row} :
    (id, row) ∈ ledger.entries ↔ ledger.row? id = some row := by
  rw [entries, List.mem_map, row?, Option.map_eq_some_iff]
  constructor
  · rintro ⟨⟨other, stored⟩, listed, same⟩
    cases same
    exact ⟨stored, Std.ExtTreeMap.mem_toList_iff_getElem?_eq_some.mp listed, rfl⟩
  · rintro ⟨stored, found, rfl⟩
    exact ⟨(id, stored), Std.ExtTreeMap.mem_toList_iff_getElem?_eq_some.mpr found, rfl⟩

/-- The entries of a ledger are listed by its identifiers. -/
theorem map_fst_entries (ledger : Ledger) : ledger.entries.map Prod.fst = ledger.rows.keys := by
  rw [entries, List.map_map, ← Std.ExtTreeMap.map_fst_toList_eq_keys]
  rfl

/-- The entries of a ledger ascend. -/
theorem ascending_entries (ledger : Ledger) :
    Table.Ascending (ledger.entries.map Prod.fst) := by
  rw [map_fst_entries]
  exact ledger.ascending_keys

end Ledger

namespace Table

open Ledger

variable {medium : Medium} {ledgers : String → Ledger} {table : Table} {store : Store}
  (isTable : FileName.isSegment table.name = true) (admits : medium.AdmitsTable table.name)
  (holds : medium.Holds (content ledgers) store.files) (unfaulted : store.faults = [])

include isTable admits holds unfaulted

/-- A table shows the rows of its ledger. -/
theorem shows_of_mem_iff {rows : List (RowId × Row)} (ascending : Ascending (rows.map Prod.fst))
    (same : ∀ id row, (id, row) ∈ rows ↔ (ledgers table.name).row? id = some row) :
    table.Shows store rows where
  rowIds := by
    rw [(runs_rowIds_keys isTable admits).answer holds unfaulted, ← map_fst_entries]
    refine congrArg Except.ok ((ascending_entries _).eq_of_mem_iff ascending fun id => ?_)
    simp only [List.mem_map, Prod.exists, same, mem_entries_iff]
  ascending := ascending
  present entry member := by
    rw [(runs_read_row? isTable admits entry.1).answer holds unfaulted,
      (same entry.1 entry.2).mp member]
  absent id missing := by
    rw [(runs_read_row? isTable admits id).answer holds unfaulted]
    cases found : (ledgers table.name).row? id with
    | none => rfl
    | some row => exact absurd (List.mem_map.mpr ⟨_, (same id row).mpr found, rfl⟩) missing

/-- A table shows the entries of its ledger. -/
theorem shows_entries : table.Shows store (ledgers table.name).entries :=
  shows_of_mem_iff isTable admits holds unfaulted (ascending_entries _) fun _ _ =>
    mem_entries_iff

/-- The indexes of a table with a ledger agree with its rows. -/
theorem indexesAgree : table.IndexesAgree store := by
  refine ⟨(runs_verifyIndexes isTable admits).answer holds unfaulted, ?_⟩
  intro column isColumn isFile
  have found := holds.isFile (.index table.name isTable column isColumn)
  rw [content_index] at found
  have member : column ∈ (ledgers table.name).columns := by
    by_contra absent
    rw [if_neg absent] at found
    exact Bool.false_ne_true (found.symm.trans isFile)
  have stored : content ledgers (.index table.name isTable column isColumn) =
      some ((ledgers table.name).index column).toBytes := by
    rw [content_index, if_pos member]
  have accepted : medium.Admits (table.indexPath column) :=
    @Medium.Holds.admits _ _ _ holds (.index table.name isTable column isColumn)
      (by rw [stored]; rfl)
  have built := @runs_addIndex medium ledgers table isTable admits column isColumn accepted
  refine ⟨(ledgers table.name).index column, ((ledgers table.name).index column).toBytes,
    (runs_readIndex_index isTable member).answer holds unfaulted, ?_, ?_,
    built.answer holds unfaulted, ?_⟩
  · intro key id
    rw [contains_index, (runs_read_row? isTable admits id).answer holds unfaulted, Row.key?,
      Option.map_eq_some_iff]
    refine exists_congr fun row => ?_
    rw [Except.ok.injEq]
    refine and_congr_right fun found => ?_
    rw [(scalar_of_row? found).ofJson?_value, Option.some.injEq]
  · exact holds.read_eq_ok (.index table.name isTable column isColumn) stored
  · apply (built.holds holds unfaulted).read_eq_ok (.index table.name isTable column isColumn)
    rw [content_index, Function.update_self, if_pos (by simp [addColumn])]
    rfl

end Table

namespace Ledger

variable {medium : Medium} {ledgers : String → Ledger} {store : Store}
  (holds : medium.Holds (content ledgers) store.files) (unfaulted : store.faults = [])

include holds unfaulted

/-- All tables show the entries of their ledgers. -/
theorem showsAll_entries : medium.ShowsAll store fun name => (ledgers name).entries :=
  fun _ isTable admits => Table.shows_entries isTable admits holds unfaulted

/-- The indexes of all tables with ledgers agree with the rows. -/
theorem indexesAgree : medium.IndexesAgree store :=
  fun _ isTable admits => Table.indexesAgree isTable admits holds unfaulted

end Ledger

end TableStore
