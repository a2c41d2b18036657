/-
# Building indexes anew

An index that is built anew agrees with the rows, whatever its file held before, as long as the
rows can be read. So building all indexes of a table anew, in any order, makes the table
consistent, and touches no other file.
-/

import TableStore.Proofs.Table.Consistent

namespace TableStore

namespace Content

variable {table : String} {content left : Content} {isTable : FileName.isSegment table = true}

/-- Whether every row that is there can be read. -/
def Readable (content : Content) (isTable : FileName.isSegment table = true) : Prop :=
  ∀ id, (content (.row table isTable id)).isSome = true →
    (content.row? isTable id).isSome = true

/-- A row that is stored as before is read as before. -/
theorem row?_congr {id : RowId}
    (same : left (.row table isTable id) = content (.row table isTable id)) :
    left.row? isTable id = content.row? isTable id := by
  rw [row?, row?, same]

/-- Rows that are stored as before can be read as before. -/
theorem Readable.of_rows (readable : content.Readable isTable)
    (rows : ∀ id, left (.row table isTable id) = content (.row table isTable id)) :
    left.Readable isTable := by
  intro id stored
  rw [rows] at stored
  rw [row?_congr (rows id)]
  exact readable id stored

/-- Whether the indexes on some columns were built anew, and nothing else was changed. -/
structure Rebuilt (isTable : FileName.isSegment table = true) (columns : List String)
    (content left : Content) : Prop where
  agrees : ∀ column ∈ columns, left.Agrees isTable column
  elsewhere : ∀ place, (∀ column ∈ columns, ∀ isColumn,
    place ≠ .index table isTable column isColumn) → left place = content place

/-- Agreement with an index is a matter of its file and of the files of the rows. -/
theorem Agrees.of_same {column : String} (agrees : content.Agrees isTable column)
    (index : ∀ isColumn, left (.index table isTable column isColumn) =
      content (.index table isTable column isColumn))
    (rows : ∀ id, left (.row table isTable id) = content (.row table isTable id)) :
    left.Agrees isTable column := by
  obtain ⟨isColumn, found, read, readable, holds⟩ := agrees
  have stillReadable : left.Readable isTable := Readable.of_rows readable rows
  refine ⟨isColumn, found, by rwa [index?, index], stillReadable, fun key id => ?_⟩
  rw [row?_congr (rows id), holds]

/-- An index that holds the rows under their keys agrees with them once it is stored. -/
theorem agrees_update_index {index : IndexTable} {isColumn : FileName.isSegment index.column = true}
    (readable : content.Readable isTable)
    (holds : ∀ key id, index.contains key id = true ↔
      Row.key? (content.row? isTable id) index.column = some key) :
    Agrees (Function.update content (.index table isTable index.column isColumn)
      (some index.toBytes)) isTable index.column := by
  have canonical : index.Canonical := by
    intro key id held
    obtain ⟨row, found, rfl⟩ := Option.map_eq_some_iff.mp ((holds key id).mp held)
    exact (content.scalar_of_row? isTable found).canonical_key _
  have rows : ∀ id, Function.update content (.index table isTable index.column isColumn)
      (some index.toBytes) (.row table isTable id) = content (.row table isTable id) :=
    fun id => Function.update_of_ne (Place.row_ne_index id isColumn) _ _
  refine ⟨isColumn, index, ?_, readable.of_rows rows, fun key id => ?_⟩
  · rw [index?_eq_some_iff]
    exact ⟨_, Function.update_self _ _ _, IndexTable.ofBytes_toBytes canonical⟩
  · rw [row?_congr (rows id), holds]

namespace Rebuilt

variable {columns : List String} (rebuilt : Rebuilt isTable columns content left)

include rebuilt in
/-- Building indexes anew does not change the rows. -/
theorem row_eq (id : RowId) :
    left (.row table isTable id) = content (.row table isTable id) :=
  rebuilt.elsewhere _ fun _ _ isColumn => Place.row_ne_index id isColumn

/-- Building one index anew and then others builds all of them anew. -/
theorem cons {column : String} {rest : List String} {between : Content}
    (first : Rebuilt isTable [column] content between)
    (others : Rebuilt isTable rest between left) :
    Rebuilt isTable (column :: rest) content left where
  agrees other member := by
    by_cases later : other ∈ rest
    · exact others.agrees other later
    · obtain rfl := (List.mem_cons.mp member).resolve_right later
      refine (first.agrees other List.mem_cons_self).of_same (fun isColumn => ?_) others.row_eq
      exact others.elsewhere _ fun _ listed _ same =>
        later (Place.index_injective same ▸ listed)
  elsewhere place outside := by
    rw [others.elsewhere place fun other listed => outside other (List.mem_cons_of_mem _ listed),
      first.elsewhere place fun other single => outside other ?_]
    exact List.mem_singleton.mp single ▸ List.mem_cons_self

include rebuilt in
/-- A table of which all indexes were built anew is consistent. -/
theorem consistent (all : ∀ column, content.Lists table column → column ∈ columns) :
    left.Consistent isTable := by
  rintro column ⟨place, tables, areas, names, stored⟩
  by_cases member : column ∈ columns
  · exact rebuilt.agrees column member
  · -- a file that no building has touched was there before
    refine absurd (all column ⟨place, tables, areas, names, ?_⟩) member
    rwa [← rebuilt.elsewhere place fun other listed isColumn same => ?_]
    have stems : FileName.ofStem other = FileName.ofStem column :=
      (congrArg Place.name same).symm.trans names
    exact member (FileName.ofStem_injective stems ▸ listed)

end Rebuilt

end Content

namespace Table

open Content

variable {medium : Medium} {content : Content} {table : Table}
  (isTable : FileName.isSegment table.name = true) (admits : medium.AdmitsTable table.name)

include isTable admits

/-- An index that is built anew agrees with the rows, and nothing else changes. -/
theorem ensures_addIndex (readable : content.Readable isTable) {column : String}
    (isColumn : FileName.isSegment column = true)
    (admitted : medium.Admits (table.indexPath column)) :
    Ensures medium [] (table.addIndex column).run content fun answer left =>
      answer = .ok () ∧ Rebuilt isTable [column] content left := by
  unfold addIndex
  simp only [isColumn, Bool.not_true, Bool.false_eq_true, if_false]
  refine Ensures.run_bind (ensures_rowIds isTable admits List.not_mem_nil) ?_ ?_
  swap
  · rintro _ _ ⟨-, _, same, -⟩
    cases same
  rintro ids content ⟨rfl, _, same, -, listed⟩
  cases same
  obtain ⟨index, named, scanned, holds⟩ := runs_scanInto_readable isTable admits
    (fun _ => return) column listed fun id member => readable id ((listed id).mp member)
  refine (Runs.bind scanned (Runs.bind (runs_writeIndex isTable named isColumn admitted
    List.not_mem_nil) (.report _))).imp ?_
  rintro answer left ⟨answered, rfl⟩
  refine ⟨answered, ?_, ?_⟩
  · intro other single
    obtain rfl := List.mem_singleton.mp single
    subst named
    exact agrees_update_index readable holds
  · intro place outside
    exact Function.update_of_ne (outside column List.mem_cons_self isColumn) _ _

/-- Indexes that are built anew one after another, in any order, agree with the rows, and nothing
else changes. -/
theorem ensures_forM_addIndex {order : List String}
    (readable : order ≠ [] → content.Readable isTable)
    (columns : ∀ column ∈ order, FileName.isSegment column = true ∧
      medium.Admits (table.indexPath column)) :
    Ensures medium [] (order.forM table.addIndex).run content fun answer left =>
      answer = .ok () ∧ Rebuilt isTable order content left := by
  induction order generalizing content with
  | nil => exact .pure ⟨rfl, fun _ member => absurd member List.not_mem_nil, fun _ _ => rfl⟩
  | cons column rest ih =>
      obtain ⟨isColumn, admitted⟩ := columns column List.mem_cons_self
      have rows := readable (List.cons_ne_nil column rest)
      refine Ensures.run_bind (ensures_addIndex isTable admits rows isColumn admitted) ?_ ?_
      swap
      · rintro _ _ ⟨same, -⟩
        cases same
      rintro _ between ⟨-, first⟩
      refine (ih (fun _ => rows.of_rows first.row_eq) fun other member =>
        columns other (List.mem_cons_of_mem _ member)).imp ?_
      rintro answer left ⟨answered, others⟩
      exact ⟨answered, first.cons others⟩

end Table

end TableStore
