/-
# What a check of the indexes finds out

A check of the indexes passes exactly when every file among the indexes is that of a column, every
row can be read, and each index holds the rows that are there under their keys. This is said of
whatever files a table has.
-/

import TableStore.Proofs.Table.Verify

namespace TableStore

namespace Content

variable {table : String} (content : Content) (isTable : FileName.isSegment table = true)

/-- The row that is stored under an identifier and can be read. -/
def row? (id : RowId) : Option Row :=
  (content (.row table isTable id)).bind fun bytes => (Row.ofBytes bytes).toOption

/-- A row can be read if its file is there and is that of the row. -/
theorem row?_eq_some_iff {id : RowId} {row : Row} :
    content.row? isTable id = some row ↔
      ∃ bytes, content (.row table isTable id) = some bytes ∧ Row.ofBytes bytes = .ok row := by
  rw [row?, Option.bind_eq_some_iff]
  refine exists_congr fun bytes => and_congr_right fun _ => ?_
  cases Row.ofBytes bytes <;> simp [Except.toOption]

/-- A row that can be read holds scalars. -/
theorem scalar_of_row? {id : RowId} {row : Row} (found : content.row? isTable id = some row) :
    row.Scalar := by
  obtain ⟨_, -, decoded⟩ := (content.row?_eq_some_iff isTable).mp found
  exact Row.scalar_of_ofBytes decoded

/-- The index that is stored for a column and can be read. -/
def index? (column : String) (isColumn : FileName.isSegment column = true) : Option IndexTable :=
  (content (.index table isTable column isColumn)).bind fun bytes =>
    (IndexTable.ofBytes column bytes).toOption

/-- An index can be read if its file is there and is that of the index. -/
theorem index?_eq_some_iff {column : String} {isColumn : FileName.isSegment column = true}
    {index : IndexTable} :
    content.index? isTable column isColumn = some index ↔
      ∃ bytes, content (.index table isTable column isColumn) = some bytes ∧
        IndexTable.ofBytes column bytes = .ok index := by
  rw [index?, Option.bind_eq_some_iff]
  refine exists_congr fun bytes => and_congr_right fun _ => ?_
  cases IndexTable.ofBytes column bytes <;> simp [Except.toOption]

/-- The index that is stored for a column and can be read, or else one without rows. -/
def indexOrEmpty (column : String) : IndexTable :=
  if isColumn : FileName.isSegment column = true then
    (content.index? isTable column isColumn).getD (.empty column)
  else .empty column

/-- Whether an index file is there that is named for a column. -/
def Lists (table column : String) : Prop :=
  ∃ place : Place, place.table = table ∧ place.area = .indexes ∧
    place.name = FileName.ofStem column ∧ (content place).isSome = true

/-- Whether the index on a column holds the rows that are there under their keys, and all of them
can be read. -/
def Agrees (column : String) : Prop :=
  ∃ isColumn index, content.index? isTable column isColumn = some index ∧
    (∀ id, (content (.row table isTable id)).isSome = true →
      (content.row? isTable id).isSome = true) ∧
    ∀ key id, index.contains key id = true ↔
      Row.key? (content.row? isTable id) column = some key

/-- Whether all indexes agree with the rows. -/
def Consistent : Prop :=
  ∀ column, content.Lists table column → content.Agrees isTable column

end Content

namespace Table

variable {medium : Medium} {faults : List Fault} {content : Content} {table : Table}
  (isTable : FileName.isSegment table.name = true)

include isTable

/-- An index is read exactly when it is there and can be. -/
theorem ensures_readIndex (column : String)
    (admitted : FileName.isSegment column = true → medium.Admits (table.indexPath column)) :
    Ensures medium [] (table.readIndex column).run content fun answer left =>
      left = content ∧ ∀ index, answer = .ok index ↔
        ∃ isColumn, content.index? isTable column isColumn = some index := by
  by_cases isColumn : FileName.isSegment column = true
  swap
  · unfold readIndex
    rw [if_pos (by simpa using isColumn)]
    refine .pure ⟨rfl, fun index => ⟨fun impossible => (by cases impossible), ?_⟩⟩
    rintro ⟨segment, -⟩
    exact absurd segment isColumn
  cases stored : content (.index table.name isTable column isColumn) with
  | none =>
      have missing := (Store.runs_read_none (.index table.name isTable column isColumn)
        List.not_mem_nil (admitted isColumn) stored).onFiles?
      have failed : Runs medium [] (table.readIndex column) content (.error (.indexMissing column))
          content := by
        unfold readIndex
        simp only [isColumn, Bool.not_true, Bool.false_eq_true, if_false]
        exact Runs.bind missing (.throw _)
      apply failed.imp
      intro answer left reached
      obtain ⟨answered, kept⟩ := reached
      refine ⟨kept, fun index => ?_⟩
      simp [answered, Content.index?, stored]
  | some bytes =>
      have found := (Store.runs_read (.index table.name isTable column isColumn)
        List.not_mem_nil (admitted isColumn) stored).onFiles?
      cases decoded : IndexTable.ofBytes column bytes with
      | error flaw =>
          have failed : Runs medium [] (table.readIndex column) content
              (.error (.corrupted (table.indexPath column) flaw)) content := by
            unfold readIndex
            simp only [isColumn, Bool.not_true, Bool.false_eq_true, if_false]
            refine Runs.bind found ?_
            simp only [decoded]
            exact .throw _
          apply failed.imp
          intro answer left reached
          obtain ⟨answered, kept⟩ := reached
          refine ⟨kept, fun index => ?_⟩
          simp [answered, Content.index?, stored, decoded, Except.toOption]
      | ok index =>
          apply (runs_readIndex isTable isColumn (admitted isColumn) List.not_mem_nil stored
            decoded).imp
          intro answer left reached
          obtain ⟨answered, kept⟩ := reached
          refine ⟨kept, fun other => ?_⟩
          simp [answered, Content.index?, stored, decoded, Except.toOption, isColumn]

variable (admits : medium.AdmitsTable table.name)

include admits

/-- A scan that does without no row fails when one of the rows cannot be read. -/
theorem ensures_scanInto_error {index : IndexTable} {ids : List RowId} (error : RowId → TableError)
    {id : RowId} (member : id ∈ ids) (unread : content.row? isTable id = none) :
    Ensures medium [] (table.scanInto (fun id => throw (error id)) index ids).run content
      fun answer left => left = content ∧ ∃ failure, answer = .error failure := by
  induction ids generalizing index with
  | nil => exact absurd member List.not_mem_nil
  | cons first rest ih =>
      rw [scanInto]
      cases stored : content (.row table.name isTable first) with
      | none =>
          refine (Runs.bind (runs_read_none isTable admits List.not_mem_nil stored)
            (Runs.bind_error (.throw _))).imp ?_
          exact fun answer left reached => ⟨reached.2, _, reached.1⟩
      | some bytes =>
          cases decoded : Row.ofBytes bytes with
          | error flaw =>
              refine (Runs.bind_error
                (runs_read_error isTable admits List.not_mem_nil stored decoded)).imp ?_
              exact fun answer left reached => ⟨reached.2, _, reached.1⟩
          | ok row =>
              have different : id ≠ first := by
                rintro rfl
                simp [Content.row?, stored, decoded, Except.toOption] at unread
              have listed := (List.mem_cons.mp member).resolve_left different
              have keyed := (Row.scalar_of_ofBytes decoded).keyIn_eq index.column
              refine Ensures.run_bind
                (runs_read isTable admits List.not_mem_nil stored decoded) ?_ ?_
              swap
              · rintro _ _ ⟨same, -⟩
                cases same
              rintro _ left ⟨same, rfl⟩
              cases same
              simp only [keyed]
              refine Ensures.run_bind (Runs.pure (row.key index.column)) ?_ ?_
              swap
              · rintro _ _ ⟨same, -⟩
                cases same
              rintro _ left ⟨same, rfl⟩
              cases same
              exact ih listed

omit isTable admits in
/-- A comparison of indexes passes exactly when the first holds nothing that the other does not. -/
theorem ensures_checkWithin (index other : IndexTable) :
    Ensures medium [] (checkWithin index other).run content fun answer left =>
      left = content ∧ (answer = .ok () ↔
        ∀ key id, index.contains key id = true → other.contains key id = true) := by
  rw [checkWithin]
  split
  · next missing =>
      refine .pure ⟨rfl, ?_⟩
      rw [← IndexTable.firstMissing?_eq_none_iff, missing]
      simp
  · next none => exact .pure ⟨rfl, iff_of_true rfl (IndexTable.firstMissing?_eq_none_iff.mp none)⟩

/-- A scan over rows that can all be read finds each of them under its key. -/
theorem runs_scanInto_readable (absent : RowId → TableM Unit) (column : String) {ids : List RowId}
    (listed : ∀ id, id ∈ ids ↔ (content (.row table.name isTable id)).isSome = true)
    (readable : ∀ id ∈ ids, (content.row? isTable id).isSome = true) :
    ∃ expected, expected.column = column ∧
      Runs medium [] (table.scanInto absent (.empty column) ids) content (.ok expected) content ∧
      ∀ key id, expected.contains key id = true ↔
        Row.key? (content.row? isTable id) column = some key := by
  have scanned := @runs_scanInto medium [] content table isTable admits absent
    (fun id => (content.row? isTable id).getD .empty) column (.empty column) ids rfl
    (fun _ _ => List.not_mem_nil) fun id member => by
      obtain ⟨row, present⟩ := Option.isSome_iff_exists.mp (readable id member)
      rw [present]
      exact (content.row?_eq_some_iff isTable).mp present
  refine ⟨_, IndexTable.column_ofRows _ column ids, scanned, fun key id => ?_⟩
  rw [IndexTable.contains_ofRows, Row.key?, Option.map_eq_some_iff]
  constructor
  · rintro ⟨member, rfl⟩
    obtain ⟨row, present⟩ := Option.isSome_iff_exists.mp (readable id member)
    exact ⟨row, present, by rw [present, Option.getD_some]⟩
  · rintro ⟨row, present, rfl⟩
    refine ⟨?_, by rw [present, Option.getD_some]⟩
    obtain ⟨bytes, stored, -⟩ := (content.row?_eq_some_iff isTable).mp present
    rw [listed, stored]
    rfl

/-- The check of one index passes exactly when the index agrees with the rows. -/
theorem ensures_verifyIndex {ids : List RowId} {column : String}
    (listed : ∀ id, id ∈ ids ↔ (content (.row table.name isTable id)).isSome = true)
    (admitted : FileName.isSegment column = true → medium.Admits (table.indexPath column)) :
    Ensures medium [] (table.verifyIndex ids column).run content fun answer left =>
      left = content ∧ (answer = .ok () ↔ content.Agrees isTable column) := by
  refine Ensures.run_bind (ensures_readIndex isTable column admitted) ?_ ?_
  swap
  · rintro error _ ⟨rfl, read⟩
    refine ⟨rfl, ⟨fun impossible => (by cases impossible), ?_⟩⟩
    rintro ⟨isColumn, index, found, -⟩
    cases (read index).mpr ⟨isColumn, found⟩
  rintro index content ⟨rfl, read⟩
  obtain ⟨isColumn, found⟩ := (read index).mp rfl
  by_cases readable : ∀ id ∈ ids, (content.row? isTable id).isSome = true
  swap
  · rw [not_forall] at readable
    obtain ⟨id, readable⟩ := readable
    rw [Classical.not_imp, Bool.not_eq_true, Option.isSome_eq_false_iff,
      Option.isNone_iff_eq_none] at readable
    refine Ensures.run_bind (ensures_scanInto_error isTable admits _ readable.1 readable.2) ?_ ?_
    · rintro _ _ ⟨-, _, same⟩
      cases same
    · rintro error _ ⟨rfl, -⟩
      refine ⟨rfl, ⟨fun impossible => (by cases impossible), ?_⟩⟩
      rintro ⟨_, _, -, all, -⟩
      have one := all id ((listed id).mp readable.1)
      rw [readable.2] at one
      cases one
  obtain ⟨expected, -, scanned, holds⟩ := runs_scanInto_readable isTable admits
    (fun id => throw (.indexInconsistent column id)) column listed readable
  have agrees : content.Agrees isTable column ↔
      (∀ key id, index.contains key id = true → expected.contains key id = true) ∧
        ∀ key id, expected.contains key id = true → index.contains key id = true := by
    constructor
    · rintro ⟨_, other, alsoFound, -, same⟩
      rw [found] at alsoFound
      cases alsoFound
      exact ⟨fun key id held => (holds key id).mpr ((same key id).mp held),
        fun key id held => (same key id).mpr ((holds key id).mp held)⟩
    · intro both
      obtain ⟨within, around⟩ := both
      refine ⟨isColumn, index, found, fun id present => readable id ((listed id).mpr present), ?_⟩
      exact fun key id => ⟨fun held => (holds key id).mp (within key id held),
        fun keyed => around key id ((holds key id).mpr keyed)⟩
  refine Ensures.run_bind scanned ?_ ?_
  swap
  · rintro _ _ ⟨same, -⟩
    cases same
  rintro _ content ⟨same, rfl⟩
  cases same
  refine Ensures.run_bind (ensures_checkWithin index expected) ?_ ?_
  · rintro _ content ⟨rfl, passed⟩
    have within := passed.mp rfl
    apply (ensures_checkWithin expected index).imp
    rintro answer content ⟨rfl, alsoPassed⟩
    refine ⟨rfl, ?_⟩
    rw [alsoPassed, agrees]
    exact ⟨fun around => ⟨within, around⟩, And.right⟩
  · rintro error content ⟨rfl, passed⟩
    refine ⟨rfl, ⟨fun impossible => (by cases impossible), fun same => ?_⟩⟩
    cases passed.mpr (agrees.mp same).1

/-- The check of all indexes passes exactly when they agree with the rows. -/
theorem ensures_verifyIndexes :
    Ensures medium [] table.verifyIndexes.run content fun answer left =>
      left = content ∧ (answer = .ok () ↔ content.Consistent isTable) := by
  refine Ensures.of_held fun ⟨files, holds⟩ => ?_
  have admitted : ∀ column, content.Lists table.name column →
      FileName.isSegment column = true → medium.Admits (table.indexPath column) := by
    rintro column ⟨place, tables, areas, names, stored⟩ isColumn
    have same : place = .index table.name isTable column isColumn := Place.ext tables areas names
    have accepted := holds.admits stored
    rwa [same] at accepted
  refine Ensures.run_bind (ensures_rowIds isTable admits List.not_mem_nil) ?_ ?_
  swap
  · rintro _ _ ⟨-, _, same, -⟩
    cases same
  rintro ids content ⟨rfl, _, same, -, listed⟩
  cases same
  refine Ensures.run_bind (ensures_indexColumns isTable admits List.not_mem_nil) ?_ ?_
  swap
  · rintro _ _ ⟨-, _, same, -⟩
    cases same
  rintro columns content ⟨rfl, _, same, -, members⟩
  cases same
  have consistent : content.Consistent isTable ↔
      ∀ column ∈ columns, content.Agrees isTable column :=
    forall_congr' fun column => by rw [members]; rfl
  have accepted : ∀ column ∈ columns, FileName.isSegment column = true →
      medium.Admits (table.indexPath column) :=
    fun column member => admitted column ((members column).mp member)
  rw [consistent]
  clear members consistent admitted
  induction columns with
  | nil => exact .pure ⟨rfl, iff_of_true rfl fun _ member => absurd member List.not_mem_nil⟩
  | cons column rest ih =>
      refine Ensures.run_bind
        (ensures_verifyIndex isTable admits listed (accepted column List.mem_cons_self)) ?_ ?_
      · rintro _ content ⟨rfl, passed⟩
        have own := passed.mp rfl
        apply (ih fun other member => accepted other (List.mem_cons_of_mem _ member)).imp
        rintro answer content ⟨rfl, others⟩
        refine ⟨rfl, ?_⟩
        rw [others, List.forall_mem_cons]
        exact ⟨fun all => ⟨own, all⟩, And.right⟩
      · rintro error content ⟨rfl, passed⟩
        refine ⟨rfl, ⟨fun impossible => (by cases impossible), fun all => ?_⟩⟩
        cases passed.mpr (all column List.mem_cons_self)

/-- The check of the indexes passes on files exactly when their content is consistent. -/
theorem verifyIndexes_eq_ok_iff {store : Store} (holds : medium.Holds content store.files)
    (unfaulted : store.faults = []) :
    (table.verifyIndexes.run.run store).1 = .ok () ↔ content.Consistent isTable := by
  obtain ⟨_, _, _, -, passed⟩ :=
    @ensures_verifyIndexes medium content table isTable admits store holds unfaulted
  exact passed

end Table

end TableStore
