/-
# Interrupted writes

A write that fails may have stored the row and not all of the indexes. What is left is consistent
exactly when no row has another key than before: either nothing was stored yet, or the stored row
has the same keys. A first index that could not be moved is never made up for.
-/

import TableStore.Proofs.Table.Attempt
import TableStore.Proofs.Table.Refinement

namespace TableStore

namespace Content

variable {table : String} {content left : Content} {isTable : FileName.isSegment table = true}

/-- Whether every row has the key it had before, in every column with an index. -/
def SameKeys (isTable : FileName.isSegment table = true) (content left : Content) : Prop :=
  ∀ column, content.Lists table column → ∀ id,
    Row.key? (content.row? isTable id) column = Row.key? (left.row? isTable id) column

/-- Whether what a failed operation leaves is consistent exactly when no key has changed. -/
def Usable {α : Type} (isTable : FileName.isSegment table = true) (content : Content)
    (answer : Except TableError α) (left : Content) : Prop :=
  (∃ error, answer = .error error) →
    (left.Consistent isTable ↔ SameKeys isTable content left)

/-- An operation that has stored nothing leaves a consistent table so. -/
theorem Consistent.usable {α : Type} {answer : Except TableError α}
    (consistent : content.Consistent isTable) : Usable isTable content answer content :=
  fun _ => iff_of_true consistent fun _ _ _ => rfl

/-- Rows that agree with the same index have the same keys. -/
theorem Agrees.key?_eq {column : String} (agrees : content.Agrees isTable column)
    (alsoAgrees : left.Agrees isTable column)
    (same : ∀ isColumn, left (.index table isTable column isColumn) =
      content (.index table isTable column isColumn)) (id : RowId) :
    Row.key? (content.row? isTable id) column = Row.key? (left.row? isTable id) column := by
  obtain ⟨isColumn, index, found, -, holds⟩ := agrees
  obtain ⟨_, other, alsoFound, -, alsoHolds⟩ := alsoAgrees
  rw [index?, same, ← index?, found] at alsoFound
  cases alsoFound
  apply Option.ext
  intro key
  rw [← holds, alsoHolds]

section

variable {id : RowId} {bytes? : Option Bytes} {new? : Option Row}

/-- Storing a row and no index leaves a table consistent exactly when no key has changed. -/
theorem Consistent.usable_update {α : Type} {answer : Except TableError α}
    (consistent : content.Consistent isTable)
    (written : bytes?.map Row.ofBytes = new?.map Except.ok) :
    Usable isTable content answer
      (Function.update content (.row table isTable id) bytes?) := by
  intro _
  have rows := @row?_of_update table content _ isTable id bytes? new? written fun _ => rfl
  have indexes : ∀ column isColumn,
      Function.update content (.row table isTable id) bytes?
        (.index table isTable column isColumn) =
          content (.index table isTable column isColumn) :=
    fun column isColumn => Function.update_of_ne (Place.row_ne_index id isColumn).symm _ _
  constructor
  · intro alsoConsistent column listed
    exact (consistent column listed).key?_eq
      (alsoConsistent column ((lists_update_row id column).mpr listed)) (indexes column)
  · intro same column listed
    obtain ⟨isColumn, index, found, readable, holds⟩ :=
      consistent column ((lists_update_row id column).mp listed)
    refine ⟨isColumn, index, ?_, ?_, ?_⟩
    · rwa [index?, indexes]
    · intro other stored
      rw [rows]
      split
      · next here =>
          subst here
          rw [Function.update_self] at stored
          cases bytes? with
          | none => cases stored
          | some bytes => cases new? with
            | none => cases written
            | some row => rfl
      · next apart =>
          rw [Function.update_of_ne fun same => apart (Place.row_injective same)] at stored
          exact readable other stored
    · intro key other
      rw [holds, same column ((lists_update_row id column).mp listed)]

/-- Storing a row, but not the first index whose key has changed, is never made up for. -/
theorem Consistent.usable_of_unmoved {α : Type} {answer : Except TableError α}
    (consistent : content.Consistent isTable)
    (written : bytes?.map Row.ofBytes = new?.map Except.ok)
    (rest : ∀ other, left (.row table isTable other) =
      Function.update content (.row table isTable id) bytes? (.row table isTable other))
    {column : String} (listed : content.Lists table column)
    (alsoListed : left.Lists table column)
    (unmoved : ∀ isColumn, left (.index table isTable column isColumn) =
      content (.index table isTable column isColumn))
    (changed : Row.key? (content.row? isTable id) column ≠ Row.key? new? column) :
    Usable isTable content answer left := by
  intro _
  have new : left.row? isTable id = new? := by
    rw [row?_of_update written rest, if_pos rfl]
  constructor
  · intro alsoConsistent
    have same := (consistent column listed).key?_eq (alsoConsistent column alsoListed) unmoved id
    rw [new] at same
    exact absurd same changed
  · intro same
    have kept := same column listed id
    rw [new] at kept
    exact absurd kept changed

end

end Content

namespace Table

open Content

variable {medium : Medium} {faults : List Fault} {content left : Content} {table : Table}
  (isTable : FileName.isSegment table.name = true) (admits : medium.AdmitsTable table.name)

/-- An attempt to change a row of a consistent table that fails leaves it consistent exactly when
no key has changed. -/
theorem Attempted.usable {α : Type} {isTable : FileName.isSegment table.name = true} {id : RowId}
    {new? : Option Row} {answer : Except TableError α} (consistent : content.Consistent isTable)
    (scalar : ∀ row ∈ new?, row.Scalar)
    (attempted : Attempted isTable content id new? answer left) :
    Usable isTable content answer left := by
  have written := map_ofBytes_toBytes table.options.prettyRows scalar
  have lists := attempted.lists_iff
  have rows : ∀ other, left (.row table.name isTable other) =
      table.rowStored isTable content id new? (.row table.name isTable other) :=
    fun other => attempted.elsewhere fun _ => rfl
  cases attempted with
  | stored error => exact consistent.usable_update written
  | moved distinct listed moves next =>
      intro failed
      obtain ⟨error, same⟩ := failed
      obtain ⟨column, others, rfl, changed⟩ := next error same
      have member := (listed column).mp (List.mem_append_right _ List.mem_cons_self)
      have apart : column ∉ _ := fun before =>
        (List.nodup_append.mp distinct).2.2 column before column List.mem_cons_self rfl
      refine consistent.usable_of_unmoved written rows member ((lists column).mpr member)
        (fun isColumn => ?_) changed ⟨error, same⟩
      rw [moves.elsewhere_index isColumn apart]
      exact Function.update_of_ne (Place.row_ne_index id isColumn).symm _ _

include isTable admits

/-- A call that changes a row of a consistent table and fails leaves the table consistent exactly
when no key has changed. -/
theorem ensures_perform_usable (consistent : content.Consistent isTable) {call : Call}
    (changing : call.ChangesRow) :
    Ensures medium faults (table.perform call).run content (Usable isTable content) := by
  apply (ensures_perform_leaves isTable admits consistent changing).imp
  rintro answer left (rfl | ⟨id, -, scalar, attempted⟩)
  · exact consistent.usable
  · exact attempted.usable consistent scalar

/-- The key of the row under an identifier in a column, as a table is read. -/
def keyAt (table : Table) (store : Store) (column : String) (id : RowId) : Option IndexKey :=
  match ((table.read id).run.run store).1 with
  | .ok (some row) => some (row.key column)
  | _ => none

/-- The key of a row, as a table is read, is that of the row which can be read. -/
theorem keyAt_eq {store : Store} (holds : medium.Holds content store.files)
    (unfaulted : store.faults = []) (column : String) (id : RowId) :
    table.keyAt store column id = Row.key? (content.row? isTable id) column := by
  obtain ⟨_, _, _, -, found⟩ :=
    @ensures_read medium [] content table isTable admits id store holds unfaulted
  rw [keyAt]
  split
  · next row answered => rw [← found _ answered, Row.key?, Option.map_some]
  · next answered =>
      cases present : content.row? isTable id with
      | none => rfl
      | some row =>
          obtain ⟨bytes, stored, decoded⟩ := (content.row?_eq_some_iff isTable).mp present
          have read := (@runs_read medium [] content table isTable admits id bytes row
            List.not_mem_nil stored decoded).answer holds unfaulted
          exact absurd read (answered row)

end Table

namespace Table

open Content

/-- After a call that changes a row has failed, whatever failures were ordered, a table whose
indexes agreed with the rows is still such a one exactly when every row has the key it had before,
in every column with an index. -/
theorem verifyIndexes_after_failure_iff {medium : Medium} {content : Content} {table : Table}
    (isTable : FileName.isSegment table.name = true) (admits : medium.AdmitsTable table.name)
    {before : Store} (holds : medium.Holds content before.files)
    (usable : (table.verifyIndexes.run.run before.cleared).1 = .ok ()) {call : Call}
    (changing : call.ChangesRow) {error : TableError}
    (failed : ((table.perform call).run.run before).1 = .error error) :
    let after := ((table.perform call).run.run before).2
    (table.verifyIndexes.run.run after.cleared).1 = .ok () ↔
      ∀ columns, (table.indexColumns.run.run before.cleared).1 = .ok columns →
        ∀ column ∈ columns, ∀ id,
          table.keyAt before.cleared column id = table.keyAt after.cleared column id := by
  intro after
  have holdsBefore : medium.Holds content before.cleared.files := holds
  have consistent : content.Consistent isTable :=
    (verifyIndexes_eq_ok_iff isTable admits holdsBefore rfl).mp usable
  obtain ⟨left, held, -, settled⟩ :=
    @ensures_perform_usable medium before.faults content table isTable admits consistent call
      changing before holds rfl
  have heldAfter : medium.Holds left after.cleared.files := held
  rw [verifyIndexes_eq_ok_iff isTable admits heldAfter rfl, settled ⟨error, failed⟩]
  obtain ⟨_, _, _, -, columns, listed, -, members⟩ :=
    @ensures_indexColumns medium [] content table isTable admits List.not_mem_nil before.cleared
      holds rfl
  have sameKey : ∀ column id,
      table.keyAt before.cleared column id = table.keyAt after.cleared column id ↔
        Row.key? (content.row? isTable id) column = Row.key? (left.row? isTable id) column := by
    intro column id
    rw [keyAt_eq isTable admits holdsBefore rfl, keyAt_eq isTable admits heldAfter rfl]
  constructor
  · intro same others answered column member id
    rw [listed] at answered
    cases answered
    rw [sameKey]
    exact same column ((members column).mp member) id
  · intro same column member id
    rw [← sameKey]
    exact same columns listed column ((members column).mpr member) id

/-- A table whose only row is one year old, with an index on the age that cannot be written. -/
def unwritableIndex : Store :=
  let people : Table := ⟨"people", .default⟩
  let filled := people.performAll
    [.insert (Row.empty.insert "age" (.number (.ofUInt64 1))), .addIndex "age"]
  { (filled.run (.ofFiles (.memory .empty))).2 with
    faults := [⟨.write, people.indexPath "age"⟩] }

/-- The files of this table are held in memory. -/
theorem exists_holds_unwritableIndex :
    ∃ content, Medium.memory.Holds content unwritableIndex.files := by
  have isTable : FileName.isSegment "people" = true := by decide
  have started : Medium.memory.Holds (Ledger.content fun _ => .empty) (.memory .empty) := by
    rw [Ledger.content_empty]
    exact .memory .empty
  obtain ⟨_, held, -, -⟩ := @ensures_performAll .memory (fun _ => .empty)
    ⟨"people", .default⟩ isTable (Medium.admitsTable_memory _)
    [.insert (Row.empty.insert "age" (.number (.ofUInt64 1))), .addIndex "age"]
    (fun call _ => call.admitted_memory _) (.ofFiles (.memory .empty)) started rfl
  exact ⟨_, held⟩

/-- The row of this table grows older. -/
def growOlder : Call :=
  .update .first (Row.empty.insert "age" (.number (.ofUInt64 2)))

/-- The failure of the update that meets this index. -/
def unwritable : TableError :=
  .files (.io "people/indexes/age.json" .injected)

/-- The row does not grow older without a failure. -/
theorem perform_growOlder :
    ((Table.mk "people" .default).perform growOlder |>.run.run unwritableIndex).1 =
      .error unwritable := by
  have failed : ((Table.mk "people" .default).perform growOlder
      |>.run.run unwritableIndex).1.map (fun _ => ()) = .error unwritable := by
    decide +kernel
  cases answered : ((Table.mk "people" .default).perform growOlder
      |>.run.run unwritableIndex).1 with
  | ok answer =>
      rw [answered] at failed
      cases failed
  | error error =>
      rw [answered] at failed
      exact congrArg Except.error (Except.error.inj failed)

/-- An index that cannot be written makes an update fail with a failure that is not fatal, after
which the index, which agreed with the row, does not do so any more. -/
theorem verifyIndexes_after_failed_update :
    let people : Table := ⟨"people", .default⟩
    let ran := (people.perform growOlder).run.run unwritableIndex
    (people.verifyIndexes.run.run unwritableIndex.cleared).1 = .ok () ∧
      ran.1 = .error unwritable ∧ unwritable.severity = .error ∧
      (people.verifyIndexes.run.run ran.2.cleared).1 =
        .error (.indexInconsistent "age" .first) :=
  ⟨by decide +kernel, perform_growOlder, rfl, by decide +kernel⟩

/-- The condition for a table to stay consistent, when the row grows older. -/
theorem verifyIndexes_after_growOlder_iff :
    let people : Table := ⟨"people", .default⟩
    let after := ((people.perform growOlder).run.run unwritableIndex).2
    (people.verifyIndexes.run.run after.cleared).1 = .ok () ↔
      ∀ columns, (people.indexColumns.run.run unwritableIndex.cleared).1 = .ok columns →
        ∀ column ∈ columns, ∀ id,
          people.keyAt unwritableIndex.cleared column id =
            people.keyAt after.cleared column id := by
  intro people
  have isTable : FileName.isSegment people.name = true := by decide
  obtain ⟨content, holds⟩ := exists_holds_unwritableIndex
  exact verifyIndexes_after_failure_iff isTable (Medium.admitsTable_memory _) holds
    (by decide +kernel) trivial perform_growOlder

end Table

end TableStore
