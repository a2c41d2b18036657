/-
# Failures are contained and can be repaired

A call that changes one row and fails, whatever failures were ordered, leaves every other row as it
was and the files of other tables alone. The file of its own row is as before or complete. What may
be stale are the indexes of the table, and building these anew, in any order, repairs it.
-/

import TableStore.Proofs.Table.Interrupted
import TableStore.Proofs.Table.Rebuild

namespace TableStore

/-- The identifier of the row that a call is about: the one it names, or for an insert the fresh
one, if there is one. -/
def Call.target? (table : Table) (store : Store) : Call → Option RowId
  | .insert _ => (table.freshId.run.run store).1.toOption
  | .update id _ | .erase id | .write id _ => some id
  | _ => none

namespace Table

open Content

variable {medium : Medium} {content left : Content} {table : Table}
  {isTable : FileName.isSegment table.name = true}

/-- The row that a call is about is found if nothing fails. -/
theorem target?_of_targets (admits : medium.AdmitsTable table.name) {call : Call} {id : RowId}
    (target : call.Targets isTable content id) {store : Store}
    (holds : medium.Holds content store.files) (unfaulted : store.faults = []) :
    call.target? table store = some id := by
  cases call with
  | insert row =>
      have found := (runs_freshId_of_fresh isTable admits target).answer holds unfaulted
      rw [Call.target?, found]
      rfl
  | update other changes => exact congrArg some target
  | erase other => exact congrArg some target
  | write other row? => exact congrArg some target
  | _ => cases target

namespace Attempted

variable {α : Type} {id : RowId} {new? : Option Row} {answer : Except TableError α}
  (attempted : Attempted isTable content id new? answer left)

include attempted

/-- The file of the row is complete. -/
theorem row_eq : left (.row table.name isTable id) =
    new?.map (Row.toBytes table.options.prettyRows) := by
  rw [attempted.elsewhere fun _ => rfl]
  exact Function.update_self _ _ _

/-- All other row files, and all files of other tables, are as before. -/
theorem eq_of_ne {place : Place} (outside : place.table = table.name → place.area = .rows)
    (apart : place ≠ .row table.name isTable id) : left place = content place := by
  rw [attempted.elsewhere outside]
  exact Function.update_of_ne apart _ _

/-- If all rows could be read before, they can be read now. -/
theorem readable (scalar : ∀ row ∈ new?, row.Scalar) (before : content.Readable isTable) :
    left.Readable isTable := by
  intro other stored
  rw [attempted.row?_eq scalar]
  split
  · next here =>
      subst here
      rw [attempted.row_eq, Option.isSome_map] at stored
      exact stored
  · next apart =>
      have different : Place.row table.name isTable other ≠ .row table.name isTable id :=
        fun same => apart (Place.row_injective same)
      rw [attempted.eq_of_ne (fun _ => rfl) different] at stored
      exact before other stored

end Attempted

/-- What a call on a consistent table leaves can be repaired: if there is any index, the rows can be
read, and its column can be given one. -/
theorem Leaves.repairable {call : Call} {α : Type} {answer : Except TableError α}
    (leaves : Leaves isTable content call answer left) (consistent : content.Consistent isTable)
    {column : String} (listed : left.Lists table.name column) :
    left.Readable isTable ∧ FileName.isSegment column = true := by
  rcases leaves with rfl | ⟨id, -, scalar, attempted⟩
  · obtain ⟨isColumn, _, -, readable, -⟩ := consistent column listed
    exact ⟨readable, isColumn⟩
  · obtain ⟨isColumn, _, -, readable, -⟩ :=
      consistent column ((attempted.lists_iff column).mp listed)
    exact ⟨attempted.readable scalar readable, isColumn⟩

/-- What a call on a consistent table leaves is repaired, once nothing fails any more, by building
the indexes of all columns that have one anew, in any order; no other file changes by this. -/
theorem Leaves.repaired {call : Call} {α : Type} {answer : Except TableError α}
    (leaves : Leaves isTable content call answer left) (admits : medium.AdmitsTable table.name)
    (consistent : content.Consistent isTable) {store : Store}
    (held : medium.Holds left store.files) (unfaulted : store.faults = []) {order : List String}
    (all : ∀ column, column ∈ order ↔ left.Lists table.name column) :
    let repaired := (order.forM table.addIndex).run.run store
    repaired.1 = .ok () ∧
      (∃ mended, medium.Holds mended repaired.2.files ∧
        ∀ place : Place, (place.table = table.name → place.area = .rows) →
          mended place = left place) ∧
      (table.verifyIndexes.run.run repaired.2).1 = .ok () := by
  intro repaired
  have readable : order ≠ [] → left.Readable isTable := fun some => by
    obtain ⟨column, member⟩ := List.exists_mem_of_ne_nil order some
    exact (leaves.repairable consistent ((all column).mp member)).1
  have buildable : ∀ column ∈ order, FileName.isSegment column = true ∧
      medium.Admits (table.indexPath column) := by
    intro column member
    have listed := (all column).mp member
    have isColumn := (leaves.repairable consistent listed).2
    obtain ⟨place, tables, areas, names, stored⟩ := listed
    have here : place = .index table.name isTable column isColumn := Place.ext tables areas names
    have accepted := held.admits stored
    rw [here] at accepted
    exact ⟨isColumn, accepted⟩
  obtain ⟨mended, heldMended, kept, answered, rebuilt⟩ :=
    ensures_forM_addIndex isTable admits readable buildable store held unfaulted
  refine ⟨answered, ⟨mended, heldMended, fun place outside => ?_⟩, ?_⟩
  · refine rebuilt.elsewhere place fun column _ isColumn same => ?_
    rw [same] at outside
    cases outside rfl
  · rw [verifyIndexes_eq_ok_iff isTable admits heldMended kept]
    exact rebuilt.consistent fun column listed => (all column).mpr listed

/-- After a call that changes one row of a table whose indexes agreed with the rows, whatever
failures were ordered and whether or not the call has failed, all other row files and all files of
other tables are as before, and the file of its row is as before or complete. Once nothing fails any
more, building the indexes of all columns that have one anew, in any order, succeeds, touches no
row and no other table, and makes the indexes agree with the rows. -/
theorem failure_contained_and_repaired (isTable : FileName.isSegment table.name = true)
    (admits : medium.AdmitsTable table.name) {before : Store}
    (holds : medium.Holds content before.files)
    (usable : (table.verifyIndexes.run.run before.cleared).1 = .ok ()) {call : Call}
    (changing : call.ChangesRow) :
    let after := ((table.perform call).run.run before).2
    ∃ left, medium.Holds left after.files ∧
      (∀ place : Place, (place.table = table.name → place.area = .rows) →
        (∀ id, call.target? table before.cleared = some id →
          place ≠ .row table.name isTable id) → left place = content place) ∧
      (∀ id, call.target? table before.cleared = some id →
        left (.row table.name isTable id) = content (.row table.name isTable id) ∨
        left (.row table.name isTable id) =
          (call.rowAfter table id (content.row? isTable id)).map
            (Row.toBytes table.options.prettyRows)) ∧
      ∃ columns, (table.indexColumns.run.run after.cleared).1 = .ok columns ∧
        ∀ order : List String, (∀ column, column ∈ order ↔ column ∈ columns) →
          let repaired := (order.forM table.addIndex).run.run after.cleared
          repaired.1 = .ok () ∧
            (∃ mended, medium.Holds mended repaired.2.files ∧
              ∀ place : Place, (place.table = table.name → place.area = .rows) →
                mended place = left place) ∧
            (table.verifyIndexes.run.run repaired.2).1 = .ok () := by
  intro after
  have consistent : content.Consistent isTable :=
    (@verifyIndexes_eq_ok_iff medium content table isTable admits before.cleared holds rfl).mp
      usable
  obtain ⟨left, held, -, leaves⟩ :=
    @ensures_perform_leaves medium before.faults content table isTable admits consistent call
      changing before holds rfl
  have heldAfter : medium.Holds left after.cleared.files := held
  obtain ⟨_, _, _, -, columns, listed, -, members⟩ :=
    @ensures_indexColumns medium [] left table isTable admits List.not_mem_nil after.cleared
      heldAfter rfl
  refine ⟨left, held, ?_, ?_, columns, listed, fun order same => ?_⟩
  · intro place outside apart
    rcases leaves with rfl | ⟨id, target, -, attempted⟩
    · rfl
    · exact attempted.eq_of_ne outside (apart id (target?_of_targets admits target holds rfl))
  · intro id named
    rcases leaves with rfl | ⟨other, target, -, attempted⟩
    · exact .inl rfl
    · have found := @target?_of_targets medium content table isTable admits call other target
        before.cleared holds rfl
      cases found.symm.trans named
      exact .inr attempted.row_eq
  · exact leaves.repaired admits consistent heldAfter rfl fun column =>
      (same column).trans (members column)

/-- The row whose index could not be written is repaired by building the index anew. -/
theorem repaired_after_growOlder :
    let people : Table := ⟨"people", .default⟩
    let ran := (people.perform growOlder).run.run unwritableIndex
    let repaired := (["age"].forM people.addIndex).run.run ran.2.cleared
    ran.1 = .error unwritable ∧ repaired.1 = .ok () ∧
      (people.verifyIndexes.run.run repaired.2).1 = .ok () := by
  have isTable : FileName.isSegment "people" = true := by decide
  have changing : growOlder.ChangesRow := trivial
  obtain ⟨content, holds⟩ := exists_holds_unwritableIndex
  obtain ⟨_, -, -, -, columns, listed, repairs⟩ :=
    @failure_contained_and_repaired .memory content ⟨"people", .default⟩ isTable
      (Medium.admitsTable_memory _) _ holds (by decide +kernel) _ changing
  have age : ((Table.mk "people" .default).indexColumns.run.run
      ((Table.mk "people" .default).perform growOlder |>.run.run unwritableIndex).2.cleared).1 =
        .ok ["age"] := by decide +kernel
  have same : columns = ["age"] := Except.ok.inj (listed.symm.trans age)
  have mended := repairs ["age"] fun column => by rw [same]
  exact ⟨perform_growOlder, mended.1, mended.2.2⟩

end Table

end TableStore
