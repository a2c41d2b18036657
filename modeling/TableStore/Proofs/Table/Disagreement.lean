/-
# Checks find exactly the disagreements

Whatever the indexes of a table say, as long as everything that is listed can be read: the check of
the indexes passes if each index holds the listed rows under their keys and nothing else, and
otherwise it names a column and an identifier about which the index is wrong. An index may be wrong
by a pair too many or by one that it lacks, and the check looks for the one before the other.
-/

import TableStore.Proofs.Table.Seen
import TableStore.Table.Write

namespace TableStore.Table

/-- Whether these rows and columns are listed, and all of them can be read. -/
structure Legible (table : Table) (store : Store) (ids : List RowId) (columns : List String) :
    Prop where
  rowIds : (table.rowIds.run.run store).1 = .ok ids
  rows : ∀ id ∈ ids, ∃ row, ((table.read id).run.run store).1 = .ok (some row)
  indexColumns : (table.indexColumns.run.run store).1 = .ok columns
  indexes : ∀ column ∈ columns, ∃ index, ((table.readIndex column).run.run store).1 = .ok index

/-- Whether an index on a column is right about an identifier: it holds it under a key exactly if
the identifier is listed and its row has this key in the column. -/
def RightAbout (table : Table) (store : Store) (ids : List RowId) (column : String)
    (index : IndexTable) (id : RowId) : Prop :=
  ∀ key, index.contains key id = true ↔
    id ∈ ids ∧ ∃ row, ((table.read id).run.run store).1 = .ok (some row) ∧
      IndexKey.ofJson? (row.value column) = some key

variable {table : Table} {store : Store} {ids : List RowId} {rows : RowId → Row}

/-- A comparison of indexes fails with the first pair that the other index does not have. -/
theorem run_checkWithin (index other : IndexTable) (store : Store) :
    (checkWithin index other).run.run store =
      (match index.firstMissing? other with
        | some posting => .error (.indexInconsistent index.column posting.id)
        | none => .ok (), store) := by
  rw [checkWithin]
  cases index.firstMissing? other <;> rfl

section

variable (seen : ∀ id ∈ ids, table.seen store id = .ok (some (rows id)))

include seen

/-- An index is right about an identifier if it holds it under the keys that a scan over the rows
finds. -/
theorem rightAbout_iff {column : String} {index : IndexTable} {id : RowId} :
    table.RightAbout store ids column index id ↔ index.AlikeAt (.ofRows rows column ids) id := by
  refine forall_congr' fun key => iff_congr .rfl ?_
  rw [IndexTable.contains_ofRows, run_read]
  refine and_congr_right fun member => ?_
  have here := seen id member
  have keyed := (scalar_of_seen here).ofJson?_value column
  constructor
  · rintro ⟨row, same, found⟩
    cases here.symm.trans same
    exact Option.some.inj (keyed.symm.trans found)
  · rintro rfl
    exact ⟨rows id, here, keyed⟩

/-- The check of an index passes if the index is like a scan over the rows, and otherwise it fails
with an identifier at which they differ. -/
theorem run_verifyIndex {column : String} {index : IndexTable}
    (read : table.seenIndex store column = .ok index) :
    (table.verifyIndex ids column).run.run store = (.ok (), store) ∧
        (∀ id, index.AlikeAt (.ofRows rows column ids) id) ∨
      ∃ id, (table.verifyIndex ids column).run.run store =
          (.error (.indexInconsistent column id), store) ∧
        ¬index.AlikeAt (.ofRows rows column ids) id := by
  have opened := run_readIndex table store column
  rw [read] at opened
  rw [verifyIndex, Store.run_bind_of_ok opened,
    Store.run_bind_of_ok (run_scanInto seen _ _ rfl)]
  change (checkWithin index (.ofRows rows column ids) >>=
    fun _ => checkWithin (.ofRows rows column ids) index).run.run store = _ ∧ _ ∨ ∃ id,
      (checkWithin index (.ofRows rows column ids) >>=
        fun _ => checkWithin (.ofRows rows column ids) index).run.run store = _ ∧ _
  have within := run_checkWithin index (.ofRows rows column ids) store
  have around := run_checkWithin (.ofRows rows column ids) index store
  -- A pair too many is looked for first, so one that is lacking is only found without any.
  cases surplus : index.firstMissing? (.ofRows rows column ids) with
  | some posting =>
      rw [surplus, column_of_seenIndex read] at within
      obtain ⟨held, missing⟩ := IndexTable.of_firstMissing?_eq_some surplus
      refine .inr ⟨posting.id, Store.run_bind_of_error within _, fun alike => ?_⟩
      exact Bool.false_ne_true (missing.symm.trans ((alike posting.key).mp held))
  | none =>
      rw [surplus] at within
      rw [Store.run_bind_of_ok within]
      cases lacking : (IndexTable.ofRows rows column ids).firstMissing? index with
      | some posting =>
          rw [lacking, IndexTable.column_ofRows] at around
          obtain ⟨held, missing⟩ := IndexTable.of_firstMissing?_eq_some lacking
          refine .inr ⟨posting.id, around, fun alike => ?_⟩
          exact Bool.false_ne_true (missing.symm.trans ((alike posting.key).mpr held))
      | none =>
          rw [lacking] at around
          exact .inl ⟨around, fun id key => ⟨IndexTable.firstMissing?_eq_none_iff.mp surplus key id,
            IndexTable.firstMissing?_eq_none_iff.mp lacking key id⟩⟩

/-- The check of several indexes passes if each of them is like a scan over the rows, and otherwise
it fails with a column and an identifier at which its index differs. -/
theorem run_forM_verifyIndex {columns : List String}
    (indexes : ∀ column ∈ columns, ∃ index, table.seenIndex store column = .ok index) :
    (columns.forM (table.verifyIndex ids)).run.run store = (.ok (), store) ∧
        (∀ column ∈ columns, ∀ index, table.seenIndex store column = .ok index →
          ∀ id, index.AlikeAt (.ofRows rows column ids) id) ∨
      ∃ column ∈ columns, ∃ index id, table.seenIndex store column = .ok index ∧
        (columns.forM (table.verifyIndex ids)).run.run store =
          (.error (.indexInconsistent column id), store) ∧
        ¬index.AlikeAt (.ofRows rows column ids) id := by
  induction columns with
  | nil => exact .inl ⟨rfl, fun _ member => absurd member List.not_mem_nil⟩
  | cons column rest ih =>
      obtain ⟨index, read⟩ := indexes column List.mem_cons_self
      change (table.verifyIndex ids column >>= fun _ => rest.forM _).run.run store = _ ∧ _ ∨ ∃ _,
        _ ∧ ∃ _ _, _ ∧ (table.verifyIndex ids column >>= fun _ => rest.forM _).run.run store = _ ∧ _
      rcases run_verifyIndex seen read with ⟨passed, alike⟩ | ⟨id, failed, differs⟩
      · rw [Store.run_bind_of_ok passed]
        rcases ih fun other member => indexes other (List.mem_cons_of_mem _ member) with
          ⟨passed, others⟩ | ⟨other, member, found, id, alsoRead, failed, differs⟩
        · refine .inl ⟨passed, List.forall_mem_cons.mpr ⟨fun found same => ?_, others⟩⟩
          cases read.symm.trans same
          exact alike
        · exact .inr ⟨other, List.mem_cons_of_mem _ member, found, id, alsoRead, failed, differs⟩
      · rw [Store.run_bind_of_error failed]
        exact .inr ⟨column, List.mem_cons_self, index, id, read, rfl, differs⟩

end

/-- As long as everything that is listed can be read, the check of the indexes passes exactly if
every index holds an identifier under a key just when the identifier is listed and its row has this
key; otherwise it fails with a column and an identifier for which this is not so. -/
theorem verifyIndexes_exact {columns : List String} (legible : table.Legible store ids columns) :
    ((table.verifyIndexes.run.run store).1 = .ok () ↔
      ∀ column ∈ columns, ∀ index, ((table.readIndex column).run.run store).1 = .ok index →
        ∀ id, table.RightAbout store ids column index id) ∧
    ((table.verifyIndexes.run.run store).1 ≠ .ok () →
      ∃ column ∈ columns, ∃ index id, ((table.readIndex column).run.run store).1 = .ok index ∧
        (table.verifyIndexes.run.run store).1 = .error (.indexInconsistent column id) ∧
        ¬table.RightAbout store ids column index id) := by
  obtain ⟨listed, readable, columnsListed, indexes⟩ := legible
  simp only [run_read, run_readIndex] at readable indexes ⊢
  have nonempty : Nonempty Row := ⟨.empty⟩
  choose! rows seen using readable
  simp only [rightAbout_iff seen]
  obtain ⟨journal, found⟩ := table.run_rowIds store
  have ran : table.rowIds.run.run store = (.ok ids, { store with journal }) :=
    Prod.ext listed (by rw [found])
  have columnsFound : table.indexColumns.run.run { store with journal } =
      (.ok columns, { store with journal }) := by
    rw [run_indexColumns] at columnsListed ⊢
    exact Prod.ext columnsListed rfl
  -- What is seen of rows and indexes does not depend on the journal.
  have checked := @run_forM_verifyIndex table { store with journal } ids rows seen columns indexes
  rw [verifyIndexes, Store.run_bind_of_ok ran, Store.run_bind_of_ok columnsFound]
  rcases checked with ⟨passed, alike⟩ | ⟨column, member, index, id, read, failed, differs⟩
  · rw [passed]
    exact ⟨iff_of_true rfl alike, fun failed => absurd rfl failed⟩
  · rw [failed]
    exact ⟨iff_of_false nofun fun alike => differs (alike column member index read id),
      fun _ => ⟨column, member, index, id, read, rfl, differs⟩⟩

/-- A table with one person, of age one, whom the index on the ages also holds as ageless. -/
def ofTwoAges : Store :=
  let people : Table := ⟨"people", .default⟩
  let ages := ((IndexTable.empty "age").insert .null .first).insert (.int 1) .first
  let written : TableM Unit := do
    let _ ← people.insert (Row.empty.insert "age" (.number (.ofUInt64 1)))
    people.writeIndex ages
  (written.run.run (.ofFiles (.memory .empty))).2

/-- The check of this index fails with an identifier that the index is wrong about. -/
theorem verifyIndexes_exact_ofTwoAges :
    let people : Table := ⟨"people", .default⟩
    people.Legible ofTwoAges [.first] ["age"] ∧
      ∃ column ∈ ["age"], ∃ index id, ((people.readIndex column).run.run ofTwoAges).1 = .ok index ∧
        (people.verifyIndexes.run.run ofTwoAges).1 = .error (.indexInconsistent column id) ∧
        ¬people.RightAbout ofTwoAges [.first] column index id := by
  intro people
  have read : ((people.read .first).run.run ofTwoAges).1.toOption.join.isSome = true := by
    decide +kernel
  have opened : ((people.readIndex "age").run.run ofTwoAges).1.toOption.isSome = true := by
    decide +kernel
  have failed : (people.verifyIndexes.run.run ofTwoAges).1 ≠ .ok () := by decide +kernel
  have legible : people.Legible ofTwoAges [.first] ["age"] := by
    refine ⟨by decide +kernel, fun id member => ?_, by decide +kernel, fun column member => ?_⟩
    · cases List.mem_singleton.mp member
      generalize ((people.read .first).run.run ofTwoAges).1 = answer at read ⊢
      match answer, read with
      | .ok (some row), _ => exact ⟨row, rfl⟩
    · cases List.mem_singleton.mp member
      generalize ((people.readIndex "age").run.run ofTwoAges).1 = answer at opened ⊢
      match answer, opened with
      | .ok index, _ => exact ⟨index, rfl⟩
  exact ⟨legible, (verifyIndexes_exact legible).2 failed⟩

end TableStore.Table
