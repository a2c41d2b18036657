/-
# Writing rows

A write puts the row file in its new state and then moves the row in those indexes in which its
key has changed. What the indexes hold afterwards is stated for every order of failures: each one
is either as before or has the row under its new key, and a write that answers has moved all of
them.
-/

import TableStore.Proofs.Table.Index
import TableStore.Table.Write

namespace TableStore

namespace IndexTable

/-- An index in which a row has moved from its old key to its new one; a missing row has none. -/
def move (index : IndexTable) (id : RowId) (old new : Option IndexKey) : IndexTable :=
  let without :=
    match old with
    | some key => index.erase key id
    | none => index
  match new with
  | some key => without.insert key id
  | none => without

/-- Moving a row does not change the column. -/
@[simp]
theorem column_move (index : IndexTable) (id : RowId) (old new : Option IndexKey) :
    (index.move id old new).column = index.column := by
  cases old <;> cases new <;> rfl

end IndexTable

/-- The key of a row in the index on a column; a missing row has none. -/
def Row.key? (row? : Option Row) (column : String) : Option IndexKey :=
  row?.map fun row => row.key column

namespace Table

variable {medium : Medium} {faults : List Fault} {content : Content} {table : Table}

/-- The keys of the old and the new state of a row are found. -/
theorem runs_mapM_keyIn {row? : Option Row} (scalar : ∀ row ∈ row?, row.Scalar)
    (column : String) :
    Runs medium faults
      (row?.mapM fun row => (MonadExcept.ofExcept (keyIn column row) : TableM IndexKey)) content
      (.ok (Row.key? row? column)) content := by
  cases row? with
  | none => exact .pure none
  | some row =>
      have found : (MonadExcept.ofExcept (keyIn column row) : TableM IndexKey) =
          pure (row.key column) := by
        rw [(scalar row rfl).keyIn_eq]
        rfl
      rw [Option.mapM_some, found]
      exact .pure _

variable (isTable : FileName.isSegment table.name = true)

include isTable

/-- Storing a changed index at the end of a move either does so or fails as ordered. -/
theorem ensures_storeMoved {column : String} (isColumn : FileName.isSegment column = true)
    (admitted : medium.Admits (table.indexPath column)) {index : IndexTable}
    (named : index.column = column) :
    Ensures medium faults (do table.writeIndex index; return true : TableM Bool).run content
      fun answer left =>
        answer = .ok true ∧
            left = Function.update content (.index table.name isTable column isColumn)
              (some index.toBytes) ∨
          (∃ access, (⟨access, table.indexPath column⟩ : Fault) ∈ faults) ∧
            answer = .error (.files (.io (table.indexPath column) .injected)) ∧
            left = content := by
  cases named
  by_cases unwritable : (⟨.write, table.indexPath index.column⟩ : Fault) ∈ faults
  · refine (Runs.bind_error (runs_writeIndex_of_faulted unwritable)).imp ?_
    exact fun _ _ failed => .inr ⟨⟨.write, unwritable⟩, failed⟩
  · refine (Runs.bind (runs_writeIndex isTable rfl isColumn admitted unwritable)
      (.pure true)).imp ?_
    exact fun _ _ done => .inl done

/-- Whether the difference between two contents is that a row has moved, in the indexes on some
columns, from the key of its old state to that of its new one. -/
structure Moved (id : RowId) (old new : Option Row) (indexes : String → IndexTable)
    (columns : List String) (before after : Content) : Prop where
  index : ∀ column ∈ columns, ∀ isColumn,
    after (.index table.name isTable column isColumn) =
      if Row.key? old column = Row.key? new column then
        before (.index table.name isTable column isColumn)
      else some ((indexes column).move id (Row.key? old column) (Row.key? new column)).toBytes
  elsewhere : ∀ place,
    (∀ column ∈ columns, ∀ isColumn, place ≠ .index table.name isTable column isColumn) →
      after place = before place

namespace Moved

variable {isTable} {id : RowId} {old new : Option Row} {indexes : String → IndexTable}
  {before between after : Content}

/-- Nothing has moved in no index. -/
theorem nil : Moved isTable id old new indexes [] before before where
  index _ member := absurd member List.not_mem_nil
  elsewhere _ _ := rfl

/-- An index on another column is as before. -/
theorem elsewhere_index {columns : List String}
    (moved : Moved isTable id old new indexes columns before after) {other : String}
    (isOther : FileName.isSegment other = true) (apart : other ∉ columns) :
    after (.index table.name isTable other isOther) =
      before (.index table.name isTable other isOther) :=
  moved.elsewhere _ fun _ listed _ same => apart (Place.index_injective same ▸ listed)

/-- A move in one index and then in others is one in all of them. -/
theorem cons {column : String} {rest : List String} (apart : column ∉ rest)
    (first : Moved isTable id old new indexes [column] before between)
    (second : Moved isTable id old new indexes rest between after) :
    Moved isTable id old new indexes (column :: rest) before after where
  index other member isOther := by
    rcases List.mem_cons.mp member with rfl | listed
    · rw [second.elsewhere_index isOther apart, first.index other List.mem_cons_self isOther]
    · have different : other ∉ [column] := fun single =>
        apart (List.mem_singleton.mp single ▸ listed)
      rw [second.index other listed isOther, first.elsewhere_index isOther different]
  elsewhere place outside := by
    rw [second.elsewhere place fun other listed => outside other (List.mem_cons_of_mem _ listed),
      first.elsewhere place]
    intro other single
    obtain rfl := List.mem_singleton.mp single
    exact outside other List.mem_cons_self

end Moved

/-- An index that is stored anew has the row under its new key. -/
theorem moved_of_stored {id : RowId} {old new : Option Row} {column : String}
    {isColumn : FileName.isSegment column = true} {indexes : String → IndexTable}
    {answer : Except TableError Bool} {left : Content}
    (changed : Row.key? old column ≠ Row.key? new column)
    (stored : answer = .ok true ∧ left =
      Function.update content (.index table.name isTable column isColumn)
        (some ((indexes column).move id (Row.key? old column) (Row.key? new column)).toBytes)) :
    (∃ touched, answer = .ok touched) ∧
      Moved isTable id old new indexes [column] content left := by
  obtain ⟨answered, rfl⟩ := stored
  refine ⟨⟨true, answered⟩, ?_, ?_⟩
  · intro other single isOther
    obtain rfl := List.mem_singleton.mp single
    rw [if_neg changed, Function.update_self]
  · intro place outside
    exact Function.update_of_ne (outside column List.mem_cons_self isColumn) _ _

/-- A row is moved in an index if its key has changed. Only an ordered failure prevents this, and
then the index is as before. -/
theorem ensures_moveInIndex {id : RowId} {old new : Option Row} {column : String}
    {indexes : String → IndexTable} (oldScalar : ∀ row ∈ old, row.Scalar)
    (newScalar : ∀ row ∈ new, row.Scalar) (isColumn : FileName.isSegment column = true)
    (admitted : medium.Admits (table.indexPath column)) {bytes : Bytes}
    (stored : content (.index table.name isTable column isColumn) = some bytes)
    (decoded : IndexTable.ofBytes column bytes = .ok (indexes column))
    (named : (indexes column).column = column) :
    Ensures medium faults (table.moveInIndex id old new column).run content fun answer left =>
      (∃ touched, answer = .ok touched) ∧
          Moved isTable id old new indexes [column] content left ∨
        Row.key? old column ≠ Row.key? new column ∧
          (∃ access, (⟨access, table.indexPath column⟩ : Fault) ∈ faults) ∧
          answer = .error (.files (.io (table.indexPath column) .injected)) ∧ left = content := by
  unfold moveInIndex
  refine Ensures.run_bind (runs_mapM_keyIn oldScalar column) ?_ ?_
  swap
  · rintro _ _ ⟨same, -⟩
    cases same
  rintro _ content ⟨same, rfl⟩
  cases same
  refine Ensures.run_bind (runs_mapM_keyIn newScalar column) ?_ ?_
  swap
  · rintro _ _ ⟨same, -⟩
    cases same
  rintro _ content ⟨same, rfl⟩
  cases same
  by_cases unchanged : Row.key? old column = Row.key? new column
  · simp only [if_pos unchanged]
    refine .pure (Or.inl ⟨⟨false, rfl⟩, ?_, fun _ _ => rfl⟩)
    intro other single _
    obtain rfl := List.mem_singleton.mp single
    rw [if_pos unchanged]
  simp only [if_neg unchanged]
  by_cases unreadable : (⟨.read, table.indexPath column⟩ : Fault) ∈ faults
  · refine (Runs.bind_error (runs_readIndex_of_faulted isColumn unreadable)).imp ?_
    exact fun _ _ failed => .inr ⟨unchanged, ⟨.read, unreadable⟩, failed⟩
  refine Ensures.run_bind
    (runs_readIndex isTable isColumn admitted unreadable stored decoded) ?_ ?_
  swap
  · rintro _ _ ⟨same, -⟩
    cases same
  rintro _ content ⟨same, rfl⟩
  cases same
  have finish := (@ensures_storeMoved medium faults content table isTable column isColumn admitted
    ((indexes column).move id (Row.key? old column) (Row.key? new column))
    (by rw [IndexTable.column_move, named])).imp
      fun answer left ensured => ensured.imp (moved_of_stored isTable unchanged)
        (And.intro unchanged)
  cases old with
  | none =>
      simp only [Row.key?, Option.map_none, pure_bind]
      exact finish
  | some row =>
      simp only [Row.key?, Option.map_some, IndexTable.remove_eq, pure_bind]
      split
      · refine Ensures.run_bind (Ensures.report _).lift ?_ ?_
        · rintro _ content ⟨_, -, rfl⟩
          exact finish
        · rintro _ _ ⟨_, same, -⟩
          cases same
      · exact finish

/-- A row is moved in one index after another. The first ordered failure ends this: the indexes
before it have the row under its new key, and those after it are as they were. -/
theorem ensures_moveInIndexes {id : RowId} {old new : Option Row} {columns : List String}
    {indexes : String → IndexTable} (oldScalar : ∀ row ∈ old, row.Scalar)
    (newScalar : ∀ row ∈ new, row.Scalar) (distinct : columns.Nodup)
    (stored : ∀ column ∈ columns, ∃ isColumn bytes, medium.Admits (table.indexPath column) ∧
      content (.index table.name isTable column isColumn) = some bytes ∧
      IndexTable.ofBytes column bytes = .ok (indexes column) ∧
      (indexes column).column = column) :
    Ensures medium faults (table.moveInIndexes id old new columns).run content fun answer left =>
      ∃ moved rest, columns = moved ++ rest ∧
        Moved isTable id old new indexes moved content left ∧
        match answer with
        | .ok _ => rest = []
        | .error error => ∃ column others, rest = column :: others ∧
            Row.key? old column ≠ Row.key? new column ∧
            (∃ access, (⟨access, table.indexPath column⟩ : Fault) ∈ faults) ∧
            error = .files (.io (table.indexPath column) .injected) := by
  induction columns generalizing content with
  | nil => exact .pure ⟨[], [], rfl, .nil, rfl⟩
  | cons column rest ih =>
      obtain ⟨isColumn, bytes, admitted, found, decoded, named⟩ := stored column List.mem_cons_self
      rw [List.nodup_cons] at distinct
      rw [moveInIndexes]
      refine Ensures.run_bind (ensures_moveInIndex isTable oldScalar newScalar isColumn admitted
        found decoded named) ?_ ?_
      · rintro touched between (⟨-, first⟩ | ⟨-, -, same, -⟩)
        swap
        · cases same
        have storedAfter : ∀ other ∈ rest, ∃ isColumn bytes,
            medium.Admits (table.indexPath other) ∧
            between (.index table.name isTable other isColumn) = some bytes ∧
            IndexTable.ofBytes other bytes = .ok (indexes other) ∧
            (indexes other).column = other := by
          intro other member
          obtain ⟨isOther, bytes, admitted, found, decoded⟩ :=
            stored other (List.mem_cons_of_mem column member)
          have different : other ∉ [column] := fun single =>
            distinct.1 (List.mem_singleton.mp single ▸ member)
          exact ⟨isOther, bytes, admitted, by rw [first.elsewhere_index isOther different, found],
            decoded⟩
        refine Ensures.run_bind (ih distinct.2 storedAfter) ?_ ?_
        · rintro count after ⟨moved, left, rfl, second, rfl⟩
          rw [List.append_nil] at distinct
          exact .pure ⟨column :: moved, [], rfl, first.cons distinct.1 second, rfl⟩
        · rintro error after ⟨moved, left, rfl, second, failed⟩
          exact ⟨column :: moved, left, rfl,
            first.cons (fun member => distinct.1 (List.mem_append_left _ member)) second, failed⟩
      · rintro error after (⟨⟨_, same⟩, -⟩ | ⟨changed, faulted, same, rfl⟩)
        · cases same
        · exact ⟨[], column :: rest, rfl, .nil, column, rest, rfl, changed, faulted,
            Except.error.inj same⟩

end Table

end TableStore
