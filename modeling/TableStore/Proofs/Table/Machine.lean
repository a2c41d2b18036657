/-
# The machine behind a table

The ledger of a table says what each call answers and which ledger comes next: the rows are a map
from identifiers, a new row comes after all others, and a rejected call changes nothing.
-/

import TableStore.Proofs.Row.Merge
import TableStore.Proofs.Table.Ledger

namespace TableStore

/-- A call of an operation on a table. -/
inductive Call where
  | insert (row : Row)
  | read (id : RowId)
  | update (id : RowId) (changes : Row)
  | erase (id : RowId)
  | write (id : RowId) (row? : Option Row)
  | rowIds
  | size
  | addIndex (column : String)
  | removeIndex (column : String)
  | drop

/-- What a call answers when it is not rejected. -/
inductive Answer where
  | done
  | id (id : RowId)
  | row (row : Row)
  | row? (row? : Option Row)
  | ids (ids : List RowId)
  | count (number : Nat)
  | found (found : Bool)

/-- Carry out a call on a table. -/
def Table.perform (table : Table) : Call → TableM Answer
  | .insert row => return .id (← table.insert row)
  | .read id => return .row? (← table.read id)
  | .update id changes => return .row (← table.update id changes)
  | .erase id => return .row (← table.erase id)
  | .write id row? => return .row? (← table.write id row?)
  | .rowIds => return .ids (← table.rowIds)
  | .size => return .count (← table.size)
  | .addIndex column => do
      table.addIndex column
      return .done
  | .removeIndex column => return .found (← table.removeIndex column)
  | .drop => do
      table.drop
      return .done

/-- The path whose length and characters decide whether a medium takes a call. -/
def Call.Admitted (medium : Medium) (table : Table) : Call → Prop
  | .addIndex column | .removeIndex column =>
      FileName.isSegment column = true → medium.Admits (table.indexPath column)
  | _ => True

/-- Memory takes all calls. -/
theorem Call.admitted_memory (table : Table) (call : Call) : call.Admitted .memory table := by
  cases call with
  | addIndex column => exact fun _ => trivial
  | removeIndex column => exact fun _ => trivial
  | _ => trivial

namespace StoredRow

/-- A row as it is stored, unless it holds an array or an object. -/
def ofRow (pretty : Bool) (row : Row) : Except TableError StoredRow :=
  match composite : row.firstComposite? with
  | some column => .error (.invalidValue column)
  | none => .ok ⟨row, pretty, Row.firstComposite?_eq_none_iff.mp composite⟩

/-- The row with its identifier in the column for it, if there is one. -/
def withId (stored : StoredRow) (idColumn : Option String) (id : RowId) : StoredRow :=
  match idColumn with
  | some column =>
      { row := stored.row.insert column (.string id.toText)
        pretty := stored.pretty
        scalar := stored.scalar.insert column rfl }
  | none => stored

/-- A row is stored as it is and laid out as asked. -/
theorem of_ofRow {pretty : Bool} {row : Row} {stored : StoredRow}
    (accepted : ofRow pretty row = .ok stored) : stored.row = row ∧ stored.pretty = pretty := by
  rw [ofRow] at accepted
  split at accepted
  · cases accepted
  · cases accepted
    exact ⟨rfl, rfl⟩

/-- A row of scalars is accepted. -/
theorem exists_ofRow (pretty : Bool) {row : Row} (scalars : row.firstComposite? = none) :
    ∃ stored, ofRow pretty row = .ok stored ∧ stored.row = row := by
  rw [ofRow]
  split
  · next found => cases found.symm.trans scalars
  · exact ⟨_, rfl, rfl⟩

/-- A row with an array or an object is refused for the first column with one. -/
theorem ofRow_of_composite (pretty : Bool) {row : Row} {column : String}
    (composite : row.firstComposite? = some column) :
    ofRow pretty row = .error (.invalidValue column) := by
  rw [ofRow]
  split
  · next found =>
      cases found.symm.trans composite
      rfl
  · next none => cases none.symm.trans composite

/-- The identifier of a row is put into it by the handle of the table. -/
theorem row_withId (stored : StoredRow) (table : Table) (id : RowId) :
    (stored.withId table.options.idColumn id).row = table.withId id stored.row := by
  unfold Table.withId
  cases table.options.idColumn <;> rfl

/-- Putting the identifier into a row does not change its layout. -/
theorem pretty_withId (stored : StoredRow) (idColumn : Option String) (id : RowId) :
    (stored.withId idColumn id).pretty = stored.pretty := by
  cases idColumn <;> rfl

/-- Without a column for the identifier a row is stored as it is. -/
theorem withId_none (stored : StoredRow) (id : RowId) : stored.withId none id = stored :=
  rfl

/-- The column for the identifier has its digits, and the other columns are as they were. -/
theorem get?_withId (stored : StoredRow) (idColumn column : String) (id : RowId) :
    (stored.withId (some idColumn) id).row.get? column =
      if column = idColumn then some (.string id.toText) else stored.row.get? column :=
  stored.row.get?_insert idColumn column _

/-- The column for the identifier keeps its place if the row has it already, and else comes last. -/
theorem names_withId (stored : StoredRow) (idColumn : String) (id : RowId) :
    (stored.withId (some idColumn) id).row.names =
      if idColumn ∈ stored.row.names then stored.row.names else stored.row.names ++ [idColumn] :=
  stored.row.names_insert idColumn _

/-- A row with changes, in the layout of the changes. -/
def merge (stored changes : StoredRow) : StoredRow where
  row := stored.row.merge changes.row
  pretty := changes.pretty
  scalar := stored.scalar.merge changes.scalar

/-- A column has its value from the changes, or the one that it had if they do not have it. -/
theorem get?_row_merge (stored changes : StoredRow) (column : String) :
    (stored.merge changes).row.get? column =
      (changes.row.get? column).or (stored.row.get? column) :=
  stored.row.get?_merge changes.row column

/-- The columns of a row keep their places, and new ones come after them in the order of the
changes. -/
theorem names_row_merge (stored changes : StoredRow) :
    (stored.merge changes).row.names =
      stored.row.names ++ changes.row.names.filter (· ∉ stored.row.names) :=
  stored.row.names_merge changes.row

end StoredRow

namespace Ledger

/-- The greatest identifier there can be. -/
def lastId : RowId :=
  ⟨0xFFFF_FFFF_FFFF_FFFF⟩

/-- The identifier of the next row: one more than the greatest there is. -/
def freshId (ledger : Ledger) : Except TableError RowId :=
  if lastId ∈ ledger.rows then .error .idSpaceExhausted
  else
    match ledger.rows.maxKey? with
    | some greatest => .ok ⟨greatest.value + 1⟩
    | none => .ok .first

/-- The row stored under an identifier, which must be there. -/
def require (ledger : Ledger) (id : RowId) : Except TableError StoredRow :=
  match ledger.rows[id]? with
  | some stored => .ok stored
  | none => .error (.notFound id)

/-- What a call answers, with the ledger after it, or why it is rejected. -/
def step (ledger : Ledger) (options : TableOptions) : Call → Except TableError (Answer × Ledger)
  | .insert row => do
      let stored ← StoredRow.ofRow options.prettyRows row
      let id ← ledger.freshId
      return (.id id, ledger.put id (some (stored.withId options.idColumn id)))
  | .read id => return (.row? (ledger.row? id), ledger)
  | .update id changes => do
      let changes ← StoredRow.ofRow options.prettyRows changes
      let old ← ledger.require id
      return (.row (old.merge changes).row, ledger.put id (some (old.merge changes)))
  | .erase id => do
      let old ← ledger.require id
      return (.row old.row, ledger.put id none)
  | .write id none => return (.row? (ledger.row? id), ledger.put id none)
  | .write id (some row) => do
      let stored ← StoredRow.ofRow options.prettyRows row
      return (.row? (ledger.row? id), ledger.put id (some stored))
  | .rowIds => return (.ids ledger.rows.keys, ledger)
  | .size => return (.count ledger.rows.size, ledger)
  | .addIndex column =>
      if isColumn : FileName.isSegment column = true then
        .ok (.done, ledger.addColumn column isColumn)
      else .error (.invalidColumn column)
  | .removeIndex column =>
      return (.found (ledger.columns.contains column), ledger.removeColumn column)
  | .drop => return (.done, .empty)

/-- The answer to a call. -/
def answer (ledger : Ledger) (options : TableOptions) (call : Call) : Except TableError Answer :=
  (ledger.step options call).map Prod.fst

/-- The ledger after a call. A rejected call leaves it as it was. -/
def after (ledger : Ledger) (options : TableOptions) (call : Call) : Ledger :=
  match ledger.step options call with
  | .ok (_, next) => next
  | .error _ => ledger

/-- Identifiers are kept in ascending order. -/
theorem ascending_keys (ledger : Ledger) : Table.Ascending ledger.rows.keys := by
  refine ledger.rows.ordered_keys.imp fun {first second} less => ?_
  exact compareOfLessAndEq_eq_lt.mp less

/-- The number of an identifier other than the last can be increased. -/
theorem toNat_lt_of_ne_lastId {id : RowId} (notLast : id ≠ lastId) :
    id.value.toNat + 1 < UInt64.size := by
  have bounded := id.value.toNat_lt
  have last : lastId.value.toNat = 2 ^ 64 - 1 := rfl
  have apart : id.value.toNat ≠ lastId.value.toNat := fun same => by
    refine notLast ?_
    obtain ⟨value⟩ := id
    exact congrArg RowId.mk (UInt64.toNat_inj.mp same)
  simp only [UInt64.size]
  omega

/-- Every identifier but the last has one after it. -/
theorem next?_eq (id : RowId) :
    id.next? = if id = lastId then none else some ⟨id.value + 1⟩ := by
  by_cases last : id = lastId
  · subst last
    rfl
  · rw [RowId.next?, if_pos (toNat_lt_of_ne_lastId last), if_neg last]

/-- The greatest identifier is not less than any other. -/
theorem value_le_of_maxKey? {ledger : Ledger} {greatest id : RowId}
    (found : ledger.rows.maxKey? = some greatest) (member : id ∈ ledger.rows) :
    id.value ≤ greatest.value := by
  have last := (Std.ExtTreeMap.maxKey?_eq_some_iff_mem_and_forall.mp found).2 id member
  exact Std.isLE_compare.mp last

/-- The first row of a table has the identifier zero. -/
theorem freshId_empty : empty.freshId = .ok ⟨0⟩ := by
  have unused : lastId ∉ empty.rows := Std.ExtTreeMap.not_mem_empty
  have noGreatest : empty.rows.maxKey? = none := Std.ExtTreeMap.maxKey?_eq_none_iff.mpr rfl
  rw [freshId, if_neg unused, noGreatest]
  rfl

/-- There is no identifier for a next row exactly when the last one is in use. -/
theorem freshId_eq_error_iff {ledger : Ledger} {error : TableError} :
    ledger.freshId = .error error ↔ error = .idSpaceExhausted ∧ lastId ∈ ledger.rows := by
  rw [freshId]
  split
  · next used => exact ⟨fun same => ⟨by cases same; rfl, used⟩, fun both => by rw [both.1]⟩
  · next unused => exact iff_of_false (by split <;> exact nofun) fun both => unused both.2

/-- Whether an identifier is the least one above all that are in use. -/
def IsLeastAbove (ledger : Ledger) (id : RowId) : Prop :=
  (∀ used ∈ ledger.rows, used.value < id.value) ∧
    ∀ lower : RowId, lower.value < id.value → ∃ used ∈ ledger.rows, lower.value ≤ used.value

/-- There is at most one least identifier above all that are in use. -/
theorem IsLeastAbove.unique {ledger : Ledger} {first second : RowId}
    (isFirst : ledger.IsLeastAbove first) (isSecond : ledger.IsLeastAbove second) :
    first = second := by
  have notLess : ∀ {lower upper : RowId}, ledger.IsLeastAbove lower → ledger.IsLeastAbove upper →
      ¬lower.value < upper.value := by
    intro lower upper isLower isUpper less
    obtain ⟨used, member, atLeast⟩ := isUpper.2 lower less
    exact UInt64.not_le.mpr (isLower.1 used member) atLeast
  have same : first.value = second.value :=
    UInt64.le_antisymm (UInt64.not_lt.mp (notLess isSecond isFirst))
      (UInt64.not_lt.mp (notLess isFirst isSecond))
  obtain ⟨value⟩ := first
  exact congrArg RowId.mk same

/-- A fresh identifier is the least one above all that are in use. -/
theorem isLeastAbove_of_freshId {ledger : Ledger} {id : RowId} (fresh : ledger.freshId = .ok id) :
    ledger.IsLeastAbove id := by
  rw [freshId] at fresh
  split at fresh
  · cases fresh
  next unused =>
  split at fresh
  · next greatest found =>
      cases fresh
      have notLast : greatest ≠ lastId := by
        rintro rfl
        exact unused (Std.ExtTreeMap.maxKey?_mem found)
      have more : (greatest.value + 1).toNat = greatest.value.toNat + 1 := by
        rw [UInt64.toNat_add]
        exact Nat.mod_eq_of_lt (toNat_lt_of_ne_lastId notLast)
      refine ⟨fun used member => ?_, fun lower less => ?_⟩
      · have atMost := UInt64.le_iff_toNat_le.mp (value_le_of_maxKey? found member)
        change used.value < greatest.value + 1
        rw [UInt64.lt_iff_toNat_lt, more]
        omega
      · change lower.value < greatest.value + 1 at less
        rw [UInt64.lt_iff_toNat_lt, more] at less
        exact ⟨greatest, Std.ExtTreeMap.maxKey?_mem found, UInt64.le_iff_toNat_le.mpr (by omega)⟩
  · next none =>
      cases fresh
      rw [Std.ExtTreeMap.maxKey?_eq_none_iff] at none
      refine ⟨fun used member => ?_, fun lower less => ?_⟩
      · rw [none] at member
        exact absurd member Std.ExtTreeMap.not_mem_empty
      · exact absurd less UInt64.not_lt_zero

/-- A next row has the least identifier above all that are in use, if the last one is not. -/
theorem freshId_eq_ok_iff {ledger : Ledger} {id : RowId} :
    ledger.freshId = .ok id ↔ lastId ∉ ledger.rows ∧ ledger.IsLeastAbove id := by
  constructor
  · intro fresh
    refine ⟨fun used => ?_, isLeastAbove_of_freshId fresh⟩
    rw [freshId_eq_error_iff.mpr ⟨rfl, used⟩] at fresh
    cases fresh
  · rintro ⟨unused, least⟩
    cases fresh : ledger.freshId with
    | ok other => rw [(isLeastAbove_of_freshId fresh).unique least]
    | error error => exact absurd (freshId_eq_error_iff.mp fresh).2 unused

/-- A fresh identifier is not in use. -/
theorem notMem_of_freshId {ledger : Ledger} {id : RowId} (fresh : ledger.freshId = .ok id) :
    id ∉ ledger.rows := fun member =>
  UInt64.lt_irrefl id.value ((isLeastAbove_of_freshId fresh).1 id member)

end Ledger

end TableStore
