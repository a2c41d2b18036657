/-
# Attempts to change a row

A call that changes a row puts the row file in its new state and then moves the row in the indexes
in which its key has changed. Whatever accesses are ordered to fail, only few states can be left:
everything is as before, or only the row file is new, or the row has also moved in the first of the
indexes, up to one that could not be reached.
-/

import TableStore.Proofs.Table.Consistent
import TableStore.Proofs.Table.Machine

namespace TableStore

/-- Whether a call changes one row. -/
def Call.ChangesRow : Call → Prop
  | .insert _ | .update _ _ | .erase _ | .write _ _ => True
  | _ => False

/-- The row under an identifier after a call about it, by the row before. -/
def Call.rowAfter (table : Table) (id : RowId) (old : Option Row) : Call → Option Row
  | .insert row => some (table.withId id row)
  | .update _ changes => old.map fun row => row.merge changes
  | .erase _ => none
  | .write _ new => new
  | _ => old

/-- The store when no failure is ordered any more. -/
def Store.cleared (store : Store) : Store :=
  { store with faults := [], failingProbes := [] }

namespace Content

variable {table : String} {content left : Content} {isTable : FileName.isSegment table = true}

section

variable {id : RowId} {bytes? : Option Bytes} {new? : Option Row}

/-- The row file of a write is read as the row that was written. -/
theorem row?_of_update (written : bytes?.map Row.ofBytes = new?.map Except.ok)
    (rest : ∀ other, left (.row table isTable other) =
      Function.update content (.row table isTable id) bytes? (.row table isTable other))
    (other : RowId) :
    left.row? isTable other = if other = id then new? else content.row? isTable other := by
  rw [row?, rest]
  split
  · next here =>
      subst here
      rw [Function.update_self]
      cases bytes? with
      | none => cases new? with
        | none => rfl
        | some row => cases written
      | some bytes => cases new? with
        | none => cases written
        | some row =>
            have decoded : Row.ofBytes bytes = .ok row := Option.some.inj written
            rw [Option.bind_some, decoded]
            rfl
  · next apart =>
      rw [Function.update_of_ne fun same => apart (Place.row_injective same)]
      rfl

/-- Storing a row does not change which indexes there are. -/
theorem lists_update_row (id : RowId) (column : String) :
    Lists (Function.update content (.row table isTable id) bytes?) table column ↔
      content.Lists table column := by
  refine exists_congr fun place => and_congr_right fun _ => and_congr_right fun area => ?_
  rw [Function.update_of_ne (by rintro rfl; cases area)]

end

/-- The file of a row of scalars is read as the row. -/
theorem map_ofBytes_toBytes (pretty : Bool) {new? : Option Row}
    (scalar : ∀ row ∈ new?, row.Scalar) :
    (new?.map (Row.toBytes pretty)).map Row.ofBytes = new?.map Except.ok := by
  cases new? with
  | none => rfl
  | some row => exact congrArg some (Row.ofBytes_toBytes pretty (scalar row rfl))

/-- Whether an identifier is the one after the greatest of the stored rows, or the first if there
are none. -/
def Fresh (content : Content) (isTable : FileName.isSegment table = true) (id : RowId) : Prop :=
  ∃ ids, Table.Ascending ids ∧
    (∀ other, other ∈ ids ↔ (content (.row table isTable other)).isSome = true) ∧
    match ids.getLast? with
    | none => id = .first
    | some greatest => greatest.next? = some id

/-- A fresh identifier is that of no stored row. -/
theorem Fresh.eq_none {id : RowId} (fresh : content.Fresh isTable id) :
    content (.row table isTable id) = none := by
  obtain ⟨ids, ascending, listed, next⟩ := fresh
  have absent : id ∉ ids := by
    cases last : ids.getLast? with
    | none =>
        rw [List.getLast?_eq_none_iff] at last
        rw [last]
        exact List.not_mem_nil
    | some greatest =>
        rw [last] at next
        exact ascending.notMem_of_next? last next
  rw [← Option.isNone_iff_eq_none, ← Option.isSome_eq_false_iff, ← Bool.not_eq_true]
  exact fun stored => absent ((listed id).mpr stored)

end Content

/-- Whether a call is about the row under an identifier: the one it names, or for an insert the
fresh one. -/
def Call.Targets {table : String} (isTable : FileName.isSegment table = true) (content : Content)
    (id : RowId) : Call → Prop
  | .insert _ => content.Fresh isTable id
  | .update other _ | .erase other | .write other _ => other = id
  | _ => False

namespace Table

open Content

/-- The content when only the file of a row is in its new state. -/
def rowStored (table : Table) (isTable : FileName.isSegment table.name = true) (content : Content)
    (id : RowId) (new? : Option Row) : Content :=
  Function.update content (.row table.name isTable id)
    (new?.map (Row.toBytes table.options.prettyRows))

/-- What is left when the file of a row was put in its new state, with what is answered then. -/
inductive Attempted {table : Table} (isTable : FileName.isSegment table.name = true)
    (content : Content) (id : RowId) (new? : Option Row) {α : Type} :
    Except TableError α → Content → Prop
  /-- The indexes could not be listed. -/
  | stored (error : TableError) :
      Attempted isTable content id new? (.error error) (table.rowStored isTable content id new?)
  /-- The row has moved in the first of the indexes. If this is not all of them, the next one has
  another key for the row. -/
  | moved {answer : Except TableError α} {left : Content} {done rest : List String}
      (distinct : (done ++ rest).Nodup)
      (listed : ∀ column, column ∈ done ++ rest ↔ content.Lists table.name column)
      (moves : Moved isTable id (content.row? isTable id) new? (content.indexOrEmpty isTable) done
        (table.rowStored isTable content id new?) left)
      (next : ∀ error, answer = .error error → ∃ column others, rest = column :: others ∧
        Row.key? (content.row? isTable id) column ≠ Row.key? new? column) :
      Attempted isTable content id new? answer left

/-- What a call that changes a row can leave: everything as before, or an attempt to put the row
that it is about in its new state. -/
def Leaves {table : Table} (isTable : FileName.isSegment table.name = true) (content : Content)
    (call : Call) {α : Type} (answer : Except TableError α) (left : Content) : Prop :=
  left = content ∨ ∃ id, call.Targets isTable content id ∧
    (∀ row ∈ call.rowAfter table id (content.row? isTable id), row.Scalar) ∧
      Attempted isTable content id (call.rowAfter table id (content.row? isTable id)) answer left

variable {medium : Medium} {faults : List Fault} {content left : Content} {table : Table}

section

variable {isTable : FileName.isSegment table.name = true} {call : Call}

/-- What is answered besides does not matter. -/
theorem Attempted.map {α β : Type} {id : RowId} {new? : Option Row} {answer : Except TableError α}
    (attempted : Attempted isTable content id new? answer left) (f : α → β) :
    Attempted isTable content id new? (answer.map f) left := by
  cases attempted with
  | stored error => exact .stored error
  | moved distinct listed moves next =>
      refine .moved distinct listed moves fun error same => next error ?_
      cases answer with
      | error _ => exact congrArg Except.error (Except.error.inj same)
      | ok _ => cases same

namespace Attempted

variable {α : Type} {id : RowId} {new? : Option Row} {answer : Except TableError α}
  (attempted : Attempted isTable content id new? answer left)

include attempted

/-- All row files, and all files of other tables, are as when only the row was stored. -/
theorem elsewhere {place : Place} (outside : place.table = table.name → place.area = .rows) :
    left place = table.rowStored isTable content id new? place := by
  cases attempted with
  | stored error => rfl
  | moved distinct listed moves next =>
      refine moves.elsewhere place fun column _ isColumn same => ?_
      rw [same] at outside
      cases outside rfl

/-- The rows that can be read are those before, with the new state of the one row. -/
theorem row?_eq (scalar : ∀ row ∈ new?, row.Scalar) (other : RowId) :
    left.row? isTable other = if other = id then new? else content.row? isTable other :=
  row?_of_update (map_ofBytes_toBytes _ scalar) (fun _ => attempted.elsewhere fun _ => rfl) other

/-- The same indexes are there as before. -/
theorem lists_iff (column : String) :
    left.Lists table.name column ↔ content.Lists table.name column := by
  cases attempted with
  | stored error => exact lists_update_row id column
  | @moved _ _ done rest distinct listed moves next =>
      have kept := @lists_update_row _ content isTable
        (new?.map (Row.toBytes table.options.prettyRows)) id column
      rw [← kept]
      refine exists_congr fun place => and_congr_right fun tables => and_congr_right fun areas =>
        and_congr_right fun names => ?_
      by_cases here : ∃ isColumn, column ∈ done ∧
          place = .index table.name isTable column isColumn
      · obtain ⟨isColumn, member, rfl⟩ := here
        rw [moves.index column member isColumn]
        split
        · rfl
        · -- the index that was stored anew was there before
          obtain ⟨other, alsoTables, alsoAreas, alsoNames, stored⟩ :=
            kept.mpr ((listed column).mp (List.mem_append_left rest member))
          have same : other = .index table.name isTable column isColumn :=
            Place.ext alsoTables alsoAreas alsoNames
          exact iff_of_true rfl (same ▸ stored)
      · rw [moves.elsewhere place fun other member isColumn same => ?_]
        · rfl
        · have stems : FileName.ofStem other = FileName.ofStem column :=
            (congrArg Place.name same).symm.trans names
          cases FileName.ofStem_injective stems
          exact here ⟨isColumn, member, same⟩

end Attempted

/-- What is answered besides does not matter. -/
theorem Leaves.map {α β : Type} {answer : Except TableError α}
    (leaves : Leaves isTable content call answer left) (f : α → β) :
    Leaves isTable content call (answer.map f) left :=
  leaves.imp_right fun ⟨id, target, scalar, attempted⟩ => ⟨id, target, scalar, attempted.map f⟩

/-- Something is answered after an operation. -/
theorem ensures_return {α β : Type} {operation : TableM α} (f : α → β)
    (leaves : Ensures medium faults operation.run content (Leaves isTable content call)) :
    Ensures medium faults (do return f (← operation)).run content
      (Leaves isTable content call) := by
  refine Ensures.run_bind leaves ?_ ?_
  · exact fun value left leaves => .pure (leaves.map f)
  · exact fun error left leaves => leaves.map f

/-- An operation after one that changes nothing. -/
theorem ensures_bind_of_unchanged {α β : Type} {first : TableM α} {next : α → TableM β}
    {known : α → Prop}
    (ran : Ensures medium faults first.run content fun answer left =>
      left = content ∧ ∀ value, answer = .ok value → known value)
    (second : ∀ value, known value →
      Ensures medium faults (next value).run content (Leaves isTable content call)) :
    Ensures medium faults (first >>= next).run content (Leaves isTable content call) := by
  refine Ensures.run_bind ran ?_ ?_
  · rintro value left ⟨same, knows⟩
    rw [same]
    exact second value (knows value rfl)
  · rintro error left ⟨same, -⟩
    exact .inl same

end

variable (isTable : FileName.isSegment table.name = true) (admits : medium.AdmitsTable table.name)

include isTable admits

/-- The row file of a write is put in place, or nothing is changed. -/
theorem ensures_putFile (id : RowId) (new? : Option Row) :
    Ensures medium faults (TableM.onFiles
        (match new? with
          | some row => Store.write (table.rowPath id) (row.toBytes table.options.prettyRows)
          | none => Store.delete (table.rowPath id))).run content fun answer left =>
      (∃ error, answer = .error error) ∧ left = content ∨
        answer = .ok () ∧ left = table.rowStored isTable content id new? := by
  cases new? with
  | some row =>
      by_cases faulted : (⟨.write, table.rowPath id⟩ : Fault) ∈ faults
      · have failed := (@Store.runs_of_faulted medium faults content _ _ _
          (Store.change (Files.write (table.rowPath id)
            (row.toBytes table.options.prettyRows))) faulted).onFiles
        exact failed.imp fun answer left reached => .inl ⟨⟨_, reached.1⟩, reached.2⟩
      · have written := (@Store.runs_write medium faults content (.row table.name isTable id)
          faulted (admits.row isTable id) (row.toBytes table.options.prettyRows)).onFiles
        exact written.imp fun answer left => .inr
  | none =>
      by_cases faulted : (⟨.delete, table.rowPath id⟩ : Fault) ∈ faults
      · have failed := (@Store.runs_of_faulted medium faults content _ _ _
          (Store.change (Files.delete (table.rowPath id))) faulted).onFiles
        exact failed.imp fun answer left reached => .inl ⟨⟨_, reached.1⟩, reached.2⟩
      · cases stored : content (.row table.name isTable id) with
        | none =>
            have missing := (Store.runs_delete_none (.row table.name isTable id) faulted
              (admits.row isTable id) stored).onFiles
            exact missing.imp fun answer left reached => .inl ⟨⟨_, reached.1⟩, reached.2⟩
        | some bytes =>
            have present : (content (.row table.name isTable id)).isSome = true := by
              rw [stored]
              rfl
            have removed := (Store.runs_delete (.row table.name isTable id) faulted
              (admits.row isTable id) present).onFiles
            exact removed.imp fun answer left => .inr

/-- Reading a row changes nothing and answers the row that can be read. -/
theorem ensures_read (id : RowId) :
    Ensures medium faults (table.read id).run content fun answer left =>
      left = content ∧ ∀ found, answer = .ok found → found = content.row? isTable id := by
  by_cases faulted : (⟨.read, table.rowPath id⟩ : Fault) ∈ faults
  · have failed := (@Store.runs_of_faulted medium faults content _ _ _
      (Store.inspect (Files.read (table.rowPath id))) faulted).onFiles?
    refine (Runs.bind_error failed).imp ?_
    intro answer left reached
    obtain ⟨answered, kept⟩ := reached
    refine ⟨kept, fun found same => ?_⟩
    rw [answered] at same
    cases same
  cases stored : content (.row table.name isTable id) with
  | none =>
      apply (runs_read_none isTable admits faulted stored).imp
      intro answer left reached
      obtain ⟨answered, kept⟩ := reached
      refine ⟨kept, fun found same => ?_⟩
      rw [answered] at same
      cases same
      rw [row?, stored]
      rfl
  | some bytes =>
      cases decoded : Row.ofBytes bytes with
      | error flaw =>
          apply (runs_read_error isTable admits faulted stored decoded).imp
          intro answer left reached
          obtain ⟨answered, kept⟩ := reached
          refine ⟨kept, fun found same => ?_⟩
          rw [answered] at same
          cases same
      | ok row =>
          apply (runs_read isTable admits faulted stored decoded).imp
          intro answer left reached
          obtain ⟨answered, kept⟩ := reached
          refine ⟨kept, fun found same => ?_⟩
          rw [answered] at same
          cases same
          exact ((content.row?_eq_some_iff isTable).mpr ⟨bytes, stored, decoded⟩).symm

omit isTable admits in
/-- The columns of a table whose listing is ordered to fail are not listed. -/
theorem runs_indexColumns_of_faulted
    (faulted : (⟨.list, table.indexDirectory⟩ : Fault) ∈ faults) :
    Runs medium faults table.indexColumns content
      (.error (.files (.io table.indexDirectory .injected))) content :=
  Runs.bind_error (@Store.runs_of_faulted medium faults content _ _ _
    (Store.inspect (Files.list table.indexDirectory)) faulted).onFiles

omit admits in
/-- The indexes of a consistent table can be read. -/
theorem indexes_readable {new? : Option Row} (consistent : content.Consistent isTable)
    (id : RowId) {files : Files}
    (holds : medium.Holds
      (table.rowStored isTable content id new?) files) {column : String}
    (listed : content.Lists table.name column) :
    ∃ isColumn bytes, medium.Admits (table.indexPath column) ∧
      table.rowStored isTable content id new? (.index table.name isTable column isColumn) =
        some bytes ∧
      IndexTable.ofBytes column bytes = .ok (content.indexOrEmpty isTable column) ∧
      (content.indexOrEmpty isTable column).column = column := by
  obtain ⟨isColumn, index, found, -, -⟩ := consistent column listed
  obtain ⟨bytes, stored, decoded⟩ := (content.index?_eq_some_iff isTable).mp found
  have kept : table.rowStored isTable content id new?
      (.index table.name isTable column isColumn) = some bytes := by
    rw [rowStored, Function.update_of_ne (Place.row_ne_index id isColumn).symm, stored]
  have same : content.indexOrEmpty isTable column = index := by
    rw [indexOrEmpty, dif_pos isColumn, found]
    rfl
  have accepted : medium.Admits (Place.index table.name isTable column isColumn).path :=
    holds.admits (by rw [kept]; rfl)
  rw [same]
  exact ⟨isColumn, bytes, accepted, kept, decoded, IndexTable.column_of_ofBytes decoded⟩

/-- A write to a consistent table changes nothing, or is an attempt to put the row in its new
state. -/
theorem ensures_persist (consistent : content.Consistent isTable) (id : RowId)
    {new? : Option Row} (scalar : ∀ row ∈ new?, row.Scalar) :
    Ensures medium faults (table.persist id (content.row? isTable id) new?).run content
      fun answer left => left = content ∨ Attempted isTable content id new? answer left := by
  refine Ensures.run_bind (ensures_putFile isTable admits id new?) ?_ ?_
  swap
  · rintro error left (⟨-, same⟩ | ⟨same, -⟩)
    · exact .inl same
    · cases same
  rintro _ left (⟨⟨_, same⟩, -⟩ | ⟨-, rfl⟩)
  · cases same
  by_cases faulted : (⟨.list, table.indexDirectory⟩ : Fault) ∈ faults
  · refine (Runs.bind_error (runs_indexColumns_of_faulted faulted)).imp ?_
    rintro answer left ⟨rfl, rfl⟩
    exact .inr (.stored _)
  refine Ensures.of_held fun ⟨files, holds⟩ => ?_
  refine Ensures.run_bind (ensures_indexColumns isTable admits faulted) ?_ ?_
  swap
  · rintro _ _ ⟨-, _, same, -⟩
    cases same
  rintro columns between ⟨rfl, _, answered, distinct, members⟩
  cases answered
  have listed : ∀ column, column ∈ columns ↔ content.Lists table.name column :=
    fun column => (members column).trans (lists_update_row id column)
  refine Ensures.run_bind (ensures_moveInIndexes isTable (fun row found => ?_) scalar distinct
    fun column member => indexes_readable isTable consistent id holds ((listed column).mp member))
    ?_ ?_
  · exact content.scalar_of_row? isTable found
  · rintro touched left ⟨moved, rest, rfl, moves, -⟩
    refine (Ensures.report _).lift.imp ?_
    rintro _ _ ⟨_, rfl, rfl⟩
    exact .inr (.moved distinct listed moves fun _ impossible => by cases impossible)
  · rintro error left ⟨moved, rest, rfl, moves, column, others, same, changed, -, -⟩
    exact .inr (.moved distinct listed moves fun _ _ => ⟨column, others, same, changed⟩)

/-- Finding a fresh identifier changes nothing. -/
theorem ensures_freshId :
    Ensures medium faults table.freshId.run content fun answer left =>
      left = content ∧ ∀ id, answer = .ok id → content.Fresh isTable id := by
  by_cases faulted : (⟨.list, table.rowDirectory⟩ : Fault) ∈ faults
  · have failed := (@Store.runs_of_faulted medium faults content _ _ _
      (Store.inspect (Files.list table.rowDirectory)) faulted).onFiles
    refine (Runs.bind_error (Runs.bind_error failed)).imp ?_
    rintro answer left ⟨rfl, rfl⟩
    exact ⟨rfl, fun _ impossible => by cases impossible⟩
  refine Ensures.run_bind (ensures_rowIds isTable admits faulted) ?_ ?_
  swap
  · rintro error left ⟨rfl, -⟩
    exact ⟨rfl, fun _ impossible => by cases impossible⟩
  rintro ids content ⟨rfl, _, same, ascending, listed⟩
  cases same
  cases last : ids.getLast? with
  | none =>
      refine .pure ⟨rfl, fun id same => ⟨ids, ascending, listed, ?_⟩⟩
      rw [last]
      exact (Except.ok.inj same).symm
  | some greatest =>
      cases next : greatest.next? with
      | none =>
          simp only [next]
          exact .pure ⟨rfl, fun _ impossible => by cases impossible⟩
      | some id =>
          simp only [next]
          refine .pure ⟨rfl, fun other same => ⟨ids, ascending, listed, ?_⟩⟩
          rw [last]
          exact Except.ok.inj same ▸ next

/-- A fresh identifier is found if nothing fails. -/
theorem runs_freshId_of_fresh {id : RowId} (fresh : content.Fresh isTable id) :
    Runs medium [] table.freshId content (.ok id) content := by
  obtain ⟨ids, ascending, listed, next⟩ := fresh
  refine Runs.bind (runs_rowIds isTable admits List.not_mem_nil ascending listed) ?_
  cases last : ids.getLast? with
  | none =>
      rw [last] at next
      exact next ▸ .pure _
  | some greatest =>
      rw [last] at next
      simp only [next]
      exact .pure _

omit isTable admits in
/-- Checking a row for arrays and objects changes nothing, and a row that passes has none. -/
theorem ensures_checkScalars (row : Row) :
    Ensures medium faults (checkScalars row).run content fun answer left =>
      left = content ∧ ∀ passed, answer = .ok passed → row.Scalar := by
  rw [checkScalars]
  split
  · exact .pure ⟨rfl, fun _ impossible => by cases impossible⟩
  · next none => exact .pure ⟨rfl, fun _ _ => Row.firstComposite?_eq_none_iff.mp none⟩

/-- Requiring a row changes nothing and answers the row that can be read. -/
theorem ensures_require (id : RowId) :
    Ensures medium faults (table.require id).run content fun answer left =>
      left = content ∧ ∀ row, answer = .ok row → content.row? isTable id = some row := by
  refine Ensures.run_bind (ensures_read isTable admits id) ?_ ?_
  · rintro found left ⟨rfl, read⟩
    have same := read found rfl
    cases found with
    | none => exact .pure ⟨rfl, fun _ impossible => by cases impossible⟩
    | some row =>
        refine .pure ⟨rfl, fun other answered => ?_⟩
        cases answered
        exact same.symm
  · rintro error left ⟨rfl, -⟩
    exact ⟨rfl, fun _ impossible => by cases impossible⟩

omit isTable admits in
/-- A row of scalars with its identifier is one. -/
theorem scalar_withId {row : Row} (scalar : row.Scalar) (table : Table) (id : RowId) :
    (table.withId id row).Scalar := by
  unfold withId
  split
  · exact scalar.insert _ rfl
  · exact scalar

/-- A write that a call makes leaves what the call can leave. -/
theorem ensures_persist_leaves (consistent : content.Consistent isTable) {call : Call}
    {id : RowId} {new? : Option Row} (target : call.Targets isTable content id)
    (after : call.rowAfter table id (content.row? isTable id) = new?)
    (scalar : ∀ row ∈ new?, row.Scalar) :
    Ensures medium faults (table.persist id (content.row? isTable id) new?).run content
      (Leaves isTable content call) := by
  subst after
  refine (ensures_persist isTable admits consistent id scalar).imp fun answer left written => ?_
  exact written.imp_right fun attempted => ⟨id, target, scalar, attempted⟩

/-- A call that changes a row of a consistent table leaves everything as before, or attempts to put
the row that it is about in its new state. -/
theorem ensures_perform_leaves (consistent : content.Consistent isTable) {call : Call}
    (changing : call.ChangesRow) :
    Ensures medium faults (table.perform call).run content (Leaves isTable content call) := by
  cases call with
  | insert row =>
      apply ensures_return
      apply ensures_bind_of_unchanged (ensures_checkScalars row)
      intro _ scalar
      apply ensures_bind_of_unchanged (ensures_freshId isTable admits)
      intro id fresh
      apply ensures_return
      have absent : content.row? isTable id = none := by
        rw [row?, fresh.eq_none]
        rfl
      rw [← absent]
      refine ensures_persist_leaves isTable admits consistent fresh rfl ?_
      rintro _ ⟨⟩
      exact scalar_withId scalar table id
  | update id changes =>
      apply ensures_return
      apply ensures_bind_of_unchanged (ensures_checkScalars changes)
      intro _ scalar
      apply ensures_bind_of_unchanged (ensures_require isTable admits id)
      intro old found
      apply ensures_return
      rw [← found]
      have merged : (content.row? isTable id).map (fun row => row.merge changes) =
          some (old.merge changes) := congrArg (Option.map _) found
      refine ensures_persist_leaves isTable admits consistent rfl merged ?_
      rintro _ ⟨⟩
      exact (content.scalar_of_row? isTable found).merge scalar
  | erase id =>
      apply ensures_return
      apply ensures_bind_of_unchanged (ensures_require isTable admits id)
      intro old found
      apply ensures_return
      rw [← found]
      exact ensures_persist_leaves isTable admits consistent rfl rfl
        fun _ impossible => (by cases impossible)
  | write id row? =>
      apply ensures_return
      cases row? with
      | some row =>
          apply ensures_bind_of_unchanged (ensures_checkScalars row)
          intro _ scalar
          apply ensures_bind_of_unchanged (ensures_read isTable admits id)
          intro old found
          simp only [Option.isNone_some, Bool.and_false, Bool.false_eq_true, if_false]
          apply ensures_return
          rw [found]
          refine ensures_persist_leaves isTable admits consistent rfl rfl ?_
          rintro _ ⟨⟩
          exact scalar
      | none =>
          apply ensures_bind_of_unchanged (ensures_read isTable admits id)
          intro old found
          cases old with
          | none => exact .pure (.inl rfl)
          | some row =>
              apply ensures_return
              rw [found]
              exact ensures_persist_leaves isTable admits consistent rfl rfl
                fun _ impossible => (by cases impossible)
  | _ => cases changing

end Table

end TableStore
