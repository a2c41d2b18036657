/-
# Index files are canonical

An index that was built by edits, or read from any file that is accepted, has one file: its keys
ascend, each with rows that ascend. So the order and the repetitions of what was done, or of what
was read, are not seen in it, and two indexes have the same file exactly when they contain the same
pairs.
-/

import TableStore.Proofs.Index.File

namespace TableStore.IndexTable

/-- Whether an index was read from a file, or made from the empty one, and then edited under keys of
values. -/
inductive Obtained : IndexTable → Prop
  | empty (column : String) : Obtained (empty column)
  | read {column : String} {bytes : Bytes} {table : IndexTable}
      (accepted : ofBytes column bytes = .ok table) : Obtained table
  | insert {table : IndexTable} {value : Json} {key : IndexKey} (obtained : Obtained table)
      (keyed : IndexKey.ofJson? value = some key) (id : RowId) : Obtained (table.insert key id)
  | erase {table : IndexTable} {value : Json} {key : IndexKey} (obtained : Obtained table)
      (keyed : IndexKey.ofJson? value = some key) (id : RowId) : Obtained (table.erase key id)

/-- The index without pairs has canonical keys. -/
theorem canonical_empty (column : String) : (empty column).Canonical := by
  intro key id held
  simp at held

/-- Inserting under the key of a value keeps the keys canonical. -/
theorem Canonical.insert {table : IndexTable} (canonical : table.Canonical) {value : Json}
    {key : IndexKey} (keyed : IndexKey.ofJson? value = some key) (id : RowId) :
    (table.insert key id).Canonical := by
  intro other row held
  rcases (contains_insert table key other id row).mp held with ⟨rfl, -⟩ | before
  · exact IndexKey.canonical_of_ofJson? keyed
  · exact canonical other row before

/-- Erasing keeps the keys canonical. -/
theorem Canonical.erase {table : IndexTable} (canonical : table.Canonical) (key : IndexKey)
    (id : RowId) : (table.erase key id).Canonical :=
  fun other row held => canonical other row ((contains_erase table key other id row).mp held).2

/-- What is read from any file has canonical keys. -/
theorem canonical_of_ofBytes {column : String} {bytes : Bytes} {table : IndexTable}
    (read : ofBytes column bytes = .ok table) : table.Canonical :=
  ofBytes_induction (motive := Canonical) read (canonical_empty column)
    fun _ _ _ id keyed canonical => canonical.insert keyed id

/-- However an index was obtained, its keys are those of values. -/
theorem Obtained.canonical {table : IndexTable} (obtained : Obtained table) : table.Canonical := by
  induction obtained with
  | empty column => exact canonical_empty column
  | read accepted => exact canonical_of_ofBytes accepted
  | insert _ keyed id canonical => exact canonical.insert keyed id
  | erase _ keyed id canonical => exact canonical.erase _ id

/-- Whether keys strictly ascend, and under each there are rows that strictly ascend. -/
structure Orderly (entries : List (IndexKey × List RowId)) : Prop where
  keys : entries.Pairwise fun first second => compare first.1 second.1 = .lt
  rows : ∀ entry ∈ entries,
    entry.2 ≠ [] ∧ entry.2.Pairwise fun first second => first.value < second.value

/-- The records of an index are in order. -/
theorem orderly_entries (table : IndexTable) : Orderly table.entries where
  keys := by
    rw [entries, List.pairwise_map]
    exact table.groups.ordered_keys_toList
  rows := by
    rintro ⟨key, ids⟩ member
    obtain ⟨some, rfl⟩ := (mem_entries_iff table key ids).mp member
    exact ⟨some, table.pairwise_lookup key⟩

/-- A record of a canonical key is a value that is read as it was. -/
theorem Entry.readable_toJson {key : IndexKey} (canonical : key.Canonical) (ids : List RowId)
    (depth : Nat) : Json.Readable (depth + 2) (toJson key ids) := by
  refine .object (by simp) ?_
  rw [List.forall_mem_cons, List.forall_mem_singleton]
  refine ⟨.scalar (isScalar_toJson canonical), .array fun item member => ?_⟩
  obtain ⟨id, -, rfl⟩ := List.mem_map.mp member
  exact .scalar rfl

/-- The file of an index with canonical keys is the array of its records. -/
theorem ofBytes?_toBytes {table : IndexTable} (canonical : table.Canonical) :
    Json.ofBytes? table.toBytes =
      some (.array (table.entries.map fun entry => Entry.toJson entry.1 entry.2)) := by
  refine Json.ofBytes?_encode (Json.spells_compact _) (.array fun item member => ?_)
  obtain ⟨entry, listed, rfl⟩ := List.mem_map.mp member
  exact Entry.readable_toJson (canonical.of_mem_entries entry listed) entry.2 _

/-- Whether the file of an index is read as the index, and is the array of its keys in order, each
with its rows in order. -/
structure Persists (table : IndexTable) : Prop where
  reloads : ofBytes table.column table.toBytes = .ok table
  records : ∃ entries : List (IndexKey × List RowId),
    Json.ofBytes? table.toBytes =
        some (.array (entries.map fun entry => Entry.toJson entry.1 entry.2)) ∧
      Orderly entries ∧ (∀ entry ∈ entries, entry.1.Canonical) ∧
      ∀ key id, table.contains key id = true ↔ ∃ ids, (key, ids) ∈ entries ∧ id ∈ ids

/-- An index with canonical keys persists. -/
theorem Canonical.persists {table : IndexTable} (canonical : table.Canonical) : Persists table where
  reloads := ofBytes_toBytes canonical
  records := ⟨table.entries, ofBytes?_toBytes canonical, orderly_entries table,
    canonical.of_mem_entries, contains_iff_mem_entries table⟩

/-- Every index that is obtained persists, and on one column such indexes have the same file exactly
when they contain the same pairs. -/
theorem obtained_persists_canonically :
    (∀ table, Obtained table → Persists table) ∧
      ∀ first second, Obtained first → Obtained second → first.column = second.column →
        (first.toBytes = second.toBytes ↔
          ∀ key id, first.contains key id = second.contains key id) := by
  refine ⟨fun table obtained => obtained.canonical.persists,
    fun first second obtained alsoObtained column => ⟨fun same => ?_, fun same => ?_⟩⟩
  · have read := obtained.canonical.persists.reloads
    have alsoRead := alsoObtained.canonical.persists.reloads
    rw [column, same, alsoRead] at read
    cases read
    exact fun _ _ => rfl
  · exact congrArg toBytes (ext_contains column fun key id => by rw [same key id])

/-- An index file out of order, with a record as an array, a repeated row, a key without rows and a
negative zero. -/
def untidyScores : Bytes :=
  Utf8.encode ("[[-0.0,[\"0001\",\"0001\"]],\x7b\"ids\":[],\"value\":7\x7d," ++
    "\x7b\"ids\":[\"0000\"],\"value\":null\x7d]").toList

/-- The index that the untidy file is read as, made by edits. -/
def editedScores : IndexTable :=
  ((((empty "score").insert (.ofBinary64 ⟨0⟩) ⟨1⟩).insert (.int 7) ⟨2⟩).insert .null ⟨0⟩).erase
    (.int 7) ⟨2⟩

/-- The index read from the untidy file persists, and contains the pairs of the edited one: both
have one file. -/
theorem obtained_persists_untidyScores :
    ∃ table, ofBytes "score" untidyScores = .ok table ∧ Persists table ∧
      ∀ key id, table.contains key id = editedScores.contains key id := by
  have file : (ofBytes "score" untidyScores).map toBytes = .ok editedScores.toBytes := by
    decide +kernel
  cases read : ofBytes "score" untidyScores with
  | error => simp [read, Except.map] at file
  | ok table =>
      rw [read] at file
      have zero : IndexKey.ofJson? (.number (.float ⟨0⟩ rfl)) = some (.ofBinary64 ⟨0⟩) := rfl
      have seven : IndexKey.ofJson? (.number (.integer 7 ⟨by decide, by decide⟩)) =
        some (.int 7) := rfl
      have null : IndexKey.ofJson? .null = some .null := rfl
      have edited : Obtained editedScores :=
        ((((Obtained.empty "score").insert zero ⟨1⟩).insert seven ⟨2⟩).insert null ⟨0⟩).erase
          seven ⟨2⟩
      exact ⟨table, rfl, obtained_persists_canonically.1 table (.read read),
        (obtained_persists_canonically.2 table editedScores (.read read) edited
          (column_of_ofBytes read)).mp (Except.ok.inj file)⟩

end TableStore.IndexTable
