/-
# Index files are read as the indexes they were written for

The records of an index file are its keys, each with its rows. Reading inserts the pairs again,
so an index whose keys are those of values is read as it was.
-/

import Mathlib.Tactic.Tauto
import TableStore.Index.File
import TableStore.Proofs.Index.Key
import TableStore.Proofs.Index.Table
import TableStore.Proofs.Json.Source
import TableStore.Proofs.Row.Id

namespace TableStore.IndexTable

/-- Whether every key of an index is the key of some value. -/
def Canonical (table : IndexTable) : Prop :=
  ∀ key id, table.contains key id = true → key.Canonical

/-- The value of a canonical key is a scalar. -/
theorem isScalar_toJson {key : IndexKey} (canonical : key.Canonical) :
    key.toJson.isScalar = true := by
  rw [← IndexKey.isSome_ofJson?, canonical]
  rfl

namespace Entry

/-- The texts of identifiers are read as these identifiers. -/
theorem ids?_source (ids : List RowId) :
    ids? (Json.array (ids.map fun id => .string id.toText)).source = some ids := by
  have items : ∀ ids : List RowId,
      (Json.itemSources (ids.map fun id => .string id.toText)).mapM
        (fun item => item.string?.bind RowId.ofText?) = some ids := by
    intro ids
    induction ids with
    | nil => rfl
    | cons id rest ih =>
        rw [List.map_cons, Json.itemSources, List.mapM_cons, ih]
        simp [Json.source, Json.Source.string?, RowId.ofText?_toText]
  exact items ids

/-- The record of a canonical key is read as this key's value and rows. -/
theorem ofSource?_source {key : IndexKey} (canonical : key.Canonical) (ids : List RowId) :
    ofSource? (toJson key ids).source = some ⟨key.toJson, ids⟩ := by
  have value := Json.Source.value?_source (isScalar_toJson canonical) (Json.depthLimit - 2)
  have rows := ids?_source ids
  have fields : (toJson key ids).source.record? ["value", "ids"] =
      some [("value", key.toJson.source),
        ("ids", (Json.array (ids.map fun id => .string id.toText)).source)] := by
    rfl
  have first : List.lookup "value" [("value", key.toJson.source),
      ("ids", (Json.array (ids.map fun id => .string id.toText)).source)] =
      some key.toJson.source := rfl
  have second : List.lookup "ids" [("value", key.toJson.source),
      ("ids", (Json.array (ids.map fun id => .string id.toText)).source)] =
      some (Json.array (ids.map fun id => .string id.toText)).source := rfl
  simp [ofSource?, fields, first, second, value, rows]

end Entry

/-- Inserting the rows of a canonical key inserts its pairs. -/
theorem insertEntry_eq (table : IndexTable) {key : IndexKey} (canonical : key.Canonical)
    (ids : List RowId) :
    table.insertEntry ⟨key.toJson, ids⟩ =
      .ok ((ids.map (Posting.mk key)).foldl
        (fun table posting => table.insert posting.key posting.id) table) := by
  rw [insertEntry, canonical, List.foldl_map]

/-- Inserting the records of canonical keys inserts all their pairs. -/
theorem foldlM_insertEntry {entries : List (IndexKey × List RowId)}
    (canonical : ∀ entry ∈ entries, entry.1.Canonical) (table : IndexTable) :
    (entries.map fun entry => (⟨entry.1.toJson, entry.2⟩ : Entry)).foldlM insertEntry table =
      .ok ((entries.flatMap fun entry => entry.2.map (Posting.mk entry.1)).foldl
        (fun table posting => table.insert posting.key posting.id) table) := by
  induction entries generalizing table with
  | nil => rfl
  | cons entry rest ih =>
      rw [List.map_cons, List.foldlM_cons,
        insertEntry_eq table (canonical entry List.mem_cons_self), List.flatMap_cons,
        List.foldl_append]
      exact ih (fun other member => canonical other (List.mem_cons_of_mem entry member)) _

/-- Inserting pairs one after another adds them to what is there. -/
theorem contains_foldl_insert (postings : List Posting) (table : IndexTable) (key : IndexKey)
    (id : RowId) :
    (postings.foldl (fun table posting => table.insert posting.key posting.id) table).contains
        key id = true ↔ ⟨key, id⟩ ∈ postings ∨ table.contains key id = true := by
  induction postings generalizing table with
  | nil => simp
  | cons posting rest ih =>
      have pair : (⟨key, id⟩ : Posting) = posting ↔ posting.key = key ∧ posting.id = id := by
        cases posting
        simp [eq_comm]
      rw [List.foldl_cons, ih, contains_insert, List.mem_cons, pair]
      tauto

/-- Inserting pairs does not change the column. -/
theorem column_foldl_insert (postings : List Posting) (table : IndexTable) :
    (postings.foldl (fun table posting => table.insert posting.key posting.id) table).column =
      table.column := by
  induction postings generalizing table with
  | nil => rfl
  | cons posting rest ih => exact ih (table.insert posting.key posting.id)

/-- The pairs of an index, inserted one after another, make this index. -/
theorem foldl_insert_pairs (table : IndexTable) :
    table.pairs.foldl (fun table posting => table.insert posting.key posting.id)
      (empty table.column) = table := by
  refine ext_contains (column_foldl_insert _ _) fun key id => ?_
  rw [contains_foldl_insert, mem_pairs_iff, contains_empty]
  simp

/-- The keys of the records of an index with canonical keys are canonical. -/
theorem Canonical.of_mem_entries {table : IndexTable} (canonical : table.Canonical) :
    ∀ entry ∈ table.entries, entry.1.Canonical := by
  intro entry member
  obtain ⟨id, among⟩ :=
    List.exists_mem_of_ne_nil _ ((mem_entries_iff table entry.1 entry.2).mp member).1
  exact canonical entry.1 id ((contains_iff_mem_entries table entry.1 id).mpr
    ⟨entry.2, member, among⟩)

/-- The records of canonical keys are read one after another. -/
theorem mapM_ofSource? {entries : List (IndexKey × List RowId)}
    (canonical : ∀ entry ∈ entries, entry.1.Canonical) :
    (Json.itemSources (entries.map fun entry => Entry.toJson entry.1 entry.2)).mapM
        Entry.ofSource? =
      some (entries.map fun entry => ⟨entry.1.toJson, entry.2⟩) := by
  induction entries with
  | nil => rfl
  | cons entry rest ih =>
      rw [List.map_cons, Json.itemSources, List.mapM_cons,
        Entry.ofSource?_source (canonical entry List.mem_cons_self),
        ih fun other member => canonical other (List.mem_cons_of_mem entry member)]
      rfl

/-- The file of an index with canonical keys is read as this index. -/
theorem ofBytes_toBytes {table : IndexTable} (canonical : table.Canonical) :
    ofBytes table.column table.toBytes = .ok table := by
  have keys := canonical.of_mem_entries
  have records : entriesOfBytes? table.toBytes =
      some (table.entries.map fun entry => ⟨entry.1.toJson, entry.2⟩) := by
    rw [entriesOfBytes?, toBytes, Json.Source.ofBytes?_encode (Json.spells_compact _), Json.source]
    exact mapM_ofSource? keys
  rw [ofBytes, records]
  exact (foldlM_insertEntry keys _).trans (congrArg Except.ok (foldl_insert_pairs table))

/-- What is read from the file of an index is made from the empty index on its column by insertions
of keys of values, so it has what the empty index has and such insertions preserve. -/
theorem ofBytes_induction {motive : IndexTable → Prop} {column : String} {bytes : Bytes}
    {table : IndexTable} (read : ofBytes column bytes = .ok table) (start : motive (empty column))
    (insert : ∀ table value key id, IndexKey.ofJson? value = some key → motive table →
      motive (table.insert key id)) : motive table := by
  have rows : ∀ (ids : List RowId) {value : Json} {key : IndexKey} (table : IndexTable),
      IndexKey.ofJson? value = some key → motive table →
      motive (ids.foldl (fun table id => table.insert key id) table) := by
    intro ids value key table keyed held
    induction ids generalizing table with
    | nil => exact held
    | cons id rest ih => exact ih _ (insert table value key id keyed held)
  have fold : ∀ (entries : List Entry) (first : IndexTable), motive first →
      entries.foldlM insertEntry first = .ok table → motive table := by
    intro entries
    induction entries with
    | nil =>
        intro first held inserted
        cases inserted
        exact held
    | cons entry rest ih =>
        intro first held inserted
        rw [List.foldlM_cons, insertEntry] at inserted
        cases keyed : IndexKey.ofJson? entry.value with
        | none =>
            simp only [keyed] at inserted
            cases inserted
        | some key =>
            simp only [keyed] at inserted
            exact ih _ (rows entry.ids first keyed held) inserted
  rw [ofBytes] at read
  split at read
  · exact fold _ _ start read
  · cases read

/-- What is read from the file of an index is an index on its column. -/
theorem column_of_ofBytes {column : String} {bytes : Bytes} {table : IndexTable}
    (read : ofBytes column bytes = .ok table) : table.column = column :=
  ofBytes_induction (motive := fun table => table.column = column) read rfl
    fun _ _ _ _ _ same => same

end TableStore.IndexTable
