/-
# An index is a finite relation

Whatever calls are made on an index, a pair is in it exactly if the last call on this pair put it
there, or if it was there at the start and has not been removed. Everything else that an index
answers is said by its pairs: the rows under a key, what a removal finds, and both counts, since a
key is kept only as long as it has rows. So calls on different pairs may be made in either order.
-/

import Mathlib.Data.List.Induction
import Mathlib.Data.List.Nodup
import TableStore.Proofs.Index.Canonical

namespace TableStore.IndexTable

/-- A call that changes an index. -/
inductive Edit where
  | insert (key : IndexKey) (id : RowId)
  | remove (key : IndexKey) (id : RowId)
  deriving DecidableEq, Repr

namespace Edit

/-- The pair that a call is about. -/
def posting : Edit → Posting
  | .insert key id => ⟨key, id⟩
  | .remove key id => ⟨key, id⟩

/-- The index after a call. -/
def apply (table : IndexTable) : Edit → IndexTable
  | .insert key id => table.insert key id
  | .remove key id => (table.remove key id).2

/-- The calls on a pair are its insertion and its removal. -/
theorem posting_eq_iff {edit : Edit} {key : IndexKey} {id : RowId} :
    edit.posting = ⟨key, id⟩ ↔ edit = .insert key id ∨ edit = .remove key id := by
  cases edit <;> simp [posting]

/-- Whether a call is the last one on its pair. -/
def IsLast (edits : List Edit) (edit : Edit) : Prop :=
  ∃ earlier later, edits = earlier ++ edit :: later ∧
    ∀ other ∈ later, other.posting ≠ edit.posting

/-- Among no calls there is no last one. -/
theorem not_isLast_nil (edit : Edit) : ¬IsLast [] edit := by
  rintro ⟨earlier, later, same, -⟩
  simp at same

/-- One more call is the last one on its pair, and leaves the last calls on all others. -/
theorem isLast_concat {edits : List Edit} {edit last : Edit} :
    IsLast (edits ++ [last]) edit ↔
      last = edit ∨ last.posting ≠ edit.posting ∧ IsLast edits edit := by
  constructor
  · rintro ⟨earlier, later, same, apart⟩
    rcases List.eq_nil_or_concat' later with rfl | ⟨later, other, rfl⟩
    · exact .inl (List.head_eq_of_cons_eq (List.append_inj_right' same rfl))
    · rw [← List.cons_append, ← List.append_assoc] at same
      obtain ⟨rfl, single⟩ := List.append_inj' same rfl
      cases single
      refine .inr ⟨apart last (by simp), earlier, later, rfl, fun other member => ?_⟩
      exact apart other (List.mem_append_left _ member)
  · rintro (rfl | ⟨different, earlier, later, rfl, apart⟩)
    · exact ⟨edits, [], rfl, by simp⟩
    · refine ⟨earlier, later ++ [last], by simp, fun other member => ?_⟩
      rcases List.mem_append.mp member with before | single
      · exact apart other before
      · rwa [List.mem_singleton.mp single]

/-- What a call leaves at the pair of an insertion. -/
theorem contains_apply (table : IndexTable) (edit : Edit) (key : IndexKey) (id : RowId) :
    (edit.apply table).contains key id = true ↔
      edit = .insert key id ∨ edit ≠ .remove key id ∧ table.contains key id = true := by
  cases edit with
  | insert other row => simp [apply]
  | remove other row => simp [apply, remove_eq]

end Edit

/-- The index after calls, one after another. -/
def edited (table : IndexTable) (edits : List Edit) : IndexTable :=
  edits.foldl Edit.apply table

/-- A pair is in an index after calls if the last call on it put it there, or if it was there before
them and none of them removed it. -/
theorem contains_edited (table : IndexTable) (edits : List Edit) (key : IndexKey) (id : RowId) :
    (table.edited edits).contains key id = true ↔
      Edit.IsLast edits (.insert key id) ∨
        table.contains key id = true ∧ .remove key id ∉ edits := by
  induction edits using List.reverseRecOn with
  | nil => simp [edited, Edit.not_isLast_nil]
  | append_singleton edits last ih =>
      rw [edited, List.foldl_append, List.foldl_cons, List.foldl_nil, ← edited,
        Edit.contains_apply, ih, Edit.isLast_concat, List.mem_append, List.mem_singleton]
      have onPair : last.posting = (Edit.insert key id).posting ↔ _ := Edit.posting_eq_iff
      by_cases inserts : last = .insert key id
      · exact iff_of_true (.inl inserts) (.inl (.inl inserts))
      by_cases removes : last = .remove key id
      · -- a removal of the pair is the last call on it, and none before counts
        simp [removes, Edit.posting]
      · simp [inserts, removes, onPair, Ne.symm removes]

/-- A call on another pair changes nothing at a pair. -/
theorem Edit.contains_apply_of_ne (table : IndexTable) {edit : Edit} {pair : Posting}
    (apart : edit.posting ≠ pair) :
    (edit.apply table).contains pair.key pair.id = table.contains pair.key pair.id := by
  have neither := mt Edit.posting_eq_iff.mpr apart
  rw [not_or] at neither
  rw [Bool.eq_iff_iff, Edit.contains_apply]
  simp [neither.1, neither.2]

/-- A call changes an index on a column into one on this column. -/
theorem Edit.column_apply (table : IndexTable) (edit : Edit) :
    (edit.apply table).column = table.column := by
  cases edit <;> rfl

/-- Calls on different pairs lead to one index in either order, and a removal finds the same. -/
theorem Edit.apply_comm (table : IndexTable) {first second : Edit}
    (apart : first.posting ≠ second.posting) :
    second.apply (first.apply table) = first.apply (second.apply table) := by
  refine ext_contains (by simp only [column_apply]) fun key id => ?_
  by_cases onFirst : first.posting = ⟨key, id⟩
  · have offSecond : second.posting ≠ ⟨key, id⟩ := fun same => apart (onFirst.trans same.symm)
    have unseen := fun table => contains_apply_of_ne table offSecond
    dsimp only at unseen
    rw [unseen, contains_apply, contains_apply, unseen]
  · have unseen := fun table => contains_apply_of_ne table onFirst
    dsimp only at unseen
    rw [unseen, contains_apply, unseen, contains_apply]

/-- Whether an index is a finite relation: it has exactly the pairs that are related, in ascending
order under each key, a removal finds exactly these, only keys of such pairs are kept, and the keys
and the pairs are counted. -/
structure Represents (table : IndexTable) (related : IndexKey → RowId → Prop) : Prop where
  contains : ∀ key id, table.contains key id = true ↔ related key id
  removes : ∀ key id, (table.remove key id).1 = true ↔ related key id
  looksUp : ∀ key id, id ∈ table.lookup key ↔ related key id
  ascends : ∀ key, (table.lookup key).Pairwise fun first second => first.value < second.value
  keeps : ∀ key, key ∈ table.groups ↔ ∃ id, related key id
  inhabited : ∀ key ids, (key, ids) ∈ table.entries → ids ≠ []
  keyCount : ∃ keys : List IndexKey, keys.Nodup ∧ (∀ key, key ∈ keys ↔ ∃ id, related key id) ∧
    table.keyCount = keys.length
  idCount : ∃ pairs : List Posting, pairs.Nodup ∧
    (∀ pair, pair ∈ pairs ↔ related pair.key pair.id) ∧ table.idCount = pairs.length

/-- A key is kept exactly if it has rows. -/
theorem mem_groups_iff (table : IndexTable) (key : IndexKey) :
    key ∈ table.groups ↔ ∃ id, table.contains key id = true := by
  have keys : table.entries.map Prod.fst = table.groups.keys := by
    rw [entries, List.map_map, ← Std.ExtTreeMap.map_fst_toList_eq_keys]
    rfl
  rw [← Std.ExtTreeMap.mem_keys, ← keys, List.mem_map]
  constructor
  · rintro ⟨⟨key, ids⟩, listed, rfl⟩
    obtain ⟨id, member⟩ :=
      List.exists_mem_of_ne_nil ids ((mem_entries_iff table key ids).mp listed).1
    exact ⟨id, (contains_iff_mem_entries table key id).mpr ⟨ids, listed, member⟩⟩
  · rintro ⟨id, held⟩
    obtain ⟨ids, listed, -⟩ := (contains_iff_mem_entries table key id).mp held
    exact ⟨(key, ids), listed, rfl⟩

/-- No pair is listed twice: rows ascend in each record, and records of different keys have no pair
in common. -/
theorem nodup_pairs (table : IndexTable) : table.pairs.Nodup := by
  have orderly := orderly_entries table
  rw [pairs, List.nodup_flatMap]
  constructor
  · intro entry listed
    have distinct : entry.2.Nodup := by
      refine List.Pairwise.imp ?_ (orderly.rows entry listed).2
      rintro first second less rfl
      exact UInt64.lt_irrefl _ less
    exact distinct.map fun first second same => congrArg Posting.id same
  · refine orderly.keys.imp fun {first second} less pair inFirst inSecond => ?_
    obtain ⟨_, -, rfl⟩ := List.mem_map.mp inFirst
    obtain ⟨_, -, same⟩ := List.mem_map.mp inSecond
    have sameKey : second.1 = first.1 := congrArg Posting.key same
    rw [sameKey, Std.compare_self] at less
    cases less

/-- The pairs of an index are counted group by group. -/
theorem idCount_eq_length (table : IndexTable) : table.idCount = table.pairs.length := by
  rw [idCount, ← List.sum_eq_foldr, pairs, entries, List.length_flatMap, List.map_map]
  congr 2
  funext group
  simp

/-- An index is known by its pairs. -/
theorem represents_of_contains {table : IndexTable} {related : IndexKey → RowId → Prop}
    (same : ∀ key id, table.contains key id = true ↔ related key id) :
    Represents table related where
  contains := same
  removes key id := by rw [remove_eq, same]
  looksUp key id := by rw [mem_lookup_iff, same]
  ascends := table.pairwise_lookup
  keeps key := by simp only [mem_groups_iff, same]
  inhabited key ids listed := ((mem_entries_iff table key ids).mp listed).1
  keyCount := ⟨table.groups.keys, Std.ExtTreeMap.nodup_keys, fun key => by
    rw [Std.ExtTreeMap.mem_keys, mem_groups_iff]
    simp only [same], Std.ExtTreeMap.length_keys.symm⟩
  idCount := ⟨table.pairs, table.nodup_pairs, fun pair => by rw [mem_pairs_iff, same],
    table.idCount_eq_length⟩

/-- Whether the file of an index lists a pair: one of its records has the value of the key and names
the row. -/
def Listed (bytes : Bytes) (key : IndexKey) (id : RowId) : Prop :=
  ∃ entries, entriesOfBytes? bytes = some entries ∧
    ∃ entry ∈ entries, IndexKey.ofJson? entry.value = some key ∧ id ∈ entry.ids

/-- Inserting records adds the pairs that they list. -/
theorem contains_of_foldlM_insertEntry {entries : List Entry} {first table : IndexTable}
    (inserted : entries.foldlM insertEntry first = .ok table) (key : IndexKey) (id : RowId) :
    table.contains key id = true ↔ first.contains key id = true ∨
      ∃ entry ∈ entries, IndexKey.ofJson? entry.value = some key ∧ id ∈ entry.ids := by
  induction entries generalizing first with
  | nil =>
      cases inserted
      simp
  | cons entry rest ih =>
      rw [List.foldlM_cons, insertEntry] at inserted
      cases keyed : IndexKey.ofJson? entry.value with
      | none =>
          simp only [keyed] at inserted
          cases inserted
      | some own =>
          simp only [keyed] at inserted
          have added := contains_foldl_insert (entry.ids.map (Posting.mk own)) first key id
          rw [List.foldl_map] at added
          have pair : ⟨key, id⟩ ∈ entry.ids.map (Posting.mk own) ↔
              some own = some key ∧ id ∈ entry.ids := by
            simp [and_comm, eq_comm]
          rw [ih inserted, added, pair, List.exists_mem_cons_iff, keyed, or_right_comm, or_comm]

/-- An index that is read from a file contains the pairs that the file lists. -/
theorem contains_of_ofBytes {column : String} {bytes : Bytes} {table : IndexTable}
    (read : ofBytes column bytes = .ok table) (key : IndexKey) (id : RowId) :
    table.contains key id = true ↔ Listed bytes key id := by
  rw [ofBytes] at read
  cases found : entriesOfBytes? bytes with
  | none =>
      rw [found] at read
      cases read
  | some entries =>
      rw [found] at read
      rw [contains_of_foldlM_insertEntry read, contains_empty, Listed, found]
      simp

/-- Whatever calls are made on an index, it is a finite relation. Made on the empty index, they
relate the pairs whose last call is an insertion; made on an index that was read from a file, they
relate these and the pairs that the file lists, as long as no call removes them. And two calls on
different pairs may be made in either order: they lead to one index, and a removal finds the same
either way. -/
theorem edited_is_finite_relation :
    (∀ column edits, Represents ((empty column).edited edits) fun key id =>
      Edit.IsLast edits (.insert key id)) ∧
    (∀ column bytes table edits, ofBytes column bytes = .ok table →
      Represents (table.edited edits) fun key id =>
        Edit.IsLast edits (.insert key id) ∨ Listed bytes key id ∧ .remove key id ∉ edits) ∧
    ∀ (table : IndexTable) (first second : Edit), first.posting ≠ second.posting →
      second.apply (first.apply table) = first.apply (second.apply table) ∧
      ((first.apply table).remove second.posting.key second.posting.id).1 =
        (table.remove second.posting.key second.posting.id).1 := by
  refine ⟨fun column edits => represents_of_contains fun key id => ?_,
    fun column bytes table edits read => represents_of_contains fun key id => ?_,
    fun table first second apart => ⟨Edit.apply_comm table apart, ?_⟩⟩
  · rw [contains_edited, contains_empty]
    simp
  · rw [contains_edited, contains_of_ofBytes read]
  · rw [remove_eq, remove_eq, Edit.contains_apply_of_ne table apart]

/-- Calls that fill the group of the key seven, empty it and fill it again, and then remove what the
untidy file lists under null. -/
def refilling : List Edit :=
  [.insert (.int 7) ⟨2⟩, .remove (.int 7) ⟨2⟩, .insert (.int 7) ⟨3⟩, .remove .null ⟨0⟩]

/-- In the index of the untidy file, whose record for the key seven lists no row, the calls leave
the row that they put under seven last and the row under zero, which they do not touch. A removal
finds nothing under null any more. The last two calls may be exchanged. -/
theorem finite_relation_refillingScores :
    ∃ table, ofBytes "score" untidyScores = .ok table ∧
      (table.edited refilling).contains (.int 7) ⟨3⟩ = true ∧
      ((table.edited refilling).remove (.ofBinary64 ⟨0⟩) ⟨1⟩).1 = true ∧
      ((table.edited refilling).remove .null ⟨0⟩).1 = false ∧
      Edit.apply ((Edit.insert (.int 7) ⟨3⟩).apply table) (.remove .null ⟨0⟩) =
        Edit.apply ((Edit.remove .null ⟨0⟩).apply table) (.insert (.int 7) ⟨3⟩) := by
  have accepted : (ofBytes "score" untidyScores).isOk = true := by decide +kernel
  have records : (entriesOfBytes? untidyScores).map (List.map fun entry =>
      (IndexKey.ofJson? entry.value, entry.ids)) =
        some [(some (.ofBinary64 ⟨0⟩), [⟨1⟩, ⟨1⟩]), (some (.int 7), []), (some .null, [⟨0⟩])] := by
    decide +kernel
  obtain ⟨entries, found, fields⟩ := Option.map_eq_some_iff.mp records
  obtain ⟨entry, member, zero⟩ := List.mem_map.mp (fields ▸ List.mem_cons_self)
  obtain ⟨keyed, named⟩ := Prod.mk.inj zero
  cases read : ofBytes "score" untidyScores with
  | error =>
      rw [read] at accepted
      cases accepted
  | ok table =>
      have represents := edited_is_finite_relation.2.1 "score" untidyScores table refilling read
      refine ⟨table, rfl, (represents.contains _ _).mpr (.inl ?_),
        (represents.removes _ _).mpr (.inr ⟨?_, by decide +kernel⟩), ?_,
        (edited_is_finite_relation.2.2 table _ _ (by decide)).1⟩
      · exact ⟨refilling.take 2, refilling.drop 3, rfl, by decide⟩
      · exact ⟨entries, found, entry, member, keyed, named ▸ List.mem_cons_self⟩
      · rw [← Bool.not_eq_true, represents.removes]
        rintro (⟨earlier, later, same, -⟩ | ⟨-, kept⟩)
        · have listed : Edit.insert .null ⟨0⟩ ∈ refilling := by simp [same]
          exact absurd listed (by decide)
        · exact kept (by decide)

end TableStore.IndexTable
