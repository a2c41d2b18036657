/-
# An index is what it contains

An index is known by its column and the pairs it contains: what an insertion and a removal do to
the pairs says all there is to say about them. That no group is empty makes this so, since an empty
group is seen by no pair.
-/

import TableStore.Index.Table

namespace TableStore

namespace KeyGroups

variable (groups : KeyGroups) (key other : IndexKey) (id : RowId)

/-- The rows in a group that is kept. -/
theorem rows_of_getElem? {groups : KeyGroups} {key : IndexKey} {ids : Std.ExtTreeSet RowId}
    (found : groups[key]? = some ids) : groups.rows key = ids := by
  rw [rows, found, Option.getD_some]

/-- Putting a row into a group leaves the other groups. -/
theorem rows_record : (groups.record key id).rows other =
    if key = other then (groups.rows key).insert id else groups.rows other := by
  rw [rows, record, Std.ExtTreeMap.getElem?_alter]
  by_cases same : key = other
  · simp [same, rows]
  · simp [same, rows]

/-- Taking a row out of a group leaves the other groups, and none in the group of a key that is
dropped. -/
theorem rows_forget : (groups.forget key id).2.rows other =
    if key = other then (groups.rows key).erase id else groups.rows other := by
  rw [forget]
  cases found : groups[key]? with
  | none =>
      by_cases same : key = other
      · subst same
        simp [rows, found]
      · simp [same]
  | some ids =>
      have all := rows_of_getElem? found
      by_cases last : (ids.erase id).isEmpty = true
      · by_cases same : key = other
        · subst same
          simp [rows, found, Std.ExtTreeSet.isEmpty_iff.mp last]
        · simp [rows, same, last, Std.ExtTreeMap.getElem?_erase]
      · by_cases same : key = other
        · subst same
          simp [rows, found, last]
        · simp [rows, same, last, Std.ExtTreeMap.getElem?_insert]

/-- A row is taken out of a group if it was in it. -/
theorem forget_fst : (groups.forget key id).1 = (groups.rows key).contains id := by
  rw [forget, rows]
  cases groups[key]? with
  | none => simp
  | some ids => rfl

/-- A key is kept exactly if it has rows. -/
theorem Occupied.getElem?_eq {groups : KeyGroups} (occupied : groups.Occupied) (key : IndexKey) :
    groups[key]? = if groups.rows key = ∅ then none else some (groups.rows key) := by
  cases found : groups[key]? with
  | none => simp [rows, found]
  | some ids => rw [rows_of_getElem? found, if_neg (occupied key ids found)]

end KeyGroups

namespace IndexTable

/-- The index on a table without rows contains nothing. -/
@[simp]
theorem contains_empty (column : String) (key : IndexKey) (id : RowId) :
    (empty column).contains key id = false := by
  simp [contains, empty, KeyGroups.rows]

/-- An insertion adds one pair. -/
@[simp]
theorem contains_insert (table : IndexTable) (key other : IndexKey) (id row : RowId) :
    (table.insert key id).contains other row = true ↔
      key = other ∧ id = row ∨ table.contains other row = true := by
  rw [contains, insert, KeyGroups.rows_record, contains]
  by_cases same : key = other
  · simp [same]
  · simp [same]

/-- A removal takes one pair away. -/
@[simp]
theorem contains_erase (table : IndexTable) (key other : IndexKey) (id row : RowId) :
    (table.erase key id).contains other row = true ↔
      ¬(key = other ∧ id = row) ∧ table.contains other row = true := by
  rw [contains, erase, remove, KeyGroups.rows_forget, contains]
  by_cases same : key = other
  · simp [same]
  · simp [same]

/-- A removal says whether the pair was there. -/
theorem remove_eq (table : IndexTable) (key : IndexKey) (id : RowId) :
    table.remove key id = (table.contains key id, table.erase key id) := by
  rw [contains, ← KeyGroups.forget_fst]
  rfl

/-- Two indexes on one column that contain the same pairs are the same: a key is kept by both if it
has rows, and by none otherwise. -/
theorem ext_contains {first second : IndexTable} (column : first.column = second.column)
    (same : ∀ key id, first.contains key id = true ↔ second.contains key id = true) :
    first = second := by
  have rows : ∀ key, first.groups.rows key = second.groups.rows key := fun key =>
    Std.ExtTreeSet.ext_contains fun id => Bool.eq_iff_iff.mpr (same key id)
  have groups : first.groups = second.groups := Std.ExtTreeMap.ext_getElem? fun key => by
    rw [first.occupied.getElem?_eq, second.occupied.getElem?_eq, rows]
  cases first
  cases second
  cases column
  cases groups
  rfl

/-- Whether two indexes hold an identifier under the same keys. -/
def AlikeAt (first second : IndexTable) (id : RowId) : Prop :=
  ∀ key, first.contains key id = true ↔ second.contains key id = true

/-- The rows under a key are those that the index contains there. -/
theorem mem_lookup_iff (table : IndexTable) (key : IndexKey) (id : RowId) :
    id ∈ table.lookup key ↔ table.contains key id = true := by
  rw [lookup, Std.ExtTreeSet.mem_toList, contains, Std.ExtTreeSet.mem_iff_contains]

/-- The rows under a key are listed in ascending order. -/
theorem pairwise_lookup (table : IndexTable) (key : IndexKey) :
    (table.lookup key).Pairwise fun first second => first.value < second.value :=
  (table.groups.rows key).ordered_toList.imp fun less => compareOfLessAndEq_eq_lt.mp less

/-- The records of an index are the keys that have rows, each with its rows. -/
theorem mem_entries_iff (table : IndexTable) (key : IndexKey) (ids : List RowId) :
    (key, ids) ∈ table.entries ↔ ids ≠ [] ∧ table.lookup key = ids := by
  have empty : ∀ group : Std.ExtTreeSet RowId, group.toList = [] ↔ group = ∅ := fun group => by
    rw [← List.isEmpty_iff, Std.ExtTreeSet.isEmpty_toList, Std.ExtTreeSet.isEmpty_iff]
  rw [entries, List.mem_map]
  constructor
  · rintro ⟨⟨key, group⟩, listed, same⟩
    cases same
    have found := Std.ExtTreeMap.mem_toList_iff_getElem?_eq_some.mp listed
    refine ⟨mt (empty group).mp (table.occupied key group found), ?_⟩
    rw [lookup, KeyGroups.rows_of_getElem? found]
  · rintro ⟨some, rfl⟩
    refine ⟨(key, table.groups.rows key), ?_, rfl⟩
    rw [Std.ExtTreeMap.mem_toList_iff_getElem?_eq_some, table.occupied.getElem?_eq,
      if_neg (mt (empty _).mpr some)]

/-- The records of an index are the pairs that it contains. -/
theorem contains_iff_mem_entries (table : IndexTable) (key : IndexKey) (id : RowId) :
    table.contains key id = true ↔ ∃ ids, (key, ids) ∈ table.entries ∧ id ∈ ids := by
  rw [← mem_lookup_iff]
  constructor
  · intro held
    exact ⟨_, (mem_entries_iff table key _).mpr ⟨List.ne_nil_of_mem held, rfl⟩, held⟩
  · rintro ⟨ids, listed, member⟩
    rwa [((mem_entries_iff table key ids).mp listed).2]

/-- The pairs of an index are those that it contains. -/
theorem mem_pairs_iff (table : IndexTable) (posting : Posting) :
    posting ∈ table.pairs ↔ table.contains posting.key posting.id = true := by
  rw [contains_iff_mem_entries, pairs, List.mem_flatMap]
  constructor
  · rintro ⟨⟨key, ids⟩, listed, found⟩
    obtain ⟨id, member, rfl⟩ := List.mem_map.mp found
    exact ⟨ids, listed, member⟩
  · rintro ⟨ids, listed, member⟩
    exact ⟨(posting.key, ids), listed, List.mem_map.mpr ⟨posting.id, member, rfl⟩⟩

/-- The postings of an index are the pairs it contains. -/
theorem mem_toList_iff (table : IndexTable) (posting : Posting) :
    posting ∈ table.postings.toList ↔ table.contains posting.key posting.id = true := by
  rw [Std.ExtTreeSet.mem_toList, postings, Std.ExtTreeSet.mem_ofList, List.contains_iff_mem,
    mem_pairs_iff]

/-- No posting of an index is missing from another exactly if the other contains all its pairs. -/
theorem firstMissing?_eq_none_iff {table other : IndexTable} :
    table.firstMissing? other = none ↔
      ∀ key id, table.contains key id = true → other.contains key id = true := by
  rw [firstMissing?, List.find?_eq_none]
  constructor
  · intro none key id held
    have found := none ⟨key, id⟩ ((mem_toList_iff _ _).mpr held)
    simpa using found
  · intro each posting listed
    simpa using each _ _ ((mem_toList_iff _ _).mp listed)

/-- A posting that is found missing from another index is none of its pairs. -/
theorem of_firstMissing?_eq_some {table other : IndexTable} {posting : Posting}
    (missing : table.firstMissing? other = some posting) :
    table.contains posting.key posting.id = true ∧
      other.contains posting.key posting.id = false :=
  ⟨(mem_toList_iff _ _).mp (List.mem_of_find?_eq_some missing),
    by simpa using List.find?_some missing⟩

end IndexTable

end TableStore
