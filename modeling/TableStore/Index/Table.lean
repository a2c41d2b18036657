/-
# Index tables

An index on a column is a finite relation between keys and row identifiers: a row stands under
the key of its value in that column. The rows are kept in groups, one for each key, and a group
goes with its last row: a key without rows is never kept.
-/

import Std.Data.ExtTreeMap
import Std.Data.ExtTreeSet
import TableStore.Index.Key
import TableStore.Row.Id

namespace TableStore

/-- One pair of the relation: a row holds a key. -/
structure Posting where
  key : IndexKey
  id : RowId
  deriving DecidableEq, Repr

namespace Posting

/-- Postings are ordered by key, and under one key by identifier. -/
instance : Ord Posting :=
  ⟨compareLex (compareOn Posting.key) (compareOn Posting.id)⟩

instance : Std.TransOrd Posting :=
  inferInstanceAs (Std.TransCmp (compareLex (compareOn Posting.key) (compareOn Posting.id)))

instance : Std.LawfulEqOrd Posting where
  eq_of_compare {first second} equal := by
    obtain ⟨keys, ids⟩ := compareLex_eq_eq.mp equal
    have sameKey : first.key = second.key := Std.LawfulEqOrd.eq_of_compare keys
    have sameId : first.id = second.id := Std.LawfulEqOrd.eq_of_compare ids
    cases first; cases second; simp_all

end Posting

/-- Rows in groups, by the key that they hold. -/
abbrev KeyGroups :=
  Std.ExtTreeMap IndexKey (Std.ExtTreeSet RowId)

namespace KeyGroups

/-- The rows in the group of a key; a key that is not kept has none. -/
def rows (groups : KeyGroups) (key : IndexKey) : Std.ExtTreeSet RowId :=
  groups[key]?.getD ∅

/-- Put a row into the group of a key, which is made if it is not there. -/
def record (groups : KeyGroups) (key : IndexKey) (id : RowId) : KeyGroups :=
  groups.alter key fun ids => some ((ids.getD ∅).insert id)

/-- Take a row out of the group of a key, and drop the group with its last row. The answer says
whether the row was in it. -/
def forget (groups : KeyGroups) (key : IndexKey) (id : RowId) : Bool × KeyGroups :=
  match groups[key]? with
  | none => (false, groups)
  | some ids =>
      let others := ids.erase id
      (ids.contains id, if others.isEmpty then groups.erase key else groups.insert key others)

/-- Whether no group is empty. -/
def Occupied (groups : KeyGroups) : Prop :=
  ∀ (key : IndexKey) (ids : Std.ExtTreeSet RowId), groups[key]? = some ids → ids ≠ ∅

namespace Occupied

/-- Where there are no groups, none is empty. -/
theorem empty : Occupied ∅ := by
  intro key ids found
  simp at found

variable {groups : KeyGroups} (occupied : groups.Occupied)

include occupied

/-- A group into which a row was put is not empty. -/
theorem record (key : IndexKey) (id : RowId) : (groups.record key id).Occupied := by
  intro other ids found
  rw [KeyGroups.record, Std.ExtTreeMap.getElem?_alter] at found
  split at found
  · rintro rfl
    have member : id ∈ ((groups[key]?.getD ∅).insert id) := Std.ExtTreeSet.mem_insert_self
    rw [Option.some.inj found] at member
    exact Std.ExtTreeSet.not_mem_empty member
  · exact occupied other ids found

/-- A group that is emptied is dropped. -/
theorem forget (key : IndexKey) (id : RowId) : (groups.forget key id).2.Occupied := by
  rw [KeyGroups.forget]
  split
  · exact occupied
  · intro other left found
    dsimp only at found
    split at found
    · rw [Std.ExtTreeMap.getElem?_erase] at found
      split at found
      · cases found
      · exact occupied other left found
    · next kept =>
        rw [Std.ExtTreeMap.getElem?_insert] at found
        split at found
        · rintro rfl
          exact kept (by rw [Option.some.inj found]; exact Std.ExtTreeSet.isEmpty_empty)
        · exact occupied other left found

end Occupied

end KeyGroups

/-- The rows that hold each key of one column. -/
structure IndexTable where
  column : String
  groups : KeyGroups
  /-- Every key that is kept has rows. -/
  occupied : groups.Occupied

namespace IndexTable

/-- The index on a column of a table without rows. -/
def empty (column : String) : IndexTable where
  column
  groups := ∅
  occupied := .empty

/-- Record that a row holds a key. -/
def insert (table : IndexTable) (key : IndexKey) (id : RowId) : IndexTable where
  column := table.column
  groups := table.groups.record key id
  occupied := table.occupied.record key id

/-- Forget that a row holds a key, and say whether it was recorded. -/
def remove (table : IndexTable) (key : IndexKey) (id : RowId) : Bool × IndexTable :=
  let removal := table.groups.forget key id
  (removal.1, {
    column := table.column
    groups := removal.2
    occupied := table.occupied.forget key id })

/-- What is left of an index when a row no longer holds a key. -/
def erase (table : IndexTable) (key : IndexKey) (id : RowId) : IndexTable :=
  (table.remove key id).2

/-- Whether a row is recorded under a key. -/
def contains (table : IndexTable) (key : IndexKey) (id : RowId) : Bool :=
  (table.groups.rows key).contains id

/-- The rows under a key, ascending. -/
def lookup (table : IndexTable) (key : IndexKey) : List RowId :=
  (table.groups.rows key).toList

/-- The rows whose column equals a value, ascending. No row equals an array or an object. -/
def lookupValue (table : IndexTable) (value : Json) : List RowId :=
  match IndexKey.ofJson? value with
  | some key => table.lookup key
  | none => []

/-- The keys, ascending, each with its rows. -/
def entries (table : IndexTable) : List (IndexKey × List RowId) :=
  table.groups.toList.map fun group => (group.1, group.2.toList)

/-- The recorded pairs, group by group. -/
def pairs (table : IndexTable) : List Posting :=
  table.entries.flatMap fun entry => entry.2.map (Posting.mk entry.1)

/-- The recorded pairs, as the set that the relation is. -/
def postings (table : IndexTable) : Std.ExtTreeSet Posting :=
  .ofList table.pairs

/-- The number of distinct keys. -/
def keyCount (table : IndexTable) : Nat :=
  table.groups.size

/-- The number of recorded pairs: those of one group after another. -/
def idCount (table : IndexTable) : Nat :=
  (table.groups.toList.map fun group => group.2.size).foldr (· + ·) 0

/-- The first posting, in order, that another table does not have. -/
def firstMissing? (table other : IndexTable) : Option Posting :=
  table.postings.toList.find? fun posting => !other.contains posting.key posting.id

end IndexTable

end TableStore
