/-
# Rows

A row is an ordered record of columns, each with one value. The order is the order in which the
columns were first given; giving a column again changes its value and not its place.
-/

import TableStore.Json.Reader
import TableStore.Json.Printer

namespace TableStore

namespace Json

/-- Setting a member leaves the keys as they are, or adds a new one at the end. -/
theorem map_fst_setMember (key : String) (value : Json) (members : List (String × Json)) :
    (setMember key value members).map Prod.fst =
      if key ∈ members.map Prod.fst then members.map Prod.fst
      else members.map Prod.fst ++ [key] := by
  induction members with
  | nil => simp [setMember]
  | cons member rest ih =>
      obtain ⟨other, old⟩ := member
      by_cases same : other = key
      · simp [setMember, same]
      · have apart : key ≠ other := fun equal => same equal.symm
        simp only [setMember, same, if_false, List.map_cons, ih, List.mem_cons, apart, false_or]
        split <;> simp

/-- Setting a member keeps the keys distinct. -/
theorem nodup_setMember {key : String} {value : Json} {members : List (String × Json)}
    (distinct : (members.map Prod.fst).Nodup) :
    ((setMember key value members).map Prod.fst).Nodup := by
  rw [map_fst_setMember]
  split
  · exact distinct
  · next absent =>
      rw [List.nodup_append]
      exact ⟨distinct, by simp, fun name listed other single => by
        rw [List.mem_singleton.mp single]
        exact fun equal => absent (equal ▸ listed)⟩

/-- Take the member of a key out. The last member moves into its place. -/
def removeMember (key : String) : List (String × Json) → List (String × Json)
  | [] => []
  | (other, old) :: rest =>
      if other = key then
        match rest.getLast? with
        | some last => last :: rest.dropLast
        | none => []
      else (other, old) :: removeMember key rest

/-- Taking a member out leaves the others, in whatever order. -/
theorem perm_removeMember {key : String} {members : List (String × Json)}
    (distinct : (members.map Prod.fst).Nodup) :
    (removeMember key members).Perm (members.filter fun member => member.1 ≠ key) := by
  induction members with
  | nil => exact .nil
  | cons member rest ih =>
      obtain ⟨other, old⟩ := member
      rw [List.map_cons, List.nodup_cons] at distinct
      by_cases same : other = key
      · have others : rest.filter (fun member => member.1 ≠ key) = rest := by
          rw [List.filter_eq_self]
          intro member listed
          have apart : member.1 ≠ other := fun equal =>
            distinct.1 (List.mem_map.mpr ⟨member, listed, equal⟩)
          simpa [same] using apart
        rw [removeMember, if_pos same, List.filter_cons_of_neg (by simp [same]), others]
        cases found : rest.getLast? with
        | none => rw [List.getLast?_eq_none_iff.mp found]
        | some last =>
            obtain ⟨before, whole⟩ := List.getLast?_eq_some_iff.mp found
            rw [whole, List.dropLast_concat]
            exact (List.perm_append_singleton last before).symm
      · rw [removeMember, if_neg same, List.filter_cons_of_pos (by simp [same])]
        exact (ih distinct.2).cons (other, old)

/-- Taking a member out keeps the keys distinct. -/
theorem nodup_removeMember {key : String} {members : List (String × Json)}
    (distinct : (members.map Prod.fst).Nodup) :
    ((removeMember key members).map Prod.fst).Nodup := by
  rw [((perm_removeMember distinct).map Prod.fst).nodup_iff]
  exact (List.filter_sublist.map Prod.fst).nodup distinct

end Json

/-- A record of columns in the order in which they were first given. -/
structure Row where
  columns : List (String × Json)
  distinct : (columns.map Prod.fst).Nodup

namespace Row

/-- The row without columns. -/
def empty : Row where
  columns := []
  distinct := List.nodup_nil

/-- Give a column its value: in its place if the row has it, else at the end. -/
def insert (row : Row) (column : String) (value : Json) : Row where
  columns := Json.setMember column value row.columns
  distinct := Json.nodup_setMember row.distinct

/-- The value of a column, if the row has it. -/
def get? (row : Row) (column : String) : Option Json :=
  row.columns.lookup column

/-- The value of a column; a column that the row does not have reads as null. -/
def value (row : Row) (column : String) : Json :=
  (row.get? column).getD .null

/-- Give the columns of a list their values, one after another. -/
def insertAll (row : Row) (columns : List (String × Json)) : Row :=
  columns.foldl (fun row column => row.insert column.1 column.2) row

/-- The row with the given columns; a repeated one keeps its first place and its last value. -/
def ofColumns (columns : List (String × Json)) : Row :=
  empty.insertAll columns

/-- Two rows in one: the columns of the left, then the new ones of the right. Where both have a
column, its value is that of the right. -/
def merge (left right : Row) : Row :=
  left.insertAll right.columns

/-- The row without a column. The last column moves into its place. -/
def remove (row : Row) (column : String) : Row where
  columns := Json.removeMember column row.columns
  distinct := Json.nodup_removeMember row.distinct

/-- Take the columns of a list out of one row and add them to another, one after another. A column
that is not there any more, or never was, is passed over. -/
def transfer : (source target : Row) → List String → Row
  | _, target, [] => target
  | source, target, column :: rest =>
      match source.get? column with
      | some value => transfer (source.remove column) (target.insert column value) rest
      | none => transfer source target rest

/-- The columns of a list that the row has, in the order of the list. -/
def extract (row : Row) (columns : List String) : Row :=
  row.transfer empty columns

/-- The first column that holds an array or an object. -/
def firstComposite? (row : Row) : Option String :=
  (row.columns.find? fun column => !column.2.isScalar).map Prod.fst

/-- The row as an object. -/
def toJson (row : Row) : Json :=
  .object row.columns

/-- The row that an object is. -/
def ofJson? : Json → Option Row
  | .object members => some (ofColumns members)
  | _ => none

/-- The compact text of a row. -/
def toText (row : Row) : String :=
  row.toJson.toText

end Row

end TableStore
