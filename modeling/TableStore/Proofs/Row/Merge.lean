/-
# Merging rows

A merge has the columns of the left row in their places and then the new ones of the right row, and
where both rows have a column, the value of the right one. Giving a column of the right row another
value before a merge, or a column of the merged row after it, is the same, in the values and in the
order of the columns. So merging is associative, and merging a row with itself changes nothing.
-/

import TableStore.Proofs.Row.Project

namespace TableStore

namespace Json

/-- Only the last value that is given to a key counts. -/
theorem setMember_setMember (key : String) (first second : Json) (members : List (String × Json)) :
    setMember key second (setMember key first members) = setMember key second members := by
  induction members with
  | nil => rw [setMember, setMember, setMember, if_pos rfl]
  | cons member rest ih =>
      obtain ⟨name, old⟩ := member
      by_cases here : name = key
      · rw [setMember, if_pos here, setMember, if_pos rfl, setMember, if_pos here]
      · rw [setMember, if_neg here, setMember, if_neg here, ih, setMember, if_neg here]

/-- A key that is there and another one can be given their values in either order. -/
theorem setMember_comm {key other : String} (apart : key ≠ other) {members : List (String × Json)}
    (listed : key ∈ members.map Prod.fst) (value new : Json) :
    setMember other new (setMember key value members) =
      setMember key value (setMember other new members) := by
  induction members with
  | nil => cases listed
  | cons member rest ih =>
      obtain ⟨name, old⟩ := member
      by_cases here : name = key
      · subst here
        simp only [setMember, if_pos, if_neg apart]
      · by_cases there : name = other
        · subst there
          simp only [setMember, if_pos, if_neg here]
        · have later := (List.mem_cons.mp listed).resolve_left fun same => here same.symm
          simp only [setMember, if_neg here, if_neg there, ih later]

end Json

namespace Row

/-- The names of the columns of a row, in order. -/
def names (row : Row) : List String :=
  row.columns.map Prod.fst

/-- A column that is given a value keeps its place, or comes last if it is new. -/
theorem names_insert (row : Row) (column : String) (value : Json) :
    (row.insert column value).names =
      if column ∈ row.names then row.names else row.names ++ [column] :=
  Json.map_fst_setMember column value row.columns

/-- The columns of a row after one was given its value. -/
theorem mem_names_insert {row : Row} {column other : String} {value : Json} :
    other ∈ (row.insert column value).names ↔ other ∈ row.names ∨ other = column := by
  rw [names_insert]
  split
  · next listed => exact ⟨.inl, fun member => member.elim id fun same => same ▸ listed⟩
  · rw [List.mem_append, List.mem_singleton]

/-- A merge has the columns of the left row first, and then the new ones of the right row. -/
theorem names_merge (left right : Row) :
    (left.merge right).names = left.names ++ right.names.filter (· ∉ left.names) := by
  obtain ⟨columns, distinct⟩ := right
  change (left.insertAll columns).names =
    left.names ++ (columns.map Prod.fst).filter (· ∉ left.names)
  induction columns generalizing left with
  | nil => exact (List.append_nil left.names).symm
  | cons column rest ih =>
      obtain ⟨name, value⟩ := column
      obtain ⟨fresh, distinct⟩ := List.nodup_cons.mp distinct
      have later : (left.insertAll ((name, value) :: rest)).names = _ :=
        ih (left.insert name value) distinct
      rw [later, names_insert, List.map_cons]
      by_cases listed : name ∈ left.names
      · rw [if_pos listed, List.filter_cons_of_neg (by simpa using listed)]
      · have others : (rest.map Prod.fst).filter (· ∉ left.names ++ [name]) =
            (rest.map Prod.fst).filter (· ∉ left.names) := by
          refine List.filter_congr fun other member => ?_
          have apart : other ≠ name := fun same => fresh (same ▸ member)
          simp [apart]
        rw [if_neg listed, List.filter_cons_of_pos (by simpa using listed), others,
          List.append_assoc]
        rfl

/-- What a merge has in a column is what the right row has there, or else what the left one has. -/
theorem get?_merge (left right : Row) (column : String) :
    (left.merge right).get? column = (right.get? column).or (left.get? column) := by
  obtain ⟨columns, distinct⟩ := right
  change (left.insertAll columns).get? column = (columns.lookup column).or (left.get? column)
  induction columns generalizing left with
  | nil => rfl
  | cons added rest ih =>
      obtain ⟨name, value⟩ := added
      obtain ⟨fresh, distinct⟩ := List.nodup_cons.mp distinct
      have later : (left.insertAll ((name, value) :: rest)).get? column = _ :=
        ih (left.insert name value) distinct
      rw [later, get?_insert, lookup_cons_eq_ite]
      by_cases here : column = name
      · have missing : rest.lookup column = none := by
          rw [List.lookup_eq_none_iff]
          intro member listed
          have apart : column ≠ member.1 := fun same =>
            fresh (List.mem_map.mpr ⟨member, listed, same ▸ here⟩)
          simpa using apart
        rw [if_pos here, if_pos here, missing]
        rfl
      · rw [if_neg here, if_neg here]

/-- A column that is there may be given its value before or after others. -/
theorem insert_insertAll {row : Row} {column : String} (listed : column ∈ row.names) (value : Json)
    {columns : List (String × Json)} (fresh : column ∉ columns.map Prod.fst) :
    (row.insertAll columns).insert column value = (row.insert column value).insertAll columns := by
  induction columns generalizing row with
  | nil => rfl
  | cons added rest ih =>
      rw [List.map_cons, List.mem_cons, not_or] at fresh
      have exchanged : (row.insert added.1 added.2).insert column value =
          (row.insert column value).insert added.1 added.2 := by
        simp only [insert, Json.setMember_comm fresh.1 listed]
      have later : ((row.insert added.1 added.2).insertAll rest).insert column value = _ :=
        ih (mem_names_insert.mpr (.inl listed)) fresh.2
      rw [exchanged] at later
      exact later

/-- A column of the right row may be given its value before or after a merge. -/
theorem merge_insert (left right : Row) (column : String) (value : Json) :
    left.merge (right.insert column value) = (left.merge right).insert column value := by
  obtain ⟨columns, distinct⟩ := right
  change left.insertAll (Json.setMember column value columns) =
    (left.insertAll columns).insert column value
  induction columns generalizing left with
  | nil => rfl
  | cons added rest ih =>
      obtain ⟨name, old⟩ := added
      rw [List.map_cons, List.nodup_cons] at distinct
      by_cases here : name = column
      · subst here
        have replaced : (left.insert name old).insert name value = left.insert name value := by
          simp only [insert, Json.setMember_setMember]
        have present : name ∈ (left.insert name old).names := mem_names_insert.mpr (.inr rfl)
        have later := insert_insertAll present value distinct.1
        rw [replaced] at later
        rw [Json.setMember, if_pos rfl]
        exact later.symm
      · rw [Json.setMember, if_neg here]
        exact ih _ distinct.2

/-- Merging is associative, in the values and in the order of the columns. -/
theorem merge_assoc (first second third : Row) :
    (first.merge second).merge third = first.merge (second.merge third) := by
  suffices every : ∀ columns, (first.merge second).insertAll columns =
      first.merge (second.insertAll columns) from every third.columns
  intro columns
  induction columns generalizing second with
  | nil => rfl
  | cons added rest ih =>
      have later := ih (second.insert added.1 added.2)
      rw [merge_insert] at later
      exact later

/-- Giving columns the values they have changes nothing. -/
theorem insertAll_of_get? {row : Row} {columns : List (String × Json)}
    (found : ∀ column ∈ columns, row.get? column.1 = some column.2) :
    row.insertAll columns = row := by
  induction columns with
  | nil => rfl
  | cons column rest ih =>
      rw [insertAll, List.foldl_cons, insert_of_get? (found column List.mem_cons_self)]
      exact ih fun other member => found other (List.mem_cons_of_mem _ member)

/-- Merging a row with itself changes nothing. -/
theorem merge_self (row : Row) : row.merge row = row :=
  insertAll_of_get? fun _ member => (lookup_eq_some_iff_mem row.distinct).mpr member

end Row

end TableStore
