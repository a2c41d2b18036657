/-
# Columns taken out of a row

Columns are extracted by taking them out of the row, and the last column then moves into the place
of the one that was taken. That changes the order of what is left and none of its values. So each
column of the row is at every moment in one of two places, and the columns that were taken out stand
in the order in which they were asked for: extraction is projection.
-/

import TableStore.Proofs.Row.Project

namespace TableStore

namespace Json

variable {members : List (String × Json)}

/-- What is found under a key after a member was taken out. -/
theorem lookup_removeMember (distinct : (members.map Prod.fst).Nodup) (key other : String) :
    (removeMember key members).lookup other =
      if other = key then none else members.lookup other := by
  apply Option.ext
  intro value
  rw [lookup_eq_some_iff_mem (nodup_removeMember distinct), (perm_removeMember distinct).mem_iff,
    List.mem_filter]
  by_cases same : other = key
  · simp [same]
  · rw [if_neg same, lookup_eq_some_iff_mem distinct]
    simp [same]

end Json

namespace Row

/-- What is read from a column after one was taken out. -/
theorem get?_remove (row : Row) (column other : String) :
    (row.remove column).get? other = if other = column then none else row.get? other :=
  Json.lookup_removeMember row.distinct column other

/-- Whether the columns of a row are divided between the one they are taken from and the one they
are added to: each column is in one of the two, with its value, and none is in both. -/
structure Divided (row source target : Row) : Prop where
  whole : ∀ column, (target.get? column).or (source.get? column) = row.get? column
  apart : ∀ column, target.get? column = none ∨ source.get? column = none

namespace Divided

variable {row source target : Row} {column : String}

/-- Before anything is taken out, the row has all of its columns. -/
theorem start (row : Row) : row.Divided row empty where
  whole _ := Option.none_or
  apart _ := .inl rfl

/-- A column that is still to be taken out was not added yet, and has the value of the row. -/
theorem of_source {value : Json} (divided : row.Divided source target)
    (found : source.get? column = some value) :
    target.get? column = none ∧ row.get? column = some value := by
  have missing : target.get? column = none := by
    apply (divided.apart column).resolve_right
    rw [found]
    exact Option.some_ne_none value
  exact ⟨missing, by rw [← divided.whole column, missing, found, Option.none_or]⟩

/-- Taking a column out of the one and adding it to the other leaves the columns divided. -/
theorem take {value : Json} (divided : row.Divided source target)
    (found : source.get? column = some value) :
    row.Divided (source.remove column) (target.insert column value) where
  whole other := by
    rw [get?_insert, get?_remove]
    by_cases same : other = column
    · rw [if_pos same, Option.some_or, same, (divided.of_source found).2]
    · rw [if_neg same, if_neg same, divided.whole other]
  apart other := by
    rw [get?_insert, get?_remove]
    by_cases same : other = column
    · exact .inr (if_pos same)
    · rw [if_neg same, if_neg same]
      exact divided.apart other

/-- A column that cannot be taken out any more is settled. -/
theorem settled (divided : row.Divided source target) (missing : source.get? column = none) :
    row.Settled target column := by
  intro value found
  rw [← found, ← divided.whole column, missing, Option.or_none]

/-- Taking columns out of the one and adding them to the other adds them from the whole row. -/
theorem transfer_eq (divided : row.Divided source target) (columns : List String) :
    source.transfer target columns = columns.foldl row.addFrom target := by
  induction columns generalizing source target with
  | nil => rfl
  | cons column rest ih =>
      rw [transfer, List.foldl_cons]
      cases found : source.get? column with
      | none => rw [(divided.settled found).addFrom_eq, ← ih divided]
      | some value =>
          have added : row.addFrom target column = target.insert column value := by
            rw [addFrom, (divided.of_source found).2]
          rw [added, ← ih (divided.take found)]

end Divided

/-- Extracting columns shows them as a projection does. -/
theorem extract_eq_project (row : Row) (columns : List String) :
    row.extract columns = row.project columns := by
  rw [extract, project_eq_foldl_addFrom, (Divided.start row).transfer_eq]

end Row

end TableStore
