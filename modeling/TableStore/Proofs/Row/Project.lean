/-
# Columns of a row

Giving a column its value changes what is read from this column and from no other. So a projection
has the values of the row in the columns that it asks for and no other column, and is the same
however often it asks for one.
-/

import TableStore.Proofs.Collections
import TableStore.Row.Basic

namespace TableStore

namespace Json

/-- What is found under a key after one was given its value. -/
theorem lookup_setMember (key other : String) (value : Json) (members : List (String × Json)) :
    (setMember key value members).lookup other =
      if other = key then some value else members.lookup other := by
  induction members with
  | nil => rw [setMember, lookup_cons_eq_ite]
  | cons member rest ih =>
      obtain ⟨name, old⟩ := member
      rw [setMember, lookup_cons_eq_ite]
      by_cases here : name = key
      · subst here
        rw [if_pos rfl, lookup_cons_eq_ite]
        split <;> rfl
      · rw [if_neg here, lookup_cons_eq_ite, ih]
        by_cases same : other = name
        · rw [if_pos same, if_neg (same ▸ here), if_pos same]
        · rw [if_neg same, if_neg same]

/-- Giving a key the value it has changes nothing. -/
theorem setMember_of_lookup {key : String} {value : Json} {members : List (String × Json)}
    (found : members.lookup key = some value) : setMember key value members = members := by
  induction members with
  | nil => cases found
  | cons member rest ih =>
      obtain ⟨name, old⟩ := member
      rw [lookup_cons_eq_ite] at found
      rw [setMember]
      by_cases here : name = key
      · subst here
        rw [if_pos rfl, Option.some.injEq] at found
        rw [if_pos rfl, found]
      · rw [if_neg fun same => here same.symm] at found
        rw [if_neg here, ih found]

end Json

namespace Row

/-- The columns of a list that the row has, in the order of the list. -/
def project (row : Row) (columns : List String) : Row :=
  columns.foldl
    (fun projected column =>
      match row.get? column with
      | some value => projected.insert column value
      | none => projected)
    empty

/-- The row without columns has no value in any column. -/
@[simp]
theorem get?_empty (column : String) : empty.get? column = none :=
  rfl

/-- What is read from a column after one was given its value. -/
theorem get?_insert (row : Row) (column other : String) (value : Json) :
    (row.insert column value).get? other = if other = column then some value else row.get? other :=
  Json.lookup_setMember column other value row.columns

/-- Giving a column the value it has changes nothing. -/
theorem insert_of_get? {row : Row} {column : String} {value : Json}
    (found : row.get? column = some value) : row.insert column value = row := by
  obtain ⟨members, distinct⟩ := row
  simpa only [insert, mk.injEq] using Json.setMember_of_lookup found

/-- A projection with one more column of the row. -/
def addFrom (row projected : Row) (column : String) : Row :=
  match row.get? column with
  | some value => projected.insert column value
  | none => projected

/-- A projection adds one column after another. -/
theorem project_eq_foldl_addFrom (row : Row) (columns : List String) :
    row.project columns = columns.foldl row.addFrom empty :=
  rfl

/-- Whether a projection needs nothing more for a column: it has the column as the row has it, or
the row does not have it. -/
def Settled (row projected : Row) (column : String) : Prop :=
  ∀ value, row.get? column = some value → projected.get? column = some value

variable {row projected : Row} {column : String}

/-- A column that is added is settled. -/
theorem settled_addFrom (row projected : Row) (column : String) :
    row.Settled (row.addFrom projected column) column := by
  intro value found
  rw [addFrom, found, get?_insert, if_pos rfl]

/-- A settled column stays settled. -/
theorem Settled.addFrom (settled : row.Settled projected column) (other : String) :
    row.Settled (row.addFrom projected other) column := by
  intro value found
  by_cases same : column = other
  · exact same ▸ settled_addFrom row projected column value found
  · rw [Row.addFrom]
    cases row.get? other with
    | none => exact settled value found
    | some added => rw [get?_insert, if_neg same, settled value found]

/-- A settled column is not added again. -/
theorem Settled.addFrom_eq (settled : row.Settled projected column) :
    row.addFrom projected column = projected := by
  rw [Row.addFrom]
  cases found : row.get? column with
  | none => rfl
  | some value => exact insert_of_get? (settled value found)

/-- A settled column may be left out. -/
theorem Settled.foldl_filter (settled : row.Settled projected column) (columns : List String) :
    (columns.filter fun other => !other == column).foldl row.addFrom projected =
      columns.foldl row.addFrom projected := by
  induction columns generalizing projected with
  | nil => rfl
  | cons other rest ih =>
      by_cases same : other = column
      · subst same
        rw [List.filter_cons_of_neg (by simp), List.foldl_cons, settled.addFrom_eq, ih settled]
      · rw [List.filter_cons_of_pos (by simp [same]), List.foldl_cons, List.foldl_cons,
          ih (settled.addFrom other)]

/-- A projection is the same however often it asks for a column. -/
theorem project_eraseDups (row : Row) (columns : List String) :
    row.project columns.eraseDups = row.project columns := by
  rw [project_eq_foldl_addFrom, project_eq_foldl_addFrom]
  suffices every : ∀ (length : Nat) (columns : List String) (projected : Row),
      columns.length ≤ length →
        columns.eraseDups.foldl row.addFrom projected = columns.foldl row.addFrom projected from
    every columns.length columns empty (Nat.le_refl _)
  intro length
  induction length with
  | zero =>
      intro columns projected bounded
      rw [List.length_eq_zero_iff.mp (Nat.le_zero.mp bounded)]
      rfl
  | succ length ih =>
      intro columns projected bounded
      cases columns with
      | nil => rfl
      | cons column rest =>
          -- what is left without the first column is shorter, though not the tail of the list
          have shorter : (rest.filter fun other => !other == column).length ≤ length :=
            Nat.le_trans (List.length_filter_le _ _) (Nat.le_of_succ_le_succ bounded)
          rw [List.eraseDups_cons, List.foldl_cons, List.foldl_cons, ih _ _ shorter,
            (settled_addFrom row projected column).foldl_filter]

/-- What is read from a column after another one of the row was added. -/
theorem get?_addFrom (row projected : Row) (column other : String) :
    (row.addFrom projected column).get? other =
      if other = column then (row.get? column).or (projected.get? column)
      else projected.get? other := by
  rw [addFrom]
  cases row.get? column with
  | none =>
      by_cases same : other = column
      · rw [if_pos same, Option.none_or, same]
      · rw [if_neg same]
  | some value => rw [get?_insert, Option.some_or]

/-- What is read from a column after some of the row were added. -/
theorem get?_foldl_addFrom (row projected : Row) (columns : List String) (column : String) :
    (columns.foldl row.addFrom projected).get? column =
      if column ∈ columns then (row.get? column).or (projected.get? column)
      else projected.get? column := by
  induction columns generalizing projected with
  | nil => rw [List.foldl_nil, if_neg List.not_mem_nil]
  | cons first rest ih =>
      rw [List.foldl_cons, ih, get?_addFrom]
      by_cases here : column = first
      · subst here
        rw [if_pos rfl, if_pos List.mem_cons_self, ← Option.or_assoc, Option.or_self, ite_self]
      · simp only [List.mem_cons, here, false_or, if_false]

/-- A projection has the columns that it asks for, as the row has them, and no other. -/
theorem get?_project (row : Row) (columns : List String) (column : String) :
    (row.project columns).get? column = if column ∈ columns then row.get? column else none := by
  rw [project_eq_foldl_addFrom, get?_foldl_addFrom, get?_empty, Option.or_none]

/-- A projection of a projection asks the row for those columns that both ask for. -/
theorem project_project (row : Row) (first second : List String) :
    (row.project first).project second = row.project (second.filter (· ∈ first)) := by
  suffices every : ∀ projected, second.foldl (row.project first).addFrom projected =
      (second.filter (· ∈ first)).foldl row.addFrom projected from every empty
  induction second with
  | nil => exact fun _ => rfl
  | cons column rest ih =>
      intro projected
      by_cases asked : column ∈ first
      · have same :
            (row.project first).addFrom projected column = row.addFrom projected column := by
          rw [addFrom, addFrom, get?_project, if_pos asked]
        rw [List.filter_cons_of_pos (by simpa using asked), List.foldl_cons, List.foldl_cons, same,
          ih]
      · have same : (row.project first).addFrom projected column = projected := by
          rw [addFrom, get?_project, if_neg asked]
        rw [List.filter_cons_of_neg (by simpa using asked), List.foldl_cons, same, ih]

end Row

end TableStore
