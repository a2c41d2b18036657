/-
# Selected columns

A selection keeps each column once, where it is first asked for, or all of them if the wildcard is
asked for anywhere. A row is shown with the selected columns that it has, in this order. So a
selection need not be made twice, a selection from a selection is one from those columns that both
ask for, and only the last selection counts.
-/

import TableStore.Proofs.Collections
import TableStore.Proofs.Json.Source
import TableStore.Proofs.Row.Extract
import TableStore.Query.Basic

namespace TableStore

namespace Row

/-- Different columns that are not there yet are added at the end, those that the row has. -/
theorem columns_foldl_addFrom (row : Row) {projected : Row} {columns : List String}
    (distinct : columns.Nodup)
    (fresh : ∀ column ∈ columns, column ∉ projected.columns.map Prod.fst) :
    (columns.foldl row.addFrom projected).columns =
      projected.columns ++ columns.filterMap fun column => (row.get? column).map (column, ·) := by
  induction columns generalizing projected with
  | nil => exact (List.append_nil _).symm
  | cons column rest ih =>
      rw [List.nodup_cons] at distinct
      rw [List.forall_mem_cons] at fresh
      rw [List.foldl_cons, addFrom]
      cases found : row.get? column with
      | none =>
          rw [List.filterMap_cons_none (by rw [found, Option.map_none])]
          exact ih distinct.2 fresh.2
      | some value =>
          have added : (projected.insert column value).columns =
              projected.columns ++ [(column, value)] :=
            Json.setMember_of_notMem value fresh.1
          have others : ∀ other ∈ rest,
              other ∉ (projected.insert column value).columns.map Prod.fst := by
            intro other asked
            rw [added, List.map_append, List.mem_append, not_or, List.map_singleton,
              List.mem_singleton]
            refine ⟨fresh.2 other asked, fun same => ?_⟩
            subst same
            exact distinct.1 asked
          rw [List.filterMap_cons_some (by rw [found, Option.map_some]), ih distinct.2 others,
            added, List.append_assoc]
          rfl

/-- A projection has the columns that are asked for and that the row has, each once and where it is
first asked for. -/
theorem columns_project (row : Row) (columns : List String) :
    (row.project columns).columns =
      columns.eraseDups.filterMap fun column => (row.get? column).map (column, ·) := by
  rw [← project_eraseDups, project_eq_foldl_addFrom,
    row.columns_foldl_addFrom (nodup_eraseDups columns) fun _ _ => List.not_mem_nil]
  exact List.nil_append _

/-- A second projection on the same columns changes nothing. -/
theorem project_project_self (row : Row) (columns : List String) :
    (row.project columns).project columns = row.project columns := by
  rw [project_project, List.filter_eq_self.mpr fun _ asked => decide_eq_true asked]

end Row

namespace Plan

/-- Until the wildcard is met, the columns that were seen are followed by the others, each once. -/
theorem distinctColumns?_eq (seen columns : List String) :
    distinctColumns? seen columns =
      if columns.contains wildcard then none
      else some (seen.reverse ++ (columns.removeAll seen).eraseDups) := by
  induction columns generalizing seen with
  | nil => simp [distinctColumns?]
  | cons column rest ih =>
      rw [distinctColumns?, List.contains_cons]
      by_cases all : column = wildcard
      · rw [if_pos all, if_pos (by simp [all])]
      have named : (wildcard == column || rest.contains wildcard) = rest.contains wildcard := by
        rw [beq_false_of_ne (Ne.symm all), Bool.false_or]
      rw [if_neg all, named]
      by_cases again : seen.contains column = true
      · have others : (column :: rest).removeAll seen = rest.removeAll seen := by
          rw [List.cons_removeAll, again, if_neg Bool.noConfusion]
        rw [if_pos again, ih, others]
      · have others : (column :: rest).removeAll seen = column :: rest.removeAll seen := by
          rw [List.cons_removeAll, if_pos (Bool.eq_false_of_not_eq_true again)]
        have later : rest.removeAll (column :: seen) =
            (rest.removeAll seen).filter fun other => !other == column := by
          rw [List.removeAll_cons, List.removeAll, List.removeAll, List.filter_filter,
            List.filter_filter]
          exact List.filter_congr fun _ _ => Bool.and_comm _ _
        rw [if_neg again, ih, others, later, List.eraseDups_cons, List.reverse_cons,
          List.append_assoc]
        rfl

/-- A selection keeps each column once, or all columns if the wildcard is among them. -/
theorem selected_select (plan : Plan) (columns : List String) :
    (plan.select columns).selected =
      if columns.contains wildcard then none else some columns.eraseDups := by
  rw [select, distinctColumns?_eq, List.removeAll_nil]
  rfl

/-- A selection with the wildcard shows a row as it is. -/
theorem project_select_of_mem (plan : Plan) {columns : List String} (all : wildcard ∈ columns)
    (row : Row) : (plan.select columns).project row = row := by
  rw [project, selected_select, if_pos (List.contains_iff_mem.mpr all)]

/-- A selection without the wildcard shows the projection of a row on its columns. -/
theorem project_select_of_notMem (plan : Plan) {columns : List String} (named : wildcard ∉ columns)
    (row : Row) : (plan.select columns).project row = row.project columns := by
  rw [project, selected_select, if_neg (by rwa [List.contains_iff_mem])]
  exact (row.extract_eq_project _).trans (row.project_eraseDups columns)

/-- A row that is shown by a plan is shown by it as it is. -/
theorem project_project_self (plan : Plan) (row : Row) :
    plan.project (plan.project row) = plan.project row := by
  unfold project
  cases plan.selected with
  | none => rfl
  | some columns =>
      simp only [Row.extract_eq_project]
      exact row.project_project_self columns

/-- What selections show. With the wildcard anywhere, a row is shown as it is. Otherwise its columns
are exactly those that are asked for and that it has, each once, in the order in which they are
first asked for, with the values of the row. To show a row twice is to show it once; to select
columns of what another selection shows is to select those of them that the other asks for; and a
later selection replaces an earlier one, in a plan and in a query. -/
theorem projection_law :
    (∀ (plan : Plan) (columns : List String) (row : Row), wildcard ∈ columns →
      (plan.select columns).project row = row) ∧
    (∀ (plan : Plan) (columns : List String) (row : Row), wildcard ∉ columns →
      ((plan.select columns).project row).columns =
        columns.eraseDups.filterMap fun column => (row.get? column).map (column, ·)) ∧
    (∀ (plan : Plan) (row : Row), plan.project (plan.project row) = plan.project row) ∧
    (∀ (plan : Plan) (first second : List String) (row : Row),
      wildcard ∉ first → wildcard ∉ second →
      (plan.select second).project ((plan.select first).project row) =
        (plan.select (second.filter (· ∈ first))).project row) ∧
    (∀ (plan : Plan) (first second : List String),
      (plan.select first).select second = plan.select second) ∧
    ∀ (query : Query) (first second : List String),
      (query.select first).select second = query.select second := by
  refine ⟨fun plan columns row all => plan.project_select_of_mem all row,
    fun plan columns row named => ?_, project_project_self, ?_, fun _ _ _ => rfl, ?_⟩
  · rw [plan.project_select_of_notMem named, row.columns_project]
  · intro plan first second row named alsoNamed
    have common : wildcard ∉ second.filter (· ∈ first) := fun asked =>
      alsoNamed (List.mem_filter.mp asked).1
    rw [plan.project_select_of_notMem named, plan.project_select_of_notMem alsoNamed,
      plan.project_select_of_notMem common, row.project_project]
  · intro query first second
    cases query
    rfl

/-- A town with three columns. -/
def springfield : Row where
  columns := [("name", .string "Springfield"), ("state", .null), ("founded", .bool true)]
  distinct := by decide

/-- The last column of the town comes first when it is asked for first, and neither a repetition nor
a column that the town does not have is shown; of these columns only one is left when another
selection follows; and a wildcard after other columns shows the town whole. -/
theorem projection_law_springfield :
    ((empty.select ["founded", "name", "founded", "mayor"]).project springfield).columns =
      [("founded", .bool true), ("name", .string "Springfield")] ∧
    ((empty.select ["state", "name"]).project
        ((empty.select ["founded", "name"]).project springfield)) =
      (empty.select ["name"]).project springfield ∧
    (empty.select ["name", wildcard]).project springfield = springfield :=
  ⟨(projection_law.2.1 empty ["founded", "name", "founded", "mayor"] springfield
      (by decide)).trans rfl,
    (projection_law.2.2.2.1 empty ["founded", "name"] ["state", "name"] springfield (by decide)
      (by decide)).trans rfl,
    projection_law.1 empty ["name", wildcard] springfield (by decide)⟩

end Plan

end TableStore
