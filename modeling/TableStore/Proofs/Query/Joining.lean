/-
# Joining by choices

Joins are applied one after another, each to what is left of the joins before it. Together they
choose one foreign row for each join, in every way that there is, and keep the choices in which each
join accepts its row next to the merge of everything before it. So joining goes through the own rows
one by one, and what comes of a choice has the columns of all its rows, each with the value in the
last row that has it.
-/

import Mathlib.Data.List.Flatten
import Mathlib.Data.List.Forall2
import Mathlib.Data.List.Induction
import TableStore.Proofs.Collections
import TableStore.Proofs.Row.Merge
import TableStore.Query.Basic

namespace TableStore

namespace Row

/-- Merge further rows into a row, from left to right. -/
def mergeAll (row : Row) (others : List Row) : Row :=
  others.foldl merge row

/-- Rows that are merged have the columns of the first one, then the new ones of the second, and so
on: each column in the place where it first occurs. -/
theorem names_mergeAll (row : Row) (others : List Row) :
    (row.mergeAll others).names = ((row :: others).flatMap names).eraseDups := by
  induction others using List.reverseRecOn with
  | nil =>
      rw [List.flatMap_singleton]
      exact (eraseDups_of_nodup row.distinct).symm
  | append_singleton others last ih =>
      have appended : row.mergeAll (others ++ [last]) = (row.mergeAll others).merge last :=
        List.foldl_concat ..
      have new : (last.names.removeAll ((row :: others).flatMap names)).eraseDups =
          last.names.filter (· ∉ ((row :: others).flatMap names).eraseDups) := by
        have distinct : (last.names.removeAll ((row :: others).flatMap names)).Nodup :=
          last.distinct.filter _
        rw [eraseDups_of_nodup distinct, List.removeAll]
        refine List.filter_congr fun name _ => ?_
        simp only [List.mem_eraseDups, List.elem_eq_mem, decide_not]
      rw [appended, names_merge, ih, ← List.cons_append, List.flatMap_append,
        List.flatMap_singleton, List.eraseDups_append, new]

/-- What merged rows have in a column is what the last of them has there that has it. -/
theorem get?_mergeAll (row : Row) (others : List Row) (column : String) :
    (row.mergeAll others).get? column =
      (row :: others).reverse.findSome? fun row => row.get? column := by
  induction others using List.reverseRecOn with
  | nil => rw [List.reverse_singleton, List.findSome?_singleton, mergeAll, List.foldl_nil]
  | append_singleton others last ih =>
      have appended : row.mergeAll (others ++ [last]) = (row.mergeAll others).merge last :=
        List.foldl_concat ..
      rw [appended, get?_merge, ih, ← List.cons_append, List.reverse_concat, List.findSome?_cons]
      cases last.get? column <;> rfl

end Row

namespace Join

/-- All ways to choose one item from each list, in lexicographic order: an earlier list counts more
than a later one, and in each list an earlier item comes first. -/
def choices {α : Type} : List (List α) → List (List α)
  | [] => [[]]
  | items :: rest => items.flatMap fun item => (choices rest).map (item :: ·)

/-- A choice has one item from each list. -/
theorem mem_choices_iff {α : Type} {lists : List (List α)} {choice : List α} :
    choice ∈ choices lists ↔ List.Forall₂ (· ∈ ·) choice lists := by
  induction lists generalizing choice with
  | nil => simp [choices]
  | cons items rest ih =>
      rw [choices, List.mem_flatMap]
      constructor
      · rintro ⟨item, member, chosen⟩
        obtain ⟨others, listed, rfl⟩ := List.mem_map.mp chosen
        exact .cons member (ih.mp listed)
      · intro chosen
        cases chosen with
        | cons member others => exact ⟨_, member, List.mem_map.mpr ⟨_, ih.mpr others, rfl⟩⟩

example : choices [[1, 2], [3, 4]] = [[1, 3], [1, 4], [2, 3], [2, 4]] := rfl

/-- Whether each join accepts the foreign row that is chosen for it next to the merge of everything
to the left of this row. -/
def Accepting (joins : List Join) (own : Row) (foreign : List Row) : Prop :=
  ∀ place (join : Join) (row : Row), joins[place]? = some join → foreign[place]? = some row →
    join.accepts (own.mergeAll (foreign.take place)) row = true

/-- Joins accept a choice if the first accepts its row next to the own row and the others accept
theirs next to these two rows merged. -/
theorem accepting_cons {join : Join} {joins : List Join} {own row : Row} {foreign : List Row} :
    Accepting (join :: joins) own (row :: foreign) ↔
      join.accepts own row = true ∧ Accepting joins (own.merge row) foreign := by
  constructor
  · intro accepting
    exact ⟨accepting 0 join row rfl rfl,
      fun place other chosen => accepting (place + 1) other chosen⟩
  · rintro ⟨here, later⟩ place other chosen isJoin isRow
    cases place with
    | zero =>
        cases isJoin
        cases isRow
        exact here
    | succ place => exact later place other chosen isJoin isRow

/-- Without joins there is nothing to accept. -/
theorem accepting_nil (own : Row) (foreign : List Row) : Accepting [] own foreign :=
  fun _ _ _ isJoin => nomatch isJoin

/-- Without foreign rows there is nothing to accept. -/
theorem accepting_of_nil (joins : List Join) (own : Row) : Accepting joins own [] :=
  fun _ _ _ _ isRow => nomatch isRow

instance decidableAccepting : ∀ (joins : List Join) (own : Row) (foreign : List Row),
    Decidable (Accepting joins own foreign)
  | [], own, foreign => isTrue (accepting_nil own foreign)
  | joins, own, [] => isTrue (accepting_of_nil joins own)
  | _ :: joins, own, row :: foreign =>
      have := decidableAccepting joins (own.merge row) foreign
      decidable_of_iff _ accepting_cons.symm

/-- What joins make of one own row: the merges with all choices of foreign rows that they accept. -/
def mergesOf (joins : List Join) (fetched : List (List Row)) (own : Row) : List Row :=
  ((choices fetched).filter fun foreign => Accepting joins own foreign).map own.mergeAll

/-- The first join leads each row that it accepts on to the other joins. -/
theorem mergesOf_cons (join : Join) (joins : List Join) (foreign : List Row)
    (fetched : List (List Row)) (own : Row) :
    mergesOf (join :: joins) (foreign :: fetched) own =
      (join.apply foreign [own]).flatMap (mergesOf joins fetched) := by
  rw [mergesOf, choices, apply, List.flatMap_singleton, List.filter_flatMap, List.map_flatMap,
    List.flatMap_map]
  induction foreign with
  | nil => rfl
  | cons row rest ih =>
      rw [List.flatMap_cons, ih]
      by_cases accepted : join.accepts own row = true
      · rw [List.filter_cons_of_pos accepted, List.flatMap_cons, mergesOf, List.filter_map,
          List.map_map]
        congr 2
        refine List.filter_congr fun others _ => ?_
        simp only [Function.comp_apply, accepting_cons, accepted, true_and]
      · rw [List.filter_cons_of_neg accepted, List.filter_map]
        have refused : (choices fetched).filter
            ((fun foreign => decide (Accepting (join :: joins) own foreign)) ∘ (row :: ·)) =
              [] := by
          rw [List.filter_eq_nil_iff]
          intro others _
          simp [accepting_cons, accepted]
        rw [refused]
        rfl

/-- Joining goes through the own rows one by one. -/
theorem applyAll_append (joins : List Join) (fetched : List (List Row)) (first second : List Row) :
    applyAll joins fetched (first ++ second) =
      applyAll joins fetched first ++ applyAll joins fetched second := by
  induction joins generalizing fetched first second with
  | nil => rfl
  | cons join rest ih =>
      cases fetched with
      | nil => rfl
      | cons foreign others =>
          rw [applyAll, apply, List.flatMap_append, ih]
          rfl

/-- Joins make of own rows what they make of each. -/
theorem applyAll_eq_flatMap {joins : List Join} {fetched : List (List Row)}
    (each : fetched.length = joins.length) (rows : List Row) :
    applyAll joins fetched rows = rows.flatMap (mergesOf joins fetched) := by
  induction joins generalizing fetched rows with
  | nil =>
      rw [List.length_nil, List.length_eq_zero_iff] at each
      subst each
      exact (List.flatMap_singleton' rows).symm
  | cons join rest ih =>
      cases fetched with
      | nil => cases each
      | cons foreign others =>
          rw [applyAll, ih (Nat.succ.inj each), apply, List.flatMap_assoc]
          refine List.flatMap_congr fun own _ => ?_
          rw [mergesOf_cons, apply, List.flatMap_singleton]

/-- Joins with as many lists of foreign rows go through the own rows one by one. They make of them,
in lexicographic order, the merges of each own row with all choices of foreign rows that they
accept. What comes of a choice has the columns of the own row first and then the new ones of each
foreign row, and in each column what the last of these rows has there that has it. -/
theorem joined_by_choices {joins : List Join} {fetched : List (List Row)}
    (each : fetched.length = joins.length) :
    (∀ first second, applyAll joins fetched (first ++ second) =
      applyAll joins fetched first ++ applyAll joins fetched second) ∧
    (∀ rows, applyAll joins fetched rows = rows.flatMap fun own =>
      ((choices fetched).filter fun foreign => Accepting joins own foreign).map own.mergeAll) ∧
    ∀ rows, ∀ row ∈ applyAll joins fetched rows, ∃ own ∈ rows, ∃ foreign : List Row,
      List.Forall₂ (· ∈ ·) foreign fetched ∧ Accepting joins own foreign ∧
        row.names = ((own :: foreign).flatMap Row.names).eraseDups ∧
        ∀ column, row.get? column =
          (own :: foreign).reverse.findSome? fun row => row.get? column := by
  refine ⟨applyAll_append joins fetched, applyAll_eq_flatMap each, fun rows row joined => ?_⟩
  rw [applyAll_eq_flatMap each, List.mem_flatMap] at joined
  obtain ⟨own, listed, merged⟩ := joined
  obtain ⟨foreign, kept, rfl⟩ := List.mem_map.mp merged
  obtain ⟨chosen, accepting⟩ := List.mem_filter.mp kept
  exact ⟨own, listed, foreign, mem_choices_iff.mp chosen, of_decide_eq_true accepting,
    own.names_mergeAll foreign, own.get?_mergeAll foreign⟩

/-- A row of texts. -/
def textRow (columns : List (String × String)) : Row :=
  .ofColumns (columns.map fun column => (column.1, .string column.2))

/-- A join with the rows of a table that have the same value in a column. -/
def sharing (table column : String) : Join :=
  .mk (.all ⟨table, .default⟩) fun left right => (left.value column).same (right.value column)

/-- Of two people, one lives in a town whose county is known, and this county has two sheriffs. The
second join looks at the county, which only the row of the town has, and what is shown has the names
of the sheriffs in the place of that of the person. -/
theorem joined_by_choices_sheriffs :
    let joins := [sharing "towns" "town", sharing "sheriffs" "county"]
    let people := [textRow [("name", "Ann"), ("town", "Rye")],
      textRow [("name", "Bob"), ("town", "Ely")]]
    let towns := [textRow [("town", "Ely"), ("county", "Isle")]]
    let sheriffs := [textRow [("county", "Isle"), ("name", "Cid")],
      textRow [("county", "Isle"), ("name", "Dee")]]
    let shown := applyAll joins [towns, sheriffs] people
    shown.map Row.toText =
      ["\x7b\"name\":\"Cid\",\"town\":\"Ely\",\"county\":\"Isle\"\x7d",
        "\x7b\"name\":\"Dee\",\"town\":\"Ely\",\"county\":\"Isle\"\x7d"] ∧
    (∀ first second, applyAll joins [towns, sheriffs] (first ++ second) =
      applyAll joins [towns, sheriffs] first ++ applyAll joins [towns, sheriffs] second) ∧
    (shown = people.flatMap fun own =>
      ((choices [towns, sheriffs]).filter fun foreign => Accepting joins own foreign).map
        own.mergeAll) ∧
    ∀ row ∈ shown, ∃ own ∈ people, ∃ foreign : List Row,
      List.Forall₂ (· ∈ ·) foreign [towns, sheriffs] ∧ Accepting joins own foreign ∧
        row.names = ((own :: foreign).flatMap Row.names).eraseDups ∧
        ∀ column, row.get? column =
          (own :: foreign).reverse.findSome? fun row => row.get? column := by
  intro joins people towns sheriffs shown
  have general := @joined_by_choices joins [towns, sheriffs] rfl
  exact ⟨by decide +kernel, general.1, general.2.1 people, general.2.2 people⟩

end Join

end TableStore
