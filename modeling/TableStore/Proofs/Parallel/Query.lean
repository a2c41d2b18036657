/-
# Queries on two stores

A query looks at the tables that it is on and changes only the first of them. It looks before it
changes anything: the candidates and the rows of all joined queries are there when the first row
is visited. An index is read only on a column on which a probe has just found one.
-/

import TableStore.Proofs.Parallel.Table
import TableStore.Proofs.Query.Candidates
import TableStore.Query.Explain

namespace TableStore

mutual

/-- Whether a query is on tables with certain names only, as are all queries that it joins with. -/
def Query.On (names : String → Prop) : Query → Prop
  | .mk table _ joins => names table.name ∧ Join.AllOn names joins

/-- Whether all queries that are joined with are on tables with certain names only. -/
def Join.AllOn (names : String → Prop) : List Join → Prop
  | [] => True
  | .mk foreign _ :: rest => foreign.On names ∧ Join.AllOn names rest

end

mutual

/-- Every query is on some tables. -/
theorem Query.on_any {names : String → Prop} (any : ∀ name, names name) :
    ∀ query : Query, query.On names
  | .mk table _ joins => by
      rw [Query.On]
      exact ⟨any table.name, Join.allOn_any any joins⟩

/-- Joined queries are on some tables. -/
theorem Join.allOn_any {names : String → Prop} (any : ∀ name, names name) :
    ∀ joins : List Join, Join.AllOn names joins
  | [] => by
      rw [Join.AllOn]
      trivial
  | .mk foreign _ :: rest => by
      rw [Join.AllOn]
      exact ⟨foreign.on_any any, Join.allOn_any any rest⟩

end

/-- What a query looks at before it visits the first row: its plan as it can run now, the
candidates, and the rows of the queries that it joins with. -/
def Query.prepare (query : Query) : QueryM (Plan × List RowId × List (List Row)) := do
  let resolved ← query.plan.resolve query.table
  let ids ← QueryM.onTable (resolved.startingIds query.table)
  let fetched ← fetchAll query.joins
  return (resolved, ids, fetched)

/-- A query visits rows after it has looked at everything else. -/
theorem Query.traverse_eq_prepare (query : Query) (visit : RowId → Row → TableM Row) :
    query.traverse visit = do
      let (resolved, ids, fetched) ← query.prepare
      let rows ← QueryM.onTable (collect query.table resolved visit 0 ids)
      return Join.applyAll query.joins fetched rows := by
  simp only [traverse, prepare, bind_assoc, pure_bind]

namespace Table.Visible

variable {relation : Files → Files → Prop} {known : String → Prop} {start : Store}
  {table : Table} (visible : table.Visible relation known)

include visible

/-- A column that is not among those without an index is known. -/
theorem parallel_unindexed (columns : List String) :
    Parallel relation start (Plan.unindexed table columns) fun stale =>
      ∀ column ∈ columns, column ∉ stale → FileName.isSegment column = true ∧ known column := by
  induction columns with
  | nil => exact .pure fun _ member => nomatch member
  | cons column rest ih =>
      refine (visible.parallel_hasIndex column).bind fun indexed isKnown => ?_
      refine ih.bind fun others areKnown => .pure ?_
      intro other member fresh
      cases indexed with
      | true =>
          rcases List.mem_cons.mp member with rfl | later
          · exact isKnown rfl
          · exact areKnown other later fresh
      | false =>
          rw [if_neg Bool.false_ne_true, List.mem_cons, not_or] at fresh
          exact areKnown other ((List.mem_cons.mp member).resolve_left fresh.1) fresh.2

/-- A plan that can run now looks up known columns only. -/
theorem parallel_resolve (plan : Plan) :
    Parallel relation start (plan.resolve table) fun resolved =>
      ∀ column ∈ resolved.lookups, FileName.isSegment column = true ∧ known column := by
  refine (visible.parallel_unindexed plan.lookups.keys).bind fun stale areKnown => ?_
  have reports : ∀ columns : List String, Parallel relation start
      (columns.forM fun column => Store.report (.scanningInstead table.name column))
      anything := by
    intro columns
    induction columns with
    | nil => exact .pure trivial
    | cons column rest ih => exact (Parallel.report _).bind fun _ _ => ih
  refine (reports stale).bind fun _ _ => .pure fun column member => ?_
  rw [Std.ExtTreeMap.mem_iff_isSome_getElem?, Plan.lookups_foldl_fallBack] at member
  split at member
  · cases member
  · next fresh =>
      apply areKnown column _ fresh
      rw [Std.ExtTreeMap.mem_keys, Std.ExtTreeMap.mem_iff_isSome_getElem?]
      exact member

/-- What further lookups leave of ascending candidates is ascending. -/
theorem tries_narrow {ids : List RowId} (ascending : Ascending ids)
    {lookups : List (String × Json)}
    (areKnown : ∀ lookup ∈ lookups, FileName.isSegment lookup.1 = true ∧ known lookup.1) :
    Tries relation start (Plan.narrow table ids lookups) Ascending := by
  induction lookups generalizing ids with
  | nil =>
      rw [Plan.narrow]
      exact .pure ascending
  | cons lookup rest ih =>
      cases ids with
      | nil => exact .pure .nil
      | cons id others =>
          have isKnown := areKnown lookup List.mem_cons_self
          refine (tries_readIndex fun isColumn =>
            visible.index lookup.1 isColumn isKnown.2).bind fun index _ => ?_
          exact ih (List.Pairwise.filter _ ascending) fun other member =>
            areKnown other (List.mem_cons_of_mem _ member)

/-- The candidates of a plan that looks up known columns are ascending. -/
theorem tries_startingIds {plan : Plan}
    (areKnown : ∀ column ∈ plan.lookups, FileName.isSegment column = true ∧ known column) :
    Tries relation start (plan.startingIds table) Ascending := by
  have isKnown : ∀ lookup ∈ plan.lookups.toList,
      FileName.isSegment lookup.1 = true ∧ known lookup.1 := by
    rintro ⟨column, value⟩ member
    have found := Std.ExtTreeMap.mem_toList_iff_getElem?_eq_some.mp member
    exact areKnown column (Std.ExtTreeMap.mem_iff_isSome_getElem?.mpr (by rw [found]; rfl))
  rw [Plan.startingIds]
  cases listed : plan.lookups.toList with
  | nil => exact visible.tries_rowIds
  | cons lookup rest =>
      rw [listed] at isKnown
      refine (tries_readIndex fun isColumn =>
        visible.index lookup.1 isColumn (isKnown lookup List.mem_cons_self).2).bind
          fun index _ => ?_
      refine visible.tries_narrow ?_ fun other member =>
        isKnown other (List.mem_cons_of_mem _ member)
      rw [IndexTable.lookupValue]
      cases IndexKey.ofJson? lookup.2 with
      | none => exact .nil
      | some key => exact index.ascending_lookup key

/-- Criteria are split by which columns have an index. -/
theorem parallel_route (entries : List (String × Predicate)) (plan : Plan) :
    Parallel relation start (Query.route table entries plan) anything := by
  induction entries generalizing plan with
  | nil => exact .pure trivial
  | cons entry rest ih =>
      obtain ⟨column, predicate⟩ := entry
      rw [Query.route]
      cases predicate.literal? with
      | none => exact ih _
      | some value =>
          by_cases indexable : predicate.isIndexable = true
          · simp only [indexable, if_true]
            refine (visible.parallel_hasIndex column).bind fun indexed _ => ?_
            cases indexed with
            | true => exact ih _
            | false => exact ih _
          · simp only [indexable]
            exact ih _

end Table.Visible

namespace Query

variable {relation : Files → Files → Prop} {known : String → String → Prop} {start : Store}

/-- Rows are visited one after another. -/
theorem tries_collect {table : Table}
    (rows : ∀ id, Files.Shown relation (Files.read (table.rowPath id)) anything) {plan : Plan}
    {visit : RowId → Row → TableM Row}
    (visits : ∀ id row, Tries relation start (visit id row) anything) (found : Nat)
    (ids : List RowId) :
    Tries relation start (collect table plan visit found ids) anything := by
  induction ids generalizing found with
  | nil => exact .pure trivial
  | cons id rest ih =>
      rw [collect]
      by_cases full : plan.allows found = true
      · simp only [full, Bool.not_true, Bool.false_eq_true, if_false]
        refine (Table.tries_read (rows id)).bind fun row? _ => ?_
        cases row? with
        | some row =>
            simp only []
            by_cases accepted : plan.criteria.accept row = true
            · rw [if_pos accepted]
              exact (visits id row).bind fun _ _ => (ih (found + 1)).bind fun _ _ => .pure trivial
            · rw [if_neg accepted]
              exact ih found
        | none =>
            simp only []
            cases plan.lookups.keys.head? with
            | none => exact ih found
            | some column => exact (Tries.report _).bind fun _ _ => .throw _
      · simp only [full, Bool.not_false, if_true]
        exact .pure trivial

section

variable {names : String → Prop}

mutual

/-- A query shows the same on related files of the tables that it is on. -/
theorem tries_get
    (visible : ∀ table : Table, names table.name → table.Visible relation (known table.name)) :
    ∀ query : Query, query.On names → Tries relation start query.get anything
  | .mk table plan joins, isOn => by
      rw [On] at isOn
      have here := visible table isOn.1
      rw [get]
      refine (Tries.lift (here.parallel_resolve plan)).bind fun resolved areKnown => ?_
      refine ((here.tries_startingIds areKnown).adapt QueryError.table).bind fun ids _ => ?_
      refine (tries_fetchAll visible joins isOn.2).bind fun fetched _ => ?_
      have collected : Tries relation start (collect table resolved
          (fun _ row => return plan.project row) 0 ids) anything :=
        tries_collect here.row (fun _ _ => .pure trivial) 0 ids
      exact (collected.adapt QueryError.table).bind fun _ _ => .pure trivial

/-- Joined queries show the same on related files of the tables that they are on. -/
theorem tries_fetchAll
    (visible : ∀ table : Table, names table.name → table.Visible relation (known table.name)) :
    ∀ joins : List Join, Join.AllOn names joins →
    Tries relation start (fetchAll joins) anything
  | [], _ => by
      rw [fetchAll]
      exact .pure trivial
  | .mk foreign _ :: rest, areOn => by
      rw [Join.AllOn] at areOn
      rw [fetchAll]
      refine ((tries_get visible foreign areOn.1).adapt (QueryError.join _)).bind fun rows _ => ?_
      exact (tries_fetchAll visible rest areOn.2).bind fun _ _ => .pure trivial

end

variable (visible : ∀ table : Table, names table.name →
  table.Visible relation (known table.name))

include visible

/-- What a query looks at before it visits rows is the same on related files. -/
theorem tries_prepare {query : Query} (isOn : query.On names) :
    Tries relation start query.prepare fun (_, ids, _) => Table.Ascending ids := by
  obtain ⟨table, plan, joins⟩ := query
  rw [On] at isOn
  have here := visible table isOn.1
  refine (Tries.lift (here.parallel_resolve plan)).bind fun resolved areKnown => ?_
  refine ((here.tries_startingIds areKnown).adapt QueryError.table).bind fun ids ascending => ?_
  exact (tries_fetchAll visible joins isOn.2).bind fun _ _ => .pure ascending

/-- A query visits the same rows on related files. -/
theorem tries_traverse {query : Query} (isOn : query.On names)
    {visit : RowId → Row → TableM Row}
    (visits : ∀ id row, Tries relation start (visit id row) anything) :
    Tries relation start (query.traverse visit) anything := by
  have rows : ∀ id, Files.Shown relation (Files.read (query.table.rowPath id)) anything := by
    obtain ⟨table, plan, joins⟩ := query
    rw [On] at isOn
    exact (visible table isOn.1).row
  rw [traverse_eq_prepare]
  refine (tries_prepare visible isOn).bind fun prepared _ => ?_
  obtain ⟨resolved, ids, fetched⟩ := prepared
  exact ((tries_collect rows visits 0 ids).adapt QueryError.table).bind fun _ _ => .pure trivial

/-- The rows of a query are counted. -/
theorem tries_count {query : Query} (isOn : query.On names) :
    Tries relation start query.count anything :=
  (tries_get visible query isOn).bind fun _ _ => .pure trivial

/-- A query is explained. -/
theorem parallel_explain {query : Query} (isOn : query.On names) :
    Parallel relation start query.explain anything := by
  obtain ⟨table, plan, joins⟩ := query
  rw [On] at isOn
  exact ((visible table isOn.1).parallel_resolve plan).bind fun _ _ => .pure trivial

/-- A query with other criteria is on the same tables. -/
theorem parallel_filter {query : Query} (isOn : query.On names) (criteria : Criteria) :
    Parallel relation start (query.filter criteria) (On names) := by
  obtain ⟨table, plan, joins⟩ := query
  have whole := isOn
  rw [On] at isOn
  refine ((visible table isOn.1).parallel_route _ _).bind fun _ _ => .pure ?_
  rw [On]
  exact isOn

end

section

variable {names : String → Prop} {query foreign : Query}

/-- The query for all rows is on its table only. -/
theorem on_all {table : Table} (named : names table.name) : (all table).On names := by
  rw [all, On, Join.AllOn]
  exact ⟨named, trivial⟩

/-- Selecting columns does not change the tables. -/
theorem On.select (isOn : query.On names) (columns : List String) :
    (query.select columns).On names := by
  obtain ⟨table, plan, joins⟩ := query
  rw [On] at isOn
  rw [Query.select, On]
  exact isOn

/-- Bounding the rows does not change the tables. -/
theorem On.limit (isOn : query.On names) (bound : UInt64) : (query.limit bound).On names := by
  obtain ⟨table, plan, joins⟩ := query
  rw [On] at isOn
  rw [Query.limit, On]
  exact isOn

/-- A join adds the tables of the query that is joined with. -/
theorem On.join (isOn : query.On names) (alsoOn : foreign.On names)
    (accepts : Row → Row → Bool) : (Query.join foreign accepts query).On names := by
  obtain ⟨table, plan, joins⟩ := query
  rw [On] at isOn
  rw [Query.join, On]
  refine ⟨isOn.1, ?_⟩
  have others := isOn.2
  clear isOn
  induction joins with
  | nil =>
      rw [List.nil_append, Join.AllOn, Join.AllOn]
      exact ⟨alsoOn, trivial⟩
  | cons join rest ih =>
      obtain ⟨other, pairs⟩ := join
      rw [Join.AllOn] at others
      rw [List.cons_append, Join.AllOn]
      exact ⟨others.1, ih others.2⟩

/-- A query is on its own table. -/
theorem On.table (isOn : query.On names) : names query.table.name := by
  obtain ⟨table, plan, joins⟩ := query
  rw [On] at isOn
  exact isOn.1

end

end Query

end TableStore
