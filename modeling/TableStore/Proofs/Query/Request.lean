/-
# What a query is asked for

A request is the chain of calls that configures a query. What it asks of the rows of the tables
is read off this chain: the criteria of its last filter, the bound of its last limit, the columns
of its last selection, and all its joins in order. Plans, indexes and files have no part in it.
Requests that differ only in the order of calls of different kinds, or in calls that a later one of
the same kind replaces, are answered alike.
-/

import TableStore.Proofs.Query.Plan
import TableStore.Proofs.Row.Project

namespace TableStore

/-- What a query is asked for, call by call. -/
inductive Request where
  /-- All rows of a table. -/
  | all (table : Table)
  | filter (request : Request) (criteria : Criteria)
  | select (request : Request) (columns : List String)
  | limit (request : Request) (bound : UInt64)
  | join (request foreign : Request) (accepts : Row → Row → Bool)

/-- A call that configures a query. -/
inductive Clause where
  | filter (criteria : Criteria)
  | select (columns : List String)
  | limit (bound : UInt64)
  | join (foreign : Request) (accepts : Row → Row → Bool)

/-- The kinds of calls that configure a query. -/
inductive Clause.Kind where
  | filter
  | select
  | limit
  | join
  deriving DecidableEq, Repr

/-- The kind of a call. -/
def Clause.kind : Clause → Kind
  | .filter _ => .filter
  | .select _ => .select
  | .limit _ => .limit
  | .join _ _ => .join

namespace Request

/-- The request with one more call. -/
def add (request : Request) : Clause → Request
  | .filter criteria => .filter request criteria
  | .select columns => .select request columns
  | .limit bound => .limit request bound
  | .join foreign accepts => .join request foreign accepts

/-- The table whose rows are asked for. -/
def table : Request → Table
  | .all table => table
  | .filter request _ | .select request _ | .limit request _ | .join request _ _ => request.table

/-- The criteria of the last filter; without one, every row meets them. -/
def criteria : Request → Criteria
  | .all _ => .empty
  | .filter _ criteria => criteria
  | .select request _ | .limit request _ | .join request _ _ => request.criteria

/-- The columns of the last selection, if there is one. -/
def columns : Request → Option (List String)
  | .all _ => none
  | .select _ columns => some columns
  | .filter request _ | .limit request _ | .join request _ _ => request.columns

/-- The bound of the last limit, if there is one. -/
def bound : Request → Option UInt64
  | .all _ => none
  | .limit _ bound => some bound
  | .filter request _ | .select request _ | .join request _ _ => request.bound

/-- The own rows that are chosen, by the rows of all tables: those that meet the criteria, cut at
the bound. -/
def chosen (rows : String → List (RowId × Row)) (request : Request) : List (RowId × Row) :=
  let matching := (rows request.table.name).filter fun entry => request.criteria.accept entry.2
  match request.bound with
  | some bound => matching.take bound.toNat
  | none => matching

/-- The own rows that are left when the chosen ones are removed. -/
def remaining (rows : String → List (RowId × Row)) (request : Request) : List (RowId × Row) :=
  (rows request.table.name).filter fun entry => entry.1 ∉ (request.chosen rows).map Prod.fst

/-- The own rows after changes were merged into the chosen ones. -/
def changed (rows : String → List (RowId × Row)) (request : Request) (changes : Row) :
    List (RowId × Row) :=
  (rows request.table.name).map fun entry =>
    if entry.1 ∈ (request.chosen rows).map Prod.fst then (entry.1, entry.2.merge changes)
    else entry

/-- What is shown of an own row. -/
def shown (request : Request) (row : Row) : Row :=
  match request.columns with
  | some columns => if columns.contains Plan.wildcard then row else row.project columns
  | none => row

/-- Join own rows, in the order of the joins, with all that the foreign requests are answered. -/
def joined (rows : String → List (RowId × Row)) : Request → (own : List Row) → List Row
  | .all _, own => own
  | .filter request _, own | .select request _, own | .limit request _, own =>
      request.joined rows own
  | .join request foreign accepts, own =>
      (request.joined rows own).flatMap fun left =>
        ((foreign.joined rows ((foreign.chosen rows).map fun entry => foreign.shown entry.2)).filter
          (accepts left)).map left.merge

/-- What a request is answered: the chosen rows as they are shown, joined. -/
def answer (rows : String → List (RowId × Row)) (request : Request) : List Row :=
  request.joined rows ((request.chosen rows).map fun entry => request.shown entry.2)

/-- The chosen rows are rows of the table, in their order. -/
theorem chosen_sublist (rows : String → List (RowId × Row)) (request : Request) :
    (request.chosen rows).Sublist (rows request.table.name) := by
  rw [chosen]
  cases request.bound with
  | some bound => exact (List.take_sublist ..).trans List.filter_sublist
  | none => exact List.filter_sublist

/-- Without a limit a row is chosen if each literal of the last filter equals what is in its column
and each test accepts what is in its column. A column that the row does not have reads as null. -/
theorem mem_chosen_iff {rows : String → List (RowId × Row)} {request : Request}
    (unlimited : request.bound = none) {id : RowId} {row : Row} :
    (id, row) ∈ request.chosen rows ↔
      (id, row) ∈ rows request.table.name ∧
        (∀ (column : String) (expected : Json),
          request.criteria.predicates[column]? = some (.literal expected) →
            ((row.get? column).getD .null).same expected = true) ∧
        ∀ (column : String) (test : Json → Bool),
          request.criteria.predicates[column]? = some (.custom test) →
            test ((row.get? column).getD .null) = true := by
  rw [chosen, unlimited, List.mem_filter, Criteria.accept_iff_get?]

/-- A limit keeps the first rows of those that are chosen without it. -/
theorem chosen_limit {rows : String → List (RowId × Row)} {request : Request}
    (unlimited : request.bound = none) (bound : UInt64) :
    (limit request bound).chosen rows = (request.chosen rows).take bound.toNat := by
  simp only [chosen, Request.bound, table, criteria, unlimited]

/-- The rows that remain are those that were not chosen. -/
theorem mem_remaining_iff {rows : String → List (RowId × Row)} {request : Request} {id : RowId}
    {row : Row} :
    (id, row) ∈ request.remaining rows ↔
      (id, row) ∈ rows request.table.name ∧ id ∉ (request.chosen rows).map Prod.fst := by
  rw [remaining, List.mem_filter, decide_eq_true_eq]

/-- Merging changes into rows keeps their identifiers. -/
theorem map_fst_changed (rows : String → List (RowId × Row)) (request : Request) (changes : Row) :
    (request.changed rows changes).map Prod.fst = (rows request.table.name).map Prod.fst := by
  rw [changed, List.map_map]
  refine List.map_congr_left fun entry _ => ?_
  rw [Function.comp_apply]
  split <;> rfl

/-- The chosen rows have the changes, and the others are as they were. -/
theorem mem_changed_iff {rows : String → List (RowId × Row)} {request : Request} {changes : Row}
    {id : RowId} {row : Row} :
    (id, row) ∈ request.changed rows changes ↔
      if id ∈ (request.chosen rows).map Prod.fst then
        ∃ old, (id, old) ∈ rows request.table.name ∧ old.merge changes = row
      else (id, row) ∈ rows request.table.name := by
  rw [changed, List.mem_map]
  by_cases chosen : id ∈ (request.chosen rows).map Prod.fst
  · rw [if_pos chosen]
    constructor
    · rintro ⟨⟨other, old⟩, listed, same⟩
      split at same
      · cases same
        exact ⟨old, listed, rfl⟩
      · next apart =>
          cases same
          exact absurd chosen apart
    · rintro ⟨old, listed, rfl⟩
      exact ⟨(id, old), listed, if_pos chosen⟩
  · rw [if_neg chosen]
    constructor
    · rintro ⟨⟨other, old⟩, listed, same⟩
      split at same
      · next member =>
          cases same
          exact absurd member chosen
      · cases same
        exact listed
    · exact fun listed => ⟨(id, row), listed, if_neg chosen⟩

/-- A join merges each row so far with the rows of the foreign answer that belong to it. -/
theorem joined_join (rows : String → List (RowId × Row)) (request foreign : Request)
    (accepts : Row → Row → Bool) (own : List Row) :
    (join request foreign accepts).joined rows own =
      (request.joined rows own).flatMap fun left =>
        ((foreign.answer rows).filter (accepts left)).map left.merge :=
  rfl

/-- Whether two requests differ only in the order of calls of different kinds and in calls that a
later one of the same kind replaces. Joins never replace each other. -/
inductive Alike : Request → Request → Prop
  | refl (request : Request) : Alike request request
  | symm {first second : Request} (alike : Alike first second) : Alike second first
  | trans {first second third : Request} (alike : Alike first second)
      (alsoAlike : Alike second third) : Alike first third
  /-- Calls of different kinds commute. -/
  | swap (request : Request) {first second : Clause} (apart : first.kind ≠ second.kind) :
      Alike ((request.add first).add second) ((request.add second).add first)
  /-- A later filter, selection or limit replaces an earlier one. -/
  | replace (request : Request) {earlier later : Clause} (same : earlier.kind = later.kind)
      (single : later.kind ≠ .join) : Alike ((request.add earlier).add later) (request.add later)
  | add {first second : Request} (alike : Alike first second) (clause : Clause) :
      Alike (first.add clause) (second.add clause)
  | foreign (request : Request) {first second : Request} (alike : Alike first second)
      (accepts : Row → Row → Bool) :
      Alike (join request first accepts) (join request second accepts)

/-- Whether two requests ask the same of their own rows and join them alike. -/
structure SameMeaning (rows : String → List (RowId × Row)) (first second : Request) : Prop where
  table : first.table = second.table
  criteria : first.criteria = second.criteria
  columns : first.columns = second.columns
  bound : first.bound = second.bound
  joined : first.joined rows = second.joined rows

variable {rows : String → List (RowId × Row)} {first second : Request}

/-- Requests of the same meaning are answered alike. -/
theorem SameMeaning.answer (same : SameMeaning rows first second) :
    first.answer rows = second.answer rows := by
  have chosen : first.chosen rows = second.chosen rows := by
    rw [Request.chosen, Request.chosen, same.table, same.criteria, same.bound]
  have shown : first.shown = second.shown := by
    funext row
    rw [Request.shown, Request.shown, same.columns]
  rw [Request.answer, Request.answer, same.joined, chosen, shown]

/-- The same call keeps the meaning of two requests the same. -/
theorem SameMeaning.add (same : SameMeaning rows first second) (clause : Clause) :
    SameMeaning rows (first.add clause) (second.add clause) := by
  obtain ⟨table, criteria, columns, bound, joined⟩ := same
  cases clause with
  | filter _ => exact ⟨table, rfl, columns, bound, joined⟩
  | select _ => exact ⟨table, criteria, rfl, bound, joined⟩
  | limit _ => exact ⟨table, criteria, columns, rfl, joined⟩
  | join foreign accepts =>
      refine ⟨table, criteria, columns, bound, funext fun own => ?_⟩
      simp only [Request.add, joined_join, joined]

/-- The order of two calls of different kinds has no part in what is meant. -/
theorem sameMeaning_swap (request : Request) {first second : Clause}
    (apart : first.kind ≠ second.kind) :
    SameMeaning rows ((request.add first).add second) ((request.add second).add first) := by
  cases first <;> cases second
  -- two calls of one kind are excluded; all others read different parts of the chain
  all_goals first | exact ⟨rfl, rfl, rfl, rfl, rfl⟩ | exact absurd rfl apart

/-- A call that a later one replaces has no part in what is meant. -/
theorem sameMeaning_replace (request : Request) {earlier later : Clause}
    (same : earlier.kind = later.kind) (single : later.kind ≠ .join) :
    SameMeaning rows ((request.add earlier).add later) (request.add later) := by
  cases earlier <;> cases later
  -- calls of two kinds are excluded, and so are two joins
  all_goals first | exact ⟨rfl, rfl, rfl, rfl, rfl⟩ | exact absurd rfl single | cases same

/-- Requests that are alike mean the same. -/
theorem Alike.sameMeaning (alike : Alike first second) : SameMeaning rows first second := by
  induction alike with
  | refl request => exact ⟨rfl, rfl, rfl, rfl, rfl⟩
  | symm _ same =>
      exact ⟨same.table.symm, same.criteria.symm, same.columns.symm, same.bound.symm,
        same.joined.symm⟩
  | trans _ _ same alsoSame =>
      exact ⟨same.table.trans alsoSame.table, same.criteria.trans alsoSame.criteria,
        same.columns.trans alsoSame.columns, same.bound.trans alsoSame.bound,
        same.joined.trans alsoSame.joined⟩
  | swap request apart => exact sameMeaning_swap request apart
  | replace request same single => exact sameMeaning_replace request same single
  | add _ clause same => exact same.add clause
  | foreign request _ accepts same =>
      refine ⟨rfl, rfl, rfl, rfl, funext fun own => ?_⟩
      rw [joined_join, joined_join, same.answer]

/-- Requests that are alike are answered alike. -/
theorem Alike.answer_eq (alike : Alike first second) :
    first.answer rows = second.answer rows :=
  alike.sameMeaning.answer

end Request

end TableStore
