/-
# Outlines of sessions

An outline tells what was asked for by the queries of a session, as the chain of calls that
configured each of them. It says nothing about rows, indexes or plans. What a query of the ideal
session comes to is what the chain asks for.
-/

import TableStore.Proofs.Query.Request
import TableStore.Proofs.Query.Selection
import TableStore.Proofs.Session.Basic
import TableStore.Proofs.Table.View

namespace TableStore

/-- The handles of a session and what each of its queries was asked for. -/
structure Outline where
  handles : List Table
  requests : List Request

namespace Outline

/-- The outline of a session before its first step. -/
def start : Outline where
  handles := []
  requests := []

/-- Keep a handle. -/
def addHandle (outline : Outline) (table : Table) : Outline :=
  { outline with handles := outline.handles ++ [table] }

/-- Keep a request. -/
def addRequest (outline : Outline) (request : Request) : Outline :=
  { outline with requests := outline.requests ++ [request] }

/-- Keep the request with a number with one more call, if there is one. -/
def extend (outline : Outline) (number : Nat) (clause : Clause) : Outline :=
  match outline.requests[number]? with
  | some request => outline.addRequest (request.add clause)
  | none => outline

/-- The outline after a step. -/
def after (outline : Outline) : Step → Outline
  | .handle name options =>
      match Table.ofName name options with
      | .ok table => outline.addHandle table
      | .error _ => outline
  | .query handle =>
      match outline.handles[handle]? with
      | some table => outline.addRequest (.all table)
      | none => outline
  | .filter query criteria => outline.extend query (.filter criteria)
  | .select query columns => outline.extend query (.select columns)
  | .limit query bound => outline.extend query (.limit bound)
  | .join query foreign accepts =>
      match outline.requests[foreign]? with
      | some foreign => outline.extend query (.join foreign accepts)
      | none => outline
  | .call _ _ | .get _ | .count _ | .delete _ | .set _ _ => outline

/-- The outline of a program. -/
def ofProgram (program : List Step) : Outline :=
  program.foldl after start

end Outline

namespace Request

/-- The query for a request that evaluates everything row by row. -/
def scanned : Request → Query
  | .all table => .all table
  | .filter request criteria => Ideal.filter criteria request.scanned
  | .select request columns => request.scanned.select columns
  | .limit request bound => request.scanned.limit bound
  | .join request foreign accepts => .join foreign.scanned accepts request.scanned

/-- The plan of a request, with nothing to look up in an index. -/
def plan (request : Request) : Plan where
  limit := request.bound
  selected := request.columns.bind fun columns =>
    if columns.contains Plan.wildcard then none else some columns.eraseDups
  criteria := request.criteria
  lookups := ∅

/-- The joins of a request, in the order of the calls. -/
def joins : Request → List Join
  | .all _ => []
  | .join request foreign accepts => request.joins ++ [.mk foreign.scanned accepts]
  | .filter request _ | .select request _ | .limit request _ => request.joins

/-- The query for a request, by its parts. -/
theorem scanned_eq (request : Request) :
    request.scanned = .mk request.table request.plan request.joins := by
  induction request with
  | all table => rfl
  | filter request criteria ih => rw [scanned, ih]; rfl
  | select request columns ih =>
      have selected : request.plan.select columns = (request.select columns).plan := by
        change { request.plan with selected := (request.plan.select columns).selected } = _
        rw [Plan.selected_select]
        rfl
      rw [scanned, ih, Query.select, selected]
      rfl
  | limit request bound ih => rw [scanned, ih]; rfl
  | join request foreign accepts ih _ => rw [scanned, ih]; rfl

/-- The plan of a request shows a row as the request does. -/
theorem project_plan (request : Request) : request.plan.project = request.shown := by
  funext row
  rw [shown, Plan.project, plan]
  cases request.columns with
  | none => rfl
  | some columns =>
      simp only [Option.bind_some]
      cases columns.contains Plan.wildcard with
      | true => rfl
      | false => exact (row.extract_eq_project _).trans (row.project_eraseDups columns)

variable (ledgers : String → Ledger)

/-- The plan of a request selects the rows that the request chooses. -/
theorem map_selected_plan (request : Request) :
    ((ledgers request.table.name).selected request.plan).map
        (fun entry => (entry.1, entry.2.row)) =
      request.chosen fun name => (ledgers name).entries := by
  have scanning : request.plan.scanning = request.plan := Plan.scanning_of_lookups_eq_empty rfl
  rw [Ledger.selected, scanning, chosen, Ledger.entries, Plan.room, plan, List.filter_map]
  cases request.bound with
  | none => rfl
  | some bound => exact List.map_take

variable {ledgers}

/-- The query for a request answers what the request is answered, if its joins join as those of the
request do. -/
theorem rowsIn_scanned_of_applyAll {request : Request}
    (joined : ∀ own, Join.applyAll request.joins (Join.rowsInAll ledgers request.joins) own =
      request.joined (fun name => (ledgers name).entries) own) :
    request.scanned.rowsIn ledgers = request.answer fun name => (ledgers name).entries := by
  rw [scanned_eq, Query.rowsIn, joined, answer, ← map_selected_plan, List.map_map, project_plan]
  rfl

/-- The joins of a request join as the request does. -/
theorem applyAll_joins : ∀ (request : Request) (own : List Row),
    Join.applyAll request.joins (Join.rowsInAll ledgers request.joins) own =
      request.joined (fun name => (ledgers name).entries) own
  | .all _, _ => rfl
  | .filter request _, own | .select request _, own | .limit request _, own =>
      applyAll_joins request own
  | .join request foreign accepts, own => by
      rw [joins, Query.applyAll_rowsInAll_append, applyAll_joins request own,
        rowsIn_scanned_of_applyAll (applyAll_joins foreign)]
      rfl

/-- The query for a request answers what the request is answered. -/
theorem rowsIn_scanned (request : Request) :
    request.scanned.rowsIn ledgers = request.answer fun name => (ledgers name).entries :=
  rowsIn_scanned_of_applyAll request.applyAll_joins

end Request

/-- Whether an outline tells what the queries of an ideal session were asked for. -/
structure Outline.Describes (outline : Outline) (session : Session) : Prop where
  handles : session.handles = outline.handles
  queries : session.queries = outline.requests.map Request.scanned

namespace Outline

variable {outline : Outline} {ideal : Ideal}

/-- A query that is kept for a request is described by keeping the request. -/
theorem Describes.addQuery (describes : outline.Describes ideal.session) (request : Request) :
    (outline.addRequest request).Describes (ideal.addQuery request.scanned).session where
  handles := describes.handles
  queries := by
    rw [Ideal.addQuery, Session.addQuery, describes.queries, addRequest, List.map_append]
    rfl

/-- A query that is built on another is described by one more call. -/
theorem Describes.withQuery_built (describes : outline.Describes ideal.session) (number : Nat)
    (clause : Clause) {built : Query → Query}
    (same : ∀ request : Request, (request.add clause).scanned = built request.scanned) :
    (outline.extend number clause).Describes
      (ideal.withQuery number fun query => (.built, ideal.addQuery (built query))).2.session := by
  rw [extend, Ideal.withQuery, describes.queries, List.getElem?_map]
  cases outline.requests[number]? with
  | none => exact describes
  | some request =>
      have described := describes.addQuery (request.add clause)
      rw [same] at described
      exact described

/-- A query that is run is described as before. -/
theorem Describes.withQuery_run (describes : outline.Describes ideal.session) (number : Nat)
    {next : Query → Outcome × Ideal}
    (kept : ∀ query, (next query).2.session = ideal.session) :
    outline.Describes (ideal.withQuery number next).2.session := by
  rw [Ideal.withQuery]
  cases ideal.session.queries[number]? with
  | none => exact describes
  | some query => exact (kept query).symm ▸ describes

/-- The outline after a step describes the ideal session after it. -/
theorem Describes.perform (describes : outline.Describes ideal.session) (step : Step) :
    (outline.after step).Describes (ideal.perform step).2.session := by
  cases step with
  | handle name options =>
      rw [after, Ideal.perform]
      cases Table.ofName name options with
      | error error => exact describes
      | ok table =>
          exact ⟨congrArg (· ++ [table]) describes.handles, describes.queries⟩
  | call handle call =>
      rw [after, Ideal.perform, Ideal.withHandle]
      cases ideal.session.handles[handle]? with
      | none => exact describes
      | some table => exact describes
  | query handle =>
      rw [after, Ideal.perform, Ideal.withHandle, describes.handles]
      cases outline.handles[handle]? with
      | none => exact describes
      | some table => exact describes.addQuery (.all table)
  | filter query criteria => exact describes.withQuery_built query (.filter criteria) fun _ => rfl
  | select query columns => exact describes.withQuery_built query (.select columns) fun _ => rfl
  | limit query bound => exact describes.withQuery_built query (.limit bound) fun _ => rfl
  | join query foreign accepts =>
      rw [after, Ideal.perform]
      cases found : outline.requests[foreign]? with
      | none =>
          -- without a foreign query nothing is kept, whether or not there is the other
          refine describes.withQuery_run query fun own => ?_
          rw [Ideal.withQuery, describes.queries, List.getElem?_map, found]
          rfl
      | some request =>
          have fetched : ∀ own : Query, (ideal.withQuery foreign fun foreign =>
              (.built, ideal.addQuery (.join foreign accepts own))) =
                (.built, ideal.addQuery (.join request.scanned accepts own)) := fun own => by
            rw [Ideal.withQuery, describes.queries, List.getElem?_map, found]
            rfl
          simp only [fetched]
          exact describes.withQuery_built query (.join request accepts) fun _ => rfl
  | get query => exact describes.withQuery_run query fun _ => rfl
  | count query => exact describes.withQuery_run query fun _ => rfl
  | delete query => exact describes.withQuery_run query fun _ => rfl
  | set query changes =>
      refine describes.withQuery_run query fun query => ?_
      cases query.setIn ideal.ledgers changes <;> rfl

/-- The outline of a program describes the ideal session that it leads to. -/
theorem Describes.run {program : List Step} (describes : outline.Describes ideal.session) :
    (program.foldl after outline).Describes (ideal.run program).2.session := by
  induction program generalizing outline ideal with
  | nil => exact describes
  | cons step rest ih => exact ih (describes.perform step)

/-- The outline of a program that starts without files describes its ideal session. -/
theorem describes_ofProgram (program : List Step) :
    (ofProgram program).Describes (Ideal.start.run program).2.session :=
  Describes.run ⟨rfl, rfl⟩

end Outline

end TableStore
