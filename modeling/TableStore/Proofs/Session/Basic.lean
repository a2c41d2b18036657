/-
# Sessions

A session opens handles on tables, calls their operations, and builds and runs queries, in any
order. Handles and queries are kept and named by their numbers, so a query can be built on
another, joined with any, and run long after it was built.
-/

import TableStore.Proofs.Query.Reference
import TableStore.Proofs.Table.Machine

namespace TableStore

/-- A step of a session. -/
inductive Step where
  | handle (name : String) (options : TableOptions)
  | call (handle : Nat) (call : Call)
  | query (handle : Nat)
  | filter (query : Nat) (criteria : Criteria)
  | select (query : Nat) (columns : List String)
  | limit (query : Nat) (bound : UInt64)
  | join (query foreign : Nat) (accepts : Row → Row → Bool)
  | get (query : Nat)
  | count (query : Nat)
  | delete (query : Nat)
  | set (query : Nat) (changes : Row)

/-- What a step shows. -/
inductive Outcome where
  /-- There is no handle or no query with the number that was given. -/
  | unknown
  | opened (result : Except TableError Unit)
  | called (result : Except TableError Answer)
  | built
  | rows (result : Except QueryError (List Row))
  | count (result : Except QueryError Nat)

/-- The handles and the queries so far. -/
structure Session where
  handles : List Table
  queries : List Query

namespace Session

/-- A session before its first step. -/
def start : Session where
  handles := []
  queries := []

/-- Keep a handle. -/
def addHandle (session : Session) (table : Table) : Session :=
  { session with handles := session.handles ++ [table] }

/-- Keep a query. -/
def addQuery (session : Session) (query : Query) : Session :=
  { session with queries := session.queries ++ [query] }

/-- Do something with the query that has a number, if there is one. -/
def withQuery (session : Session) (number : Nat)
    (next : Query → StateM Store (Outcome × Session)) : StateM Store (Outcome × Session) :=
  match session.queries[number]? with
  | some query => next query
  | none => return (.unknown, session)

/-- Do something with the handle that has a number, if there is one. -/
def withHandle (session : Session) (number : Nat)
    (next : Table → StateM Store (Outcome × Session)) : StateM Store (Outcome × Session) :=
  match session.handles[number]? with
  | some table => next table
  | none => return (.unknown, session)

/-- Take a step on the store. -/
def perform (session : Session) : Step → StateM Store (Outcome × Session)
  | .handle name options =>
      match Table.ofName name options with
      | .ok table => return (.opened (.ok ()), session.addHandle table)
      | .error error => return (.opened (.error error), session)
  | .call handle call =>
      session.withHandle handle fun table => do
        return (.called (← (table.perform call).run), session)
  | .query handle =>
      session.withHandle handle fun table => return (.built, session.addQuery (.all table))
  | .filter query criteria =>
      session.withQuery query fun query => do
        return (.built, session.addQuery (← query.filter criteria))
  | .select query columns =>
      session.withQuery query fun query =>
        return (.built, session.addQuery (query.select columns))
  | .limit query bound =>
      session.withQuery query fun query => return (.built, session.addQuery (query.limit bound))
  | .join query foreign accepts =>
      session.withQuery query fun query =>
        session.withQuery foreign fun foreign =>
          return (.built, session.addQuery (.join foreign accepts query))
  | .get query => session.withQuery query fun query => do return (.rows (← query.get.run), session)
  | .count query =>
      session.withQuery query fun query => do return (.count (← query.count.run), session)
  | .delete query =>
      session.withQuery query fun query => do return (.rows (← query.delete.run), session)
  | .set query changes =>
      session.withQuery query fun query => do
        return (.rows (← (query.set changes).run), session)

/-- Take steps one after another, and tell what each of them shows. -/
def run (session : Session) : List Step → StateM Store (List (Step × Outcome) × Session)
  | [] => return ([], session)
  | step :: rest => do
      let (outcome, next) ← session.perform step
      let (outcomes, last) ← next.run rest
      return ((step, outcome) :: outcomes, last)

end Session

/-- What the tables of a store and the queries of a session come to: the ledger of each table, and
queries that evaluate everything row by row. -/
structure Ideal where
  ledgers : String → Ledger
  session : Session

namespace Ideal

/-- No rows, no indexes, and a session before its first step. -/
def start : Ideal where
  ledgers _ := .empty
  session := .start

/-- Change the ledger of a table. -/
def setLedger (ideal : Ideal) (name : String) (ledger : Ledger) : Ideal :=
  { ideal with ledgers := Function.update ideal.ledgers name ledger }

/-- Keep a query. -/
def addQuery (ideal : Ideal) (query : Query) : Ideal :=
  { ideal with session := ideal.session.addQuery query }

/-- Do something with the query that has a number, if there is one. -/
def withQuery (ideal : Ideal) (number : Nat) (next : Query → Outcome × Ideal) :
    Outcome × Ideal :=
  match ideal.session.queries[number]? with
  | some query => next query
  | none => (.unknown, ideal)

/-- Do something with the handle that has a number, if there is one. -/
def withHandle (ideal : Ideal) (number : Nat) (next : Table → Outcome × Ideal) :
    Outcome × Ideal :=
  match ideal.session.handles[number]? with
  | some table => next table
  | none => (.unknown, ideal)

/-- The query with other criteria, all of them evaluated row by row. -/
def filter (criteria : Criteria) : Query → Query
  | .mk table plan joins => .mk table { plan with criteria, lookups := ∅ } joins

/-- Take a step without a store. -/
def perform (ideal : Ideal) : Step → Outcome × Ideal
  | .handle name options =>
      match Table.ofName name options with
      | .ok table => (.opened (.ok ()), { ideal with session := ideal.session.addHandle table })
      | .error error => (.opened (.error error), ideal)
  | .call handle call =>
      ideal.withHandle handle fun table =>
        (.called ((ideal.ledgers table.name).answer table.options call),
          ideal.setLedger table.name ((ideal.ledgers table.name).after table.options call))
  | .query handle =>
      ideal.withHandle handle fun table => (.built, ideal.addQuery (.all table))
  | .filter query criteria =>
      ideal.withQuery query fun query => (.built, ideal.addQuery (filter criteria query))
  | .select query columns =>
      ideal.withQuery query fun query => (.built, ideal.addQuery (query.select columns))
  | .limit query bound =>
      ideal.withQuery query fun query => (.built, ideal.addQuery (query.limit bound))
  | .join query foreign accepts =>
      ideal.withQuery query fun query =>
        ideal.withQuery foreign fun foreign =>
          (.built, ideal.addQuery (.join foreign accepts query))
  | .get query =>
      ideal.withQuery query fun query => (.rows (.ok (query.rowsIn ideal.ledgers)), ideal)
  | .count query =>
      ideal.withQuery query fun query =>
        (.count (.ok (query.rowsIn ideal.ledgers).length), ideal)
  | .delete query =>
      ideal.withQuery query fun query =>
        (.rows (.ok (query.deleteIn ideal.ledgers).1),
          ideal.setLedger query.table.name (query.deleteIn ideal.ledgers).2)
  | .set query changes =>
      ideal.withQuery query fun query =>
        match query.setIn ideal.ledgers changes with
        | .ok (rows, ledger) => (.rows (.ok rows), ideal.setLedger query.table.name ledger)
        | .error error => (.rows (.error error), ideal)

/-- Take steps one after another, and tell what each of them shows. -/
def run (ideal : Ideal) : List Step → List (Step × Outcome) × Ideal
  | [] => ([], ideal)
  | step :: rest =>
      let next := ideal.perform step
      ((step, next.1) :: (next.2.run rest).1, (next.2.run rest).2)

end Ideal

end TableStore
