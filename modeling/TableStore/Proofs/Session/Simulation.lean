/-
# Sessions follow their ideal

Without failures other than those of probes, every step of a session shows what the ideal step
shows and leaves the files of the ideal ledgers. So what a session shows, and what it leaves, does
not depend on the probes nor on what the queries found when they were built.
-/

import TableStore.Proofs.Files.Fresh
import TableStore.Proofs.Query.Routing
import TableStore.Proofs.Query.Run
import TableStore.Proofs.Query.Scanning
import TableStore.Proofs.Session.Basic

namespace TableStore

/-- A store in which the given probes fail, and nothing else. -/
def Store.probing (files : Files) (probes : List Bool) : Store :=
  { Store.ofFiles files with failingProbes := probes }

/-- Whether a medium takes all paths that a program needs. -/
def Medium.AdmitsProgram (medium : Medium) (program : List Step) : Prop :=
  ∀ name options, .handle name options ∈ program → FileName.isSegment name = true →
    medium.AdmitsTable name ∧
      ∀ handle call, .call handle call ∈ program → Call.Admitted medium ⟨name, options⟩ call

/-- Memory takes all programs. -/
theorem Medium.admitsProgram_memory (program : List Step) : memory.AdmitsProgram program :=
  fun name options _ _ =>
    ⟨admitsTable_memory name, fun _ call _ => call.admitted_memory ⟨name, options⟩⟩

/-- A disk takes all programs in which the names of tables and of columns with an index are
short. -/
theorem Medium.admitsProgram_disk {root : String} {program : List Step}
    (room : root.utf8ByteSize ≤ 3000)
    (tables : ∀ name options, .handle name options ∈ program →
      name.utf8ByteSize ≤ Disk.nameLimit)
    (columns : ∀ handle column, .call handle (.addIndex column) ∈ program ∨
      .call handle (.removeIndex column) ∈ program →
        (FileName.ofStem column).utf8ByteSize ≤ Disk.nameLimit) :
    (disk root).AdmitsProgram program := by
  intro name options opened isTable
  have short := tables name options opened
  have index : ∀ column, (FileName.ofStem column).utf8ByteSize ≤ Disk.nameLimit →
      ∀ isColumn, (disk root).Admits (Place.index name isTable column isColumn).path :=
    fun _ named _ => admits_place_disk room isTable short rfl named
  refine ⟨admitsTable_disk room isTable short, fun handle call called => ?_⟩
  cases call with
  | addIndex column => exact index column (columns handle column (.inl called))
  | removeIndex column => exact index column (columns handle column (.inr called))
  | _ => trivial

namespace Query

variable {medium : Medium}

/-- The query for all rows of a table that the medium takes is valid. -/
theorem valid_all {table : Table} (isTable : FileName.isSegment table.name = true)
    (admits : medium.AdmitsTable table.name) : (all table).Valid medium := by
  rw [all, Valid, Join.AllValid]
  refine ⟨isTable, admits, ?_, trivial⟩
  constructor
  · intro column value found
    rw [Plan.empty, Std.ExtTreeMap.getElem?_empty] at found
    cases found
  · intro column member
    exact absurd member Std.ExtTreeMap.not_mem_empty

/-- Selecting columns keeps a query valid. -/
theorem Valid.select {query : Query} (valid : query.Valid medium) (columns : List String) :
    (query.select columns).Valid medium := by
  obtain ⟨table, plan, joins⟩ := query
  rw [Valid] at valid
  obtain ⟨isTable, admits, routed, foreign⟩ := valid
  rw [Query.select, Valid]
  exact ⟨isTable, admits, ⟨routed.scalar, routed.apart⟩, foreign⟩

/-- Bounding the rows keeps a query valid. -/
theorem Valid.limit {query : Query} (valid : query.Valid medium) (bound : UInt64) :
    (query.limit bound).Valid medium := by
  obtain ⟨table, plan, joins⟩ := query
  rw [Valid] at valid
  obtain ⟨isTable, admits, routed, foreign⟩ := valid
  rw [Query.limit, Valid]
  exact ⟨isTable, admits, ⟨routed.scalar, routed.apart⟩, foreign⟩

/-- Joining with a valid query keeps a query valid. -/
theorem Valid.join {query foreign : Query} (valid : query.Valid medium)
    (alsoValid : foreign.Valid medium) (accepts : Row → Row → Bool) :
    (Query.join foreign accepts query).Valid medium := by
  obtain ⟨table, plan, joins⟩ := query
  rw [Valid] at valid
  obtain ⟨isTable, admits, routed, others⟩ := valid
  rw [Query.join, Valid]
  refine ⟨isTable, admits, routed, ?_⟩
  induction joins with
  | nil =>
      rw [List.nil_append, Join.AllValid]
      exact ⟨alsoValid, others⟩
  | cons join rest ih =>
      obtain ⟨other, pairs⟩ := join
      rw [Join.AllValid] at others
      rw [List.cons_append, Join.AllValid]
      exact ⟨others.1, ih others.2⟩

end Query

namespace Session

/-- Whether a medium takes all paths that a program needs for a table. -/
structure Fits (medium : Medium) (program : List Step) (table : Table) : Prop where
  isTable : FileName.isSegment table.name = true
  admits : medium.AdmitsTable table.name
  calls : ∀ handle call, .call handle call ∈ program → call.Admitted medium table

/-- Whether a session comes to an ideal one. -/
structure Follows (medium : Medium) (program : List Step) (session ideal : Session) : Prop where
  handles : ideal.handles = session.handles
  queries : ideal.queries = session.queries.map Query.scanning
  fits : ∀ table ∈ session.handles, Fits medium program table
  valid : ∀ query ∈ session.queries, query.Valid medium

/-- Whether a step shows and leaves what is expected of it. -/
def Matches (medium : Medium) (program : List Step) (expected : Outcome × Ideal)
    (answer : Outcome × Session) (left : Content) : Prop :=
  answer.1 = expected.1 ∧ left = Ledger.content expected.2.ledgers ∧
    Follows medium program answer.2 expected.2.session

variable {medium : Medium} {program : List Step} {session : Session} {ideal : Ideal}

/-- A session before its first step comes to the ideal one. -/
theorem follows_start : Follows medium program .start Ideal.start.session where
  handles := rfl
  queries := rfl
  fits _ member := absurd member List.not_mem_nil
  valid _ member := absurd member List.not_mem_nil

/-- A session with one more handle comes to the ideal one with it. -/
theorem Follows.addHandle {ideal : Session} (follows : Follows medium program session ideal)
    {table : Table} (fits : Fits medium program table) :
    Follows medium program (session.addHandle table) (ideal.addHandle table) where
  handles := by rw [Session.addHandle, Session.addHandle, follows.handles]
  queries := follows.queries
  fits other member := by
    rcases List.mem_append.mp member with old | new
    · exact follows.fits other old
    · exact List.mem_singleton.mp new ▸ fits
  valid := follows.valid

/-- A session with one more query comes to the ideal one with what the query comes to. -/
theorem Follows.addQuery {ideal : Session} (follows : Follows medium program session ideal)
    {query : Query} (valid : query.Valid medium) :
    Follows medium program (session.addQuery query) (ideal.addQuery query.scanning) where
  handles := follows.handles
  queries := by
    rw [Session.addQuery, Session.addQuery, follows.queries, List.map_append]
    rfl
  fits := follows.fits
  valid other member := by
    rcases List.mem_append.mp member with old | new
    · exact follows.valid other old
    · exact List.mem_singleton.mp new ▸ valid

/-- Something is done with a query if it is done with every query there is. -/
theorem ensures_withQuery (follows : Follows medium program session ideal.session) (number : Nat)
    {next : Query → StateM Store (Outcome × Session)} {expected : Query → Outcome × Ideal}
    (each : ∀ query, query.Valid medium → Ensures medium [] (next query)
      (Ledger.content ideal.ledgers) (Matches medium program (expected query.scanning))) :
    Ensures medium [] (session.withQuery number next) (Ledger.content ideal.ledgers)
      (Matches medium program (ideal.withQuery number expected)) := by
  rw [withQuery, Ideal.withQuery, follows.queries, List.getElem?_map]
  cases found : session.queries[number]? with
  | none => exact .pure ⟨rfl, rfl, follows⟩
  | some query => exact each query (follows.valid query (List.mem_of_getElem? found))

/-- Something is done with a handle if it is done with every handle there is. -/
theorem ensures_withHandle (follows : Follows medium program session ideal.session)
    (number : Nat) {next : Table → StateM Store (Outcome × Session)}
    {expected : Table → Outcome × Ideal}
    (each : ∀ table, Fits medium program table → Ensures medium [] (next table)
      (Ledger.content ideal.ledgers) (Matches medium program (expected table))) :
    Ensures medium [] (session.withHandle number next) (Ledger.content ideal.ledgers)
      (Matches medium program (ideal.withHandle number expected)) := by
  rw [withHandle, Ideal.withHandle, follows.handles]
  cases found : session.handles[number]? with
  | none => exact .pure ⟨rfl, rfl, follows⟩
  | some table => exact each table (follows.fits table (List.mem_of_getElem? found))

/-- A query that is built from a valid one is kept. -/
theorem ensures_built (follows : Follows medium program session ideal.session) {query : Query}
    (valid : query.Valid medium) :
    Ensures medium [] (pure (.built, session.addQuery query)) (Ledger.content ideal.ledgers)
      (Matches medium program (.built, ideal.addQuery query.scanning)) :=
  .pure ⟨rfl, rfl, follows.addQuery valid⟩

/-- What an operation answers is shown, and it leaves the ledgers it is expected to. -/
theorem ensures_shown {ε α : Type} {operation : StoreM ε α} {outcome : Except ε α}
    (shown : Except ε α → Outcome) (expected : Ideal)
    (follows : Follows medium program session expected.session)
    (runs : Runs medium [] operation (Ledger.content ideal.ledgers) outcome
      (Ledger.content expected.ledgers)) :
    Ensures medium [] (do return (shown (← operation.run), session))
      (Ledger.content ideal.ledgers) (Matches medium program (shown outcome, expected)) := by
  apply Ensures.bind runs
  intro answer left reached
  obtain ⟨answered, kept⟩ := reached
  rw [answered, kept]
  exact .pure ⟨rfl, rfl, follows⟩

/-- A filter that is built on a valid query is kept, whatever indexes it finds. -/
theorem ensures_filtered (follows : Follows medium program session ideal.session)
    (criteria : Criteria) {query : Query} (valid : query.Valid medium) :
    Ensures medium [] (do return (.built, session.addQuery (← query.filter criteria)))
      (Ledger.content ideal.ledgers)
      (Matches medium program
        (.built, ideal.addQuery (Ideal.filter criteria query.scanning))) := by
  obtain ⟨table, plan, joins⟩ := query
  rw [Query.Valid] at valid
  obtain ⟨isTable, admits, -, foreign⟩ := valid
  apply (Query.ensures_filter isTable criteria plan joins).bind
  intro answer left reached
  obtain ⟨kept, routed, answered, isRouted, asked⟩ := reached
  have isValid : (Query.mk table routed joins).Valid medium := by
    rw [Query.Valid]
    exact ⟨isTable, admits, isRouted, foreign⟩
  have same : Ideal.filter criteria (Query.mk table plan joins).scanning =
      (Query.mk table routed joins).scanning := by
    rw [Query.scanning, Query.scanning, Ideal.filter, asked, Plan.limit_scanning,
      Plan.selected_scanning]
  rw [kept, answered, same]
  exact ensures_built follows isValid

/-- Changes are merged into the rows of a valid query, or refused. -/
theorem ensures_set (follows : Follows medium program session ideal.session) (changes : Row)
    {query : Query} (valid : query.Valid medium) :
    Ensures medium [] (do return (.rows (← (query.set changes).run), session))
      (Ledger.content ideal.ledgers)
      (Matches medium program
        (match query.setIn ideal.ledgers changes with
          | .ok (rows, ledger) => (.rows (.ok rows), ideal.setLedger query.table.name ledger)
          | .error error => (.rows (.error error), ideal))) := by
  rw [Query.setIn]
  cases accepted : StoredRow.ofRow query.table.options.prettyRows changes with
  | ok stored =>
      exact ensures_shown Outcome.rows (ideal.setLedger query.table.name _) follows
        (Query.runs_set valid accepted)
  | error error =>
      have refused := @Query.runs_set_error medium ideal.ledgers query valid changes error accepted
      simp only []
      split at refused
      · next none =>
          rw [if_pos none]
          have same :
              ideal.setLedger query.table.name (ideal.ledgers query.table.name) = ideal := by
            rw [Ideal.setLedger, Function.update_eq_self]
          simp only [same]
          exact ensures_shown Outcome.rows ideal follows refused
      · next some =>
          rw [if_neg some]
          exact ensures_shown Outcome.rows ideal follows refused

/-- A step of a session shows what the ideal step shows and leaves the files of its ledgers. -/
theorem ensures_perform (follows : Follows medium program session ideal.session)
    (admitted : medium.AdmitsProgram program) {step : Step} (member : step ∈ program) :
    Ensures medium [] (session.perform step) (Ledger.content ideal.ledgers)
      (Matches medium program (ideal.perform step)) := by
  cases step with
  | handle name options =>
      rw [perform, Ideal.perform]
      cases opened : Table.ofName name options with
      | error error => exact .pure ⟨rfl, rfl, follows⟩
      | ok table =>
          refine .pure ⟨rfl, rfl, follows.addHandle ?_⟩
          obtain ⟨rfl, isTable⟩ := Table.of_ofName opened
          obtain ⟨admits, calls⟩ := admitted name options member isTable
          exact ⟨isTable, admits, calls⟩
  | call handle call =>
      apply ensures_withHandle follows
      intro table fits
      exact ensures_shown Outcome.called (ideal.setLedger table.name _) follows
        (Table.obeys fits.isTable fits.admits call (fits.calls handle call member))
  | query handle =>
      apply ensures_withHandle follows
      intro table fits
      have built := ensures_built follows (Query.valid_all fits.isTable fits.admits)
      rwa [Query.scanning_all] at built
  | filter query criteria =>
      apply ensures_withQuery follows
      intro query valid
      exact ensures_filtered follows criteria valid
  | select query columns =>
      apply ensures_withQuery follows
      intro query valid
      rw [← Query.scanning_select]
      exact ensures_built follows (valid.select columns)
  | limit query bound =>
      apply ensures_withQuery follows
      intro query valid
      rw [← Query.scanning_limit]
      exact ensures_built follows (valid.limit bound)
  | join query foreign accepts =>
      apply ensures_withQuery follows
      intro query valid
      apply ensures_withQuery follows
      intro foreign alsoValid
      rw [← Query.scanning_join]
      exact ensures_built follows (valid.join alsoValid accepts)
  | get query =>
      apply ensures_withQuery follows
      intro query valid
      rw [Query.rowsIn_scanning]
      exact ensures_shown Outcome.rows ideal follows (Query.runs_get valid)
  | count query =>
      apply ensures_withQuery follows
      intro query valid
      rw [Query.rowsIn_scanning]
      exact ensures_shown Outcome.count ideal follows (Query.runs_count valid)
  | delete query =>
      apply ensures_withQuery follows
      intro query valid
      rw [Query.deleteIn_scanning, Query.table_scanning]
      exact ensures_shown Outcome.rows (ideal.setLedger query.table.name _) follows
        (Query.runs_delete valid)
  | set query changes =>
      apply ensures_withQuery follows
      intro query valid
      rw [Query.setIn_scanning, Query.table_scanning]
      exact ensures_set follows changes valid

/-- A session that takes steps of a program shows what the ideal session shows and leaves the files
of its ledgers. -/
theorem ensures_run (admitted : medium.AdmitsProgram program) {steps : List Step}
    (taken : ∀ step ∈ steps, step ∈ program)
    (follows : Follows medium program session ideal.session) :
    Ensures medium [] (session.run steps) (Ledger.content ideal.ledgers) fun answer left =>
      answer.1 = (ideal.run steps).1 ∧ left = Ledger.content (ideal.run steps).2.ledgers ∧
        Follows medium program answer.2 (ideal.run steps).2.session := by
  induction steps generalizing session ideal with
  | nil => exact .pure ⟨rfl, rfl, follows⟩
  | cons step rest ih =>
      apply (ensures_perform follows admitted (taken step List.mem_cons_self)).bind
      intro answer left reached
      obtain ⟨shown, kept, following⟩ := reached
      rw [kept]
      have others : ∀ other ∈ rest, other ∈ program :=
        fun other member => taken other (List.mem_cons_of_mem _ member)
      apply (ih others following).bind
      intro last finally' reached
      obtain ⟨alsoShown, alsoKept, alsoFollowing⟩ := reached
      refine .pure ⟨?_, alsoKept, alsoFollowing⟩
      rw [Ideal.run, shown, alsoShown]

/-- A program that starts without files shows what the ideal one shows and leaves the files of its
ledgers, whatever probes fail. -/
theorem ensures_run_start (admitted : medium.AdmitsProgram program) :
    Ensures medium [] (start.run program) (fun _ => none) fun answer left =>
      answer.1 = (Ideal.start.run program).1 ∧
        left = Ledger.content (Ideal.start.run program).2.ledgers ∧
        Follows medium program answer.2 (Ideal.start.run program).2.session := by
  rw [← Ledger.content_empty]
  exact ensures_run admitted (fun _ member => member) follows_start

end Session

end TableStore
