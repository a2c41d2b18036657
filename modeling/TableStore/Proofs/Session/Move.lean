/-
# Moves of sessions

Besides taking its steps, a session can look at what the steps do not show: whether a table has
rows, which columns have an index, an index as it is stored, whether the indexes agree with the
rows, and how a query would run. On two stores, it sees and does the same in both if its tables
are served alike.
-/

import TableStore.Proofs.Parallel.Query
import TableStore.Proofs.Session.Basic

namespace TableStore

/-- A step of a session, or a look at something. -/
inductive Move where
  | step (step : Step)
  | isEmpty (handle : Nat)
  | hasIndex (handle : Nat) (column : String)
  | readIndex (handle : Nat) (column : String)
  | indexColumns (handle : Nat)
  | verifyIndexes (handle : Nat)
  | explain (query : Nat)

/-- What a move shows. -/
inductive Sight where
  /-- There is no handle or no query with the number that was given. -/
  | unknown
  | outcome (outcome : Outcome)
  | isEmpty (result : Except TableError Bool)
  | hasIndex (found : Bool)
  | index (result : Except TableError IndexTable)
  | columns (result : Except TableError (List String))
  | verified (result : Except TableError Unit)
  | explained (explanation : Explanation)

namespace Move

/-- The name of the table that a move opens a handle on. -/
def opened? : Move → Option String
  | .step (.handle name _) => some name
  | _ => none

/-- The column that a move names the index on. -/
def column? : Move → Option String
  | .step (.call _ call) => call.column?
  | .readIndex _ column => some column
  | _ => none

/-- Whether a move removes a table, if there is the handle that it names. -/
def drops : Move → Bool
  | .step (.call _ .drop) => true
  | _ => false

/-- Whether a move opens handles on tables with certain names only, and names only indexes that are
known for them. -/
structure Within (names : String → Prop) (known : String → String → Prop) (move : Move) :
    Prop where
  opened : ∀ name, move.opened? = some name → FileName.isSegment name = true → names name
  asked : ∀ column, move.column? = some column → FileName.isSegment column = true →
    ∀ name, names name → known name column

end Move

namespace Session

/-- Look at the table that the handle with a number is on. -/
def look (session : Session) (number : Nat) (view : Table → StateM Store Sight) :
    StateM Store (Sight × Session) :=
  match session.handles[number]? with
  | some table => do return (← view table, session)
  | none => return (.unknown, session)

/-- Make a move on the store. -/
def move (session : Session) : Move → StateM Store (Sight × Session)
  | .step step => do
      let (outcome, next) ← session.perform step
      return (.outcome outcome, next)
  | .isEmpty handle =>
      session.look handle fun table => do return .isEmpty (← table.isEmpty.run)
  | .hasIndex handle column =>
      session.look handle fun table => do return .hasIndex (← table.hasIndex column)
  | .readIndex handle column =>
      session.look handle fun table => do return .index (← (table.readIndex column).run)
  | .indexColumns handle =>
      session.look handle fun table => do return .columns (← table.indexColumns.run)
  | .verifyIndexes handle =>
      session.look handle fun table => do return .verified (← table.verifyIndexes.run)
  | .explain query =>
      match session.queries[query]? with
      | some query => do return (.explained (← query.explain), session)
      | none => return (.unknown, session)

/-- Make moves one after another, and tell what each of them shows. -/
def watch (session : Session) : List Move → StateM Store (List Sight × Session)
  | [] => return ([], session)
  | move :: rest => do
      let (sight, next) ← session.move move
      let (sights, last) ← next.watch rest
      return (sight :: sights, last)

/-- The table to which a step makes changes, if it does. -/
def changed? (session : Session) : Step → Option Table
  | .call handle _ => session.handles[handle]?
  | .delete query | .set query _ => session.queries[query]?.map Query.table
  | _ => none

/-- The name of the table that a step removes, if it does. -/
def removed? (session : Session) : Step → Option String
  | .call handle .drop => session.handles[handle]?.map Table.name
  | _ => none

/-- A table is changed if it is removed. -/
theorem exists_changed_of_removed (session : Session) {step : Step} {name : String}
    (removed : session.removed? step = some name) :
    ∃ table, session.changed? step = some table ∧ table.name = name := by
  cases step with
  | call handle call =>
      cases call with
      | drop => exact Option.map_eq_some_iff.mp removed
      | _ => cases removed
  | _ => cases removed

/-- A step that removes a table is one that drops it. -/
theorem drops_of_removed (session : Session) {step : Step} {name : String}
    (removed : session.removed? step = some name) : (Move.step step).drops = true := by
  cases step with
  | call handle call =>
      cases call with
      | drop => rfl
      | _ => cases removed
  | _ => cases removed

/-- Whether the handles and the queries of a session are on tables with certain names only. -/
structure On (names : String → Prop) (session : Session) : Prop where
  handles : ∀ table ∈ session.handles, names table.name
  queries : ∀ query ∈ session.queries, query.On names

variable {names : String → Prop} {known : String → String → Prop} {session : Session}

/-- A session before its first step is on no tables. -/
theorem on_start : start.On names where
  handles _ member := absurd member List.not_mem_nil
  queries _ member := absurd member List.not_mem_nil

/-- One more handle on a table with such a name is kept. -/
theorem On.addHandle (isOn : session.On names) {table : Table} (named : names table.name) :
    (session.addHandle table).On names where
  handles other member := by
    rcases List.mem_append.mp member with old | new
    · exact isOn.handles other old
    · exact List.mem_singleton.mp new ▸ named
  queries := isOn.queries

/-- One more query on such tables is kept. -/
theorem On.addQuery (isOn : session.On names) {query : Query} (alsoOn : query.On names) :
    (session.addQuery query).On names where
  handles := isOn.handles
  queries other member := by
    rcases List.mem_append.mp member with old | new
    · exact isOn.queries other old
    · exact List.mem_singleton.mp new ▸ alsoOn

/-- A step makes changes to a table with such a name. -/
theorem On.changed (isOn : session.On names) {step : Step} {table : Table}
    (changed : session.changed? step = some table) : names table.name := by
  cases step with
  | call handle call => exact isOn.handles table (List.mem_of_getElem? changed)
  | delete query | set query changes =>
      obtain ⟨query, found, rfl⟩ := Option.map_eq_some_iff.mp changed
      exact (isOn.queries query (List.mem_of_getElem? found)).table
  | _ => cases changed

variable {relation : Files → Files → Prop} {store : Store}

/-- Something is done in parallel with a query if it is with every query there is. -/
theorem parallel_withQuery (isOn : session.On names) (number : Nat)
    {next : Query → StateM Store (Outcome × Session)}
    (each : ∀ query : Query, query.On names → session.queries[number]? = some query →
      Parallel relation store (next query) fun answer => answer.2.On names) :
    Parallel relation store (session.withQuery number next) fun answer => answer.2.On names := by
  rw [withQuery]
  cases found : session.queries[number]? with
  | none => exact .pure isOn
  | some query => exact each query (isOn.queries query (List.mem_of_getElem? found)) found

/-- Something is done in parallel with a handle if it is with every handle there is. -/
theorem parallel_withHandle (isOn : session.On names) (number : Nat)
    {next : Table → StateM Store (Outcome × Session)}
    (each : ∀ table : Table, names table.name → session.handles[number]? = some table →
      Parallel relation store (next table) fun answer => answer.2.On names) :
    Parallel relation store (session.withHandle number next) fun answer => answer.2.On names := by
  rw [withHandle]
  cases found : session.handles[number]? with
  | none => exact .pure isOn
  | some table => exact each table (isOn.handles table (List.mem_of_getElem? found)) found

/-- What is done in parallel is shown in parallel. -/
theorem parallel_shown {ε α β : Type} {operation : StoreM ε α} (isOn : session.On names)
    (tries : Tries relation store operation anything) (shown : Except ε α → β) :
    Parallel relation store (do return (shown (← operation.run), session)) fun answer =>
      answer.2.On names :=
  Parallel.bind tries fun _ _ => .pure isOn

/-- A step is taken in parallel if the tables are shown in parallel and the one that it changes is
edited, or removed, in parallel. -/
theorem parallel_perform_of_changed
    (visible : ∀ table : Table, names table.name → table.Visible relation (known table.name))
    (isOn : session.On names) {step : Step}
    (edited : ∀ table, session.changed? step = some table →
      table.Editable relation (known table.name))
    (removed : ∀ name, session.removed? step = some name →
      Files.Changed relation (Files.deleteAll name))
    (within : (Move.step step).Within names known) :
    Parallel relation store (session.perform step) fun answer => answer.2.On names := by
  cases step with
  | handle name options =>
      rw [perform]
      cases opened : Table.ofName name options with
      | error error => exact .pure isOn
      | ok table =>
          obtain ⟨rfl, isTable⟩ := Table.of_ofName opened
          exact .pure (isOn.addHandle (within.opened name rfl isTable))
  | call handle call =>
      apply parallel_withHandle isOn
      intro table named found
      refine parallel_shown isOn ((edited table found).tries_perform
        (fun column asked isColumn => within.asked column asked isColumn table.name named)
        fun dropped => ?_) Outcome.called
      rw [dropped] at removed
      exact removed table.name (congrArg (Option.map Table.name) found)
  | query handle =>
      apply parallel_withHandle isOn
      intro table named _
      exact .pure (isOn.addQuery (Query.on_all named))
  | filter query criteria =>
      apply parallel_withQuery isOn
      intro query alsoOn _
      exact (Query.parallel_filter visible alsoOn criteria).bind fun _ filtered =>
        .pure (isOn.addQuery filtered)
  | select query columns =>
      apply parallel_withQuery isOn
      intro query alsoOn _
      exact .pure (isOn.addQuery (alsoOn.select columns))
  | limit query bound =>
      apply parallel_withQuery isOn
      intro query alsoOn _
      exact .pure (isOn.addQuery (alsoOn.limit bound))
  | join query foreign accepts =>
      apply parallel_withQuery isOn
      intro query alsoOn _
      apply parallel_withQuery isOn
      intro foreign foreignOn _
      exact .pure (isOn.addQuery (alsoOn.join foreignOn accepts))
  | get query =>
      apply parallel_withQuery isOn
      intro query alsoOn _
      exact parallel_shown isOn (Query.tries_get visible query alsoOn) Outcome.rows
  | count query =>
      apply parallel_withQuery isOn
      intro query alsoOn _
      exact parallel_shown isOn (Query.tries_count visible alsoOn) Outcome.count
  | delete query =>
      apply parallel_withQuery isOn
      intro query alsoOn found
      have own := edited query.table (congrArg (Option.map Query.table) found)
      refine parallel_shown isOn (Query.tries_traverse visible alsoOn fun id row => ?_)
        Outcome.rows
      exact Tries.andThen ((own.tries_erase (own.writable id)).bind fun _ _ => .pure trivial)
        fun _ => .pure trivial
  | set query changes =>
      apply parallel_withQuery isOn
      intro query alsoOn found
      have own := edited query.table (congrArg (Option.map Query.table) found)
      refine parallel_shown isOn (Query.tries_traverse visible alsoOn fun id row => ?_)
        Outcome.rows
      exact (own.tries_update (own.writable id) changes).bind fun _ _ => .pure trivial

/-- What a change to a table and its removal keep is kept by a step. -/
theorem perform_same {property : Files → Prop} {session : Session} {step : Step}
    (edited : ∀ table, session.changed? step = some table →
      table.Editable (Files.Same property) fun _ => True)
    (removed : ∀ name, session.removed? step = some name →
      Files.Changed (Files.Same property) (Files.deleteAll name))
    (holds : property store.files) : property ((session.perform step).run store).2.files := by
  have isOn : session.On fun _ => True :=
    ⟨fun _ _ => trivial, fun query _ => query.on_any fun _ => trivial⟩
  have within : (Move.step step).Within (fun _ => True) fun _ _ => True :=
    ⟨fun _ _ _ => trivial, fun _ _ _ _ _ => trivial⟩
  obtain ⟨-, -, related⟩ := parallel_perform_of_changed
    (fun table _ => table.visible_same property) isOn edited removed within store store
      (.refl ⟨rfl, holds⟩)
  exact related.files.2

section

variable (editable : ∀ table : Table, names table.name →
  table.Editable relation (known table.name))

include editable

/-- A table is looked at in parallel. -/
theorem parallel_look (isOn : session.On names) (number : Nat)
    {view : Table → StateM Store Sight}
    (each : ∀ table : Table, table.Editable relation (known table.name) → names table.name →
      Parallel relation store (view table) anything) :
    Parallel relation store (session.look number view) fun answer => answer.2.On names := by
  rw [look]
  cases found : session.handles[number]? with
  | none => exact .pure isOn
  | some table =>
      have named := isOn.handles table (List.mem_of_getElem? found)
      exact (each table (editable table named) named).bind fun _ _ => .pure isOn

/-- A move is made in parallel if the tables are edited in parallel and the one that it removes, if
it does, is removed in parallel. -/
theorem parallel_move_of_removed (isOn : session.On names) {move : Move}
    (removed : ∀ step, move = .step step → ∀ name, session.removed? step = some name →
      Files.Changed relation (Files.deleteAll name))
    (within : move.Within names known) :
    Parallel relation store (session.move move) fun answer => answer.2.On names := by
  cases move with
  | step step =>
      exact (parallel_perform_of_changed (fun table named => (editable table named).toVisible) isOn
        (fun table changed => editable table (isOn.changed changed)) (removed step rfl)
        within).bind fun _ kept => .pure kept
  | isEmpty handle =>
      apply parallel_look editable isOn
      intro table here _
      have asked : Tries relation store table.isEmpty anything :=
        here.tries_rowIds.bind fun _ _ => .pure trivial
      exact Parallel.bind asked fun _ _ => .pure trivial
  | hasIndex handle column =>
      apply parallel_look editable isOn
      intro table here _
      exact (here.toVisible.parallel_hasIndex column).bind fun _ _ => .pure trivial
  | readIndex handle column =>
      apply parallel_look editable isOn
      intro table here named
      exact Parallel.bind (Table.tries_readIndex fun isColumn =>
        here.toVisible.index column isColumn (within.asked column rfl isColumn table.name named))
          fun _ _ => .pure trivial
  | indexColumns handle =>
      apply parallel_look editable isOn
      intro table here _
      exact Parallel.bind here.tries_indexColumns fun _ _ => .pure trivial
  | verifyIndexes handle =>
      apply parallel_look editable isOn
      intro table here _
      exact Parallel.bind here.tries_verifyIndexes fun _ _ => .pure trivial
  | explain query =>
      rw [Session.move]
      cases found : session.queries[query]? with
      | none => exact .pure isOn
      | some query =>
          have alsoOn := isOn.queries query (List.mem_of_getElem? found)
          exact (Query.parallel_explain (fun table named => (editable table named).toVisible)
            alsoOn).bind fun _ _ => .pure isOn

/-- A move is made in parallel if the tables are edited in parallel and removed in parallel where it
drops one. -/
theorem parallel_move (isOn : session.On names) {move : Move}
    (removed : move.drops = true → ∀ name, names name →
      Files.Changed relation (Files.deleteAll name))
    (within : move.Within names known) :
    Parallel relation store (session.move move) fun answer => answer.2.On names := by
  refine parallel_move_of_removed editable isOn (fun step same name gone => ?_) within
  obtain ⟨table, found, rfl⟩ := session.exists_changed_of_removed gone
  exact removed (same ▸ session.drops_of_removed gone) table.name (isOn.changed found)

/-- Moves are made in parallel if the tables are edited in parallel and removed in parallel where
one of them drops one. -/
theorem parallel_watch (isOn : session.On names) {moves : List Move}
    (removed : ∀ move ∈ moves, move.drops = true → ∀ name, names name →
      Files.Changed relation (Files.deleteAll name))
    (within : ∀ move ∈ moves, move.Within names known) :
    Parallel relation store (session.watch moves) fun answer => answer.2.On names := by
  induction moves generalizing session with
  | nil => exact .pure isOn
  | cons move rest ih =>
      rw [watch]
      refine (parallel_move editable isOn (removed move List.mem_cons_self)
        (within move List.mem_cons_self)).bind fun answer kept => ?_
      exact (ih kept (fun other member => removed other (List.mem_cons_of_mem _ member))
        fun other member => within other (List.mem_cons_of_mem _ member)).bind
          fun _ ended => .pure ended

end

end Session

end TableStore
