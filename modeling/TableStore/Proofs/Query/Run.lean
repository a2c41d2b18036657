/-
# Running queries

Without failures other than those of probes, a query answers what its ledgers say. The rows that
are visited are taken one after another from the candidates, and a visit only changes the row it
is made to, so every later row is still the one that was selected.
-/

import TableStore.Proofs.Query.Candidates
import TableStore.Proofs.Query.Reference

namespace TableStore

mutual

/-- Whether a query is on tables that the medium takes and asks indexes only for what they can
answer, as do all queries that it joins with. -/
def Query.Valid (medium : Medium) : Query → Prop
  | .mk table plan joins =>
      FileName.isSegment table.name = true ∧ medium.AdmitsTable table.name ∧ plan.Routed ∧
        Join.AllValid medium joins

/-- Whether all queries that are joined with are valid. -/
def Join.AllValid (medium : Medium) : List Join → Prop
  | [] => True
  | .mk foreign _ :: rest => foreign.Valid medium ∧ Join.AllValid medium rest

end

/-- An operation on a table inside a query. -/
theorem Runs.onTable {medium : Medium} {faults : List Fault} {content after : Content} {α : Type}
    {operation : TableM α} {outcome : Except TableError α}
    (runs : Runs medium faults operation content outcome after) :
    Runs medium faults (QueryM.onTable operation) content (outcome.mapError QueryError.table)
      after := by
  change Ensures medium faults (Except.mapError QueryError.table <$> operation.run) content _
  rw [map_eq_pure_bind]
  apply Ensures.bind runs
  rintro _ _ ⟨rfl, rfl⟩
  exact .pure ⟨rfl, rfl⟩

/-- An operation on a joined table inside a query. -/
theorem Runs.onJoined {medium : Medium} {faults : List Fault} {content after : Content}
    {α : Type} {operation : QueryM α} {outcome : Except QueryError α} (name : String)
    (runs : Runs medium faults operation content outcome after) :
    Runs medium faults (QueryM.onJoined name operation) content
      (outcome.mapError (QueryError.join name)) after := by
  change Ensures medium faults (Except.mapError (QueryError.join name) <$> operation.run) content _
  rw [map_eq_pure_bind]
  apply Ensures.bind runs
  rintro _ _ ⟨rfl, rfl⟩
  exact .pure ⟨rfl, rfl⟩

namespace Query

open Ledger

variable {medium : Medium} {ledgers : String → Ledger} {table : Table} {plan : Plan}
  {visit : RowId → Row → TableM Row}

section

variable (isTable : FileName.isSegment table.name = true) (admits : medium.AdmitsTable table.name)

include isTable admits

/-- Visiting rows one after another answers what each visit answers and leaves what all of them
leave, when a visit puts something in the place of its row. -/
theorem runs_collect {answer : StoredRow → Row} {next : StoredRow → Option StoredRow}
    (visited : ∀ (ledgers : String → Ledger) id stored,
      (ledgers table.name).rows[id]? = some stored →
        Runs medium [] (visit id stored.row) (content ledgers) (.ok (answer stored))
          (content (Function.update ledgers table.name
            ((ledgers table.name).put id (next stored)))))
    {entries : List (RowId × StoredRow)} (distinct : (entries.map Prod.fst).Nodup)
    (listed : ∀ entry ∈ entries, (ledgers table.name).rows[entry.1]? = some entry.2)
    (found : Nat) :
    Runs medium [] (collect table plan visit found (entries.map Prod.fst)) (content ledgers)
      (.ok ((plan.room found (entries.filter fun entry =>
        plan.criteria.accept entry.2.row)).map fun entry => answer entry.2))
      (content (Function.update ledgers table.name
        ((ledgers table.name).replaceAll next (plan.room found (entries.filter fun entry =>
          plan.criteria.accept entry.2.row))))) := by
  induction entries generalizing ledgers found with
  | nil =>
      rw [List.filter_nil, Plan.room_nil, replaceAll, Function.update_eq_self]
      exact .pure []
  | cons entry rest ih =>
      obtain ⟨id, stored⟩ := entry
      rw [List.map_cons, List.nodup_cons] at distinct
      have here := listed (id, stored) List.mem_cons_self
      have others : ∀ entry ∈ rest, (ledgers table.name).rows[entry.1]? = some entry.2 :=
        fun entry member => listed entry (List.mem_cons_of_mem _ member)
      rw [List.map_cons, collect]
      cases allowed : plan.allows found with
      | false =>
          rw [Plan.room_of_not_allows allowed, replaceAll, Function.update_eq_self]
          exact .pure []
      | true =>
          simp only [Bool.not_true, Bool.false_eq_true, if_false]
          have row : (ledgers table.name).row? id = some stored.row := by
            rw [row?, here]
            rfl
          refine Runs.bind (row ▸ Table.runs_read_row? isTable admits id) ?_
          simp only []
          by_cases accepted : plan.criteria.accept stored.row = true
          · have following : ∀ entry ∈ rest,
                (Function.update ledgers table.name ((ledgers table.name).put id (next stored))
                  table.name).rows[entry.1]? = some entry.2 := by
              intro entry member
              have apart : id ≠ entry.1 := fun same =>
                distinct.1 (List.mem_map.mpr ⟨entry, member, same.symm⟩)
              rw [Function.update_self, getElem?_put, if_neg apart]
              exact others entry member
            have continued := ih distinct.2 following (found + 1)
            rw [Function.update_self, Function.update_idem] at continued
            have kept : ((id, stored) :: rest).filter (fun entry =>
                  plan.criteria.accept entry.2.row) =
                (id, stored) :: rest.filter fun entry => plan.criteria.accept entry.2.row :=
              List.filter_cons_of_pos accepted
            rw [if_pos accepted, kept, Plan.room_cons allowed]
            exact Runs.bind (visited ledgers id stored here) (Runs.bind continued (.pure _))
          · have skipped : ((id, stored) :: rest).filter (fun entry =>
                  plan.criteria.accept entry.2.row) =
                rest.filter fun entry => plan.criteria.accept entry.2.row :=
              List.filter_cons_of_neg accepted
            rw [if_neg accepted, skipped]
            exact ih distinct.2 others found

/-- Visiting rows fails as the first visit does, if there is any row to visit. -/
theorem runs_collect_error {error : TableError}
    (visited : ∀ id stored, (ledgers table.name).rows[id]? = some stored →
      Runs medium [] (visit id stored.row) (content ledgers) (.error error) (content ledgers))
    {entries : List (RowId × StoredRow)}
    (listed : ∀ entry ∈ entries, (ledgers table.name).rows[entry.1]? = some entry.2)
    (found : Nat) :
    Runs medium [] (collect table plan visit found (entries.map Prod.fst)) (content ledgers)
      (if (plan.room found (entries.filter fun entry =>
          plan.criteria.accept entry.2.row)).isEmpty then .ok [] else .error error)
      (content ledgers) := by
  induction entries with
  | nil =>
      rw [List.filter_nil, Plan.room_nil]
      exact .pure []
  | cons entry rest ih =>
      obtain ⟨id, stored⟩ := entry
      have here := listed (id, stored) List.mem_cons_self
      have others : ∀ entry ∈ rest, (ledgers table.name).rows[entry.1]? = some entry.2 :=
        fun entry member => listed entry (List.mem_cons_of_mem _ member)
      rw [List.map_cons, collect]
      cases allowed : plan.allows found with
      | false =>
          rw [Plan.room_of_not_allows allowed]
          exact .pure []
      | true =>
          simp only [Bool.not_true, Bool.false_eq_true, if_false]
          have row : (ledgers table.name).row? id = some stored.row := by
            rw [row?, here]
            rfl
          refine Runs.bind (row ▸ Table.runs_read_row? isTable admits id) ?_
          by_cases accepted : plan.criteria.accept stored.row = true
          · have kept : ((id, stored) :: rest).filter (fun entry =>
                  plan.criteria.accept entry.2.row) =
                (id, stored) :: rest.filter fun entry => plan.criteria.accept entry.2.row :=
              List.filter_cons_of_pos accepted
            simp only [accepted, if_true]
            rw [kept, Plan.room_cons allowed, List.isEmpty_cons, if_neg Bool.false_ne_true]
            exact Runs.bind_error (visited id stored here)
          · have skipped : ((id, stored) :: rest).filter (fun entry =>
                  plan.criteria.accept entry.2.row) =
                rest.filter fun entry => plan.criteria.accept entry.2.row :=
              List.filter_cons_of_neg accepted
            simp only [accepted, Bool.false_eq_true, if_false]
            rw [skipped]
            exact ih others

omit isTable admits in
/-- The candidates that meet what is left to evaluate are the rows that a plan selects. -/
theorem room_candidates {resolved : Plan} (routed : resolved.Routed)
    (asked : resolved.scanning = plan.scanning) (ledger : Ledger) :
    resolved.room 0 ((ledger.candidates resolved).filter fun entry =>
      resolved.criteria.accept entry.2.row) = ledger.selected plan := by
  have limits : resolved.limit = plan.limit := by
    have same := congrArg Plan.limit asked
    rwa [Plan.scanning, Plan.scanning, Plan.limit_foldl_fallBack,
      Plan.limit_foldl_fallBack] at same
  have rows : ((ledger.candidates resolved).filter fun entry =>
        resolved.criteria.accept entry.2.row) =
      ledger.rows.toList.filter fun entry => plan.scanning.criteria.accept entry.2.row := by
    rw [candidates, List.filter_filter]
    apply List.filter_congr
    intro entry _
    rw [← asked, routed.accept_scanning]
  rw [rows, selected, Plan.room, Plan.room, limits]

omit isTable admits in
/-- The candidates are distinct rows of the ledger. -/
theorem listed_of_mem_candidates (ledger : Ledger) (plan : Plan) :
    ((ledger.candidates plan).map Prod.fst).Nodup ∧
      ∀ entry ∈ ledger.candidates plan, ledger.rows[entry.1]? = some entry.2 := by
  refine ⟨nodup_of_sublist List.filter_sublist, fun entry member => ?_⟩
  exact Std.ExtTreeMap.mem_toList_iff_getElem?_eq_some.mp (List.mem_of_mem_filter member)

/-- A traversal visits the rows that its plan selects, after it has fetched what it joins with,
and joins what the visits answer. -/
theorem runs_traverse {answer : StoredRow → Row} {next : StoredRow → Option StoredRow}
    (routed : plan.Routed) {joins : List Join}
    (fetched : Runs medium [] (fetchAll joins) (content ledgers)
      (.ok (Join.rowsInAll ledgers joins)) (content ledgers))
    (visited : ∀ (ledgers : String → Ledger) id stored,
      (ledgers table.name).rows[id]? = some stored →
        Runs medium [] (visit id stored.row) (content ledgers) (.ok (answer stored))
          (content (Function.update ledgers table.name
            ((ledgers table.name).put id (next stored))))) :
    Runs medium [] ((Query.mk table plan joins).traverse visit) (content ledgers)
      (.ok (Join.applyAll joins (Join.rowsInAll ledgers joins)
        (((ledgers table.name).selected plan).map fun entry => answer entry.2)))
      (content (Function.update ledgers table.name
        ((ledgers table.name).replaceAll next ((ledgers table.name).selected plan)))) := by
  refine Ensures.run_bind (Plan.ensures_resolve isTable routed).lift ?_ ?_
  swap
  · rintro _ _ ⟨_, same, -⟩
    cases same
  rintro resolved _ ⟨_, same, rfl, stillRouted, asked, indexed⟩
  cases same
  obtain ⟨distinct, listed⟩ := listed_of_mem_candidates (ledgers table.name) resolved
  have collected := @runs_collect medium ledgers table resolved visit isTable admits answer next
    visited _ distinct listed 0
  rw [room_candidates stillRouted asked] at collected
  refine Runs.bind (Plan.runs_startingIds isTable admits stillRouted indexed).onTable ?_
  exact Runs.bind fetched (Runs.bind collected.onTable (.pure _))

omit isTable admits in
/-- Nothing is joined with no rows. -/
theorem applyAll_nil (joins : List Join) (fetched : List (List Row)) :
    Join.applyAll joins fetched [] = [] := by
  induction joins generalizing fetched with
  | nil => cases fetched <;> rfl
  | cons join rest ih =>
      cases fetched with
      | nil => rfl
      | cons foreign others => exact ih others

/-- A traversal whose visits fail does so if there is any row to visit. -/
theorem runs_traverse_error {error : TableError} (routed : plan.Routed) {joins : List Join}
    (fetched : Runs medium [] (fetchAll joins) (content ledgers)
      (.ok (Join.rowsInAll ledgers joins)) (content ledgers))
    (visited : ∀ id stored, (ledgers table.name).rows[id]? = some stored →
      Runs medium [] (visit id stored.row) (content ledgers) (.error error) (content ledgers)) :
    Runs medium [] ((Query.mk table plan joins).traverse visit) (content ledgers)
      (if ((ledgers table.name).selected plan).isEmpty then .ok [] else .error (.table error))
      (content ledgers) := by
  refine Ensures.run_bind (Plan.ensures_resolve isTable routed).lift ?_ ?_
  swap
  · rintro _ _ ⟨_, same, -⟩
    cases same
  rintro resolved _ ⟨_, same, rfl, stillRouted, asked, indexed⟩
  cases same
  obtain ⟨-, listed⟩ := listed_of_mem_candidates (ledgers table.name) resolved
  have collected := (@runs_collect_error medium ledgers table resolved visit isTable admits error
    visited _ listed 0).onTable
  rw [room_candidates stillRouted asked] at collected
  refine Runs.bind (Plan.runs_startingIds isTable admits stillRouted indexed).onTable ?_
  refine Runs.bind fetched ?_
  split
  · next none =>
      rw [if_pos none] at collected
      refine Runs.bind collected ?_
      rw [applyAll_nil]
      exact .pure []
  · next some =>
      rw [if_neg some] at collected
      exact Runs.bind_error collected

end

mutual

/-- A valid query answers its rows by the ledgers and changes nothing. -/
theorem runs_get : ∀ {query : Query}, query.Valid medium →
    Runs medium [] query.get (content ledgers) (.ok (query.rowsIn ledgers)) (content ledgers)
  | .mk table plan joins, valid => by
      rw [Query.Valid] at valid
      obtain ⟨isTable, admits, routed, foreign⟩ := valid
      have traversed := @runs_traverse medium ledgers table plan
        (fun _ row => return plan.project row) isTable admits
        (fun stored => plan.project stored.row) some routed joins (runs_fetchAll foreign)
        fun ledgers id stored present => by
          rw [put_of_getElem? present, Function.update_eq_self]
          exact .pure _
      rw [replaceAll_some fun _ => getElem?_of_mem_selected, Function.update_eq_self] at traversed
      rw [get_eq_traverse, rowsIn]
      exact traversed

/-- Valid queries that are joined with answer their rows by the ledgers. -/
theorem runs_fetchAll : ∀ {joins : List Join}, Join.AllValid medium joins →
    Runs medium [] (fetchAll joins) (content ledgers) (.ok (Join.rowsInAll ledgers joins))
      (content ledgers)
  | [], _ => .pure []
  | .mk foreign _ :: rest, valid => by
      rw [Join.AllValid] at valid
      rw [fetchAll, Join.rowsInAll]
      exact Runs.bind ((runs_get valid.1).onJoined _) (Runs.bind (runs_fetchAll valid.2) (.pure _))

end

/-- The number of rows of a valid query is counted. -/
theorem runs_count {query : Query} (valid : query.Valid medium) :
    Runs medium [] query.count (content ledgers) (.ok (query.rowsIn ledgers).length)
      (content ledgers) :=
  Runs.bind (runs_get valid) (.pure _)

/-- Removing the rows of a valid query answers them as they were. -/
theorem runs_delete {query : Query} (valid : query.Valid medium) :
    Runs medium [] query.delete (content ledgers) (.ok (query.deleteIn ledgers).1)
      (content (Function.update ledgers query.table.name (query.deleteIn ledgers).2)) := by
  obtain ⟨table, plan, joins⟩ := query
  rw [Query.Valid] at valid
  obtain ⟨isTable, admits, routed, foreign⟩ := valid
  have traversed := @runs_traverse medium ledgers table plan
    (fun id row => do
      discard (table.erase id)
      return plan.project row) isTable admits (fun stored => plan.project stored.row)
    (fun _ => none) routed joins (runs_fetchAll foreign) ?_
  · rw [deleteIn, rowsIn]
    exact traversed
  intro ledgers id stored present
  have required : (ledgers table.name).require id = .ok stored := by
    rw [Ledger.require, present]
  have erased : Runs medium [] (discard (table.erase id)) (content ledgers) (.ok ())
      (content (Function.update ledgers table.name ((ledgers table.name).put id none))) := by
    change Runs medium [] ((fun _ => ()) <$> table.erase id) _ _ _
    rw [map_eq_pure_bind]
    exact Runs.bind (Table.runs_erase isTable admits required) (.pure ())
  exact Runs.bind erased (.pure _)

/-- Merging changes into the rows of a valid query answers them as they are then. -/
theorem runs_set {query : Query} (valid : query.Valid medium) {changes : Row}
    {stored : StoredRow}
    (accepted : StoredRow.ofRow query.table.options.prettyRows changes = .ok stored) :
    Runs medium [] (query.set changes) (content ledgers)
      (.ok (Join.applyAll query.joins (Join.rowsInAll ledgers query.joins)
        (((ledgers query.table.name).selected query.plan).map fun entry =>
          query.plan.project (entry.2.merge stored).row)))
      (content (Function.update ledgers query.table.name
        (query.ledgerAfter ledgers fun old => some (old.merge stored)))) := by
  obtain ⟨table, plan, joins⟩ := query
  rw [Query.Valid] at valid
  obtain ⟨isTable, admits, routed, foreign⟩ := valid
  have traversed := @runs_traverse medium ledgers table plan
    (fun id _ => do return plan.project (← table.update id changes)) isTable admits
    (fun old => plan.project (old.merge stored).row) (fun old => some (old.merge stored)) routed
    joins (runs_fetchAll foreign) ?_
  · exact traversed
  intro ledgers id old present
  have required : (ledgers table.name).require id = .ok old := by
    rw [Ledger.require, present]
  exact Runs.bind (Table.runs_update isTable admits accepted required) (.pure _)

/-- Changes that cannot be stored are refused by the first row of a valid query. -/
theorem runs_set_error {query : Query} (valid : query.Valid medium) {changes : Row}
    {error : TableError}
    (refused : StoredRow.ofRow query.table.options.prettyRows changes = .error error) :
    Runs medium [] (query.set changes) (content ledgers)
      (if ((ledgers query.table.name).selected query.plan).isEmpty then .ok []
        else .error (.table error)) (content ledgers) := by
  obtain ⟨table, plan, joins⟩ := query
  rw [Query.Valid] at valid
  obtain ⟨isTable, admits, routed, foreign⟩ := valid
  refine runs_traverse_error isTable admits routed (runs_fetchAll foreign) ?_
  intro id old _
  have checked := @Table.runs_checkScalars medium (content ledgers) table.options.prettyRows changes
  rw [show StoredRow.ofRow table.options.prettyRows changes = .error error from refused] at checked
  exact Runs.bind_error (Runs.bind_error checked)

end Query

end TableStore
