/-
# What a query answers

The rows of a query by its ledgers alone: those of its own table that meet all criteria, cut at
the limit, each projected, and then joined with the rows of the other queries. Neither indexes nor
files have a part in this.
-/

import TableStore.Proofs.Query.Plan
import TableStore.Proofs.Table.Machine
import TableStore.Query.Basic

namespace TableStore

namespace Plan

/-- The first of some rows, as many as a plan allows besides those already found. -/
def room {α : Type} (plan : Plan) (found : Nat) (rows : List α) : List α :=
  match plan.limit with
  | some limit => rows.take (limit.toNat - found)
  | none => rows

section

variable {α : Type} {plan : Plan} {found : Nat}

/-- A limit cuts rows to what it leaves beyond those that were found. -/
theorem room_of_limit {limit : UInt64} (bounded : plan.limit = some limit) (rows : List α) :
    plan.room found rows = rows.take (limit.toNat - found) := by
  rw [room, bounded]

/-- There is no room once the limit is reached. -/
theorem room_of_not_allows (full : plan.allows found = false) (rows : List α) :
    plan.room found rows = [] := by
  unfold allows at full
  split at full
  · next limit bounded =>
      have reached : limit.toNat - found = 0 := by
        have less := of_decide_eq_false full
        omega
      rw [room_of_limit bounded, reached, List.take_zero]
  · cases full

/-- Below the limit there is room for the next row. -/
theorem room_cons (allowed : plan.allows found = true) (row : α) (rows : List α) :
    plan.room found (row :: rows) = row :: plan.room (found + 1) rows := by
  unfold allows at allowed
  split at allowed
  · next limit bounded =>
      have left : limit.toNat - found = limit.toNat - (found + 1) + 1 := by
        have less := of_decide_eq_true allowed
        omega
      rw [room_of_limit bounded, room_of_limit bounded, left, List.take_succ_cons]
  · next unbounded =>
      unfold room
      rw [unbounded]

/-- No rows are cut to none. -/
@[simp]
theorem room_nil : plan.room found ([] : List α) = [] := by
  unfold room
  split
  · exact List.take_nil
  · rfl

/-- Cutting rows leaves some of them, in order. -/
theorem room_sublist (rows : List α) : (plan.room found rows).Sublist rows := by
  unfold room
  split
  · exact List.take_sublist _ rows
  · exact List.Sublist.refl rows

end

end Plan

namespace Ledger

/-- The rows that a plan selects: those that meet all it asks for, cut at its limit. -/
def selected (ledger : Ledger) (plan : Plan) : List (RowId × StoredRow) :=
  plan.room 0 (ledger.rows.toList.filter fun entry =>
    plan.scanning.criteria.accept entry.2.row)

/-- Put something else in place of each of some rows. -/
def replaceAll (ledger : Ledger) (next : StoredRow → Option StoredRow) :
    List (RowId × StoredRow) → Ledger
  | [] => ledger
  | entry :: rest => (ledger.put entry.1 (next entry.2)).replaceAll next rest

/-- A selected row is one of the ledger. -/
theorem mem_of_mem_selected {ledger : Ledger} {plan : Plan} {entry : RowId × StoredRow}
    (member : entry ∈ ledger.selected plan) : entry ∈ ledger.rows.toList :=
  List.mem_of_mem_filter ((Plan.room_sublist _).subset member)

/-- A selected row is under its identifier. -/
theorem getElem?_of_mem_selected {ledger : Ledger} {plan : Plan} {entry : RowId × StoredRow}
    (member : entry ∈ ledger.selected plan) : ledger.rows[entry.1]? = some entry.2 :=
  Std.ExtTreeMap.mem_toList_iff_getElem?_eq_some.mp (mem_of_mem_selected member)

/-- Some of the rows of a ledger have distinct identifiers. -/
theorem nodup_of_sublist {ledger : Ledger} {entries : List (RowId × StoredRow)}
    (some : entries.Sublist ledger.rows.toList) : (entries.map Prod.fst).Nodup := by
  have distinct : (ledger.rows.toList.map Prod.fst).Nodup := by
    rw [Std.ExtTreeMap.map_fst_toList_eq_keys]
    exact Std.ExtTreeMap.nodup_keys
  exact distinct.sublist (some.map Prod.fst)

/-- A row is selected once. -/
theorem nodup_selected (ledger : Ledger) (plan : Plan) :
    ((ledger.selected plan).map Prod.fst).Nodup :=
  nodup_of_sublist ((Plan.room_sublist _).trans List.filter_sublist)

/-- What is under an identifier after distinct rows of a ledger were replaced. -/
theorem getElem?_replaceAll {ledger : Ledger} (next : StoredRow → Option StoredRow)
    {entries : List (RowId × StoredRow)} (distinct : (entries.map Prod.fst).Nodup)
    (listed : ∀ entry ∈ entries, ledger.rows[entry.1]? = some entry.2) (id : RowId) :
    (ledger.replaceAll next entries).rows[id]? =
      if id ∈ entries.map Prod.fst then ledger.rows[id]?.bind next else ledger.rows[id]? := by
  induction entries generalizing ledger with
  | nil => rfl
  | cons entry rest ih =>
      obtain ⟨other, stored⟩ := entry
      rw [List.map_cons, List.nodup_cons] at distinct
      -- the rows that are still to be replaced are as they were
      have following : ∀ entry ∈ rest,
          (ledger.put other (next stored)).rows[entry.1]? = some entry.2 := by
        intro entry member
        have apart : other ≠ entry.1 := fun same =>
          distinct.1 (List.mem_map.mpr ⟨entry, member, same.symm⟩)
        rw [getElem?_put, if_neg apart]
        exact listed entry (List.mem_cons_of_mem _ member)
      rw [replaceAll, ih distinct.2 following, getElem?_put, List.map_cons]
      by_cases here : other = id
      · subst here
        have present := listed (other, stored) List.mem_cons_self
        rw [if_neg distinct.1, if_pos rfl, if_pos List.mem_cons_self, present]
        rfl
      · have member : id ∈ other :: rest.map Prod.fst ↔ id ∈ rest.map Prod.fst := by
          rw [List.mem_cons, or_iff_right fun same => here same.symm]
        rw [if_neg here, if_congr member rfl rfl]

/-- Replacing rows of a ledger by themselves changes nothing. -/
theorem replaceAll_some {ledger : Ledger} {entries : List (RowId × StoredRow)}
    (listed : ∀ entry ∈ entries, ledger.rows[entry.1]? = some entry.2) :
    ledger.replaceAll some entries = ledger := by
  induction entries with
  | nil => rfl
  | cons entry rest ih =>
      rw [replaceAll, put_of_getElem? (listed entry List.mem_cons_self)]
      exact ih fun other member => listed other (List.mem_cons_of_mem _ member)

end Ledger

mutual

/-- The rows of a query, projected and joined, by the ledgers of the tables. -/
def Query.rowsIn (ledgers : String → Ledger) : Query → List Row
  | .mk table plan joins =>
      Join.applyAll joins (Join.rowsInAll ledgers joins)
        (((ledgers table.name).selected plan).map fun entry => plan.project entry.2.row)

/-- The rows of the queries that are joined with, one list for each join. -/
def Join.rowsInAll (ledgers : String → Ledger) : List Join → List (List Row)
  | [] => []
  | .mk foreign _ :: rest => foreign.rowsIn ledgers :: Join.rowsInAll ledgers rest

end

namespace Query

/-- A further join is applied to what the joins before it answer. -/
theorem applyAll_rowsInAll_append (ledgers : String → Ledger) (joins : List Join)
    (foreign : Query) (accepts : Row → Row → Bool) (rows : List Row) :
    Join.applyAll (joins ++ [.mk foreign accepts])
        (Join.rowsInAll ledgers (joins ++ [.mk foreign accepts])) rows =
      (Join.mk foreign accepts).apply (foreign.rowsIn ledgers)
        (Join.applyAll joins (Join.rowsInAll ledgers joins) rows) := by
  induction joins generalizing rows with
  | nil => rfl
  | cons join rest ih =>
      obtain ⟨other, pairs⟩ := join
      exact ih _

/-- The ledger of the own table after the rows of a query were replaced. -/
def ledgerAfter (query : Query) (ledgers : String → Ledger)
    (next : StoredRow → Option StoredRow) : Ledger :=
  (ledgers query.table.name).replaceAll next ((ledgers query.table.name).selected query.plan)

/-- What is under an identifier after the rows of a query were replaced. -/
theorem getElem?_ledgerAfter (query : Query) (ledgers : String → Ledger)
    (next : StoredRow → Option StoredRow) (id : RowId) :
    (query.ledgerAfter ledgers next).rows[id]? =
      if id ∈ ((ledgers query.table.name).selected query.plan).map Prod.fst then
        (ledgers query.table.name).rows[id]?.bind next
      else (ledgers query.table.name).rows[id]? :=
  Ledger.getElem?_replaceAll next (Ledger.nodup_selected _ _)
    (fun _ => Ledger.getElem?_of_mem_selected) id

/-- What removing the rows of a query answers, and the ledger after it. -/
def deleteIn (query : Query) (ledgers : String → Ledger) : List Row × Ledger :=
  (query.rowsIn ledgers, query.ledgerAfter ledgers fun _ => none)

/-- What merging changes into the rows of a query answers, and the ledger after it. Changes that
cannot be stored are only refused when there is a row to change. -/
def setIn (query : Query) (ledgers : String → Ledger) (changes : Row) :
    Except QueryError (List Row × Ledger) :=
  let own := ledgers query.table.name
  let chosen := own.selected query.plan
  match StoredRow.ofRow query.table.options.prettyRows changes with
  | .ok changes =>
      .ok (Join.applyAll query.joins (Join.rowsInAll ledgers query.joins)
          (chosen.map fun entry => query.plan.project (entry.2.merge changes).row),
        query.ledgerAfter ledgers fun stored => some (stored.merge changes))
  | .error error => if chosen.isEmpty then .ok ([], own) else .error (.table error)

end Query

end TableStore
