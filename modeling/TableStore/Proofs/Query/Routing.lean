/-
# Building queries

A query is built by calls, and a filter looks for indexes while it is built. What the query asks
for does not depend on what it finds.
-/

import TableStore.Proofs.Query.Candidates

namespace TableStore

namespace Query

variable {medium : Medium} {ledgers : String → Ledger} {table : Table}

/-- Routing criteria, whatever indexes are found, asks for all of them. -/
theorem ensures_route (isTable : FileName.isSegment table.name = true)
    {entries : List (String × Predicate)} {plan : Plan} (routed : plan.Routed)
    (distinct : (entries.map Prod.fst).Nodup)
    (fresh : ∀ entry ∈ entries,
      entry.1 ∉ plan.lookups ∧ entry.1 ∉ plan.criteria.predicates) :
    Ensures medium [] (route table entries plan) (Ledger.content ledgers) fun answer left =>
      left = Ledger.content ledgers ∧ answer.Routed ∧
        answer.scanning =
          { plan.scanning with
            criteria := entries.foldl (fun criteria entry => criteria.insert entry.1 entry.2)
              plan.scanning.criteria } := by
  induction entries generalizing plan with
  | nil => exact .pure ⟨rfl, routed, rfl⟩
  | cons entry rest ih =>
      obtain ⟨column, predicate⟩ := entry
      rw [List.map_cons, List.nodup_cons] at distinct
      have own := fresh (column, predicate) List.mem_cons_self
      have apart : ∀ entry ∈ rest, column ≠ entry.1 := by
        intro entry listed same
        exact distinct.1 (List.mem_map.mpr ⟨entry, listed, same.symm⟩)
      have others : ∀ entry ∈ rest,
          entry.1 ∉ plan.lookups ∧ entry.1 ∉ plan.criteria.predicates :=
        fun entry listed => fresh entry (List.mem_cons_of_mem _ listed)
      have scanned : Ensures medium []
          (route table rest { plan with criteria := plan.criteria.insert column predicate })
          (Ledger.content ledgers) fun answer left =>
            left = Ledger.content ledgers ∧ answer.Routed ∧
              answer.scanning =
                { plan.scanning with
                  criteria := ((column, predicate) :: rest).foldl
                    (fun criteria entry => criteria.insert entry.1 entry.2)
                    plan.scanning.criteria } := by
        have rested := ih (routed.insert_criteria predicate own.1) distinct.2 ?_
        · rw [Plan.scanning_insert_criteria predicate own.1] at rested
          exact rested
        · intro entry listed
          refine ⟨(others entry listed).1, ?_⟩
          rw [Criteria.insert, Std.ExtTreeMap.mem_insert, not_or]
          exact ⟨fun same => apart entry listed (Std.LawfulEqOrd.eq_of_compare same),
            (others entry listed).2⟩
      cases predicate with
      | custom test => exact scanned
      | literal value =>
          rw [route]
          simp only [Predicate.literal?]
          by_cases scalar : (Predicate.literal value).isIndexable = true
          swap
          · rw [if_neg scalar]
            exact scanned
          rw [if_pos scalar]
          refine (Table.ensures_hasIndex isTable column).bind ?_
          rintro indexed _ ⟨rfl, -⟩
          cases indexed with
          | false => exact scanned
          | true =>
              have rested := ih (routed.insert_lookup scalar own.2) distinct.2 ?_
              · rw [Plan.scanning_insert_lookup] at rested
                exact rested
              · intro entry listed
                refine ⟨?_, (others entry listed).2⟩
                rw [Std.ExtTreeMap.mem_insert, not_or]
                exact ⟨fun same => apart entry listed (Std.LawfulEqOrd.eq_of_compare same),
                  (others entry listed).1⟩

/-- Building a filter, whatever indexes are found, asks for its criteria in place of all earlier
ones. -/
theorem ensures_filter (isTable : FileName.isSegment table.name = true) (criteria : Criteria)
    (plan : Plan) (joins : List Join) :
    Ensures medium [] (filter criteria (.mk table plan joins)) (Ledger.content ledgers)
      fun answer left => left = Ledger.content ledgers ∧
        ∃ routed : Plan, answer = .mk table routed joins ∧ routed.Routed ∧
          routed.scanning = { plan with criteria, lookups := ∅ } := by
  have cleared : ({ plan with criteria := .empty, lookups := ∅ } : Plan).Routed := by
    constructor
    · intro column value found
      rw [Std.ExtTreeMap.getElem?_empty] at found
      cases found
    · intro column member
      exact absurd member Std.ExtTreeMap.not_mem_empty
  have distinct : (criteria.toList.map Prod.fst).Nodup := by
    rw [Criteria.toList, Std.ExtTreeMap.map_fst_toList_eq_keys]
    exact Std.ExtTreeMap.nodup_keys
  refine (ensures_route isTable cleared distinct ?_).bind ?_
  · intro entry _
    exact ⟨Std.ExtTreeMap.not_mem_empty, Std.ExtTreeMap.not_mem_empty⟩
  · rintro answer _ ⟨rfl, routed, asked⟩
    refine .pure ⟨rfl, answer, rfl, routed, ?_⟩
    rw [asked, Plan.scanning_of_lookups_eq_empty rfl, Criteria.foldl_insert_toList]

end Query

end TableStore
