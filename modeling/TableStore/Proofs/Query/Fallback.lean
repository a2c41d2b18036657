/-
# Falling back on row by row evaluation

Criteria have at most one predicate for each column, so a plan that falls back on a column gives up
the predicate that the column had among its criteria. Where there was none, as in every plan that a
filter has split, the rows that meet the plan stay the same. Otherwise no row is lost, and those are
gained that failed the predicates given up alone.
-/

import TableStore.Proofs.Query.Splitting

namespace TableStore

namespace Plan

/-- Whether a row meets the criteria and all equalities of a plan. -/
def meets (plan : Plan) (row : Row) : Bool :=
  plan.criteria.accept row &&
    plan.lookups.toList.all fun lookup => (row.value lookup.1).same lookup.2

/-- Whether a row meets the predicates of a plan that falling back on some columns gives up. -/
def MeetsReplaced (plan : Plan) (stale : List String) (row : Row) : Prop :=
  ∀ column ∈ stale, column ∈ plan.lookups →
    ∀ predicate : Predicate, plan.criteria.predicates[column]? = some predicate →
      predicate.accepts (row.value column) = true

/-- Whether a plan that falls back on some columns gives up no predicate. -/
def Keeps (plan : Plan) (stale : List String) : Prop :=
  ∀ column ∈ stale, column ∈ plan.lookups → column ∉ plan.criteria.predicates

variable {plan : Plan}

/-- A row meets a plan if it meets the predicate and the equality of every column. -/
theorem meets_iff (plan : Plan) (row : Row) :
    plan.meets row = true ↔
      (∀ (column : String) (predicate : Predicate),
        plan.criteria.predicates[column]? = some predicate →
          predicate.accepts (row.value column) = true) ∧
      ∀ (column : String) (value : Json), plan.lookups[column]? = some value →
        (row.value column).same value = true := by
  rw [meets, Bool.and_eq_true, Criteria.accept_iff, List.all_eq_true]
  refine and_congr_right fun _ => ⟨fun all column value found => ?_, fun each lookup listed => ?_⟩
  · exact all (column, value) (Std.ExtTreeMap.mem_toList_iff_getElem?_eq_some.mpr found)
  · exact each lookup.1 lookup.2 (Std.ExtTreeMap.mem_toList_iff_getElem?_eq_some.mp listed)

/-- Only which columns are fallen back on counts, not their order. -/
theorem foldl_fallBack_congr (plan : Plan) {stale order : List String}
    (same : ∀ column, column ∈ order ↔ column ∈ stale) :
    order.foldl fallBack plan = stale.foldl fallBack plan := by
  apply ext_getElem?
  · rw [limit_foldl_fallBack, limit_foldl_fallBack]
  · rw [selected_foldl_fallBack, selected_foldl_fallBack]
  · intro column
    simp only [predicates_foldl_fallBack, same]
  · intro column
    simp only [lookups_foldl_fallBack, same]

/-- The predicate of a column stays unless its equality takes the place. -/
theorem predicates_foldl_fallBack_of_kept {stale : List String} {column : String}
    (kept : column ∈ stale → column ∉ plan.lookups) :
    (stale.foldl fallBack plan).criteria.predicates[column]? =
      plan.criteria.predicates[column]? := by
  rw [predicates_foldl_fallBack]
  split
  · next member =>
      rw [Std.ExtTreeMap.getElem?_eq_none (kept member)]
      rfl
  · rfl

/-- A row that meets a plan meets it after falling back. -/
theorem meets_foldl_fallBack {row : Row} (stale : List String) (met : plan.meets row = true) :
    (stale.foldl fallBack plan).meets row = true := by
  rw [meets_iff] at met ⊢
  obtain ⟨evaluated, lookedUp⟩ := met
  constructor
  · intro column predicate found
    rw [predicates_foldl_fallBack] at found
    split at found
    · cases lookup : plan.lookups[column]? with
      | some value =>
          rw [lookup] at found
          cases found
          exact lookedUp column value lookup
      | none =>
          rw [lookup] at found
          exact evaluated column predicate found
    · exact evaluated column predicate found
  · intro column value found
    rw [lookups_foldl_fallBack] at found
    split at found
    · cases found
    · exact lookedUp column value found

/-- A row that meets a plan after falling back met it before, if it met the predicates given up. -/
theorem meets_of_meets_foldl_fallBack {stale : List String} {row : Row}
    (met : (stale.foldl fallBack plan).meets row = true)
    (replaced : plan.MeetsReplaced stale row) : plan.meets row = true := by
  rw [meets_iff] at met ⊢
  obtain ⟨evaluated, lookedUp⟩ := met
  constructor
  · intro column predicate found
    by_cases lost : column ∈ stale ∧ column ∈ plan.lookups
    · exact replaced column lost.1 lost.2 predicate found
    · apply evaluated column predicate
      rw [predicates_foldl_fallBack_of_kept (not_and.mp lost)]
      exact found
  · intro column value found
    by_cases member : column ∈ stale
    · -- the equality is now the predicate of its column
      apply evaluated column (.literal value)
      rw [predicates_foldl_fallBack, if_pos member, found]
      rfl
    · apply lookedUp column value
      rw [lookups_foldl_fallBack, if_neg member]
      exact found

/-- A row meets a plan exactly if it does after falling back and met the predicates given up. -/
theorem meets_iff_foldl_fallBack (plan : Plan) (stale : List String) (row : Row) :
    plan.meets row = true ↔
      (stale.foldl fallBack plan).meets row = true ∧ plan.MeetsReplaced stale row := by
  constructor
  · intro met
    refine ⟨meets_foldl_fallBack stale met, fun column _ _ predicate found => ?_⟩
    exact ((plan.meets_iff row).mp met).1 column predicate found
  · rintro ⟨met, replaced⟩
    exact meets_of_meets_foldl_fallBack met replaced

/-- Every row meets the predicates given up if there are none. -/
theorem Keeps.meetsReplaced {stale : List String} (keeps : plan.Keeps stale) (row : Row) :
    plan.MeetsReplaced stale row := by
  intro column member lookedUp predicate found
  have absent := keeps column member lookedUp
  rw [← getElem?_eq_none_iff, found] at absent
  cases absent

/-- If no predicate is given up, the same rows meet a plan after falling back. -/
theorem Keeps.meets_foldl_fallBack {stale : List String} (keeps : plan.Keeps stale) :
    (stale.foldl fallBack plan).meets = plan.meets := by
  funext row
  rw [Bool.eq_iff_iff, plan.meets_iff_foldl_fallBack stale row]
  exact (and_iff_left (keeps.meetsReplaced row)).symm

/-- A plan that a filter has split never gives up a predicate. -/
theorem Splits.keeps {criteria : Criteria} {chosen : String → Bool}
    (splits : plan.Splits criteria chosen) (stale : List String) : plan.Keeps stale := by
  intro column _ lookedUp
  rw [Std.ExtTreeMap.mem_iff_isSome_getElem?, splits.lookups] at lookedUp
  rw [← getElem?_eq_none_iff, splits.evaluated]
  split at lookedUp
  · next isChosen =>
      obtain ⟨value, looked⟩ := Option.isSome_iff_exists.mp lookedUp
      obtain ⟨predicate, present, sought⟩ := Option.bind_eq_some_iff.mp looked
      have scalar : predicate.isIndexable = true := by
        by_contra unanswered
        rw [Predicate.sought?_eq_none_iff.mpr (Bool.eq_false_of_not_eq_true unanswered)] at sought
        cases sought
      rw [present, Option.filter_some, scalar, isChosen]
      rfl
  · cases lookedUp

/-- Falling back keeps what a plan asks for, but for the predicates that it gives up. Only the
columns count and not their order; a row meets a plan exactly if it does after falling back and met
the predicates given up; so where no column has both a predicate and an equality, and in particular
whatever calls have configured a query, the same rows meet the plan. -/
theorem fallBack_keeps_meaning (plan : Plan) (stale : List String) :
    (∀ order : List String, (∀ column, column ∈ order ↔ column ∈ stale) →
      order.foldl fallBack plan = stale.foldl fallBack plan) ∧
    (∀ row, plan.meets row = true ↔
      (stale.foldl fallBack plan).meets row = true ∧ plan.MeetsReplaced stale row) ∧
    (plan.Keeps stale → (stale.foldl fallBack plan).meets = plan.meets) ∧
    ∀ (table : Table) (settings : List Query.Setting),
      (stale.foldl fallBack (Query.configured table settings).plan).meets =
        (Query.configured table settings).plan.meets := by
  refine ⟨fun order same => plan.foldl_fallBack_congr same, plan.meets_iff_foldl_fallBack stale,
    fun keeps => keeps.meets_foldl_fallBack, fun table settings => ?_⟩
  exact ((Query.splits_configured table settings).2.keeps stale).meets_foldl_fallBack

/-- A plan for the people of an age that an index is asked for, if they also meet criteria. -/
def ofAgeAnd (age : UInt64) (criteria : Criteria) : Plan :=
  { empty with
    criteria := criteria
    lookups := Plan.empty.lookups.insert "age" (.number (.ofUInt64 age)) }

/-- The Adas of age two are the same, whether their age is looked up or evaluated. -/
theorem fallBack_keeps_meaning_adas :
    let adas := ofAgeAnd 2 (.ofList [("name", .literal (.string "Ada"))])
    adas.Keeps ["age"] ∧ (["age"].foldl fallBack adas).meets = adas.meets := by
  intro adas
  have fresh : "age" ∉ (Criteria.ofList [("name", .literal (.string "Ada"))]).predicates := by
    decide +kernel
  have keeps : adas.Keeps ["age"] := by
    intro column member _
    rw [List.mem_singleton.mp member]
    exact fresh
  exact ⟨keeps, (fallBack_keeps_meaning adas ["age"]).2.2.1 keeps⟩

/-- Nobody is of age one and of age two. Falling back gives up the age of one, and who is of age two
meets what is left. -/
theorem fallBack_gives_up_predicate :
    let nobody := ofAgeAnd 2 (.ofList [("age", .literal (.number (.ofUInt64 1)))])
    let row := Row.empty.insert "age" (.number (.ofUInt64 2))
    nobody.meets row = false ∧ (nobody.fallBack "age").meets row = true := by
  decide +kernel

end Plan

end TableStore
