/-
# What lookups find

The candidates of a plan that looks something up are the rows that all its lookups find. Indexes are
read one after another only until no row is left, but this never shows: the rows that are left are
those that all lookups find, whether or not all of them were made.
-/

import TableStore.Proofs.Index.Canonical
import TableStore.Proofs.Query.Candidates
import TableStore.Proofs.Table.Seen

namespace TableStore

namespace Table

variable {table : Table} {store : Store}

/-- Whether the index on a column can be read. -/
def Loads (table : Table) (store : Store) (column : String) : Prop :=
  ∃ index, table.seenIndex store column = .ok index

/-- Whether the index on a column can be read and has a row under a value. -/
def Finds (table : Table) (store : Store) (lookup : String × Json) (id : RowId) : Prop :=
  ∃ index, table.seenIndex store lookup.1 = .ok index ∧ id ∈ index.lookupValue lookup.2

/-- A lookup in an index that was read finds what the index has under the value. -/
theorem finds_iff {lookup : String × Json} {index : IndexTable}
    (read : table.seenIndex store lookup.1 = .ok index) (id : RowId) :
    table.Finds store lookup id ↔ id ∈ index.lookupValue lookup.2 := by
  constructor
  · rintro ⟨other, alsoRead, member⟩
    rw [read] at alsoRead
    cases alsoRead
    exact member
  · exact fun member => ⟨index, read, member⟩

end Table

/-- The rows whose column equals a value are listed in ascending order. -/
theorem IndexTable.ascending_lookupValue (index : IndexTable) (value : Json) :
    Table.Ascending (index.lookupValue value) := by
  rw [lookupValue]
  cases IndexKey.ofJson? value with
  | none => exact .nil
  | some key => exact index.ascending_lookup key

/-- Whether an index has a row under a value. None is under an array or an object. -/
def IndexTable.Holds (index : IndexTable) (value : Json) (id : RowId) : Prop :=
  ∃ key, IndexKey.ofJson? value = some key ∧ index.contains key id = true

/-- The rows whose column equals a value are those that the index has under it. -/
theorem IndexTable.mem_lookupValue_iff {index : IndexTable} {value : Json} {id : RowId} :
    id ∈ index.lookupValue value ↔ index.Holds value id := by
  rw [lookupValue, Holds]
  cases IndexKey.ofJson? value with
  | none => simp
  | some key => simp [mem_lookup_iff]

namespace Plan

variable {table : Table} {store : Store}

/-- Whether an operation that looks for rows leaves the store as it is, answers in order those among
the given ones that all lookups find, and answers for certain if all indexes can be read. -/
structure Narrows (table : Table) (store : Store) (lookups : List (String × Json))
    (among : RowId → Prop) (operation : TableM (List RowId)) : Prop where
  unchanged : (operation.run.run store).2 = store
  ascending : ∀ ids, (operation.run.run store).1 = .ok ids → Table.Ascending ids
  found : ∀ ids, (operation.run.run store).1 = .ok ids →
    ∀ id, id ∈ ids ↔ among id ∧ ∀ lookup ∈ lookups, table.Finds store lookup id
  answers : (∀ lookup ∈ lookups, table.Loads store lookup.1) →
    ∃ ids, (operation.run.run store).1 = .ok ids

/-- An answer is known by the rows in it. -/
theorem Narrows.of_ok {lookups : List (String × Json)} {among : RowId → Prop}
    {operation : TableM (List RowId)} {ids : List RowId}
    (runs : operation.run.run store = (.ok ids, store)) (ascending : Table.Ascending ids)
    (found : ∀ id, id ∈ ids ↔ among id ∧ ∀ lookup ∈ lookups, table.Finds store lookup id) :
    Narrows table store lookups among operation where
  unchanged := by rw [runs]
  ascending other answered := by
    rw [runs] at answered
    cases answered
    exact ascending
  found other answered := by
    rw [runs] at answered
    cases answered
    exact found
  answers _ := ⟨ids, by rw [runs]⟩

/-- Reading an index, and going on with the rows that it has under a value, makes one lookup
more. -/
theorem Narrows.after_readIndex {column : String} {value : Json} {rest : List (String × Json)}
    {among : RowId → Prop} {next : IndexTable → TableM (List RowId)}
    (narrows : ∀ index, table.seenIndex store column = .ok index →
      Narrows table store rest (fun id => among id ∧ id ∈ index.lookupValue value) (next index)) :
    Narrows table store ((column, value) :: rest) among (table.readIndex column >>= next) := by
  have runs : (table.readIndex column >>= next).run.run store =
      match table.seenIndex store column with
      | .ok index => (next index).run.run store
      | .error error => (.error error, store) := by
    rw [Store.run_bind, Table.run_readIndex]
    cases table.seenIndex store column <;> rfl
  cases read : table.seenIndex store column with
  | error error =>
      rw [read] at runs
      refine ⟨by rw [runs], ?_, ?_, fun loads => ?_⟩
      · intro ids answered
        rw [runs] at answered
        cases answered
      · intro ids answered
        rw [runs] at answered
        cases answered
      · obtain ⟨index, loaded⟩ := loads (column, value) List.mem_cons_self
        rw [read] at loaded
        cases loaded
  | ok index =>
      rw [read] at runs
      have narrows := narrows index read
      refine ⟨runs ▸ narrows.unchanged, runs ▸ narrows.ascending, fun ids answered id => ?_,
        fun loads => ?_⟩
      · rw [runs] at answered
        rw [narrows.found ids answered id, List.forall_mem_cons, Table.finds_iff read, and_assoc]
      · rw [runs]
        exact narrows.answers fun lookup member => loads lookup (List.mem_cons_of_mem _ member)

/-- Once no row is left, no index is read. -/
theorem narrow_nil (table : Table) (lookups : List (String × Json)) :
    narrow table [] lookups = pure [] := by
  cases lookups <;> rfl

/-- As long as a row is left, the next index is read. -/
theorem narrow_of_ne_nil {ids : List RowId} (some : ids ≠ []) (column : String) (value : Json)
    (rest : List (String × Json)) :
    narrow table ids ((column, value) :: rest) = (do
      let index ← table.readIndex column
      narrow table (ids.filter (index.lookupValue value).contains) rest) := by
  cases ids with
  | nil => exact absurd rfl some
  | cons id others =>
      rw [narrow]
      intro impossible
      cases impossible

/-- Narrowing keeps the rows that further lookups find too. -/
theorem narrows_narrow {ids : List RowId} (ascending : Table.Ascending ids)
    (lookups : List (String × Json)) :
    Narrows table store lookups (· ∈ ids) (narrow table ids lookups) := by
  induction lookups generalizing ids with
  | nil =>
      rw [narrow]
      exact .of_ok rfl ascending fun id => by simp
  | cons lookup rest ih =>
      obtain ⟨column, value⟩ := lookup
      by_cases none : ids = []
      · rw [none, narrow_nil]
        exact .of_ok rfl .nil fun id => by simp
      · rw [narrow_of_ne_nil none]
        refine Narrows.after_readIndex fun index read => ?_
        have narrowed := @ih (ids.filter (index.lookupValue value).contains)
          (List.Pairwise.filter _ ascending)
        simpa only [List.mem_filter, List.contains_iff_mem] using narrowed

/-- The candidates of a plan that looks something up are the rows that all its lookups find. -/
theorem narrows_startingIds {plan : Plan} (table : Table) (store : Store)
    (looksUp : plan.lookups.toList ≠ []) :
    Narrows table store plan.lookups.toList (fun _ => True) (plan.startingIds table) := by
  rw [startingIds]
  cases lookups : plan.lookups.toList with
  | nil => exact absurd lookups looksUp
  | cons lookup rest =>
      obtain ⟨column, value⟩ := lookup
      refine Narrows.after_readIndex fun index _ => ?_
      simpa only [true_and] using narrows_narrow (index.ascending_lookupValue value) rest

/-- The candidates of a plan that looks nothing up are all rows. -/
theorem startingIds_of_nil {plan : Plan} (none : plan.lookups.toList = []) (table : Table) :
    plan.startingIds table = table.rowIds := by
  rw [startingIds, none]

/-- The rows that a lookup finds and some others find too. -/
def found (index : String → IndexTable) (lookup : String × Json) (others : List (String × Json)) :
    List RowId :=
  ((index lookup.1).lookupValue lookup.2).filter fun id =>
    others.all fun other => ((index other.1).lookupValue other.2).contains id

/-- Whether indexes are read as given ones. -/
def ReadsAs (table : Table) (store : Store) (index : String → IndexTable)
    (lookups : List (String × Json)) : Prop :=
  ∀ lookup ∈ lookups, (table.readIndex lookup.1).run.run store = (.ok (index lookup.1), store)

/-- Whether every index has a row under its value. -/
def Meets (index : String → IndexTable) (lookups : List (String × Json)) (id : RowId) : Prop :=
  ∀ lookup ∈ lookups, (index lookup.1).Holds lookup.2 id

section

variable {index : String → IndexTable} {plan : Plan} {first rest others : List (String × Json)}
  {lookup : String × Json}

/-- The rows that lookups find are those that every index has under its value. -/
theorem mem_found_iff {id : RowId} :
    id ∈ found index lookup others ↔ Meets index (lookup :: others) id := by
  rw [found, List.mem_filter, List.all_eq_true, Meets, List.forall_mem_cons]
  simp only [List.contains_iff_mem, IndexTable.mem_lookupValue_iff]

/-- Where the first indexes are read, narrowing goes on with the rows that all of them have. -/
theorem run_narrow_append {ids : List RowId} (reads : ReadsAs table store index first)
    (rest : List (String × Json)) :
    (narrow table ids (first ++ rest)).run.run store =
      (narrow table (ids.filter fun id => first.all fun lookup =>
        ((index lookup.1).lookupValue lookup.2).contains id) rest).run.run store := by
  induction first generalizing ids with
  | nil => simp
  | cons lookup others ih =>
      obtain ⟨column, value⟩ := lookup
      obtain ⟨read, later⟩ := List.forall_mem_cons.mp reads
      by_cases none : ids = []
      · rw [none, narrow_nil, List.filter_nil, narrow_nil]
      · rw [List.cons_append, narrow_of_ne_nil none, Store.run_bind_of_ok read, ih later,
          List.filter_filter]
        simp only [List.all_cons, Bool.and_comm]

/-- Where the first indexes are read, candidates are sought among the rows that all of them have. -/
theorem run_startingIds_append (lookups : plan.lookups.toList = lookup :: others ++ rest)
    (reads : ReadsAs table store index (lookup :: others)) :
    (plan.startingIds table).run.run store =
      (narrow table (found index lookup others) rest).run.run store := by
  obtain ⟨column, value⟩ := lookup
  obtain ⟨read, later⟩ := List.forall_mem_cons.mp reads
  rw [startingIds, lookups]
  exact (Store.run_bind_of_ok read _).trans (run_narrow_append later rest)

/-- Where all indexes are read, the candidates are the rows that every one has under its value. -/
theorem run_startingIds_of_reads (looksUp : plan.lookups ≠ ∅)
    (reads : ReadsAs table store index plan.lookups.toList) :
    ∃ ids, (plan.startingIds table).run.run store = (.ok ids, store) ∧ Table.Ascending ids ∧
      ∀ id, id ∈ ids ↔ Meets index plan.lookups.toList id := by
  obtain ⟨lookup, others, lookups⟩ :=
    List.exists_cons_of_ne_nil (mt Std.ExtTreeMap.toList_eq_nil_iff.mp looksUp)
  rw [lookups] at reads ⊢
  have runs := run_startingIds_append (by rw [lookups, List.append_nil]) reads
  rw [narrow] at runs
  exact ⟨_, runs, List.Pairwise.filter _ ((index lookup.1).ascending_lookupValue lookup.2),
    fun id => mem_found_iff⟩

/-- Where the first indexes are read and no row is in all of them, there are no candidates. -/
theorem run_startingIds_of_exhausted (lookups : plan.lookups.toList = first ++ rest)
    (reads : ReadsAs table store index first) (exhausted : ¬∃ id, Meets index first id) :
    (plan.startingIds table).run.run store = (.ok [], store) := by
  cases first with
  | nil => exact absurd ⟨.first, fun _ member => absurd member List.not_mem_nil⟩ exhausted
  | cons lookup others =>
      have empty : found index lookup others = [] :=
        List.eq_nil_iff_forall_not_mem.mpr fun id member => exhausted ⟨id, mem_found_iff.mp member⟩
      rw [run_startingIds_append lookups reads, empty, narrow_nil]
      rfl

/-- Where the first indexes are read and a row is in all of them, the next index is read, too. -/
theorem run_startingIds_of_unreadable (lookups : plan.lookups.toList = first ++ lookup :: rest)
    (reads : ReadsAs table store index first) (left : ∃ id, Meets index first id)
    {error : TableError}
    (unreadable : (table.readIndex lookup.1).run.run store = (.error error, store)) :
    (plan.startingIds table).run.run store = (.error error, store) := by
  obtain ⟨column, value⟩ := lookup
  cases first with
  | nil =>
      rw [startingIds, lookups]
      exact Store.run_bind_of_error unreadable _
  | cons lookup others =>
      obtain ⟨id, meets⟩ := left
      rw [run_startingIds_append lookups reads,
        narrow_of_ne_nil (List.ne_nil_of_mem (mem_found_iff.mpr meets))]
      exact Store.run_bind_of_error unreadable _

end

/-- The candidates of a plan that looks something up in indexes which can all be read are, in
ascending order, the rows that every index has under its value. This is so although indexes are
read, in the order of their columns, only until no row is left: then there are no candidates,
whatever is the matter with the other indexes. One that cannot be read makes the search fail if
there is a row that all indexes before it have. A plan that looks nothing up has all rows as
candidates. -/
theorem startingIds_eq_intersection (table : Table) (plan : Plan) (store : Store)
    (index : String → IndexTable) :
    (plan.lookups = ∅ → plan.startingIds table = table.rowIds) ∧
    (plan.lookups ≠ ∅ → ReadsAs table store index plan.lookups.toList →
      ∃ ids, (plan.startingIds table).run.run store = (.ok ids, store) ∧ Table.Ascending ids ∧
        ∀ id, id ∈ ids ↔ Meets index plan.lookups.toList id) ∧
    (∀ first rest, plan.lookups.toList = first ++ rest → ReadsAs table store index first →
      (¬∃ id, Meets index first id) → (plan.startingIds table).run.run store = (.ok [], store)) ∧
    ∀ first lookup rest error, plan.lookups.toList = first ++ lookup :: rest →
      ReadsAs table store index first → (∃ id, Meets index first id) →
      (table.readIndex lookup.1).run.run store = (.error error, store) →
      (plan.startingIds table).run.run store = (.error error, store) :=
  ⟨fun none => startingIds_of_nil (Std.ExtTreeMap.toList_eq_nil_iff.mpr none) table,
    run_startingIds_of_reads, fun _ _ => run_startingIds_of_exhausted,
    fun _ _ _ _ lookups reads left => run_startingIds_of_unreadable lookups reads left⟩

/-- An index on the ages of people, and one on their names. -/
def peopleIndex (column : String) : IndexTable :=
  if column = "age" then ((IndexTable.empty column).insert (.int 1) ⟨0⟩).insert (.int 1) ⟨2⟩
  else ((IndexTable.empty column).insert (.string "Ada") ⟨2⟩).insert (.string "Bob") ⟨3⟩

/-- People with these two indexes, and a damaged one on their towns. -/
def peopleIndexed : Store :=
  .ofFiles <| .memory <| ((MemoryFiles.empty.write "people/indexes/age.json"
    (peopleIndex "age").toBytes).write "people/indexes/name.json"
    (peopleIndex "name").toBytes).write "people/indexes/town.json" []

/-- The plan for people of age one with a given name, who live in no town if this is asked for,
too. -/
def agedOneNamed (name : String) (townless : Bool) : Plan :=
  { Plan.empty with
    lookups := .ofList ([("name", Json.string name), ("age", .number (.ofUInt64 1))] ++
      if townless then [("town", Json.null)] else []) }

/-- The keys of these indexes are those of values. -/
theorem canonical_peopleIndex (column : String) : (peopleIndex column).Canonical := by
  have one : (IndexKey.int 1).Canonical := by
    rw [IndexKey.Canonical]
    decide +kernel
  have text : ∀ name, (IndexKey.string name).Canonical := fun _ => rfl
  intro key id held
  rw [peopleIndex] at held
  split at held
  all_goals
    simp only [IndexTable.contains_insert, IndexTable.contains_empty] at held
    grind

/-- The indexes on the ages and on the names are read as they are. -/
theorem readsAs_peopleIndex (name : String) :
    ReadsAs ⟨"people", .default⟩ peopleIndexed peopleIndex
      [("age", .number (.ofUInt64 1)), ("name", .string name)] := by
  have stored : ∀ column ∈ ["age", "name"], FileName.isSegment column = true ∧
      peopleIndexed.files.read (Table.indexPath ⟨"people", .default⟩ column) =
        .ok (peopleIndex column).toBytes ∧ (peopleIndex column).column = column := by
    decide +kernel
  have reads : ∀ column ∈ ["age", "name"],
      (Table.readIndex ⟨"people", .default⟩ column).run.run peopleIndexed =
        (.ok (peopleIndex column), peopleIndexed) := by
    intro column member
    obtain ⟨isColumn, file, named⟩ := stored column member
    have reloaded := IndexTable.ofBytes_toBytes (canonical_peopleIndex column)
    rw [named] at reloaded
    rw [Table.run_readIndex, Table.seenIndex_of_read rfl isColumn file, reloaded]
    rfl
  intro lookup member
  refine reads lookup.1 ?_
  rw [List.mem_cons, List.mem_singleton] at member
  rcases member with rfl | rfl <;> simp

/-- Only Ada is of age one, and only the row two is hers. -/
theorem meets_peopleIndex_iff (name : String) (id : RowId) :
    Meets peopleIndex [("age", .number (.ofUInt64 1)), ("name", .string name)] id ↔
      name = "Ada" ∧ id = ⟨2⟩ := by
  have one : IndexKey.ofJson? (.number (.ofUInt64 1)) = some (.int 1) := by decide +kernel
  have text : IndexKey.ofJson? (.string name) = some (.string name) := rfl
  rw [Meets, List.forall_mem_cons, List.forall_mem_singleton, IndexTable.Holds, IndexTable.Holds,
    one, text]
  simp only [peopleIndex, IndexTable.contains_insert, IndexTable.contains_empty, if_true,
    String.reduceEq, if_false]
  grind

/-- Of the people of age one, one is an Ada and none is a Bob. So Bobs without a town are not sought
in the damaged index, and Adas without a town are. -/
theorem startingIds_eq_intersection_adasAndBobs :
    let people : Table := ⟨"people", .default⟩
    ((agedOneNamed "Ada" false).startingIds people).run.run peopleIndexed =
        (.ok [⟨2⟩], peopleIndexed) ∧
      ((agedOneNamed "Bob" true).startingIds people).run.run peopleIndexed =
        (.ok [], peopleIndexed) ∧
      ((agedOneNamed "Ada" true).startingIds people).run.run peopleIndexed =
        (.error (.corrupted "people/indexes/town.json" .malformed), peopleIndexed) := by
  intro people
  refine ⟨?_, ?_, ?_⟩
  · have looksUp : (agedOneNamed "Ada" false).lookups ≠ ∅ := by
      rw [Ne, ← Std.ExtTreeMap.toList_eq_nil_iff]
      exact List.cons_ne_nil _ _
    obtain ⟨ids, runs, ascending, found⟩ :=
      (startingIds_eq_intersection people (agedOneNamed "Ada" false) peopleIndexed peopleIndex).2.1
        looksUp (readsAs_peopleIndex "Ada")
    have only : ids = [⟨2⟩] := ascending.eq_of_mem_iff (List.pairwise_singleton _ _) fun id => by
      rw [found, List.mem_singleton]
      exact (meets_peopleIndex_iff "Ada" id).trans (and_iff_right rfl)
    rw [runs, only]
  · refine (startingIds_eq_intersection people _ peopleIndexed peopleIndex).2.2.1 _ _ rfl
      (readsAs_peopleIndex "Bob") ?_
    rintro ⟨id, meets⟩
    exact absurd ((meets_peopleIndex_iff "Bob" id).mp meets).1 (by decide)
  · refine (startingIds_eq_intersection people _ peopleIndexed peopleIndex).2.2.2 _ _ _ _ rfl
      (readsAs_peopleIndex "Ada") ⟨⟨2⟩, (meets_peopleIndex_iff "Ada" _).mpr ⟨rfl, rfl⟩⟩ ?_
    have file : peopleIndexed.files.read (people.indexPath "town") = .ok [] := by decide +kernel
    have damaged : IndexTable.ofBytes "town" [] = .error .malformed := rfl
    rw [Table.run_readIndex, Table.seenIndex_of_read rfl (by decide +kernel) file, damaged]
    rfl

end Plan

end TableStore
