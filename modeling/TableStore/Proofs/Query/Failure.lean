/-
# Failures of removing and changing

To remove or to change the rows of a query, everything else is looked at first, so a failure to do
that changes nothing. Then the candidates are visited in order, and what is done to one of them does
not show in any other. So it is as if the rows had all been chosen before, and were removed or
changed one after another until something fails.
-/

import TableStore.Proofs.Files.Rows
import TableStore.Proofs.Parallel.Query
import TableStore.Proofs.Query.Reference
import TableStore.Proofs.Table.Seen

namespace TableStore

namespace Table

variable {table : Table} {store later : Store} {id other : RowId} {row : Row}

/-- A row that is removed is answered as it was seen. -/
theorem run_erase (seen : table.seen store id = .ok (some row)) :
    (table.erase id).run.run store =
      match (table.persist id (some row) none).run.run store with
      | (.ok _, after) => (.ok row, after)
      | (.error error, after) => (.error error, after) := by
  rw [erase, Store.run_bind, run_require seen]
  dsimp only
  rw [Store.run_bind]
  rcases (table.persist id (some row) none).run.run store with ⟨_ | _, after⟩ <;> rfl

/-- Whether what is done to a row that is there leaves every other as it was seen. -/
def Spares (table : Table) (act : RowId → TableM Row) : Prop :=
  ∀ store id row, table.seen store id = .ok (some row) → ∀ other, other ≠ id →
    table.seen ((act id).run.run store).2 other = table.seen store other

/-- After something has been done to a row, others are still as they were seen. -/
theorem Spares.seen_of_notMem {act : RowId → TableM Row} (spares : table.Spares act)
    (present : table.seen store id = .ok (some row)) {rest : List RowId} (fresh : id ∉ rest)
    {seen : RowId → Except TableError (Option Row)}
    (others : ∀ other ∈ rest, table.seen store other = seen other) :
    ∀ other ∈ rest, table.seen ((act id).run.run store).2 other = seen other := by
  intro other member
  have apart : other ≠ id := fun same => fresh (same ▸ member)
  rw [spares store id row present other apart, others other member]

/-- Other rows are spared by what only changes the row and indexes. -/
theorem spares_of_tries (isTable : FileName.isSegment table.name = true) {act : RowId → TableM Row}
    (tries : ∀ relation start id, table.Maintained relation (fun _ => True) →
      table.Writable relation id → Tries relation start (act id) anything) : table.Spares act := by
  intro store id row seen other apart
  obtain ⟨bytes, read⟩ := read_of_seen seen
  have maintained : table.Maintained (Files.Same (Files.SparesRows table.name id store.files))
      fun _ => True :=
    table.maintained_same fun _ bytes _ isColumn spares =>
      spares.write_index isTable isColumn bytes
  have writable : table.Writable (Files.Same (Files.SparesRows table.name id store.files)) id :=
    ⟨Files.Same.shown fun _ _ => trivial,
      fun bytes => Files.Same.changed fun _ spares => spares.write_row isTable bytes,
      Files.Same.changed fun _ spares => spares.delete isTable⟩
  obtain ⟨-, -, related⟩ := tries _ store id maintained writable store store
    (.refl ⟨rfl, .refl isTable read⟩)
  exact seen_congr related.faults (related.files.2.read isTable apart)

/-- Removing a row spares the others. -/
theorem spares_erase (isTable : FileName.isSegment table.name = true) : table.Spares table.erase :=
  spares_of_tries isTable fun _ _ _ maintained writable => maintained.tries_erase writable

/-- Changing a row spares the others. -/
theorem spares_update (isTable : FileName.isSegment table.name = true) (changes : Row) :
    table.Spares fun id => table.update id changes :=
  spares_of_tries isTable fun _ _ _ maintained writable => maintained.tries_update writable changes

end Table

namespace Plan

variable {plan : Plan} {seen : RowId → Except TableError (Option Row)} {id : RowId}
  {rest : List RowId} {found : Nat}

/-- Why a candidate cannot be visited: reading it fails, or an index named it and it has no row. -/
def flaw? (plan : Plan) (seen : RowId → Except TableError (Option Row)) (id : RowId) :
    Option TableError :=
  match seen id with
  | .error error => some error
  | .ok none => plan.lookups.keys.head?.map fun column => .indexInconsistent column id
  | .ok (some _) => none

/-- Whether a candidate has a row that meets the criteria. -/
def accepts (plan : Plan) (seen : RowId → Except TableError (Option Row)) (id : RowId) : Bool :=
  match seen id with
  | .ok (some row) => plan.criteria.accept row
  | _ => false

/-- The candidates before the first that cannot be visited whose rows meet the criteria. -/
def sound (plan : Plan) (seen : RowId → Except TableError (Option Row)) (ids : List RowId) :
    List RowId :=
  (ids.takeWhile fun id => (plan.flaw? seen id).isNone).filter (plan.accepts seen)

/-- The failure that ends the visits: that of the first candidate that cannot be visited, unless the
limit is reached before. -/
def ending? (plan : Plan) (seen : RowId → Except TableError (Option Row)) (found : Nat)
    (ids : List RowId) : Option TableError :=
  if plan.allows (found + (plan.sound seen ids).length) then ids.findSome? (plan.flaw? seen)
  else none

/-- Once the limit is reached, it stays so. -/
theorem not_allows_add (full : plan.allows found = false) (more : Nat) :
    plan.allows (found + more) = false := by
  unfold allows at full ⊢
  split at full
  · next limit bounded =>
      have reached := of_decide_eq_false full
      exact decide_eq_false (by omega)
  · cases full

/-- Nothing comes after a candidate that cannot be visited. -/
theorem sound_cons_of_flaw {error : TableError} (flaw : plan.flaw? seen id = some error) :
    plan.sound seen (id :: rest) = [] := by
  rw [sound, List.takeWhile_cons, flaw]
  rfl

/-- A candidate whose row meets the criteria is one of those to visit. -/
theorem sound_cons_of_accepts (flawless : plan.flaw? seen id = none)
    (accepts : plan.accepts seen id = true) :
    plan.sound seen (id :: rest) = id :: plan.sound seen rest := by
  rw [sound, List.takeWhile_cons, flawless]
  exact List.filter_cons_of_pos accepts

/-- A candidate is passed over if it has no row that meets the criteria. -/
theorem sound_cons_of_not_accepts (flawless : plan.flaw? seen id = none)
    (refuses : plan.accepts seen id = false) :
    plan.sound seen (id :: rest) = plan.sound seen rest := by
  rw [sound, List.takeWhile_cons, flawless]
  exact List.filter_cons_of_neg (by rw [refuses]; exact Bool.false_ne_true)

/-- The visits end with the failure of a candidate that cannot be visited. -/
theorem ending?_cons_of_flaw (allowed : plan.allows found = true) {error : TableError}
    (flaw : plan.flaw? seen id = some error) :
    plan.ending? seen found (id :: rest) = some error := by
  rw [ending?, sound_cons_of_flaw flaw, List.length_nil, Nat.add_zero, if_pos allowed,
    List.findSome?_cons, flaw]

/-- The visits go on after a candidate without a flaw, be it visited or not. -/
theorem ending?_cons_of_flawless (flawless : plan.flaw? seen id = none) :
    plan.ending? seen found (id :: rest) =
      plan.ending? seen (if plan.accepts seen id then found + 1 else found) rest := by
  rw [ending?, ending?, List.findSome?_cons, flawless]
  cases accepts : plan.accepts seen id with
  | true =>
      rw [sound_cons_of_accepts flawless accepts, List.length_cons, if_pos rfl,
        Nat.add_right_comm found 1, Nat.add_assoc]
  | false => rw [sound_cons_of_not_accepts flawless accepts, if_neg Bool.false_ne_true]

end Plan

namespace Query

variable {table : Table} {plan : Plan} {visit : RowId → Row → TableM Row}

section

variable {found : Nat} (allowed : plan.allows found = true)
  {seen : RowId → Except TableError (Option Row)} {store : Store} {id : RowId}
  (here : table.seen store id = seen id)

include allowed here

/-- The visits fail at a candidate that cannot be visited, whichever come after it. -/
theorem run_collect_of_flaw {error : TableError} (flaw : plan.flaw? seen id = some error) :
    ∃ after : Store, after.files = store.files ∧ ∀ rest,
      (collect table plan visit found (id :: rest)).run.run store = (.error error, after) := by
  rw [Plan.flaw?] at flaw
  rcases outcome : seen id with _ | (_ | row)
  · rw [outcome] at flaw
    cases flaw
    refine ⟨store, rfl, fun rest => ?_⟩
    rw [collect, allowed, Bool.not_true, if_neg Bool.false_ne_true, Store.run_bind, Table.run_read,
      here, outcome]
  · rw [outcome] at flaw
    obtain ⟨column, named, rfl⟩ := Option.map_eq_some_iff.mp flaw
    refine ⟨{ store with journal := store.journal ++ [.missingRow table.name column id] }, rfl,
      fun rest => ?_⟩
    rw [collect, allowed, Bool.not_true, if_neg Bool.false_ne_true, Store.run_bind, Table.run_read,
      here, outcome]
    dsimp only
    rw [named]
    rfl
  · rw [outcome] at flaw
    cases flaw

/-- A candidate without a row that meets the criteria is passed over. -/
theorem run_collect_of_not_accepts (flawless : plan.flaw? seen id = none)
    (refuses : plan.accepts seen id = false) (rest : List RowId) :
    (collect table plan visit found (id :: rest)).run.run store =
      (collect table plan visit found rest).run.run store := by
  rw [collect, allowed, Bool.not_true, if_neg Bool.false_ne_true, Store.run_bind, Table.run_read,
    here]
  rw [Plan.flaw?] at flawless
  rw [Plan.accepts] at refuses
  rcases outcome : seen id with _ | (_ | row)
  · rw [outcome] at flawless
    cases flawless
  · rw [outcome, Option.map_eq_none_iff] at flawless
    rw [flawless]
  · rw [outcome] at refuses
    have refused : plan.criteria.accept row = false := refuses
    dsimp only
    rw [refused, if_neg Bool.false_ne_true]

/-- A candidate with a row that meets the criteria is visited before the others. -/
theorem run_collect_of_accepts (accepts : plan.accepts seen id = true) :
    plan.flaw? seen id = none ∧ ∃ row, seen id = .ok (some row) ∧ ∀ rest,
      (collect table plan visit found (id :: rest)).run.run store =
        match (visit id row).run.run store with
        | (.error error, after) => (.error error, after)
        | (.ok answer, after) =>
            let others := (collect table plan visit (found + 1) rest).run.run after
            (others.1.map (answer :: ·), others.2) := by
  rw [Plan.accepts] at accepts
  rcases outcome : seen id with _ | (_ | row)
  · rw [outcome] at accepts
    cases accepts
  · rw [outcome] at accepts
    cases accepts
  · rw [outcome] at accepts
    have accepted : plan.criteria.accept row = true := accepts
    refine ⟨by rw [Plan.flaw?, outcome], row, rfl, fun rest => ?_⟩
    rw [collect, allowed, Bool.not_true, if_neg Bool.false_ne_true, Store.run_bind, Table.run_read,
      here, outcome]
    dsimp only
    rw [accepted, if_pos rfl, Store.run_bind]
    rcases (visit id row).run.run store with ⟨_ | answer, after⟩
    · rfl
    · dsimp only
      rw [Store.run_return]

end

/-- What is answered after something has been done to the chosen rows: the first failure, or else
that with which the visits end, or else the rows. -/
def concluded (form : Row → Row) (ending? : Option TableError) :
    Except TableError (List Row) → Except TableError (List Row)
  | .error error => .error error
  | .ok rows =>
      match ending? with
      | some error => .error error
      | none => .ok (rows.map form)

/-- A row that comes first is answered first. -/
theorem concluded_cons (form : Row → Row) (answer : Row) (ending? : Option TableError)
    (outcome : Except TableError (List Row)) :
    concluded form ending? (outcome.map (answer :: ·)) =
      (concluded form ending? outcome).map (form answer :: ·) := by
  rcases outcome with _ | rows
  · rfl
  · cases ending? <;> rfl

section

variable {act : RowId → TableM Row} {form : Row → Row} (spares : table.Spares act)
  (visited : ∀ store id row, table.seen store id = .ok (some row) →
    (visit id row).run.run store =
      (((act id).run.run store).1.map form, ((act id).run.run store).2))
  {ids : List RowId} (distinct : ids.Nodup) {seen : RowId → Except TableError (Option Row)}
  {store : Store} (shown : ∀ id ∈ ids, table.seen store id = seen id)

include spares visited distinct shown

/-- Visiting rows leaves what is left by doing to the chosen ones, one after another, what the
visits do, and answers what this answers, or fails as this does or as the visits end. -/
theorem run_collect (found : Nat) :
    let acted := ((plan.room found (plan.sound seen ids)).mapM act).run.run store
    let ran := (collect table plan visit found ids).run.run store
    ran.2.files = acted.2.files ∧
      ran.1 = concluded form (plan.ending? seen found ids) acted.1 := by
  induction ids generalizing store found with
  | nil =>
      rw [Plan.sound, List.takeWhile_nil, List.filter_nil, Plan.room_nil, List.mapM_nil, collect,
        Plan.ending?, List.findSome?_nil, ite_self]
      exact ⟨rfl, rfl⟩
  | cons id rest ih =>
      obtain ⟨fresh, distinct⟩ := List.nodup_cons.mp distinct
      have here := shown id List.mem_cons_self
      have others := fun other member => shown other (List.mem_cons_of_mem id member)
      cases allowed : plan.allows found with
      | false =>
          rw [Plan.room_of_not_allows allowed, List.mapM_nil, Plan.ending?,
            Plan.not_allows_add allowed, if_neg Bool.false_ne_true, collect, allowed]
          exact ⟨rfl, rfl⟩
      | true =>
          cases flaw : plan.flaw? seen id with
          | some error =>
              obtain ⟨after, files, runs⟩ := run_collect_of_flaw allowed here flaw
              rw [runs rest, Plan.sound_cons_of_flaw flaw, Plan.room_nil, List.mapM_nil,
                Plan.ending?_cons_of_flaw allowed flaw]
              exact ⟨files, rfl⟩
          | none =>
              rw [Plan.ending?_cons_of_flawless flaw]
              cases accepts : plan.accepts seen id with
              | false =>
                  rw [run_collect_of_not_accepts allowed here flaw accepts,
                    Plan.sound_cons_of_not_accepts flaw accepts, if_neg Bool.false_ne_true]
                  exact ih distinct others found
              | true =>
                  obtain ⟨-, row, outcome, runs⟩ := run_collect_of_accepts allowed here accepts
                  have present := here.trans outcome
                  rw [runs rest, Plan.sound_cons_of_accepts flaw accepts, if_pos rfl,
                    Plan.room_cons allowed, List.mapM_cons, Store.run_bind,
                    visited store id row present]
                  have spared := spares.seen_of_notMem present fresh others
                  rcases acted : (act id).run.run store with ⟨_ | answer, after⟩
                  · exact ⟨rfl, rfl⟩
                  · rw [acted] at spared
                    obtain ⟨files, answers⟩ := ih distinct spared (found + 1)
                    dsimp only [Except.map]
                    rw [Store.run_return, concluded_cons]
                    exact ⟨files, congrArg (Except.map (form answer :: ·)) answers⟩

/-- Once the visits to the first candidates have reached the limit, the others play no part. -/
theorem run_collect_take {found count : Nat}
    (full : plan.allows (found + (ids.take count).countP (plan.accepts seen)) = false) :
    (collect table plan visit found ids).run.run store =
      (collect table plan visit found (ids.take count)).run.run store := by
  induction ids generalizing store found count with
  | nil => rw [List.take_nil]
  | cons id rest ih =>
      obtain ⟨fresh, distinct⟩ := List.nodup_cons.mp distinct
      have here := shown id List.mem_cons_self
      have others := fun other member => shown other (List.mem_cons_of_mem id member)
      cases allowed : plan.allows found with
      | false =>
          have ended : ∀ ids, collect table plan visit found ids = pure [] := by
            intro ids
            cases ids with
            | nil => rfl
            | cons id rest =>
                rw [collect, allowed]
                rfl
          rw [ended, ended]
      | true =>
          cases count with
          | zero =>
              rw [List.take_zero, List.countP_nil, Nat.add_zero, allowed] at full
              cases full
          | succ count =>
              rw [List.take_succ_cons] at full ⊢
              cases flaw : plan.flaw? seen id with
              | some error =>
                  obtain ⟨after, -, runs⟩ := run_collect_of_flaw allowed here flaw
                  rw [runs, runs]
              | none =>
                  cases accepts : plan.accepts seen id with
                  | false =>
                      rw [List.countP_cons_of_neg (by rw [accepts]; exact Bool.false_ne_true)]
                        at full
                      rw [run_collect_of_not_accepts allowed here flaw accepts,
                        run_collect_of_not_accepts allowed here flaw accepts]
                      exact ih distinct others full
                  | true =>
                      obtain ⟨-, row, outcome, runs⟩ := run_collect_of_accepts allowed here accepts
                      have present := here.trans outcome
                      rw [List.countP_cons_of_pos accepts, ← Nat.add_assoc,
                        Nat.add_right_comm] at full
                      rw [runs, runs, visited store id row present]
                      have spared := spares.seen_of_notMem present fresh others
                      rcases acted : (act id).run.run store with ⟨_ | answer, after⟩
                      · rfl
                      · rw [acted] at spared
                        dsimp only [Except.map]
                        rw [ih distinct spared full]

end

/-- What a query does once it has looked at everything else: it visits rows, and joins what the
visits answer. -/
def finish (query : Query) (visit : RowId → Row → TableM Row) :
    Plan × List RowId × List (List Row) → QueryM (List Row)
  | (resolved, ids, fetched) => do
      let rows ← QueryM.onTable (collect query.table resolved visit 0 ids)
      return Join.applyAll query.joins fetched rows

/-- Whether a query does something to its rows in order. If it cannot look at everything else first,
it fails and changes nothing. If it can, its candidates are ascending; it changes what is changed by
doing this, one after another, to the chosen candidates as they are seen before, and stops and fails
where this does, or else at the first candidate that cannot be visited. The candidates after those
that reach the limit play no part. -/
structure InOrder (query : Query) (act : RowId → TableM Row) (visit : RowId → Row → TableM Row)
    (operation : QueryM (List Row)) (store : Store) : Prop where
  looks : operation = query.prepare >>= query.finish visit
  refused : ∀ error, (query.prepare.run.run store).1 = .error error →
    (operation.run.run store).1 = .error error ∧ (operation.run.run store).2.files = store.files
  carried : ∀ plan ids fetched, (query.prepare.run.run store).1 = .ok (plan, ids, fetched) →
    let prepared := (query.prepare.run.run store).2
    let seen := query.table.seen store
    let acted := ((plan.room 0 (plan.sound seen ids)).mapM act).run.run prepared
    prepared.files = store.files ∧ prepared.faults = store.faults ∧ Table.Ascending ids ∧
      (operation.run.run store).2.files = acted.2.files ∧
      (operation.run.run store).1 =
        ((concluded query.plan.project (plan.ending? seen 0 ids) acted.1).mapError .table).map
          (Join.applyAll query.joins fetched)
  unread : ∀ plan ids fetched, (query.prepare.run.run store).1 = .ok (plan, ids, fetched) →
    let prepared := (query.prepare.run.run store).2
    ∀ count, plan.allows ((ids.take count).countP (plan.accepts (query.table.seen store))) = false →
      (query.finish visit (plan, ids, fetched)).run.run prepared =
        (query.finish visit (plan, ids.take count, fetched)).run.run prepared

/-- Looking at everything else changes nothing, and finds ascending candidates. -/
theorem prepare_spec (query : Query) (store : Store) :
    let prepared := query.prepare.run.run store
    prepared.2.files = store.files ∧ prepared.2.faults = store.faults ∧
      ∀ plan ids fetched, prepared.1 = .ok (plan, ids, fetched) → Table.Ascending ids := by
  have isOn : query.On fun _ => True := query.on_any fun _ => trivial
  have tried : Tries (Files.Same fun files => files = store.files) store query.prepare _ :=
    @tries_prepare _ (fun _ _ => True) _ _ (fun table _ => table.visible_same _) query isOn
  obtain ⟨-, ascending, related⟩ := tried store store (.refl ⟨rfl, rfl⟩)
  exact ⟨related.files.2, related.faults, fun plan ids fetched prepared =>
    ascending (plan, ids, fetched) prepared⟩

/-- A query that visits its rows does so in order, if what the visits do to a row does not show in
any other. -/
theorem inOrder_traverse {query : Query} {act : RowId → TableM Row}
    (spares : query.table.Spares act) {visit : RowId → Row → TableM Row}
    (visited : ∀ store id row, query.table.seen store id = .ok (some row) →
      (visit id row).run.run store =
        (((act id).run.run store).1.map query.plan.project, ((act id).run.run store).2))
    (store : Store) : query.InOrder act visit (query.traverse visit) store := by
  have looks : query.traverse visit = query.prepare >>= query.finish visit :=
    query.traverse_eq_prepare visit
  have finishes : ∀ plan ids fetched after,
      (query.finish visit (plan, ids, fetched)).run.run after =
      let collected := (collect query.table plan visit 0 ids).run.run after
      ((collected.1.mapError .table).map (Join.applyAll query.joins fetched), collected.2) := by
    intro plan ids fetched after
    rw [finish, Store.run_return, QueryM.onTable, Store.run_adapt]
  obtain ⟨files, faults, ascending⟩ := query.prepare_spec store
  rcases prepared : query.prepare.run.run store with ⟨error | ⟨plan, ids, fetched⟩, after⟩
  · have runs : (query.traverse visit).run.run store = (.error error, after) := by
      rw [looks, Store.run_bind, prepared]
    refine ⟨looks, fun other failed => ?_, fun plan ids fetched done => ?_,
      fun plan ids fetched done => ?_⟩
    · rw [prepared] at failed files
      rw [runs]
      exact ⟨congrArg Except.error (Except.error.inj failed), files⟩
    · rw [prepared] at done
      cases done
    · rw [prepared] at done
      cases done
  · rw [prepared] at files faults ascending
    have runs : (query.traverse visit).run.run store =
        (query.finish visit (plan, ids, fetched)).run.run after := by
      rw [looks, Store.run_bind, prepared]
    have shown : ∀ id ∈ ids, query.table.seen after id = query.table.seen store id :=
      fun id _ => Table.seen_congr faults (by rw [files])
    have inOrder := ascending plan ids fetched rfl
    have distinct : ids.Nodup := inOrder.imp fun less same => by
      rw [same] at less
      exact Nat.lt_irrefl _ less
    refine ⟨looks, fun other failed => ?_, ?_, ?_⟩
    · rw [prepared] at failed
      cases failed
    · rintro _ _ _ done
      rw [prepared] at done ⊢
      cases done
      obtain ⟨left, answered⟩ := run_collect spares visited distinct shown 0
      rw [runs, finishes]
      refine ⟨files, faults, inOrder, left, ?_⟩
      dsimp only
      rw [answered]
    · rintro _ _ _ done
      rw [prepared] at done ⊢
      cases done
      intro _ count full
      rw [← Nat.zero_add (List.countP _ _)] at full
      rw [finishes, finishes, run_collect_take spares visited distinct shown full]

/-- Queries remove rows in order. -/
theorem inOrder_delete {query : Query} (isTable : FileName.isSegment query.table.name = true)
    (store : Store) :
    query.InOrder query.table.erase
      (fun id row => do
        discard (query.table.erase id)
        return query.plan.project row) query.delete store := by
  refine inOrder_traverse (Table.spares_erase isTable) (fun store id row present => ?_) store
  have discarded : discard (query.table.erase id) =
      query.table.erase id >>= fun row => pure ((fun _ => ()) row) := by
    change (fun _ => ()) <$> query.table.erase id = _
    exact map_eq_pure_bind _ _
  rw [Store.run_bind, discarded, Store.run_return, Table.run_erase present]
  rcases (query.table.persist id (some row) none).run.run store with ⟨_ | _, after⟩ <;> rfl

/-- Queries change rows in order. -/
theorem inOrder_set {query : Query} (isTable : FileName.isSegment query.table.name = true)
    (changes : Row) (store : Store) :
    query.InOrder (fun id => query.table.update id changes)
      (fun id _ => do return query.plan.project (← query.table.update id changes))
      (query.set changes) store :=
  inOrder_traverse (Table.spares_update isTable changes)
    (fun _ _ _ _ => Store.run_return _ _ _) store

/-- Queries remove rows, and change them, in order, whatever is stored and whatever accesses are
ordered to fail. -/
theorem delete_and_set_inOrder {query : Query}
    (isTable : FileName.isSegment query.table.name = true) (store : Store) :
    query.InOrder query.table.erase
        (fun id row => do
          discard (query.table.erase id)
          return query.plan.project row) query.delete store ∧
      ∀ changes, query.InOrder (fun id => query.table.update id changes)
        (fun id _ => do return query.plan.project (← query.table.update id changes))
        (query.set changes) store :=
  ⟨inOrder_delete isTable store, fun changes => inOrder_set isTable changes store⟩

/-- A table of three people, the second of which cannot be read. -/
def damagedPeople : Store :=
  let person := (Row.empty.insert "age" (.number (.ofUInt64 1))).toBytes false
  .ofFiles <| .memory <| MemoryFiles.empty.write "people/rows/0000.json" person
    |>.write "people/rows/0001.json" [] |>.write "people/rows/0002.json" person

/-- People are removed in order, although the second one cannot be read. -/
theorem delete_inOrder_damagedPeople :
    let people : Table := ⟨"people", .default⟩
    (all people).InOrder people.erase
      (fun id row => do
        discard (people.erase id)
        return (all people).plan.project row) (all people).delete damagedPeople :=
  (@delete_and_set_inOrder (all ⟨"people", .default⟩) (by decide) damagedPeople).1

end Query

end TableStore
