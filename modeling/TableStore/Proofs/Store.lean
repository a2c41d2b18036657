/-
# What operations ensure

An operation on the store is known by what it answers and by the files it leaves, given the files
and the faults that it starts with. The journal plays no part in either, so it does not show in
these statements. One rule says what a sequence of operations ensures.
-/

import TableStore.Proofs.Files.Medium
import TableStore.Store

namespace TableStore

/-- Whether an operation that starts with given files and faults answers and leaves the files as
stated, and keeps the faults. -/
def Ensures {α : Type} (medium : Medium) (faults : List Fault) (operation : StateM Store α)
    (content : Content) (post : α → Content → Prop) : Prop :=
  ∀ store : Store, medium.Holds content store.files → store.faults = faults →
    ∃ after, medium.Holds after (operation.run store).2.files ∧
      (operation.run store).2.faults = faults ∧ post (operation.run store).1 after

/-- Whether an operation has one answer and leaves one state of the files. -/
def Runs {ε α : Type} (medium : Medium) (faults : List Fault) (operation : StoreM ε α)
    (content : Content) (outcome : Except ε α) (after : Content) : Prop :=
  Ensures medium faults operation.run content fun answer left => answer = outcome ∧ left = after

section

variable {ε α β : Type} {medium : Medium} {faults : List Fault} {content after left : Content}

/-- What is ensured may be weakened. -/
theorem Ensures.imp {operation : StateM Store α} {post weaker : α → Content → Prop}
    (ensures : Ensures medium faults operation content post)
    (weaken : ∀ answer left, post answer left → weaker answer left) :
    Ensures medium faults operation content weaker := by
  intro store holds same
  obtain ⟨after, held, kept, ensured⟩ := ensures store holds same
  exact ⟨after, held, kept, weaken _ _ ensured⟩

/-- What is ensured may rest on the files being held at all. -/
theorem Ensures.of_held {operation : StateM Store α} {post : α → Content → Prop}
    (ensures : (∃ files, medium.Holds content files) →
      Ensures medium faults operation content post) :
    Ensures medium faults operation content post :=
  fun store holds same => ensures ⟨store.files, holds⟩ store holds same

/-- An answer without an operation. -/
theorem Ensures.pure {answer : α} {post : α → Content → Prop} (ensured : post answer content) :
    Ensures medium faults (Pure.pure answer) content post :=
  fun _ holds same => ⟨content, holds, same, ensured⟩

/-- One operation after another that cannot fail. -/
theorem Ensures.bind {operation : StateM Store α} {next : α → StateM Store β}
    {between : α → Content → Prop} {post : β → Content → Prop}
    (first : Ensures medium faults operation content between)
    (second : ∀ answer left, between answer left →
      Ensures medium faults (next answer) left post) :
    Ensures medium faults (operation >>= next) content post := by
  intro store holds same
  obtain ⟨after, held, kept, ensured⟩ := first store holds same
  exact second _ _ ensured _ held kept

/-- One operation after another, the first of which may fail. -/
theorem Ensures.run_bind {operation : StoreM ε α} {next : α → StoreM ε β}
    {between : Except ε α → Content → Prop} {post : Except ε β → Content → Prop}
    (first : Ensures medium faults operation.run content between)
    (second : ∀ answer left, between (.ok answer) left →
      Ensures medium faults (next answer).run left post)
    (failed : ∀ error left, between (.error error) left → post (.error error) left) :
    Ensures medium faults (operation >>= next).run content post := by
  rw [ExceptT.run_bind]
  refine Ensures.bind first fun answer left ensured => ?_
  cases answer with
  | ok answer => exact second answer left ensured
  | error error => exact .pure (failed error left ensured)

/-- An answer runs at once. -/
theorem Runs.pure (answer : α) :
    Runs medium faults (Pure.pure answer : StoreM ε α) content (.ok answer) content :=
  Ensures.pure ⟨rfl, rfl⟩

/-- A failure runs at once. -/
theorem Runs.throw (error : ε) :
    Runs medium faults (MonadExcept.throw error : StoreM ε α) content (.error error) content :=
  Ensures.pure ⟨rfl, rfl⟩

/-- An operation after one that answers. -/
theorem Runs.bind {operation : StoreM ε α} {next : α → StoreM ε β} {answer : α}
    {outcome : Except ε β} (first : Runs medium faults operation content (.ok answer) after)
    (second : Runs medium faults (next answer) after outcome left) :
    Runs medium faults (operation >>= next) content outcome left := by
  refine Ensures.run_bind first ?_ ?_
  · rintro _ _ ⟨same, rfl⟩
    cases same
    exact second
  · rintro _ _ ⟨same, -⟩
    cases same

/-- Nothing comes after an operation that fails. -/
theorem Runs.bind_error {operation : StoreM ε α} {next : α → StoreM ε β} {error : ε}
    (first : Runs medium faults operation content (.error error) after) :
    Runs medium faults (operation >>= next) content (.error error) after := by
  refine Ensures.run_bind first ?_ ?_
  · rintro _ _ ⟨same, -⟩
    cases same
  · rintro _ _ ⟨same, rfl⟩
    cases same
    exact ⟨rfl, rfl⟩

/-- An operation that only works on the store, inside one that may fail. -/
theorem Ensures.lift {operation : StateM Store α} {post : α → Content → Prop}
    (ensures : Ensures medium faults operation content post) :
    Ensures medium faults (liftM operation : StoreM ε α).run content fun answer left =>
      ∃ value, answer = .ok value ∧ post value left := by
  change Ensures medium faults (Except.ok <$> operation) content _
  rw [map_eq_pure_bind]
  exact Ensures.bind ensures fun answer left ensured => .pure ⟨answer, rfl, ensured⟩

/-- A report changes neither answers nor files. -/
theorem Ensures.report (event : Event) :
    Ensures medium faults (Store.report event) content fun _ left => left = content :=
  fun _ holds same => ⟨content, holds, same, rfl⟩

/-- A report at the end of an operation. -/
theorem Runs.report (event : Event) :
    Runs medium faults (liftM (Store.report event) : StoreM ε Unit) content (.ok ()) content := by
  refine (Ensures.report event).lift.imp ?_
  rintro _ _ ⟨_, rfl, rfl⟩
  exact ⟨rfl, rfl⟩

end

namespace Store

section

variable {ε α β : Type}

/-- One operation after another runs on what the first one leaves, unless it fails. -/
theorem run_bind (operation : StoreM ε α) (next : α → StoreM ε β) (store : Store) :
    (operation >>= next).run.run store =
      match operation.run.run store with
      | (.ok answer, after) => (next answer).run.run after
      | (.error error, after) => (.error error, after) := by
  rw [ExceptT.run_bind, StateT.run_bind]
  rcases operation.run.run store with ⟨answer | error, after⟩ <;> rfl

/-- An operation after one that answers runs on what that one leaves. -/
theorem run_bind_of_ok {operation : StoreM ε α} {store after : Store} {answer : α}
    (answered : operation.run.run store = (.ok answer, after)) (next : α → StoreM ε β) :
    (operation >>= next).run.run store = (next answer).run.run after := by
  rw [run_bind, answered]

/-- Nothing comes after an operation that fails. -/
theorem run_bind_of_error {operation : StoreM ε α} {store after : Store} {error : ε}
    (failed : operation.run.run store = (.error error, after)) (next : α → StoreM ε β) :
    (operation >>= next).run.run store = (.error error, after) := by
  rw [run_bind, failed]

/-- An answer in another form comes with the same store. -/
theorem run_return (operation : StoreM ε α) (form : α → β) (store : Store) :
    (do return form (← operation) : StoreM ε β).run.run store =
      ((operation.run.run store).1.map form, (operation.run.run store).2) := by
  rw [run_bind]
  rcases operation.run.run store with ⟨_ | _, after⟩ <;> rfl

/-- A failure in another form comes with the same store. -/
theorem run_adapt {ε' : Type} (form : ε → ε') (operation : StoreM ε α) (store : Store) :
    (ExceptT.adapt form operation).run.run store =
      ((operation.run.run store).1.mapError form, (operation.run.run store).2) :=
  rfl

end

section

variable {medium : Medium} {faults : List Fault} {content after : Content}

/-- Whether an access fails is a matter of what was ordered. -/
theorem run_checkFault (access : Access) (path : String) (store : Store) :
    (checkFault access path).run.run store =
      if store.faults.contains ⟨access, path⟩ then (.error (.io path .injected), store)
      else (.ok (), store) := by
  change ((if store.faults.contains ⟨access, path⟩ then throw (.io path .injected)
    else pure () : StoreM FileError Unit)).run.run store = _
  split <;> rfl

/-- Whether a probe fails is a matter of what was ordered first of what is left. -/
theorem run_checkProbe (path : String) (store : Store) :
    (checkProbe path).run.run store =
      (if store.failingProbes.head? = some true then .error (.io path .injected) else .ok (),
        { store with failingProbes := store.failingProbes.tail }) := by
  change ((if store.failingProbes.head? = some true then throw (.io path .injected)
    else pure () : StoreM FileError Unit)).run.run
      { store with failingProbes := store.failingProbes.tail } = _
  split <;> rfl

/-- An access is carried out unless it is ordered to fail. -/
theorem run_checked {α : Type} (access : Access) (path : String) (rest : StoreM FileError α)
    (store : Store) :
    (do checkFault access path; rest : StoreM FileError α).run.run store =
      if store.faults.contains ⟨access, path⟩ then (.error (.io path .injected), store)
      else rest.run.run store := by
  rw [run_bind, run_checkFault]
  by_cases faulted : store.faults.contains ⟨access, path⟩
  · rw [if_pos faulted, if_pos faulted]
  · rw [if_neg faulted, if_neg faulted]

/-- Without a fault ordered for it, an access goes on. -/
theorem runs_checkFault {access : Access} {path : String}
    (unfaulted : (⟨access, path⟩ : Fault) ∉ faults) :
    Runs medium faults (checkFault access path) content (.ok ()) content := by
  rintro store holds rfl
  rw [run_checkFault, if_neg (by simpa using unfaulted)]
  exact ⟨content, holds, rfl, rfl, rfl⟩

/-- An access that is ordered to fail does so before it changes anything. -/
theorem runs_of_faulted {α : Type} {access : Access} {path : String} (rest : StoreM FileError α)
    (faulted : (⟨access, path⟩ : Fault) ∈ faults) :
    Runs medium faults (do checkFault access path; rest) content (.error (.io path .injected))
      content := by
  refine Runs.bind_error ?_
  rintro store holds rfl
  rw [run_checkFault, if_pos (by simpa using faulted)]
  exact ⟨content, holds, rfl, rfl, rfl⟩

/-- What is seen in the files is answered. -/
theorem ensures_inspect {α : Type} {operation : Files → Except FileError α}
    {post : Except FileError α → Content → Prop}
    (seen : ∀ files, medium.Holds content files → post (operation files) content) :
    Ensures medium faults (inspect operation).run content post :=
  fun store holds same => ⟨content, holds, same, seen store.files holds⟩

/-- A change of the files is carried out. -/
theorem runs_change {operation : Files → Except FileError Unit × Files}
    {outcome : Except FileError Unit}
    (changed : ∀ files, medium.Holds content files →
      ∃ left, operation files = (outcome, left) ∧ medium.Holds after left) :
    Runs medium faults (change operation) content outcome after := by
  intro store holds same
  obtain ⟨left, result, held⟩ := changed store.files holds
  have runs : (change operation).run.run store =
      ((operation store.files).1, { store with files := (operation store.files).2 }) := rfl
  rw [runs, result]
  exact ⟨after, held, same, rfl, rfl⟩

/-- A stored file is read. -/
theorem runs_read (place : Place) {bytes : Bytes}
    (unfaulted : (⟨.read, place.path⟩ : Fault) ∉ faults) (admitted : medium.Admits place.path)
    (stored : content place = some bytes) :
    Runs medium faults (read place.path) content (.ok bytes) content :=
  (runs_checkFault unfaulted).bind <| ensures_inspect fun files holds => by
    rw [holds.read admitted, stored]
    exact ⟨rfl, rfl⟩

/-- A file that is not stored is missing. -/
theorem runs_read_none (place : Place) (unfaulted : (⟨.read, place.path⟩ : Fault) ∉ faults)
    (admitted : medium.Admits place.path) (absent : content place = none) :
    Runs medium faults (read place.path) content (.error (.notFound place.path)) content :=
  (runs_checkFault unfaulted).bind <| ensures_inspect fun files holds => by
    rw [holds.read admitted, absent]
    exact ⟨rfl, rfl⟩

/-- A written file is stored. -/
theorem runs_write (place : Place) (unfaulted : (⟨.write, place.path⟩ : Fault) ∉ faults)
    (admitted : medium.Admits place.path) (bytes : Bytes) :
    Runs medium faults (write place.path bytes) content (.ok ())
      (Function.update content place (some bytes)) :=
  (runs_checkFault unfaulted).bind <| runs_change fun _ holds => holds.write admitted bytes

/-- A stored file can be removed. -/
theorem runs_delete (place : Place) (unfaulted : (⟨.delete, place.path⟩ : Fault) ∉ faults)
    (admitted : medium.Admits place.path) (stored : (content place).isSome = true) :
    Runs medium faults (delete place.path) content (.ok ())
      (Function.update content place none) :=
  (runs_checkFault unfaulted).bind <| runs_change fun _ holds => holds.delete admitted stored

/-- A file that is not stored is missing when it is to be removed. -/
theorem runs_delete_none (place : Place) (unfaulted : (⟨.delete, place.path⟩ : Fault) ∉ faults)
    (admitted : medium.Admits place.path) (absent : content place = none) :
    Runs medium faults (delete place.path) content (.error (.notFound place.path)) content :=
  (runs_checkFault unfaulted).bind <| runs_change fun files holds =>
    ⟨files, holds.delete_none admitted absent, holds⟩

/-- The names in an area are listed, ascending. -/
theorem ensures_list {table : String} (area : Area)
    (unfaulted : (⟨.list, area.directory table⟩ : Fault) ∉ faults)
    (isTable : FileName.isSegment table = true)
    (admitted : medium.Admits (area.directory table)) :
    Ensures medium faults (list (area.directory table)).run content fun answer left =>
      left = content ∧ ∃ names, answer = .ok names ∧ names.Pairwise (· < ·) ∧
        ∀ name, name ∈ names ↔ ∃ place : Place, place.table = table ∧ place.area = area ∧
          place.name = name ∧ (content place).isSome = true := by
  refine Ensures.run_bind (runs_checkFault unfaulted) ?_ ?_
  · rintro _ _ ⟨-, rfl⟩
    refine ensures_inspect fun files holds => ⟨rfl, ?_⟩
    exact holds.list isTable admitted
  · rintro _ _ ⟨failed, -⟩
    cases failed

/-- Checks before an access leave the files alone, whether they pass or not. -/
theorem ensures_checkProbe (path : String) :
    Ensures medium faults (checkProbe path).run content fun _ left => left = content := by
  intro store holds same
  rw [run_checkProbe]
  exact ⟨content, holds, same, rfl⟩

/-- Whether an access was ordered to fail is found out without changing a file. -/
theorem ensures_checkFault (access : Access) (path : String) :
    Ensures medium faults (checkFault access path).run content fun _ left => left = content := by
  intro store holds same
  rw [run_checkFault]
  split <;> exact ⟨content, holds, same, rfl⟩

/-- A probe that does not fail tells whether a file is stored. -/
theorem ensures_isFile (place : Place) :
    Ensures medium faults (isFile place.path).run content fun answer left =>
      left = content ∧ ∀ found, answer = .ok found → found = (content place).isSome := by
  refine Ensures.run_bind (ensures_checkFault _ _) ?_ ?_
  · rintro _ _ rfl
    refine Ensures.run_bind (ensures_checkProbe _) ?_ ?_
    · rintro _ _ rfl
      refine ensures_inspect fun files holds => ⟨rfl, fun found answered => ?_⟩
      rw [← Except.ok.inj answered, holds.isFile]
    · rintro _ _ rfl
      exact ⟨rfl, fun _ answered => nomatch answered⟩
  · rintro _ _ rfl
    exact ⟨rfl, fun _ answered => nomatch answered⟩

/-- Removing the directory of a table removes what is stored for it. -/
theorem runs_deleteAll {table : String} (unfaulted : (⟨.deleteAll, table⟩ : Fault) ∉ faults)
    (isTable : FileName.isSegment table = true) (admitted : medium.Admits table) :
    Runs medium faults (deleteAll table) content (.ok ())
      (fun place => if place.table = table then none else content place) :=
  (runs_checkFault unfaulted).bind <| runs_change fun _ holds => holds.deleteAll isTable admitted

end

end Store

end TableStore
