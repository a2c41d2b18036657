/-
# Operations on two stores

An operation sees and changes the files only through its accesses. When two stores are related and
every access to them answers the same and keeps them related, so does every operation that is made
of these accesses. With a relation between a store and itself, this says what an operation leaves
as it was.
-/

import TableStore.Proofs.Store
import TableStore.Query.Basic

namespace TableStore

namespace Files

variable {α : Type}

/-- Whether related files show the same, and only what is stated. -/
def Shown (relation : Files → Files → Prop) (view : Files → α) (post : α → Prop) : Prop :=
  ∀ first second, relation first second → view first = view second ∧ post (view first)

/-- Whether a change of related files has the same outcome and leaves related files. -/
def Changed (relation : Files → Files → Prop)
    (operation : Files → Except FileError Unit × Files) : Prop :=
  ∀ first second, relation first second →
    (operation first).1 = (operation second).1 ∧
      relation (operation first).2 (operation second).2

/-- Whether files are the same and have a property. -/
def Same (property : Files → Prop) (first second : Files) : Prop :=
  first = second ∧ property first

/-- The same files show the same. -/
theorem Same.shown {property : Files → Prop} {view : Files → α} {post : α → Prop}
    (stated : ∀ files, property files → post (view files)) : Shown (Same property) view post := by
  rintro files _ ⟨rfl, holds⟩
  exact ⟨rfl, stated files holds⟩

/-- The same files are changed alike. -/
theorem Same.changed {property : Files → Prop}
    {operation : Files → Except FileError Unit × Files}
    (kept : ∀ files, property files → property (operation files).2) :
    Changed (Same property) operation := by
  rintro files _ ⟨rfl, holds⟩
  exact ⟨rfl, rfl, kept files holds⟩

end Files

/-- Whether two stores have related files, the faults that were ordered at a start, and the same
of the probes that were ordered to fail left. -/
structure Store.Related (relation : Files → Files → Prop) (start first second : Store) : Prop where
  files : relation first.files second.files
  faults : first.faults = start.faults
  sameFaults : second.faults = start.faults
  probes : second.failingProbes = first.failingProbes
  isLeft : first.failingProbes <:+ start.failingProbes

/-- A store is related to itself if its files are. -/
theorem Store.Related.refl {relation : Files → Files → Prop} {store : Store}
    (files : relation store.files store.files) : Store.Related relation store store store where
  files := files
  faults := rfl
  sameFaults := rfl
  probes := rfl
  isLeft := List.suffix_rfl

/-- Whether an operation on related stores answers the same, answers only what is stated, and
leaves related stores. -/
def Parallel {α : Type} (relation : Files → Files → Prop) (start : Store)
    (operation : StateM Store α) (post : α → Prop) : Prop :=
  ∀ first second, Store.Related relation start first second →
    (operation.run first).1 = (operation.run second).1 ∧ post (operation.run first).1 ∧
      Store.Related relation start (operation.run first).2 (operation.run second).2

/-- The same for an operation that may fail. Only its answers are stated. -/
def Tries {ε α : Type} (relation : Files → Files → Prop) (start : Store)
    (operation : StoreM ε α) (post : α → Prop) : Prop :=
  Parallel relation start operation.run fun outcome =>
    ∀ answer, outcome = .ok answer → post answer

/-- What is stated of an answer of which nothing needs to be known. -/
def anything {α : Type} (_ : α) : Prop :=
  True

section

variable {ε α β : Type} {relation : Files → Files → Prop} {start : Store} {post : α → Prop}
  {result : β → Prop}

namespace Parallel

/-- An answer without an operation. -/
theorem pure {answer : α} (stated : post answer) :
    Parallel relation start (Pure.pure answer) post :=
  fun _ _ related => ⟨rfl, stated, related⟩

/-- One operation after another. -/
theorem bind {operation : StateM Store α} {next : α → StateM Store β}
    (parallel : Parallel relation start operation post)
    (others : ∀ answer, post answer → Parallel relation start (next answer) result) :
    Parallel relation start (operation >>= next) result := by
  intro first second related
  obtain ⟨same, stated, after⟩ := parallel first second related
  obtain ⟨alsoSame, ended, last⟩ := others _ stated _ _ after
  have runs : ∀ store, (operation >>= next).run store =
      (next (operation.run store).1).run (operation.run store).2 := fun _ => rfl
  rw [runs, runs, ← same]
  exact ⟨alsoSame, ended, last⟩

/-- A report shows in the journal only. -/
theorem report (event : Event) : Parallel relation start (Store.report event) anything :=
  fun _ _ related => ⟨rfl, trivial,
    ⟨related.files, related.faults, related.sameFaults, related.probes, related.isLeft⟩⟩

end Parallel

namespace Tries

/-- An answer without an operation. -/
theorem pure {answer : α} (stated : post answer) :
    Tries relation start (Pure.pure answer : StoreM ε α) post :=
  Parallel.pure fun _ same => Except.ok.inj same ▸ stated

/-- A failure without an operation. -/
theorem throw (error : ε) : Tries relation start (MonadExcept.throw error : StoreM ε α) post :=
  Parallel.pure fun _ impossible => nomatch impossible

/-- The value of a computation, or its failure. -/
theorem ofExcept {outcome : Except ε α} (stated : ∀ answer, outcome = .ok answer → post answer) :
    Tries relation start (MonadExcept.ofExcept outcome : StoreM ε α) post := by
  cases outcome with
  | ok answer => exact .pure (stated answer rfl)
  | error error => exact .throw error

/-- One operation after another. -/
theorem bind {operation : StoreM ε α} {next : α → StoreM ε β}
    (tries : Tries relation start operation post)
    (others : ∀ answer, post answer → Tries relation start (next answer) result) :
    Tries relation start (operation >>= next) result := by
  rw [Tries, ExceptT.run_bind]
  refine Parallel.bind tries fun outcome stated => ?_
  cases outcome with
  | ok answer => exact others answer (stated answer rfl)
  | error error => exact .pure fun _ impossible => nomatch impossible

/-- One operation after another of whose answer nothing needs to be known. -/
theorem andThen {operation : StoreM ε α} {next : α → StoreM ε β}
    (tries : Tries relation start operation anything)
    (others : ∀ answer, Tries relation start (next answer) result) :
    Tries relation start (operation >>= next) result :=
  tries.bind fun answer _ => others answer

/-- An operation that only works on the store. -/
theorem lift {operation : StateM Store α} (parallel : Parallel relation start operation post) :
    Tries relation start (liftM operation : StoreM ε α) post := by
  change Parallel relation start (Except.ok <$> operation) _
  rw [map_eq_pure_bind]
  exact parallel.bind fun answer stated => .pure fun _ same => Except.ok.inj same ▸ stated

/-- A report shows in the journal only. -/
theorem report (event : Event) :
    Tries relation start (liftM (Store.report event) : StoreM ε Unit) anything :=
  .lift (.report event)

/-- An operation whose failures are given another form. -/
theorem adapt {ε' : Type} {operation : StoreM ε α} (form : ε → ε')
    (tries : Tries relation start operation post) :
    Tries relation start (ExceptT.adapt form operation) post := by
  change Parallel relation start (Except.mapError form <$> operation.run) _
  rw [map_eq_pure_bind]
  refine Parallel.bind tries fun outcome stated => .pure fun answer same => ?_
  cases outcome with
  | ok value => exact stated answer (congrArg _ (Except.ok.inj same))
  | error error => cases same

/-- An operation on the files that asks for something which may be missing. -/
theorem onFiles? {operation : StoreM FileError α} (tries : Tries relation start operation post) :
    Tries relation start (TableM.onFiles? operation) fun answer =>
      ∀ value, answer = some value → post value := by
  refine Parallel.bind tries fun outcome stated => ?_
  match outcome with
  | .ok value =>
      refine Parallel.pure fun answer same other found => ?_
      cases (Except.ok.inj same).trans found
      exact stated value rfl
  | .error (.notFound path) =>
      refine Parallel.pure fun answer same other found => ?_
      cases (Except.ok.inj same).trans found
  | .error (.io path cause) => exact Parallel.pure fun _ impossible => nomatch impossible

end Tries

end

namespace Store

variable {relation : Files → Files → Prop} {start : Store} {access : Access} {path : String}

/-- Related stores have ordered the same accesses to fail. -/
theorem tries_checkFault (access : Access) (path : String) :
    Tries relation start (checkFault access path) anything := by
  intro first second related
  rw [run_checkFault, run_checkFault, related.faults, related.sameFaults]
  split <;> exact ⟨rfl, fun _ _ => trivial, related⟩

/-- What the files show is answered unless the access was ordered to fail. -/
theorem tries_inspect {α : Type} {view : Files → Except FileError α} {post : α → Prop}
    (shown : Files.Shown relation view fun outcome =>
      ∀ answer, outcome = .ok answer → post answer) :
    Tries relation start (do checkFault access path; inspect view) post := by
  refine (tries_checkFault access path).bind fun _ _ first second related => ?_
  obtain ⟨same, stated⟩ := shown _ _ related.files
  exact ⟨same, stated, related⟩

/-- A change is carried out unless the access was ordered to fail. -/
theorem tries_change {operation : Files → Except FileError Unit × Files}
    (changed : Files.Changed relation operation) :
    Tries relation start (do checkFault access path; change operation) anything := by
  refine (tries_checkFault access path).bind fun _ _ first second related => ?_
  obtain ⟨same, after⟩ := changed _ _ related.files
  exact ⟨same, fun _ _ => trivial,
    after, related.faults, related.sameFaults, related.probes, related.isLeft⟩

/-- A file is read. -/
theorem tries_read (shown : Files.Shown relation (Files.read path) anything) :
    Tries relation start (read path) anything :=
  tries_inspect fun first second related =>
    ⟨(shown first second related).1, fun _ _ => trivial⟩

/-- A directory is listed. -/
theorem tries_list {post : List String → Prop}
    (shown : Files.Shown relation (Files.list path) fun outcome =>
      ∀ names, outcome = .ok names → post names) :
    Tries relation start (list path) post :=
  tries_inspect shown

/-- A file is written. -/
theorem tries_write {bytes : Bytes} (changed : Files.Changed relation (Files.write path bytes)) :
    Tries relation start (write path bytes) anything :=
  tries_change changed

/-- A file is removed. -/
theorem tries_delete (changed : Files.Changed relation (Files.delete path)) :
    Tries relation start (delete path) anything :=
  tries_change changed

/-- A directory is removed. -/
theorem tries_deleteAll (changed : Files.Changed relation (Files.deleteAll path)) :
    Tries relation start (deleteAll path) anything :=
  tries_change changed

/-- Related stores have ordered the same probes to fail. -/
theorem tries_checkProbe (path : String) :
    Tries relation start (checkProbe path) anything := by
  intro first second related
  rw [run_checkProbe, run_checkProbe, related.probes]
  exact ⟨rfl, fun _ _ => trivial, related.files, related.faults, related.sameFaults,
    rfl, (List.tail_suffix _).trans related.isLeft⟩

/-- Whether a file is there is answered unless the probe was ordered to fail. -/
theorem tries_isFile {post : Bool → Prop}
    (shown : Files.Shown relation (Files.isFile path) post) :
    Tries relation start (isFile path) post := by
  refine (tries_checkFault .probe path).bind fun _ _ => ?_
  refine (tries_checkProbe path).bind fun _ _ first second related => ?_
  obtain ⟨same, stated⟩ := shown _ _ related.files
  exact ⟨congrArg Except.ok same, fun _ answered => Except.ok.inj answered ▸ stated, related⟩

end Store

end TableStore
