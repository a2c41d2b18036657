/-
# Isolation of tables

What a session does on one table changes only files below this table, and does not show on any
other. So sessions on two tables can take turns in any order, and each of them sees and leaves
what it would if it were alone.
-/

import TableStore.Proofs.Files.Long
import TableStore.Proofs.Session.Move
import TableStore.Proofs.Session.Queries

namespace TableStore

open MemoryFiles

/-- Whether two collections of files look the same below a table, and have come from two others by
changes below it only. -/
structure Files.Apart (table : String) (start other first second : Files) : Prop where
  alike : AlikeBelow table first second
  beside : Beside table start first
  alsoBeside : Beside table other second

namespace Files.Apart

variable {table : String} {start other : Files}

/-- What is the same below the table is shown. -/
theorem shown {α : Type} {view : Files → α} {post : α → Prop}
    (same : ∀ first second, AlikeBelow table first second → view first = view second)
    (stated : ∀ files, post (view files)) : Shown (Apart table start other) view post :=
  fun first second apart => ⟨same first second apart.alike, stated first⟩

/-- A change that is confined to the table, if the root bypasses the same tables as at the start,
keeps the files apart. -/
theorem changed {operation : Files → Except FileError Unit × Files}
    (confined : ∀ first second, (start.Bypasses table → first.Bypasses table) →
      AlikeBelow table first second → Confined table operation first second) :
    Changed (Apart table start other) operation := by
  intro first second apart
  obtain ⟨outcomes, alike, beside⟩ := confined first second apart.beside.bypasses apart.alike
  obtain ⟨-, -, alsoBeside⟩ := confined second first
    (fun bypasses => apart.alike.bypasses (apart.beside.bypasses bypasses)) apart.alike.symm
  exact ⟨outcomes, alike, apart.beside.trans beside, apart.alsoBeside.trans alsoBeside⟩

/-- A table that the root bypasses is removed alike. -/
theorem deleteAll (isTable : FileName.isSegment table = true) (bypasses : start.Bypasses table) :
    Changed (Apart table start other) (Files.deleteAll table) :=
  changed fun _ _ still alike => confined_deleteAll isTable (still bypasses) alike

end Files.Apart

/-- A table is edited alike in files that look the same below it. -/
theorem Table.editable_of_apart {table : Table} (isTable : FileName.isSegment table.name = true)
    (start other : Files) :
    table.Editable (Files.Apart table.name start other) fun _ => True := by
  have row := fun id => @Files.Apart.shown table.name start other _
    (Files.read (table.rowPath id)) anything
    (fun _ _ alike => alike.read (.row table.name isTable id)) fun _ => trivial
  have index := fun column isColumn => @Files.Apart.shown table.name start other _
    (Files.read (table.indexPath column)) anything
    (fun _ _ alike => alike.read (.index table.name isTable column isColumn))
    fun _ => trivial
  refine ⟨?_, ?_, ?_, ?_, ?_⟩
  · refine ⟨row, ?_, ?_, fun column isColumn _ => index column isColumn⟩
    · exact Files.Apart.shown (fun _ _ alike => congrArg (Except.map Table.identified)
        (alike.list isTable .rows)) fun _ => trivial
    · exact fun column isColumn => Files.Apart.shown
        (fun _ _ alike => alike.isFile (.index table.name isTable column isColumn))
        fun _ _ => trivial
  · exact Files.Apart.shown (fun _ _ alike => alike.list isTable .indexes)
      fun _ _ _ _ _ _ => trivial
  · exact fun column bytes isColumn _ => Files.Apart.changed fun _ _ _ =>
      Files.confined_write (.index table.name isTable column isColumn) bytes
  · exact fun id => ⟨row id,
      fun bytes => Files.Apart.changed fun _ _ _ =>
        Files.confined_write (.row table.name isTable id) bytes,
      Files.Apart.changed fun _ _ _ => Files.confined_delete (.row table.name isTable id)⟩
  · exact fun column isColumn _ => Files.Apart.changed fun _ _ _ =>
      Files.confined_delete (.index table.name isTable column isColumn)

/-- All tables with a name are edited alike in files that look the same below it. -/
theorem Table.editable_of_named {name : String} (isTable : FileName.isSegment name = true)
    (start other : Files) (table : Table) (named : table.name = name) :
    table.Editable (Files.Apart name start other) fun _ => True := by
  subst named
  exact editable_of_apart isTable start other

/-- A table that has been dropped has had its directory removed. -/
theorem Table.of_drop {table : Table} {store : Store}
    (dropped : (table.drop.run.run store).1 = .ok ()) :
    (store.files.deleteAll table.name).1 = .ok () ∧
      (table.drop.run.run store).2.files = (store.files.deleteAll table.name).2 := by
  rw [drop, Store.run_bind, TableM.onFiles, Store.run_adapt, Store.deleteAll, Store.run_checked]
    at dropped ⊢
  by_cases faulted : store.faults.contains ⟨.deleteAll, table.name⟩
  · rw [if_pos faulted] at dropped
    cases dropped
  · rw [if_neg faulted] at dropped ⊢
    have runs : (Store.change (Files.deleteAll table.name)).run.run store =
        ((store.files.deleteAll table.name).1,
          { store with files := (store.files.deleteAll table.name).2 }) := rfl
    rw [runs] at dropped ⊢
    cases removed : (store.files.deleteAll table.name).1 with
    | ok _ => exact ⟨rfl, rfl⟩
    | error error =>
        rw [removed] at dropped
        cases dropped

/-- The rows of a table are looked for in the directory of the rows. -/
theorem Table.rowIds_eq_of_list (table : Table) {store : Store} (unfaulted : store.faults = [])
    {files : Files} (same : store.files = files) {names : Except FileError (List String)}
    (listed : files.list (Area.rows.directory table.name) = names) :
    (names = .ok [] → (table.rowIds.run.run store).1 = .ok []) ∧
      ∀ error, names = .error error → (table.rowIds.run.run store).1 = .error (.files error) := by
  have runs : (Store.inspect (Files.list table.rowDirectory)).run.run store = (names, store) := by
    rw [← listed, ← same]
    rfl
  have noFault : store.faults.contains ⟨.list, table.rowDirectory⟩ = false := by
    rw [unfaulted]
    rfl
  rw [rowIds, Store.run_bind, TableM.onFiles, Store.run_adapt, Store.list, Store.run_checked,
    noFault, if_neg Bool.false_ne_true, runs]
  constructor
  · rintro rfl
    exact congrArg Except.ok List.mergeSort_nil
  · rintro error rfl
    rfl

/-- Whether a move keeps to one table: it opens no handle on another, and it does not remove the
table if the way to the root of the files leads through its directory. -/
structure Move.KeepsTo (files : Files) (table : String) (move : Move) : Prop where
  opened : ∀ name, move.opened? = some name → name = table
  dropped : move.drops = true → files.Bypasses table

namespace Move.KeepsTo

variable {files later : Files} {table : String} {move : Move}

/-- A move that keeps to one table is within it. -/
theorem within (keeps : move.KeepsTo files table) : move.Within (· = table) fun _ _ => True where
  opened name opened _ := keeps.opened name opened
  asked _ _ _ _ _ := trivial

/-- A move still keeps to a table that the root still bypasses. -/
theorem mono (keeps : move.KeepsTo files table)
    (still : files.Bypasses table → later.Bypasses table) : move.KeepsTo later table where
  opened := keeps.opened
  dropped drops := still (keeps.dropped drops)

end Move.KeepsTo

/-- Whether two stores look the same below a table, and the same accesses to them are ordered to
fail. -/
structure Store.AlikeBelow (table : String) (first second : Store) : Prop where
  files : first.files.AlikeBelow table second.files
  faults : second.faults = first.faults
  probes : second.failingProbes = first.failingProbes

namespace Store.AlikeBelow

variable {table : String} {first second later : Store}

/-- A store looks like itself. -/
theorem refl (table : String) (anchored : first.files.Anchored) :
    first.AlikeBelow table first where
  files := .refl anchored
  faults := rfl
  probes := rfl

/-- Stores that look the same below a table start apart. -/
theorem related (alike : first.AlikeBelow table second) :
    Related (Files.Apart table first.files second.files) first first second where
  files := ⟨alike.files, .refl alike.files.anchored, .refl alike.files.symm.anchored⟩
  faults := rfl
  sameFaults := alike.faults
  probes := alike.probes
  isLeft := List.suffix_rfl

/-- Stores that are still apart still look the same below the table. -/
theorem of_related {start after other : Store} {files others : Files}
    (related : Related (Files.Apart table files others) start after other) :
    after.AlikeBelow table other where
  files := related.files.alike
  faults := related.sameFaults.trans related.faults.symm
  probes := related.probes

/-- Stores still look the same below a table when the first has changed below another one, and as
many probes are ordered to fail as before. -/
theorem elsewhere {other : String} (alike : first.AlikeBelow other second)
    (isTable : FileName.isSegment table = true) (isOther : FileName.isSegment other = true)
    (apart : table ≠ other) (beside : first.files.Beside table later.files)
    (hosts : first.files.Hosts other) (faults : later.faults = first.faults)
    (probes : later.failingProbes = first.failingProbes) : later.AlikeBelow other second where
  files := (beside.alikeBelow isTable isOther apart.symm hosts).symm.trans alike.files
  faults := alike.faults.trans faults.symm
  probes := alike.probes.trans probes.symm

end Store.AlikeBelow

namespace Session

/-- Let two sessions take turns. -/
def interleave (first second : Session) : List (Move ⊕ Move) → StateM Store (List (Sight ⊕ Sight))
  | [] => return []
  | .inl move :: rest => do
      let (sight, next) ← first.move move
      return .inl sight :: (← next.interleave second rest)
  | .inr move :: rest => do
      let (sight, next) ← second.move move
      return .inr sight :: (← first.interleave next rest)

section

variable {table : String} (isTable : FileName.isSegment table = true) {session : Session}
  (isOn : session.On (· = table)) {first second : Store} (alike : first.AlikeBelow table second)

include isTable isOn alike

/-- A session on one table sees and does the same on stores that look the same below it, and
changes nothing elsewhere. -/
theorem watch_apart {moves : List Move} (keeps : ∀ move ∈ moves, move.KeepsTo first.files table) :
    ((session.watch moves).run first).1 = ((session.watch moves).run second).1 ∧
      ((session.watch moves).run first).1.2.On (· = table) ∧
      Store.Related (Files.Apart table first.files second.files) first
        ((session.watch moves).run first).2 ((session.watch moves).run second).2 :=
  parallel_watch (Table.editable_of_named isTable _ _) isOn
    (fun move member drops name named => by
      rw [named]
      exact Files.Apart.deleteAll isTable ((keeps move member).dropped drops))
    (fun move member => (keeps move member).within) first second alike.related

/-- So does one move of such a session. -/
theorem move_apart {move : Move} (keeps : move.KeepsTo first.files table) :
    ((session.move move).run first).1 = ((session.move move).run second).1 ∧
      ((session.move move).run first).1.2.On (· = table) ∧
      Store.Related (Files.Apart table first.files second.files) first
        ((session.move move).run first).2 ((session.move move).run second).2 :=
  parallel_move (Table.editable_of_named isTable _ _) isOn
    (fun drops name named => by
      rw [named]
      exact Files.Apart.deleteAll isTable (keeps.dropped drops))
    keeps.within first second alike.related

end

/-- Let two sessions take turns that begin with one of the first. -/
theorem run_interleave_inl (first second : Session) (move : Move) (rest : List (Move ⊕ Move))
    (store : Store) :
    (first.interleave second (.inl move :: rest)).run store =
      let moved := (first.move move).run store
      let later := (moved.1.2.interleave second rest).run moved.2
      (.inl moved.1.1 :: later.1, later.2) :=
  rfl

/-- Let two sessions take turns that begin with one of the second. -/
theorem run_interleave_inr (first second : Session) (move : Move) (rest : List (Move ⊕ Move))
    (store : Store) :
    (first.interleave second (.inr move :: rest)).run store =
      let moved := (second.move move).run store
      let later := (first.interleave moved.1.2 rest).run moved.2
      (.inr moved.1.1 :: later.1, later.2) :=
  rfl

/-- Watch moves that begin with one. -/
theorem run_watch_cons (session : Session) (move : Move) (rest : List Move) (store : Store) :
    (session.watch (move :: rest)).run store =
      let moved := (session.move move).run store
      let later := (moved.1.2.watch rest).run moved.2
      ((moved.1.1 :: later.1.1, later.1.2), later.2) :=
  rfl

/-- Two sessions on different tables that take turns see and leave what each of them does alone. -/
theorem interleave_apart {one other : String} (isOne : FileName.isSegment one = true)
    (isOther : FileName.isSegment other = true) (apart : one ≠ other) {turns : List (Move ⊕ Move)}
    {first second : Session} (onOne : first.On (· = one)) (onOther : second.On (· = other))
    {both alone also : Store} (keeps : ∀ move, .inl move ∈ turns → move.KeepsTo both.files one)
    (alsoKeeps : ∀ move, .inr move ∈ turns → move.KeepsTo both.files other)
    (hosts : both.files.Hosts one) (alsoHosts : both.files.Hosts other)
    (alike : both.AlikeBelow one alone) (alsoAlike : both.AlikeBelow other also)
    (quiet : both.failingProbes = []) :
    let together := (first.interleave second turns).run both
    let left := (first.watch (turns.filterMap Sum.getLeft?)).run alone
    let right := (second.watch (turns.filterMap Sum.getRight?)).run also
    together.1.filterMap Sum.getLeft? = left.1.1 ∧
      together.1.filterMap Sum.getRight? = right.1.1 ∧
      together.2.AlikeBelow one left.2 ∧ together.2.AlikeBelow other right.2 ∧
      ∀ path, isBelow one path = false → isBelow other path = false →
        together.2.files.stored? path = both.files.stored? path := by
  induction turns generalizing first second both alone also with
  | nil => exact ⟨rfl, rfl, alike, alsoAlike, fun _ _ _ => rfl⟩
  | cons turn rest ih =>
      have laterKeeps := fun move member => keeps move (List.mem_cons_of_mem turn member)
      have laterAlsoKeeps := fun move member => alsoKeeps move (List.mem_cons_of_mem turn member)
      cases turn with
      | inl move =>
          obtain ⟨same, stillOn, related⟩ :=
            move_apart isOne onOne alike (keeps move List.mem_cons_self)
          have beside := related.files.beside
          have stillQuiet := List.suffix_nil.mp (quiet ▸ related.isLeft)
          obtain ⟨lefts, rights, ones, others, outside⟩ := ih stillOn onOther
            (fun move member => (laterKeeps move member).mono beside.bypasses)
            (fun move member => (laterAlsoKeeps move member).mono beside.bypasses)
            (beside.hosts hosts) (beside.hosts alsoHosts) (.of_related related)
            (alsoAlike.elsewhere isOne isOther apart beside alsoHosts related.faults
              (stillQuiet.trans quiet.symm)) stillQuiet
          simp only [run_interleave_inl, List.filterMap_cons, Sum.getLeft?_inl, Sum.getRight?_inl,
            run_watch_cons, ← same]
          exact ⟨congrArg _ lefts, rights, ones, others, fun path isOutside alsoOutside =>
            (outside path isOutside alsoOutside).trans (beside.stored? isOne isOutside)⟩
      | inr move =>
          obtain ⟨same, stillOn, related⟩ :=
            move_apart isOther onOther alsoAlike (alsoKeeps move List.mem_cons_self)
          have beside := related.files.beside
          have stillQuiet := List.suffix_nil.mp (quiet ▸ related.isLeft)
          obtain ⟨lefts, rights, ones, others, outside⟩ := ih onOne stillOn
            (fun move member => (laterKeeps move member).mono beside.bypasses)
            (fun move member => (laterAlsoKeeps move member).mono beside.bypasses)
            (beside.hosts hosts) (beside.hosts alsoHosts)
            (alike.elsewhere isOther isOne apart.symm beside hosts related.faults
              (stillQuiet.trans quiet.symm)) (.of_related related) stillQuiet
          simp only [run_interleave_inr, List.filterMap_cons, Sum.getLeft?_inr, Sum.getRight?_inr,
            run_watch_cons, ← same]
          exact ⟨lefts, congrArg _ rights, ones, others, fun path isOutside alsoOutside =>
            (outside path isOutside alsoOutside).trans (beside.stored? isOther alsoOutside)⟩

/-- Tables are isolated from each other, whatever is stored and whatever accesses are ordered to
fail. A session on one table changes only files below it, and one on another table sees the same
before and after; removing a table removes all files below it and no others; and two sessions that
take turns see and leave what each of them does alone. This is so for every root that is there or
blocked, and for those that are missing and can be made where their path leads; but if the path of
the root leads through the directory of a table, as that of `data/t/..` does, this table must not be
removed, which would take the root away. As long as there is no directory for the root, the names of
the tables must not be too long for a file. -/
theorem tables_isolated {one other : String} (isOne : FileName.isSegment one = true)
    (isOther : FileName.isSegment other = true) (apart : one ≠ other) {store : Store}
    (anchored : store.files.Anchored) {first second : Session} (onOne : first.On (· = one))
    (onOther : second.On (· = other)) :
    (∀ moves : List Move, (∀ move ∈ moves, move.KeepsTo store.files one) →
      let after := ((first.watch moves).run store).2
      (∀ path, isBelow one path = false → after.files.stored? path = store.files.stored? path) ∧
      (store.files.Hosts other →
        ∀ others : List Move, (∀ move ∈ others, move.KeepsTo store.files other) →
        ((second.watch others).run { after with failingProbes := store.failingProbes }).1.1 =
          ((second.watch others).run store).1.1)) ∧
    (store.files.Bypasses one → ∀ options,
      let dropped := (Table.drop ⟨one, options⟩).run.run store
      dropped.1 = .ok () → ∀ path, dropped.2.files.stored? path =
        if isBelow one path then none else store.files.stored? path) ∧
    (store.files.Hosts one → store.files.Hosts other → store.failingProbes = [] →
      ∀ turns : List (Move ⊕ Move), (∀ move, .inl move ∈ turns → move.KeepsTo store.files one) →
        (∀ move, .inr move ∈ turns → move.KeepsTo store.files other) →
      let together := (first.interleave second turns).run store
      let left := (first.watch (turns.filterMap Sum.getLeft?)).run store
      let right := (second.watch (turns.filterMap Sum.getRight?)).run store
      together.1.filterMap Sum.getLeft? = left.1.1 ∧
      together.1.filterMap Sum.getRight? = right.1.1 ∧
      ∀ path, together.2.files.stored? path =
        if isBelow one path then left.2.files.stored? path
        else if isBelow other path then right.2.files.stored? path
        else store.files.stored? path) := by
  have alike := Store.AlikeBelow.refl one anchored
  have alsoAlike := Store.AlikeBelow.refl other anchored
  refine ⟨fun moves keeps => ?_, fun bypasses => ?_,
    fun hosts alsoHosts quiet turns keeps alsoKeeps => ?_⟩
  · intro after
    obtain ⟨-, -, related⟩ := watch_apart isOne onOne alike keeps
    have beside := related.files.beside
    refine ⟨fun path outside => beside.stored? isOne outside, fun hosts others alsoKeeps => ?_⟩
    have later : ({ after with failingProbes := store.failingProbes } : Store).AlikeBelow other
        store := alsoAlike.elsewhere isOne isOther apart beside hosts related.faults rfl
    exact congrArg Prod.fst (watch_apart isOther onOther later fun move member =>
      (alsoKeeps move member).mono beside.bypasses).1
  · intro options dropped removed path
    obtain ⟨emptied, left⟩ := Table.of_drop removed
    rw [left]
    split
    · next below => exact Files.stored?_deleteAll anchored bypasses isOne emptied below
    · next outside =>
        obtain ⟨-, -, beside⟩ := Files.confined_deleteAll isOne bypasses alike.files
        exact beside.stored? isOne (Bool.not_eq_true _ ▸ outside)
  · obtain ⟨lefts, rights, ones, others, outside⟩ := interleave_apart isOne isOther apart onOne
      onOther keeps alsoKeeps hosts alsoHosts alike alsoAlike quiet
    refine ⟨lefts, rights, fun path => ?_⟩
    split
    · next below => exact ones.files.stored? isOne below
    split
    · next below => exact others.files.stored? isOther below
    · next isOutside alsoOutside =>
        exact outside path (Bool.not_eq_true _ ▸ isOutside) (Bool.not_eq_true _ ▸ alsoOutside)

/-- A row is stored in each of two tables, and the first of these is removed. -/
def sparingOther : List (Move ⊕ Move) :=
  [.inl (.step (.call 0 (.insert (agedRow 1)))), .inr (.step (.call 0 (.insert (agedRow 2)))),
    .inl (.step (.call 0 .drop))]

/-- The name of the first table may start that of the other. -/
theorem tables_isolated_sparingOther :
    let movies : Session := ⟨[⟨"movies", .default⟩], []⟩
    let sequels : Session := ⟨[⟨"movies2", .default⟩], []⟩
    let store : Store := .ofFiles (.disk .empty "data")
    let together := (movies.interleave sequels sparingOther).run store
    let left := (movies.watch (sparingOther.filterMap Sum.getLeft?)).run store
    let right := (sequels.watch (sparingOther.filterMap Sum.getRight?)).run store
    together.1.filterMap Sum.getLeft? = left.1.1 ∧
      together.1.filterMap Sum.getRight? = right.1.1 ∧
      ∀ path, together.2.files.stored? path =
        if isBelow "movies" path then left.2.files.stored? path
        else if isBelow "movies2" path then right.2.files.stored? path
        else store.files.stored? path := by
  intro movies sequels store
  have anchored : store.files.Anchored := holds_empty_data.steady.anchored
  have onOne : movies.On (· = "movies") :=
    ⟨List.forall_mem_singleton.mpr rfl, fun _ member => absurd member List.not_mem_nil⟩
  have onOther : sequels.On (· = "movies2") :=
    ⟨List.forall_mem_singleton.mpr rfl, fun _ member => absurd member List.not_mem_nil⟩
  obtain ⟨-, -, takingTurns⟩ :=
    @tables_isolated "movies" "movies2" (by decide) (by decide) (by decide) store anchored
      movies sequels onOne onOther
  refine takingTurns (.inr (by decide)) (.inr (by decide)) rfl sparingOther
    (fun move member => ⟨?_, fun _ => holds_empty_data.steady.bypasses "movies" (by decide)⟩)
    (fun move member => ⟨?_, fun _ => holds_empty_data.steady.bypasses "movies2" (by decide)⟩)
  · intro name opened
    simp only [sparingOther, List.mem_cons, List.not_mem_nil, or_false, Sum.inl.injEq,
      reduceCtorEq, false_or] at member
    rcases member with rfl | rfl <;> cases opened
  · intro name opened
    simp only [sparingOther, List.mem_cons, List.not_mem_nil, or_false, Sum.inr.injEq,
      reduceCtorEq, false_or] at member
    cases member
    cases opened

end Session

/-- Whether the root of files is a directory of a disk. -/
def Files.rootIsThere : Files → Bool
  | .memory _ => false
  | .disk tree root => tree.node? (tree.base root) = some .directory

/-- A disk without files in whose first table a row has been stored. -/
def Store.oneMovie : Store :=
  ((Table.insert ⟨"movies", .default⟩ .empty).run.run (.ofFiles (.disk .empty "data"))).2

/-- A table whose name is too long for a file has no rows as long as there is no root, but after a
row has been stored in another table its rows cannot be listed. -/
theorem Table.rowIds_after_insert_elsewhere :
    let long : Table := ⟨longName 255, .default⟩
    FileName.isSegment "movies" = true ∧ FileName.isSegment long.name = true ∧
      "movies" ≠ long.name ∧
      (long.rowIds.run.run (.ofFiles (.disk .empty "data"))).1 = .ok [] ∧
      (long.rowIds.run.run .oneMovie).1 =
        .error (.files (.io (Area.rows.directory long.name) (.host .nameTooLong))) := by
  dsimp only
  have isTable := isSegment_longName 255
  have size := utf8ByteSize_longName 255
  generalize longName 255 = long at isTable size ⊢
  have isOther : FileName.isSegment "movies" = true := by decide
  have apart : "movies" ≠ long := fun same => by
    rw [← same] at size
    exact absurd size (by decide)
  have isLong : Disk.nameLimit < long.utf8ByteSize := by
    rw [size]
    decide
  have room := HostPath.isTooLong_rowDirectory size
  have rooted := Disk.rooted_data
  refine ⟨isOther, isTable, apart, ?_, ?_⟩
  · exact (Table.rowIds_eq_of_list ⟨long, .default⟩ rfl rfl
      (Files.list_of_long rooted isTable isLong .rows room)).1 rfl
  · have there : Store.oneMovie.files.rootIsThere = true := by decide +kernel
    have editable := @Table.editable_of_apart ⟨"movies", .default⟩ isOther (.disk .empty "data")
      (.disk .empty "data")
    have alike : Store.AlikeBelow "movies" (.ofFiles (.disk .empty "data"))
        (.ofFiles (.disk .empty "data")) := .refl "movies" (.of_rooted rooted)
    obtain ⟨-, -, related⟩ := editable.tries_insert .empty _ _ alike.related
    change Store.Related _ _ Store.oneMovie _ at related
    have unfaulted := related.faults
    have beside := related.files.beside
    generalize Store.oneMovie = after at there unfaulted beside ⊢
    obtain ⟨files, faults, journal, probes⟩ := after
    cases beside with
    | @disk _ tree _ _ beside =>
        have listed := Files.list_of_long beside.rooted isTable isLong .rows room
        rw [if_neg (by simp [of_decide_eq_true there])] at listed
        exact (Table.rowIds_eq_of_list ⟨long, .default⟩ unfaulted rfl listed).2 _ rfl
    | shut _ =>
        have missing : (Files.disk .empty "data").rootIsThere = false := by decide
        cases missing.symm.trans there

/-- A disk on which a row has been put into a table at the top. -/
def Disk.withRow (tree : Disk) (table : String) : Disk :=
  (tree.write ("/" ++ table ++ "/rows/0000.json") []).2

/-- Tables depend on each other through the root. Storing the first row makes a missing root, and
then the name of another table may be too long for it, or another table may come into view above
what was made. Removing a table through whose directory the path of the root leads takes the root
away from all others. -/
theorem Table.isolation_depends_on_root :
    let long : Table := ⟨longName 255, .default⟩
    let missing : Store := .ofFiles (.disk (Disk.empty.withRow "sequels") "movies/..")
    let made := ((Table.insert ⟨"films", .default⟩ .empty).run.run missing).2
    let crossing : Store :=
      .ofFiles (.disk ((Disk.empty.withRow "sequels").withRow "movies") "movies/..")
    let dropped := (Table.drop ⟨"movies", .default⟩).run.run crossing
    (FileName.isSegment "movies" = true ∧ FileName.isSegment long.name = true ∧
      "movies" ≠ long.name ∧
      (long.rowIds.run.run (.ofFiles (.disk .empty "data"))).1 = .ok [] ∧
      (long.rowIds.run.run .oneMovie).1 =
        .error (.files (.io (Area.rows.directory long.name) (.host .nameTooLong)))) ∧
    (isBelow "films" "sequels/rows/0000.json" = false ∧
      missing.files.stored? "sequels/rows/0000.json" = none ∧
      made.files.stored? "sequels/rows/0000.json" = some []) ∧
    (isBelow "movies" "sequels/rows/0000.json" = false ∧
      crossing.files.stored? "sequels/rows/0000.json" = some [] ∧ dropped.1.isOk = true ∧
      dropped.2.files.stored? "sequels/rows/0000.json" = none) :=
  ⟨rowIds_after_insert_elsewhere, by decide +kernel, by decide +kernel⟩

end TableStore
