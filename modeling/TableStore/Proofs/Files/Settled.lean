/-
# Rows beside a new index

Storing an index leaves the rows of its table as they are seen: the same ones are listed, and each
is read as before. Only on a disk whose root is not there can this fail, and only if the path of the
root goes up from a directory that is missing. Making the root then makes this directory, and so
brings into view what has been there all the time.
-/

import TableStore.Proofs.Files.Apart
import TableStore.Proofs.Files.Rewritten
import TableStore.Proofs.Files.Rows

namespace TableStore

open HostPath

namespace Disk

variable {disk other made after : Disk} {location reached parts : List String}
  {part root table file : String} {bytes : Bytes}

/-- No segment goes up. -/
theorem noUp_append {names : List String} (noUp : ".." ∉ parts)
    (segments : ∀ name ∈ names, FileName.isSegment name = true) : ".." ∉ parts ++ names :=
  fun up => (List.mem_append.mp up).elim noUp fun member =>
    (ne_dots_of_isSegment (segments ".." member)).2 rfl

/-- A walk that arrives on one disk arrives on every tree on which there is a directory at its end.
-/
theorem walk_of_walk (isTree : disk.IsTree) (noUp : ".." ∉ parts)
    (walked : other.walk location parts = .ok reached)
    (directory : disk.node? reached = some .directory) :
    disk.walk location parts = .ok reached := by
  induction parts generalizing location with
  | nil => exact walked
  | cons part rest ih =>
      have others : ".." ∉ rest := fun member => noUp (List.mem_cons_of_mem part member)
      have below : location <+: reached := eq_of_walk walked ▸ prefix_destination noUp location
      rw [walk_of_directory (node?_of_walk walked)] at walked
      rw [walk_of_directory (isTree.node?_of_directory below directory)]
      cases led : next location part with
      | error failure =>
          rw [led] at walked
          cases walked
      | ok further =>
          rw [led] at walked
          exact ih others walked

/-- Making directories along a path that does not go up changes nothing off the way. -/
theorem node?_makeDirectories_or_prefix (disk : Disk) (location : List String)
    (noUp : ".." ∉ parts) (there : List String) :
    (disk.makeDirectories location parts).2.node? there = disk.node? there ∨
      there <+: destination location parts := by
  induction parts generalizing disk location with
  | nil => exact .inl rfl
  | cons part rest ih =>
      have plain : part ≠ ".." := fun same => noUp (same ▸ List.mem_cons_self)
      have others : ".." ∉ rest := fun member => noUp (List.mem_cons_of_mem part member)
      rw [makeDirectories, destination_cons]
      by_cases dot : part = "."
      · rw [if_pos dot, follow, if_pos dot]
        exact ih disk location others
      rw [if_neg dot, if_neg plain, follow_name ⟨dot, plain⟩]
      by_cases long : nameLimit < part.utf8ByteSize
      · rw [if_pos long]
        exact .inl rfl
      rw [if_neg long]
      cases here : disk.node? (location ++ [part]) with
      | some node =>
          cases node with
          | file bytes => exact .inl (by simp only [here])
          | directory =>
              simp only [here]
              exact ih disk (location ++ [part]) others
      | none =>
          simp only [here]
          rcases ih { disk with nodes := disk.nodes.insert (location ++ [part]) .directory }
            (location ++ [part]) others with same | below
          · rw [node?_insert disk (by simp)] at same
            by_cases new : there = location ++ [part]
            · exact .inr (new ▸ prefix_destination others _)
            · rw [if_neg new] at same
              exact .inl same
          · exact .inr below

/-- A part whose directory is there needs none to be made. -/
theorem makeDirectories_of_directory (short : part.utf8ByteSize ≤ nameLimit)
    (there : disk.node? (follow location part) = some .directory) (rest : List String) :
    disk.makeDirectories location (part :: rest) =
      disk.makeDirectories (follow location part) rest := by
  rw [makeDirectories]
  rw [follow] at there ⊢
  by_cases dot : part = "."
  · rw [if_pos dot, if_pos dot]
  by_cases up : part = ".."
  · rw [if_neg dot, if_pos up, if_neg dot, if_pos up]
  · rw [if_neg dot, if_neg up] at there
    rw [if_neg dot, if_neg up, if_neg dot, if_neg up, if_neg (Nat.not_lt.mpr short)]
    simp only [there]

/-- Directories can be made only along parts that are short enough. -/
theorem short_of_making (making : disk.makeDirectories location parts = (.ok (), made)) :
    ∀ part ∈ parts, part.utf8ByteSize ≤ nameLimit := by
  induction parts generalizing disk location with
  | nil => exact fun part member => absurd member List.not_mem_nil
  | cons part rest ih =>
      rw [makeDirectories] at making
      rw [List.forall_mem_cons]
      split at making
      · next dot => exact ⟨dot ▸ by decide, ih making⟩
      split at making
      · next up => exact ⟨up ▸ by decide, ih making⟩
      split at making
      · cases making
      next short =>
      refine ⟨Nat.not_lt.mp short, ?_⟩
      simp only [] at making
      split at making
      · exact ih making
      · cases making
      · exact ih making

/-- Along a way that goes up from directories only, directories are made and walks lead on from a
location that is reached as soon as the way goes up no more. -/
theorem Ascends.exists_start (ascends : disk.Ascends location parts) (isTree : disk.IsTree)
    (short : ∀ part ∈ parts, part.utf8ByteSize ≤ nameLimit) :
    ∃ start rest, ".." ∉ rest ∧
      (∀ names, disk.makeDirectories location (parts ++ names) =
        disk.makeDirectories start (rest ++ names)) ∧
      ∀ other : Disk, (∀ location, disk.node? location = some .directory →
          other.node? location = some .directory) →
        ∀ names, other.walk location (parts ++ names) = other.walk start (rest ++ names) := by
  induction parts generalizing location with
  | nil => exact ⟨location, [], List.not_mem_nil, fun _ => rfl, fun _ _ _ => rfl⟩
  | cons part parts ih =>
      by_cases up : ".." ∈ part :: parts
      · have here := ascends.node?_of_mem isTree up
        have there : disk.node? (follow location part) = some .directory := by
          by_cases further : ".." ∈ parts
          · exact ascends.tail.node?_of_mem isTree further
          · obtain rfl := ((List.mem_cons.mp up).resolve_right further).symm
            exact isTree.node?_dropLast here
        have fits := short part List.mem_cons_self
        obtain ⟨start, rest, noUp, makes, walks⟩ :=
          ih ascends.tail fun other member => short other (List.mem_cons_of_mem part member)
        refine ⟨start, rest, noUp, fun names => ?_, fun other stay names => ?_⟩
        · rw [List.cons_append, makeDirectories_of_directory fits there, makes]
        · rw [List.cons_append, walk_of_directory (stay location here), next_eq,
            if_neg (Nat.not_lt.mpr fits)]
          exact walks other stay names
      · exact ⟨location, part :: parts, up, fun _ => rfl, fun _ _ _ => rfl⟩

/-- Whether making what is missing of a root brings nothing else into view: a disk is a tree, and
the path of the root goes up from directories only. -/
def Settled (disk : Disk) (root : String) : Prop :=
  disk.IsTree ∧ disk.Ascends (disk.origin root) (partsOf root)

/-- The parts of the path of the rows of a table are segments. -/
theorem isSegment_of_mem_rows (isTable : FileName.isSegment table = true) :
    ∀ part ∈ [table, "rows"], FileName.isSegment part = true :=
  List.forall_mem_cons.mpr ⟨isTable, by decide⟩

/-- What the path of the rows of a table names, where the directory of the table is there. -/
theorem locate_rows (proper : areProper (partsOf root) = true)
    (isTable : FileName.isSegment table = true)
    (walked : disk.walk (disk.origin root) (partsOf root ++ [table]) = .ok location)
    (directory : disk.node? location = some .directory) :
    disk.locate (join root ("/".intercalate [table, "rows"])) =
      if isTooLong (join root ("/".intercalate [table, "rows"])) then .error .nameTooLong
      else match disk.node? (location ++ ["rows"]) with
        | some node => .ok (location ++ ["rows"], node)
        | none => .error .missing := by
  have short : ¬nameLimit < "rows".utf8ByteSize := by decide
  rw [locate_eq disk proper (List.cons_ne_nil _ _) (isSegment_of_mem_rows isTable),
    List.append_cons, walk_append, walked, Except.bind, walk_of_directory directory,
    next_segment (by decide), if_neg short]
  rfl

/-- Below a settled root, a file is written by making directories and walking from a place that is
reached without going up. -/
theorem Settled.of_write (settled : disk.Settled root) {names : List String} (nonempty : names ≠ [])
    (segments : ∀ name ∈ names, FileName.isSegment name = true)
    (written : disk.write (join root ("/".intercalate names)) bytes = (.ok (), after)) :
    ∃ start parts made location, ".." ∉ parts ∧
      disk.makeDirectories start (parts ++ names.dropLast) = (.ok (), made) ∧
      made.walk start (parts ++ names) = .ok location ∧ made.put location bytes = .ok after ∧
      ∀ other : Disk, other.workingDirectory = disk.workingDirectory →
        (∀ there, disk.node? there = some .directory → other.node? there = some .directory) →
        ∀ names, other.walk (other.origin root) (partsOf root ++ names) =
          other.walk start (parts ++ names) := by
  obtain ⟨-, made, location, making, walked, put⟩ := write_eq_ok_iff.mp written
  rw [parent_join root nonempty segments, ofText_join root nonempty segments] at making
  rw [ofText_join root nonempty segments] at walked
  change disk.makeDirectories (disk.origin root) (partsOf root ++ names.dropLast) = _ at making
  change made.walk (made.origin root) (partsOf root ++ names) = _ at walked
  have short := short_of_making making
  obtain ⟨start, parts, noUp, makes, walks⟩ := settled.2.exists_start settled.1
    fun part member => short part (List.mem_append_left _ member)
  have walksFrom : ∀ other : Disk, other.workingDirectory = disk.workingDirectory →
      (∀ there, disk.node? there = some .directory → other.node? there = some .directory) →
      ∀ names, other.walk (other.origin root) (partsOf root ++ names) =
        other.walk start (parts ++ names) := by
    intro other working stay names
    rw [origin_eq working]
    exact walks other stay names
  rw [makes] at making
  rw [walksFrom made (workingDirectory_of_making making)
    fun _ => node?_directory_of_making making] at walked
  exact ⟨start, parts, made, location, noUp, making, walked, put, walksFrom⟩

/-- Making a directory in that of a table makes none for its rows. -/
theorem node?_rows_of_making {start place : List String} (noUp : ".." ∉ parts)
    (isTable : FileName.isSegment table = true)
    (making : disk.makeDirectories start (parts ++ [table, "indexes"]) = (.ok (), made))
    (reached : made.walk start (parts ++ [table]) = .ok place) :
    made.node? (place ++ ["rows"]) = disk.node? (place ++ ["rows"]) := by
  have double : ".." ∉ parts ++ [table, "indexes"] :=
    noUp_append noUp (List.forall_mem_cons.mpr ⟨isTable, by decide⟩)
  have along : destination start (parts ++ [table, "indexes"]) = place ++ ["indexes"] := by
    rw [List.append_cons, destination_append, ← eq_of_walk reached]
    exact destination_segments (by decide) place
  have kept := node?_makeDirectories_or_prefix disk start double (place ++ ["rows"])
  rw [making, along] at kept
  refine kept.resolve_right fun inside => ?_
  have equal := inside.eq_of_length (by simp)
  simp at equal

/-- Storing an index below a settled root makes the directory of the table if it is not there, but
not that of its rows. -/
theorem Settled.of_write_index (settled : disk.Settled root)
    (segments : ∀ part ∈ [table, "indexes", file], FileName.isSegment part = true)
    (written : disk.write (join root ("/".intercalate [table, "indexes", file])) bytes =
      (.ok (), after)) :
    ∃ place, after.walk (after.origin root) (partsOf root ++ [table]) = .ok place ∧
      after.node? place = some .directory ∧
      after.node? (place ++ ["rows"]) = disk.node? (place ++ ["rows"]) ∧
      (disk.node? place = some .directory →
        disk.walk (disk.origin root) (partsOf root ++ [table]) = .ok place) := by
  obtain ⟨isTable, areaAndFile⟩ := List.forall_mem_cons.mp segments
  obtain ⟨start, parts, made, location, noUp, making, walked, put, walks⟩ :=
    settled.of_write (List.cons_ne_nil _ _) segments written
  have stay := node?_directory_of_put put
  have working : after.workingDirectory = disk.workingDirectory := by
    rw [(of_put put).2.2, ← workingDirectory_of_making making]
  rw [List.append_cons, walk_append_eq_ok_iff] at walked
  obtain ⟨place, reached, toFile⟩ := walked
  have last := prefix_of_walk areaAndFile toFile
  refine ⟨place, ?_, stay place (node?_of_walk toFile), ?_, fun here => ?_⟩
  · rw [walks after working fun there directory =>
      stay there (node?_directory_of_making making directory)]
    exact walk_mono stay reached
  · obtain ⟨-, below, rfl⟩ := of_put put
    rw [node?_insert made below, if_neg (by simp [last])]
    exact node?_rows_of_making noUp isTable making reached
  · have single := noUp_append noUp (List.forall_mem_singleton.mpr isTable)
    exact (walks disk rfl (fun _ same => same) [table]).trans
      (walk_of_walk settled.1 single reached here)

/-- Where the rows of a table are missing below a settled root, they are missing once an index of
the table has been stored. -/
theorem Settled.missing_rows_of_write_index (settled : disk.Settled root)
    (segments : ∀ part ∈ [table, "indexes", file], FileName.isSegment part = true)
    (written : disk.write (join root ("/".intercalate [table, "indexes", file])) bytes =
      (.ok (), after))
    (missing : disk.locate (join root ("/".intercalate [table, "rows"])) = .error .missing) :
    after.locate (join root ("/".intercalate [table, "rows"])) = .error .missing := by
  have isTable := segments table List.mem_cons_self
  obtain ⟨_, leads, -⟩ := locate_of_write written
  have proper := proper_of_locate (List.cons_ne_nil _ _) segments leads
  obtain ⟨place, walked, directory, same, back⟩ := settled.of_write_index segments written
  rw [locate_rows proper isTable walked directory, same]
  by_cases long : isTooLong (join root ("/".intercalate [table, "rows"])) = true
  · rw [locate_eq disk proper (List.cons_ne_nil _ _) (isSegment_of_mem_rows isTable),
      if_pos long] at missing
    cases missing
  rw [if_neg long]
  cases there : disk.node? (place ++ ["rows"]) with
  | none => rfl
  | some node =>
      have here := settled.1 (place ++ ["rows"]) (by simp) (by rw [there]; rfl)
      rw [List.dropLast_concat] at here
      rw [locate_rows proper isTable (back here) here, if_neg long, there] at missing
      cases missing

namespace HasRows

variable {place : List String}

/-- Where the directory of rows is there, so is that of its table. -/
theorem of_locate (isTable : FileName.isSegment table = true)
    (located : disk.locate (join root ("/".intercalate [table, "rows"])) =
      .ok (location, .directory)) :
    ∃ place, HasRows root table place disk ∧ location = place ++ ["rows"] := by
  have segments := isSegment_of_mem_rows isTable
  have proper := proper_of_locate (List.cons_ne_nil _ _) segments located
  obtain ⟨-, walked, rows⟩ :=
    (locate_join_eq_ok_iff (isPlain_intercalate (List.cons_ne_nil _ _) segments)).mp located
  rw [segmentsOf_intercalate (List.cons_ne_nil _ _) segments, List.append_cons,
    walk_append_eq_ok_iff] at walked
  obtain ⟨place, reached, last⟩ := walked
  have directory := node?_of_walk last
  have same := prefix_of_walk
    (fun part member => segments part (List.mem_cons_of_mem _ member)) last
  subst same
  exact ⟨place, ⟨proper, reached, directory, rows⟩, rfl⟩

/-- If all rows are spared, the same ones are in their directory. -/
theorem children_of_spares (spares : ∀ own, SparesRows place own disk other) :
    other.children (place ++ ["rows"]) = disk.children (place ++ ["rows"]) := by
  refine eq_of_ascending (pairwise_children _ _) (pairwise_children _ _) fun name => ?_
  have apart : name ≠ name ++ "/" := fun same => by
    simpa using congrArg String.length same
  rw [mem_children, mem_children, List.append_assoc, List.singleton_append,
    (spares (name ++ "/")).rows name apart]

/-- If all rows are spared, the path of their directory leads there as before. -/
theorem locate_of_spares (has : HasRows root table place disk)
    (isTable : FileName.isSegment table = true) (spares : SparesRows place file disk other)
    (located : disk.locate (join root ("/".intercalate [table, "rows"])) =
      .ok (place ++ ["rows"], .directory)) :
    other.locate (join root ("/".intercalate [table, "rows"])) =
      .ok (place ++ ["rows"], .directory) := by
  have also := spares.hasRows has
  rw [← located, locate_rows has.proper isTable has.walked has.directory,
    locate_rows also.proper isTable also.walked also.directory, has.rows, also.rows]

end HasRows

end Disk

namespace Files

/-- Whether making what is missing of the root brings nothing else into view. -/
def Settled : Files → Prop
  | .memory _ => True
  | .disk tree root => tree.Settled root

section

variable {tree : Disk} {root directory : String}

/-- The names in a directory that is there are listed. -/
theorem list_eq_children {location : List String}
    (located : tree.locate (join root directory) = .ok (location, .directory)) :
    (Files.disk tree root).list directory = .ok (tree.children location) := by
  rw [list, Disk.list, located]
  rfl

/-- A directory that is not there lists as empty. -/
theorem list_eq_nil (missing : tree.locate (join root directory) = .error .missing) :
    (Files.disk tree root).list directory = .ok [] := by
  rw [list, Disk.list, missing]
  rfl

end

/-- Whether some files show the rows of a table that others list: the same names, and under those of
rows the same contents. -/
def ShowsRows (table : String) (isTable : FileName.isSegment table = true) (names : List String)
    (before after : Files) : Prop :=
  after.list (Area.rows.directory table) = .ok names ∧
    ∀ id : RowId, id.fileName ∈ names →
      after.read (Place.row table isTable id).path = before.read (Place.row table isTable id).path

variable {files : Files} {table column : String} {names : List String} {bytes : Bytes}
  {isTable : FileName.isSegment table = true} {isColumn : FileName.isSegment column = true}

/-- In memory, storing an index leaves the rows of its table as they are shown. -/
theorem showsRows_write_index_memory {files : MemoryFiles}
    (listed : (Files.memory files).list (Area.rows.directory table) = .ok names) :
    ShowsRows table isTable names (.memory files)
      (.memory (files.write (Place.index table isTable column isColumn).path bytes)) := by
  have elsewhere : ∀ path, path ≠ (Place.index table isTable column isColumn).path →
      (files.write (Place.index table isTable column isColumn).path bytes).contents[path]? =
        files.contents[path]? := by
    intro path apart
    rw [MemoryFiles.write, Std.ExtTreeMap.getElem?_insert]
    simp [apart.symm]
  refine ⟨?_, fun id _ => ?_⟩
  · rw [← listed]
    refine congrArg Except.ok (MemoryFiles.list_congr fun path below => elsewhere path ?_)
    rintro rfl
    cases ((MemoryFiles.isBelow_directory isTable .rows _).mp below).2
  · have apart : (Place.row table isTable id).path ≠
        (Place.index table isTable column isColumn).path := fun same =>
      Place.row_ne_index id isColumn (Place.path_injective same)
    rw [read, read, MemoryFiles.read, MemoryFiles.read, elsewhere _ apart]

/-- On a settled disk, storing an index leaves the rows of its table as they are shown: either their
directory is there and nothing in it changes, or it is missing before and after. -/
theorem showsRows_write_index_disk {tree after : Disk} {root : String}
    (settled : tree.Settled root)
    (written : tree.write (join root (Place.index table isTable column isColumn).path) bytes =
      (.ok (), after))
    (listed : (Files.disk tree root).list (Area.rows.directory table) = .ok names) :
    ShowsRows table isTable names (.disk tree root) (.disk after root) := by
  have segments := (Place.index table isTable column isColumn).isSegment_of_mem_names
  rw [Place.path_eq_intercalate] at written
  rw [ShowsRows, Place.directory_eq_intercalate]
  rw [Place.directory_eq_intercalate] at listed
  cases located : tree.locate (join root ("/".intercalate [table, Area.rows.name])) with
  | error failure =>
      rw [list, Disk.list, located] at listed
      cases failure <;> cases listed
      have missing := settled.missing_rows_of_write_index segments written located
      exact ⟨list_eq_nil missing, fun id member => absurd member List.not_mem_nil⟩
  | ok found =>
      obtain ⟨location, node⟩ := found
      cases node with
      | file bytes =>
          rw [list, Disk.list, located] at listed
          cases listed
      | directory =>
          obtain ⟨place, has, rfl⟩ := Disk.HasRows.of_locate isTable located
          have spares : ∀ own, Disk.SparesRows place own tree after := by
            intro own
            have spared : Disk.SparesRows place own tree (tree.write
                (join root ("/".intercalate (Place.index table isTable column isColumn).names))
                bytes).2 := has.write_index segments bytes
            rwa [written] at spared
          rw [list_eq_children located] at listed
          cases listed
          refine ⟨?_, fun id _ => ?_⟩
          · rw [← Disk.HasRows.children_of_spares spares]
            exact list_eq_children (has.locate_of_spares isTable (spares "") located)
          · have apart : id.fileName ≠ id.fileName ++ "/" := fun same => by
              simpa using congrArg String.length same
            rw [read, read, Place.path_eq_intercalate]
            exact congrArg _ (has.read_of_spares (spares _) apart
              (Place.row table isTable id).isSegment_of_mem_names)

/-- Storing an index in settled files leaves the rows of its table as they are shown. -/
theorem showsRows_write_index (settled : files.Settled)
    (written : (files.write (Place.index table isTable column isColumn).path bytes).1 = .ok ())
    (listed : files.list (Area.rows.directory table) = .ok names) :
    ShowsRows table isTable names files
      (files.write (Place.index table isTable column isColumn).path bytes).2 := by
  cases files with
  | memory files => exact showsRows_write_index_memory listed
  | disk tree root =>
      obtain ⟨after, outcome, result⟩ := write_disk_eq_ok written
      rw [result]
      exact showsRows_write_index_disk settled outcome listed

end Files

end TableStore
