/-
# Roots

The paths of a store go on from its root. Files can be kept below a root if the way to it can be
followed as far as there is something. Then every path of the store leads to where its parts say, or
to nothing, and the root can be made. It stays so as long as no directory goes that the way leads
through. So a table can be removed if the way to the root bypasses it; below the root `data/t/..`
the removal of the table `t` takes the root away.
-/

import TableStore.Proofs.Files.Walk

namespace TableStore.Disk

open HostPath

/-- Where paths below a root start. -/
def origin (disk : Disk) (root : String) : List String :=
  disk.start (ofText root)

/-- The location of a root. -/
def base (disk : Disk) (root : String) : List String :=
  destination (disk.origin root) (partsOf root)

/-- Whether a file system takes a path below a root, whatever is stored. -/
structure Takes (root path : String) : Prop where
  size : (join root path).utf8ByteSize ≤ sizeLimit
  names : ∀ part ∈ partsOf path, part.utf8ByteSize ≤ nameLimit

/-- Whether files can be kept below a root: the way to it can be followed. -/
structure Rooted (disk : Disk) (root : String) : Prop where
  isTree : disk.IsTree
  proper : areProper (partsOf root) = true
  origin : disk.node? (disk.origin root) = some .directory
  way : disk.Passable (disk.origin root) (partsOf root)

/-- Whether the way to a root does not lead through the directory of a table below it, as the way to
`data/t/..` leads through that of the table `t`. -/
def Bypasses (disk : Disk) (root table : String) : Prop :=
  ∀ upTo, upTo <+: partsOf root →
    ¬disk.base root ++ [table] <+: destination (disk.origin root) upTo

variable {disk other : Disk} {root table : String} {names location : List String}

/-- No segment holds a null character. -/
theorem areProper_segments (segments : ∀ name ∈ names, FileName.isSegment name = true) :
    areProper names = true := by
  apply List.all_eq_true.mpr
  intro name member
  have plain := segments name member
  simp only [FileName.isSegment, Bool.and_eq_true, List.all_eq_true] at plain
  by_contra null
  have found : '\x00' ∈ name.toList := by simpa using null
  simpa using plain.2 '\x00' found

/-- The parts of a path below a root can be handed to the file system if those of the root can. -/
theorem areProper_append (proper : areProper (partsOf root) = true)
    (segments : ∀ name ∈ names, FileName.isSegment name = true) :
    areProper (partsOf root ++ names) = true := by
  rw [areProper, List.all_append, Bool.and_eq_true]
  exact ⟨proper, areProper_segments segments⟩

/-- Where a path starts depends on the working directory only. -/
theorem start_eq (working : other.workingDirectory = disk.workingDirectory) (path : HostPath) :
    other.start path = disk.start path := by
  rw [start, start, working]

/-- Where a root is depends on the working directory only. -/
theorem origin_eq (working : other.workingDirectory = disk.workingDirectory) (root : String) :
    other.origin root = disk.origin root :=
  start_eq working (ofText root)

/-- Where a root is depends on the working directory only. -/
theorem base_eq (working : other.workingDirectory = disk.workingDirectory) (root : String) :
    other.base root = disk.base root := by
  rw [base, base, origin_eq working root]

/-- What the path of a root names, by the walk along its steps. -/
theorem locate_root_eq (disk : Disk) {root : String} (proper : areProper (partsOf root) = true) :
    disk.locate root =
      if isTooLong root then .error .nameTooLong
      else (disk.walk (disk.origin root) (ofText root).steps).bind fun location =>
        match disk.node? location with
        | some node => .ok (location, node)
        | none => .error .missing := by
  have alsoProper : areProper (ofText root).parts = true := proper
  rw [locate]
  simp only [alsoProper, Bool.not_true, Bool.false_eq_true, if_false]
  split <;> rfl

/-- The walk along a plain path starts where the root says. -/
theorem start_join (disk : Disk) (root : String) {path : String} (plain : IsPlain path) :
    disk.start (ofText (join root path)) = disk.origin root := by
  rw [origin, start, start, plain.ofText_join root]
  rfl

/-- The walk along a plain path goes through the parts of the root and then its own. -/
theorem steps_join (root : String) {path : String} (plain : IsPlain path) :
    (ofText (join root path)).steps = partsOf root ++ segmentsOf path := by
  rw [plain.ofText_join root]
  rfl

/-- What a plain path below a root names. -/
theorem locate_join_eq_ok_iff {root path : String} (plain : IsPlain path) {node : Node} :
    disk.locate (join root path) = .ok (location, node) ↔
      (areProper (partsOf root ++ segmentsOf path) = true ∧
          isTooLong (join root path) = false) ∧
        disk.walk (disk.origin root) (partsOf root ++ segmentsOf path) = .ok location ∧
        disk.node? location = some node := by
  rw [locate_eq_ok_iff, start_join disk root plain, steps_join root plain, plain.ofText_join root]

/-- A path below a root can name something only if the path of the root can. -/
theorem proper_of_locate {root : String} {names : List String} (nonempty : names ≠ [])
    (segments : ∀ name ∈ names, FileName.isSegment name = true) {found : List String × Node}
    (located : disk.locate (join root ("/".intercalate names)) = .ok found) :
    areProper (partsOf root) = true := by
  have proper := ((locate_join_eq_ok_iff (isPlain_intercalate nonempty segments)).mp located).1.1
  rw [areProper, List.all_append, Bool.and_eq_true] at proper
  exact proper.1

/-- The parts of the directory in which a path below a root lies. -/
theorem parent_join (root : String) (nonempty : names ≠ [])
    (segments : ∀ name ∈ names, FileName.isSegment name = true) :
    (ofText (join root ("/".intercalate names))).parent = partsOf root ++ names.dropLast := by
  rw [(isPlain_intercalate nonempty segments).parent_join root,
    segmentsOf_intercalate nonempty segments]

/-- A path below a root does not end in dots. -/
theorem endsInDots_join (root : String) (nonempty : names ≠ [])
    (segments : ∀ name ∈ names, FileName.isSegment name = true) :
    (ofText (join root ("/".intercalate names))).endsInDots = false :=
  (isPlain_intercalate nonempty segments).endsInDots_join root

/-- What a path below a root names, by the walk along its parts. -/
theorem locate_eq (disk : Disk) {root : String} {names : List String}
    (proper : areProper (partsOf root) = true) (nonempty : names ≠ [])
    (segments : ∀ name ∈ names, FileName.isSegment name = true) :
    disk.locate (join root ("/".intercalate names)) =
      if isTooLong (join root ("/".intercalate names)) then .error .nameTooLong
      else (disk.walk (disk.origin root) (partsOf root ++ names)).bind fun location =>
        match disk.node? location with
        | some node => .ok (location, node)
        | none => .error .missing := by
  rw [locate, ofText_join root nonempty segments]
  simp only [areProper_append proper segments, steps, Bool.not_true, Bool.false_eq_true, if_false]
  split <;> rfl

/-- Writing to a path below a root, by the directories that are made and the walk that follows. -/
theorem write_eq (disk : Disk) {root : String} {names : List String}
    (proper : areProper (partsOf root) = true) (nonempty : names ≠ [])
    (segments : ∀ name ∈ names, FileName.isSegment name = true) (bytes : Bytes) :
    disk.write (join root ("/".intercalate names)) bytes =
      if isTooLong (parentText (join root ("/".intercalate names))) then
        (.error .nameTooLong, disk)
      else
        match disk.makeDirectories (disk.origin root) (partsOf root ++ names.dropLast) with
        | (.error failure, made) => (.error failure, made)
        | (.ok (), made) =>
            if isTooLong (join root ("/".intercalate names)) then (.error .nameTooLong, made)
            else
              match (made.walk (made.origin root) (partsOf root ++ names)).bind
                (made.put · bytes) with
              | .error failure => (.error failure, made)
              | .ok after => (.ok (), after) := by
  have initial : ∀ name ∈ names.dropLast, FileName.isSegment name = true := fun name member =>
    segments name ((List.dropLast_sublist names).mem member)
  have parsed := ofText_join root nonempty segments
  rw [Disk.write]
  simp only [parent_join root nonempty segments, areProper_append proper initial]
  rw [parsed]
  simp only [areProper_append proper segments, steps, Bool.not_true, Bool.false_eq_true,
    Bool.false_and, if_false]
  rfl

/-- Where segments below a root lead. -/
theorem destination_append_segments (disk : Disk) (root : String)
    (segments : ∀ name ∈ names, FileName.isSegment name = true) :
    destination (disk.origin root) (partsOf root ++ names) = disk.base root ++ names := by
  rw [destination_append, ← base, destination_segments segments]

/-- What a path below a root names is at the location of its parts, if anywhere. -/
theorem of_locate_join (nonempty : names ≠ [])
    (segments : ∀ name ∈ names, FileName.isSegment name = true) {reached : List String}
    {node : Node} (located : disk.locate (join root ("/".intercalate names)) =
      .ok (reached, node)) :
    reached = disk.base root ++ names ∧ disk.node? reached = some node := by
  obtain ⟨-, walked, there⟩ :=
    (locate_join_eq_ok_iff (isPlain_intercalate nonempty segments)).mp located
  refine ⟨?_, there⟩
  rw [eq_of_walk walked, segmentsOf_intercalate nonempty segments,
    destination_append_segments disk root segments]

/-- The way to a root whose path does not go up leads through nothing but what is above the root. -/
theorem destination_prefix_base (noUp : ".." ∉ partsOf root) {upTo : List String}
    (below : upTo <+: partsOf root) :
    destination (disk.origin root) upTo <+: disk.base root := by
  obtain ⟨rest, whole⟩ := below
  have others : ".." ∉ rest := fun up => noUp (whole ▸ List.mem_append_right upTo up)
  rw [base, ← whole, destination_append]
  exact prefix_destination others _

namespace Bypasses

/-- A root whose path does not go up bypasses all tables. -/
theorem of_noUp (noUp : ".." ∉ partsOf root) : disk.Bypasses root table :=
  fun _ below beyond => concat_not_isPrefix _ _ (beyond.trans (destination_prefix_base noUp below))

/-- Which tables a root bypasses depends on the working directory only. -/
theorem of_working (bypasses : disk.Bypasses root table)
    (working : other.workingDirectory = disk.workingDirectory) : other.Bypasses root table := by
  intro upTo below
  rw [base_eq working, origin_eq working]
  exact bypasses upTo below

end Bypasses

namespace Rooted

/-- Files can be kept below a root whose path does not go up and leads through no file. -/
theorem of_noUp (isTree : disk.IsTree) (proper : areProper (partsOf root) = true)
    (noUp : ".." ∉ partsOf root) (short : ∀ part ∈ partsOf root, part.utf8ByteSize ≤ nameLimit)
    (origin : disk.node? (disk.origin root) = some .directory)
    (isOpen : disk.Open (disk.base root)) : disk.Rooted root := by
  refine ⟨isTree, proper, origin, short, fun upTo below => ?_, fun upTo below => ?_⟩
  · exact isOpen _ (destination_prefix_base noUp below)
  · exact absurd (below.subset (List.mem_append_right upTo (List.mem_singleton_self _))) noUp

/-- Files can be kept below a root that is there. -/
theorem of_walk (isTree : disk.IsTree) (proper : areProper (partsOf root) = true)
    {reached : List String}
    (walked : disk.walk (disk.origin root) (partsOf root ++ ["."]) = .ok reached) :
    disk.Rooted root := by
  have onWay : ∀ upTo, upTo <+: partsOf root →
      disk.node? (destination (disk.origin root) upTo) = some .directory := by
    rintro upTo ⟨rest, whole⟩
    rw [← whole, List.append_assoc, walk_append_eq_ok_iff] at walked
    obtain ⟨between, upToThere, further⟩ := walked
    obtain ⟨part, parts, several⟩ := List.exists_cons_of_ne_nil
      (List.append_ne_nil_of_right_ne_nil rest (List.cons_ne_nil "." []))
    rw [several] at further
    rw [← eq_of_walk upToThere, node?_of_walk further]
  have short := short_of_walk walked
  refine ⟨isTree, proper, onWay [] List.nil_prefix, ?_, ?_, ?_⟩
  · exact fun part member => short part (List.mem_append_left _ member)
  · intro upTo below bytes file
    cases (onWay upTo below).symm.trans file
  · exact fun upTo below => onWay upTo ((List.prefix_append upTo _).trans below)

/-- No file is at a root or above it. -/
theorem isOpen (rooted : disk.Rooted root) : disk.Open (disk.base root) := by
  intro above inside bytes there
  rcases prefix_or_onWay_of_prefix_destination inside with earlier | ⟨upTo, below, rfl⟩
  · rw [rooted.isTree.node?_of_directory earlier rooted.origin] at there
    cases there
  · exact rooted.way.noFile upTo below bytes there

/-- The root is a directory or is not there. -/
theorem node?_root (rooted : disk.Rooted root) :
    disk.node? (disk.base root) = some .directory ∨ disk.node? (disk.base root) = none := by
  cases there : disk.node? (disk.base root) with
  | none => exact .inr rfl
  | some node =>
      cases node with
      | directory => exact .inl rfl
      | file bytes => exact absurd there (rooted.isOpen _ List.prefix_rfl bytes)

/-- The path of the root leads to its location, or misses something on the way. -/
theorem walk_root (rooted : disk.Rooted root) :
    disk.walk (disk.origin root) (partsOf root) = .ok (disk.base root) ∨
      disk.walk (disk.origin root) (partsOf root) = .error .missing ∧
        disk.node? (disk.base root) = none :=
  rooted.way.walk rooted.isTree rooted.origin

/-- Nothing is below a root that is not there. -/
theorem node?_of_missing (rooted : disk.Rooted root)
    (missing : disk.node? (disk.base root) = none) {location : List String}
    (below : disk.base root ++ [table] <+: location) : disk.node? location = none := by
  refine rooted.isTree.node?_eq_none ((List.prefix_append _ _).trans below) ?_
    (by rw [missing]; simp)
  rintro rfl
  exact concat_not_isPrefix _ _ below

/-- A walk below a root that is there goes on from the root. -/
theorem walk_of_root (rooted : disk.Rooted root)
    (there : disk.node? (disk.base root) = some .directory) (names : List String) :
    disk.walk (disk.origin root) (partsOf root ++ names) = disk.walk (disk.base root) names := by
  rw [walk_append]
  rcases rooted.walk_root with walked | ⟨-, missing⟩
  · rw [walked]
    rfl
  · cases there.symm.trans missing

/-- A walk below a root that is not there misses something. -/
theorem walk_of_missing (rooted : disk.Rooted root)
    (missing : disk.node? (disk.base root) = none) (nonempty : names ≠ []) :
    disk.walk (disk.origin root) (partsOf root ++ names) = .error .missing := by
  rw [walk_append]
  rcases rooted.walk_root with walked | ⟨walked, -⟩
  · obtain ⟨name, rest, rfl⟩ := List.exists_cons_of_ne_nil nonempty
    rw [walked]
    simp only [Except.bind, walk, missing]
  · rw [walked, Except.bind]

/-- What the way to a root leads through is above the root, or it is a directory, from which the way
goes up again. -/
theorem prefix_or_directory (rooted : disk.Rooted root) {upTo : List String}
    (below : upTo <+: partsOf root) :
    destination (disk.origin root) upTo <+: disk.base root ∨
      disk.node? (destination (disk.origin root) upTo) = some .directory := by
  obtain ⟨rest, whole⟩ := below
  have way := rooted.way
  rw [← whole] at way
  by_cases up : ".." ∈ rest
  · exact .inr ((way.up.of_append).node?_of_mem rooted.isTree up)
  · refine .inl ?_
    rw [base, ← whole, destination_append]
    exact prefix_destination up _

/-- A store is still rooted in a tree in which nothing on the way to the root has become a file or
gone. -/
theorem of_way (rooted : disk.Rooted root)
    (working : other.workingDirectory = disk.workingDirectory) (isTree : other.IsTree)
    (onWay : ∀ upTo, upTo <+: partsOf root →
      other.node? (destination (disk.origin root) upTo) =
          disk.node? (destination (disk.origin root) upTo) ∨
        other.node? (destination (disk.origin root) upTo) = some .directory) :
    other.Rooted root := by
  constructor
  · exact isTree
  · exact rooted.proper
  · rw [origin_eq working]
    rcases onWay [] List.nil_prefix with same | made
    · exact same.trans rooted.origin
    · exact made
  · rw [origin_eq working]
    refine ⟨rooted.way.short, fun upTo below bytes there => ?_, fun upTo below => ?_⟩
    · rcases onWay upTo below with same | made
      · exact rooted.way.noFile upTo below bytes (same.symm.trans there)
      · cases made.symm.trans there
    · rcases onWay upTo ((List.prefix_append upTo _).trans below) with same | made
      · rw [same, rooted.way.up upTo below]
      · exact made

/-- A store is still rooted if all directories are still there, and nothing above the root has
become a file. -/
theorem of_directories (rooted : disk.Rooted root)
    (working : other.workingDirectory = disk.workingDirectory) (isTree : other.IsTree)
    (above : ∀ location, location <+: disk.base root →
      other.node? location = disk.node? location ∨ other.node? location = some .directory)
    (directories : ∀ location, disk.node? location = some .directory →
      other.node? location = some .directory) : other.Rooted root :=
  rooted.of_way working isTree fun _ below =>
    (rooted.prefix_or_directory below).elim (above _) fun there => .inr (directories _ there)

/-- A store is still rooted if the root bypasses a table and nothing has changed but below this. -/
theorem of_bypasses (rooted : disk.Rooted root) (bypasses : disk.Bypasses root table)
    (working : other.workingDirectory = disk.workingDirectory) (isTree : other.IsTree)
    (nodes : ∀ location, ¬disk.base root ++ [table] <+: location →
      other.node? location = disk.node? location) : other.Rooted root :=
  rooted.of_way working isTree fun upTo below => .inl (nodes _ (bypasses upTo below))

/-- Short segments below a root can be followed unless a file is on the way. -/
theorem passable_append (rooted : disk.Rooted root)
    (segments : ∀ name ∈ names, FileName.isSegment name = true)
    (short : ∀ name ∈ names, name.utf8ByteSize ≤ nameLimit)
    (isOpen : disk.Open (disk.base root ++ names)) :
    disk.Passable (disk.origin root) (partsOf root ++ names) :=
  rooted.way.append (.of_segments segments short isOpen)

/-- The directories of a root can be made, and nothing else has changed then. -/
theorem exists_made (rooted : disk.Rooted root) :
    ∃ made, disk.makeDirectories (disk.origin root) (partsOf root) = (.ok (), made) ∧
      made.Rooted root ∧ made.workingDirectory = disk.workingDirectory ∧
      ∀ location, made.node? location =
        if location <+: disk.base root then some .directory else disk.node? location := by
  obtain ⟨made, making, nodes⟩ := rooted.way.makeDirectories rooted.isTree rooted.origin
  have isTree := rooted.isTree.makeDirectories rooted.origin (partsOf root)
  have working := workingDirectory_makeDirectories disk (disk.origin root) (partsOf root)
  rw [making] at isTree working
  refine ⟨made, making, rooted.of_directories working isTree (fun location above => ?_)
    (fun location there => ?_), working, nodes⟩
  · exact .inr ((nodes location).trans (if_pos above))
  · rw [nodes, there, ite_self]

/-- A path below a root names what is at the location of its parts. -/
theorem locate_join (rooted : disk.Rooted root) (nonempty : names ≠ [])
    (segments : ∀ name ∈ names, FileName.isSegment name = true)
    (takes : Takes root ("/".intercalate names))
    (isOpen : disk.Open (disk.base root ++ names.dropLast)) :
    disk.locate (join root ("/".intercalate names)) =
      match disk.node? (disk.base root ++ names) with
      | some node => .ok (disk.base root ++ names, node)
      | none => .error .missing := by
  have short : ∀ name ∈ names, name.utf8ByteSize ≤ nameLimit := by
    have parts := takes.names
    rwa [partsOf, segmentsOf_intercalate nonempty segments, filter_segments segments] at parts
  have fits : isTooLong (join root ("/".intercalate names)) = false :=
    decide_eq_false (Nat.not_lt.mpr takes.size)
  have initial : ∀ name ∈ names.dropLast, FileName.isSegment name = true := fun name member =>
    segments name ((List.dropLast_sublist names).mem member)
  have passable := rooted.passable_append initial
    (fun name member => short name ((List.dropLast_sublist names).mem member)) isOpen
  have last := List.getLast_mem nonempty
  have walked := passable.walk_concat rooted.isTree rooted.origin (segments _ last) (short _ last)
  rw [destination_append_segments disk root initial, List.append_assoc, List.append_assoc,
    List.dropLast_concat_getLast nonempty] at walked
  rw [locate_eq disk rooted.proper nonempty segments, fits, if_neg Bool.false_ne_true]
  rcases walked with reached | ⟨failed, missing⟩
  · rw [reached]
    rfl
  · rw [failed, missing]
    rfl

/-- When what is below the directory of a table has been removed, the root is still reached. -/
theorem walk_emptied (rooted : disk.Rooted root) (bypasses : disk.Bypasses root table)
    (there : disk.node? (disk.base root ++ [table]) = some .directory) :
    (disk.emptied (disk.base root ++ [table])).walk (disk.origin root) (partsOf root ++ ["."]) =
      .ok (disk.base root) := by
  have below : disk.base root ++ [table] ≠ [] := by simp
  have nodes := node?_emptied disk below
  have kept : ∀ location, ¬disk.base root ++ [table] <+: location →
      (disk.emptied (disk.base root ++ [table])).node? location = disk.node? location :=
    fun location out => (nodes location).trans (if_neg fun inside => out inside.1)
  have alsoRooted : (disk.emptied (disk.base root ++ [table])).Rooted root :=
    rooted.of_bypasses bypasses rfl (rooted.isTree.emptied below) kept
  have directory : (disk.emptied (disk.base root ++ [table])).node? (disk.base root) =
      some .directory := by
    have parent := rooted.isTree _ below (by rw [there]; rfl)
    rw [List.dropLast_concat] at parent
    rw [kept _ (concat_not_isPrefix _ _), parent]
  exact (alsoRooted.walk_of_root directory ["."]).trans (walk_of_directory directory)

/-- Removing the directory of a table that the root bypasses removes everything below it. -/
theorem deleteAll_eq (rooted : disk.Rooted root) (isTable : FileName.isSegment table = true)
    (bypasses : disk.Bypasses root table)
    (located : disk.locate (join root table) = .ok (disk.base root ++ [table], .directory)) :
    disk.deleteAll (join root table) = (.ok (), disk.without (disk.base root ++ [table])) := by
  have segments : ∀ name ∈ [table], FileName.isSegment name = true :=
    List.forall_mem_singleton.mpr isTable
  have path : table = "/".intercalate [table] := String.intercalate_singleton.symm
  have parts := ofText_join root (by simp) segments
  have dots := endsInDots_join root (by simp) segments
  rw [← path] at parts dots
  have started : disk.start (ofText (join root table)) = disk.origin root := by
    rw [parts]
    rfl
  have upTo : (ofText (join root table)).parts.dropLast = partsOf root := by
    rw [parts, List.dropLast_concat]
  have there : disk.node? (disk.base root ++ [table]) = some .directory := by
    rw [path] at located
    exact (of_locate_join (by simp) segments located).2
  have walked := rooted.walk_emptied bypasses there
  rw [← started, ← upTo, emptied] at walked
  rw [Disk.deleteAll, located]
  simp only [walked, dots, List.append_eq_nil_iff, List.cons_ne_nil, and_false,
    Bool.false_eq_true, or_false, if_false]
  rfl

end Rooted

end TableStore.Disk
