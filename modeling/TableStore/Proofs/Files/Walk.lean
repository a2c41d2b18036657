/-
# Walking a disk

Parts lead from a location to a destination, whatever is there: names lead down and two dots up. A
walk ends at the destination of its parts if there are directories all the way. Where no file is on
the way and it goes up from directories only, a walk arrives or misses something, and directories
can be made where they are missing.
-/

import TableStore.Proofs.Files.Tree

namespace TableStore

namespace HostPath

/-- Where a part leads from a directory. -/
def follow (location : List String) (part : String) : List String :=
  if part = "." then location
  else if part = ".." then location.dropLast
  else location ++ [part]

/-- Where parts lead from a location if there are directories all the way. -/
def destination (location parts : List String) : List String :=
  parts.foldl follow location

variable {location above names parts : List String} {part : String}

/-- What comes after other parts leads on from where these lead. -/
theorem destination_append (location first second : List String) :
    destination location (first ++ second) = destination (destination location first) second :=
  List.foldl_append

/-- What comes after the first part leads on from where this one leads. -/
theorem destination_cons (location : List String) (part : String) (rest : List String) :
    destination location (part :: rest) = destination (follow location part) rest :=
  rfl

/-- A part that does not go up leads no less far down. -/
theorem prefix_follow (noUp : part ≠ "..") (location : List String) :
    location <+: follow location part := by
  rw [follow, if_neg noUp]
  split
  · exact List.prefix_rfl
  · exact List.prefix_append _ _

/-- A segment is neither a single dot nor two. -/
theorem ne_dots_of_isSegment (segment : FileName.isSegment part = true) :
    part ≠ "." ∧ part ≠ ".." := by
  constructor
  · rintro rfl
    exact absurd segment (by decide)
  · rintro rfl
    exact absurd segment (by decide)

/-- A name leads to the location below. -/
theorem follow_name (plain : part ≠ "." ∧ part ≠ "..") (location : List String) :
    follow location part = location ++ [part] := by
  rw [follow, if_neg plain.1, if_neg plain.2]

/-- Names lead to the location below that they name. -/
theorem destination_names (plain : ∀ name ∈ names, name ≠ "." ∧ name ≠ "..")
    (location : List String) : destination location names = location ++ names := by
  induction names generalizing location with
  | nil => exact (List.append_nil location).symm
  | cons name rest ih =>
      rw [destination_cons, follow_name (plain name List.mem_cons_self),
        ih fun other member => plain other (List.mem_cons_of_mem name member),
        List.append_assoc, List.singleton_append]

/-- Segments lead to the location below that they name. -/
theorem destination_segments (segments : ∀ name ∈ names, FileName.isSegment name = true)
    (location : List String) : destination location names = location ++ names :=
  destination_names (fun name member => ne_dots_of_isSegment (segments name member)) location

/-- Parts that do not go up lead no less far down. -/
theorem prefix_destination (noUp : ".." ∉ parts) (location : List String) :
    location <+: destination location parts := by
  induction parts generalizing location with
  | nil => exact List.prefix_rfl
  | cons part rest ih =>
      have plain : part ≠ ".." := fun same => noUp (same ▸ List.mem_cons_self)
      have others : ".." ∉ rest := fun member => noUp (List.mem_cons_of_mem part member)
      exact (prefix_follow plain location).trans (ih others (follow location part))

/-- What is above the location where a part leads is above the location before, or that location
itself. -/
theorem prefix_or_eq_of_prefix_follow (inside : above <+: follow location part) :
    above <+: location ∨ above = follow location part := by
  rw [follow] at inside ⊢
  split at inside
  · next dot => exact .inl inside
  next dot =>
  split at inside
  · exact .inl (inside.trans (List.dropLast_prefix location))
  · next up =>
      rw [if_neg dot, if_neg up]
      exact (List.prefix_concat_iff.mp inside).symm

/-- What is above the location where parts lead is above the start, or on the way. -/
theorem prefix_or_onWay_of_prefix_destination (inside : above <+: destination location parts) :
    above <+: location ∨ ∃ upTo, upTo <+: parts ∧ above = destination location upTo := by
  induction parts using List.reverseRecOn with
  | nil => exact .inl inside
  | append_singleton start last ih =>
      rw [destination_append] at inside
      rcases prefix_or_eq_of_prefix_follow inside with earlier | here
      · exact (ih earlier).imp_right fun ⟨upTo, below, found⟩ =>
          ⟨upTo, below.trans (List.prefix_append _ _), found⟩
      · exact .inr ⟨start ++ [last], List.prefix_rfl, by rw [here, destination_append]; rfl⟩

/-- Where a part leads from a directory. -/
def next (location : List String) (part : String) : Except HostFailure (List String) :=
  if part = "." then .ok location
  else if part = ".." then .ok location.dropLast
  else if Disk.nameLimit < part.utf8ByteSize then .error .nameTooLong
  else .ok (location ++ [part])

end HostPath

namespace Disk

open HostPath

variable {disk other : Disk} {location reached above : List String} {part : String}
  {parts rest : List String}

/-- A part leads on unless it is too long. -/
theorem next_eq (location : List String) (part : String) :
    next location part =
      if nameLimit < part.utf8ByteSize then .error .nameTooLong
      else .ok (follow location part) := by
  rw [next, follow]
  split
  · next dot => rw [if_neg (by rw [dot]; decide)]
  split
  · next up => rw [if_neg (by rw [up]; decide)]
  split <;> rfl

/-- A segment leads to the location below, unless it is too long. -/
theorem next_segment {name : String} (segment : FileName.isSegment name = true)
    (location : List String) :
    next location name =
      if nameLimit < name.utf8ByteSize then .error .nameTooLong else .ok (location ++ [name]) := by
  rw [next_eq, follow_name (ne_dots_of_isSegment segment)]

/-- One step of a walk from a directory. -/
theorem walk_of_directory (directory : disk.node? location = some .directory) :
    disk.walk location (part :: rest) =
      (next location part).bind fun reached => disk.walk reached rest := by
  rw [walk, directory, next]
  simp only []
  split
  · rfl
  · split
    · rfl
    · split <;> rfl

/-- A walk goes through directories only. -/
theorem node?_of_walk (walked : disk.walk location (part :: rest) = .ok reached) :
    disk.node? location = some .directory := by
  rw [walk] at walked
  split at walked
  · cases walked
  · cases walked
  · next directory => exact directory

/-- A walk along more parts goes on from where the first of them lead. -/
theorem walk_append (disk : Disk) (location first second : List String) :
    disk.walk location (first ++ second) =
      (disk.walk location first).bind fun reached => disk.walk reached second := by
  induction first generalizing location with
  | nil => rfl
  | cons part rest ih =>
      cases here : disk.node? location with
      | none => simp only [List.cons_append, walk, here]; rfl
      | some node =>
          cases node with
          | file bytes => simp only [List.cons_append, walk, here]; rfl
          | directory =>
              rw [List.cons_append, walk_of_directory here, walk_of_directory here]
              cases next location part with
              | error failure => rfl
              | ok reached => exact ih reached

/-- A walk along more parts ends where the others lead from where the first of them do. -/
theorem walk_append_eq_ok_iff {first second : List String} :
    disk.walk location (first ++ second) = .ok reached ↔
      ∃ between, disk.walk location first = .ok between ∧
        disk.walk between second = .ok reached := by
  rw [walk_append]
  constructor
  · intro walked
    cases start : disk.walk location first with
    | error failure =>
        rw [start] at walked
        cases walked
    | ok between =>
        rw [start] at walked
        exact ⟨between, rfl, walked⟩
  · rintro ⟨between, start, walked⟩
    rw [start]
    exact walked

/-- A walk still ends where it did as long as directories stay. -/
theorem walk_mono
    (stay : ∀ location, disk.node? location = some .directory →
      other.node? location = some .directory)
    (walked : disk.walk location parts = .ok reached) :
    other.walk location parts = .ok reached := by
  induction parts generalizing location with
  | nil => exact walked
  | cons part rest ih =>
      have here := node?_of_walk walked
      rw [walk_of_directory here] at walked
      rw [walk_of_directory (stay location here)]
      cases led : next location part with
      | error failure =>
          rw [led] at walked
          cases walked
      | ok reached =>
          rw [led] at walked
          exact ih walked

/-- A walk ends where its parts lead, if anywhere. -/
theorem eq_of_walk (walked : disk.walk location parts = .ok reached) :
    reached = destination location parts := by
  induction parts generalizing location with
  | nil => exact (Except.ok.inj walked).symm
  | cons part rest ih =>
      rw [walk_of_directory (node?_of_walk walked), next_eq] at walked
      split at walked
      · cases walked
      · exact ih walked

/-- A walk that ends was along parts that are short enough. -/
theorem short_of_walk (walked : disk.walk location parts = .ok reached) :
    ∀ part ∈ parts, part.utf8ByteSize ≤ nameLimit := by
  induction parts generalizing location with
  | nil => exact fun part member => absurd member List.not_mem_nil
  | cons part rest ih =>
      rw [walk_of_directory (node?_of_walk walked), next_eq] at walked
      rw [List.forall_mem_cons]
      split at walked
      · cases walked
      · next short => exact ⟨Nat.not_lt.mp short, ih walked⟩

/-- Segments lead further down. -/
theorem prefix_of_walk (segments : ∀ name ∈ parts, FileName.isSegment name = true)
    (walked : disk.walk location parts = .ok reached) : reached = location ++ parts := by
  rw [eq_of_walk walked, destination_segments segments]

/-- A path names what is there where the walk along its steps ends. -/
theorem locate_eq_ok_iff {text : String} {node : Node} :
    disk.locate text = .ok (location, node) ↔
      (areProper (ofText text).parts = true ∧ isTooLong text = false) ∧
        disk.walk (disk.start (ofText text)) (ofText text).steps = .ok location ∧
        disk.node? location = some node := by
  constructor
  · intro located
    rw [locate] at located
    simp only [bind, Except.bind] at located
    split at located
    · cases located
    next proper =>
    split at located
    · cases located
    next short =>
    split at located
    · cases located
    next walked =>
    split at located
    · next there =>
        cases located
        exact ⟨⟨by simpa using proper, by simpa using short⟩, walked, there⟩
    · cases located
  · rintro ⟨⟨proper, short⟩, walked, there⟩
    rw [locate]
    simp only [proper, short, walked, Bool.not_true, Bool.false_eq_true, if_false, bind,
      Except.bind, there]
    rfl

/-- What a path names is there. -/
theorem node?_of_locate {text : String} {node : Node}
    (located : disk.locate text = .ok (location, node)) : disk.node? location = some node :=
  (locate_eq_ok_iff.mp located).2.2

/-- The contents of a file are read if the path leads to it. -/
theorem read_eq_ok_iff {text : String} {bytes : Bytes} :
    disk.read text = .ok bytes ↔ ∃ location, disk.locate text = .ok (location, .file bytes) := by
  rw [read]
  constructor
  · intro read
    rcases located : disk.locate text with failure | ⟨location, _ | contents⟩
    · rw [located] at read
      cases read
    · rw [located] at read
      cases read
    · rw [located] at read
      cases read
      exact ⟨location, rfl⟩
  · rintro ⟨location, located⟩
    rw [located]
    rfl

/-- A path names a file if one can be read. -/
theorem isFile_iff {text : String} :
    disk.isFile text = true ↔ ∃ bytes, disk.read text = .ok bytes := by
  simp only [read_eq_ok_iff]
  rw [isFile]
  constructor
  · intro isFile
    split at isFile
    · next location bytes located => exact ⟨bytes, location, located⟩
    · cases isFile
  · rintro ⟨bytes, location, located⟩
    rw [located]

/-- Contents are put wherever no directory is. -/
theorem put_eq (disk : Disk) (location : List String) (bytes : Bytes) :
    disk.put location bytes =
      if disk.node? location = some .directory then .error .isDirectory
      else .ok { disk with nodes := disk.nodes.insert location (.file bytes) } := by
  rw [Disk.put]
  split
  · next directory => rw [if_pos directory]
  · next noDirectory => rw [if_neg noDirectory]

/-- Contents are only put where no directory is. -/
theorem of_put {bytes : Bytes} {after : Disk} (put : disk.put location bytes = .ok after) :
    disk.node? location ≠ some .directory ∧ location ≠ [] ∧
      after = { disk with nodes := disk.nodes.insert location (.file bytes) } := by
  rw [put_eq] at put
  split at put
  · cases put
  · next free => exact ⟨free, fun top => free (by rw [top]; rfl), (Except.ok.inj put).symm⟩

/-- Directories stay when contents are put somewhere. -/
theorem node?_directory_of_put {bytes : Bytes} {after : Disk}
    (put : disk.put location bytes = .ok after) (there : List String)
    (directory : disk.node? there = some .directory) : after.node? there = some .directory := by
  obtain ⟨free, below, rfl⟩ := of_put put
  have apart : there ≠ location := by
    rintro rfl
    exact free directory
  rw [node?_insert disk below, if_neg apart, directory]

/-- One step of making the directories along segments. -/
theorem makeDirectories_segment {name : String} (segment : FileName.isSegment name = true)
    (disk : Disk) (location rest : List String) :
    disk.makeDirectories location (name :: rest) =
      if nameLimit < name.utf8ByteSize then (.error .nameTooLong, disk)
      else
        match disk.node? (location ++ [name]) with
        | some .directory => disk.makeDirectories (location ++ [name]) rest
        | some (.file _) => (.error .notDirectory, disk)
        | none =>
            Disk.makeDirectories
              { disk with nodes := disk.nodes.insert (location ++ [name]) .directory }
              (location ++ [name]) rest := by
  obtain ⟨noDot, noUp⟩ := ne_dots_of_isSegment segment
  rw [makeDirectories, if_neg noDot]
  exact if_neg noUp

/-- Making directories makes only such as were not there, and no others go. -/
theorem node?_makeDirectories (disk : Disk) (location parts there : List String) :
    (disk.makeDirectories location parts).2.node? there = disk.node? there ∨
      disk.node? there = none ∧
        (disk.makeDirectories location parts).2.node? there = some .directory := by
  induction parts generalizing disk location with
  | nil => exact .inl rfl
  | cons part rest ih =>
      rw [makeDirectories]
      by_cases dot : part = "."
      · rw [if_pos dot]
        exact ih disk location
      by_cases up : part = ".."
      · rw [if_neg dot, if_pos up]
        exact ih disk location.dropLast
      by_cases long : nameLimit < part.utf8ByteSize
      · rw [if_neg dot, if_neg up, if_pos long]
        exact .inl rfl
      rw [if_neg dot, if_neg up, if_neg long]
      cases here : disk.node? (location ++ [part]) with
      | some node =>
          cases node with
          | file bytes => exact .inl (by simp only [here])
          | directory =>
              simp only [here]
              exact ih disk (location ++ [part])
      | none =>
          simp only [here]
          have below : location ++ [part] ≠ [] := by simp
          have made := node?_insert disk below .directory there
          have rest := ih { disk with nodes := disk.nodes.insert (location ++ [part]) .directory }
            (location ++ [part])
          by_cases new : there = location ++ [part]
          · rw [made, if_pos new] at rest
            exact .inr ⟨new ▸ here, rest.resolve_right fun gone => Option.some_ne_none _ gone.1⟩
          · rw [made, if_neg new] at rest
            exact rest

/-- What is there stays when directories are made. -/
theorem node?_makeDirectories_of_some (location parts : List String) {there : List String}
    {node : Node} (here : disk.node? there = some node) :
    (disk.makeDirectories location parts).2.node? there = some node := by
  rcases node?_makeDirectories disk location parts there with same | ⟨missing, -⟩
  · rw [same, here]
  · cases here.symm.trans missing

/-- Making directories does not move the working directory. -/
theorem workingDirectory_makeDirectories (disk : Disk) (location parts : List String) :
    (disk.makeDirectories location parts).2.workingDirectory = disk.workingDirectory := by
  induction parts generalizing disk location with
  | nil => rfl
  | cons part rest ih =>
      rw [makeDirectories]
      split
      · exact ih disk location
      split
      · exact ih disk location.dropLast
      split
      · rfl
      simp only []
      split
      · exact ih disk (location ++ [part])
      · rfl
      · exact ih _ (location ++ [part])

/-- No directories are made along a path that leads to one. -/
theorem makeDirectories_of_walk (walked : disk.walk location parts = .ok reached)
    (directory : disk.node? reached = some .directory) (rest : List String) :
    disk.makeDirectories location (parts ++ rest) = disk.makeDirectories reached rest := by
  induction parts generalizing location with
  | nil =>
      cases walked
      rfl
  | cons part parts ih =>
      have here := node?_of_walk walked
      rw [walk_of_directory here, next] at walked
      rw [List.cons_append, makeDirectories]
      split at walked
      · next dot =>
          rw [if_pos dot]
          exact ih walked
      next dot =>
      split at walked
      · next up =>
          rw [if_neg dot, if_pos up]
          exact ih walked
      next up =>
      split at walked
      · cases walked
      next short =>
      rw [if_neg dot, if_neg up, if_neg short]
      have next : disk.node? (location ++ [part]) = some .directory := by
        cases parts with
        | nil =>
            cases walked
            exact directory
        | cons following parts => exact node?_of_walk walked
      simp only [next]
      exact ih walked

/-- Making directories along more parts goes on from where the first of them lead, if these could be
made. -/
theorem makeDirectories_append (disk : Disk) (location first second : List String) :
    disk.makeDirectories location (first ++ second) =
      match disk.makeDirectories location first with
      | (.ok (), made) => made.makeDirectories (destination location first) second
      | (.error failure, made) => (.error failure, made) := by
  induction first generalizing disk location with
  | nil => rfl
  | cons part rest ih =>
      rw [List.cons_append, makeDirectories, makeDirectories, destination_cons, follow]
      by_cases dot : part = "."
      · rw [if_pos dot, if_pos dot, if_pos dot]
        exact ih disk location
      rw [if_neg dot, if_neg dot, if_neg dot]
      by_cases up : part = ".."
      · rw [if_pos up, if_pos up, if_pos up]
        exact ih disk location.dropLast
      rw [if_neg up, if_neg up, if_neg up]
      by_cases long : nameLimit < part.utf8ByteSize
      · rw [if_pos long, if_pos long]
      rw [if_neg long, if_neg long]
      cases here : disk.node? (location ++ [part]) with
      | none =>
          simp only [here]
          exact ih _ (location ++ [part])
      | some node =>
          cases node with
          | file bytes => simp only [here]
          | directory =>
              simp only [here]
              exact ih disk (location ++ [part])

/-- The directory above one is there. -/
theorem IsTree.node?_dropLast (isTree : disk.IsTree)
    (directory : disk.node? location = some .directory) :
    disk.node? location.dropLast = some .directory :=
  isTree.node?_of_directory (List.dropLast_prefix location) directory

/-- A tree in which directories are made is one. -/
theorem IsTree.makeDirectories (isTree : disk.IsTree)
    (here : disk.node? location = some .directory) (parts : List String) :
    (disk.makeDirectories location parts).2.IsTree := by
  induction parts generalizing disk location with
  | nil => exact isTree
  | cons part rest ih =>
      rw [Disk.makeDirectories]
      split
      · exact ih isTree here
      split
      · exact ih isTree (isTree.node?_dropLast here)
      split
      · exact isTree
      simp only []
      split
      · next there => exact ih isTree there
      · exact isTree
      · next there =>
          have below : location ++ [part] ≠ [] := by simp
          apply ih
          · apply isTree.insert below _ (by rw [there]; simp) .directory
            rw [List.dropLast_concat, here]
          · rw [node?_insert disk below, if_pos rfl]

/-- The directories that were to be made are there afterwards. -/
theorem node?_of_makeDirectories (segments : ∀ name ∈ parts, FileName.isSegment name = true)
    (made : (disk.makeDirectories location parts).1 = .ok ()) {upTo : List String}
    (nonempty : upTo ≠ []) (below : upTo <+: parts) :
    (disk.makeDirectories location parts).2.node? (location ++ upTo) = some .directory := by
  induction parts generalizing disk location upTo with
  | nil => exact absurd (List.prefix_nil.mp below) nonempty
  | cons part rest ih =>
      obtain ⟨first, later, rfl⟩ := List.exists_cons_of_ne_nil nonempty
      obtain ⟨rfl, further⟩ := List.cons_prefix_cons.mp below
      have others := fun name member => segments name (List.mem_cons_of_mem first member)
      -- Once the next directory is there, it stays while the rest are made.
      have continued : ∀ disk : Disk, disk.node? (location ++ [first]) = some .directory →
          (disk.makeDirectories (location ++ [first]) rest).1 = .ok () →
          (disk.makeDirectories (location ++ [first]) rest).2.node? (location ++ first :: later) =
            some .directory := by
        intro disk here made
        rw [List.append_cons location first later]
        by_cases last : later = []
        · rw [last, List.append_nil]
          exact node?_makeDirectories_of_some _ rest here
        · exact ih others made last further
      rw [makeDirectories_segment (segments first List.mem_cons_self)] at made ⊢
      split at made
      · cases made
      next short =>
      rw [if_neg short]
      cases here : disk.node? (location ++ [first]) with
      | none =>
          simp only [here] at made ⊢
          refine continued _ ?_ made
          rw [node?_insert disk (by simp), if_pos rfl]
      | some node =>
          cases node with
          | file bytes =>
              simp only [here] at made
              cases made
          | directory =>
              simp only [here] at made ⊢
              exact continued disk here made

/-- What a write leaves: the disk as it was, the directories that were made, or these and contents
where the walk along the path ended. -/
theorem write_cases (disk : Disk) (text : String) (bytes : Bytes) :
    let made := (disk.makeDirectories (disk.start (ofText text)) (ofText text).parent).2
    (disk.write text bytes).2 = disk ∨ (disk.write text bytes).2 = made ∨
      ∃ location, made.walk (made.start (ofText text)) (ofText text).steps = .ok location ∧
        made.put location bytes = .ok (disk.write text bytes).2 := by
  intro made
  rw [Disk.write]
  split
  · exact .inl rfl
  split
  · exact .inl rfl
  rcases making : disk.makeDirectories (disk.start (ofText text)) (ofText text).parent with
    ⟨_ | _, tree⟩
  · exact .inr (.inl (congrArg Prod.snd making).symm)
  have same : made = tree := congrArg Prod.snd making
  dsimp only
  split
  · exact .inr (.inl same.symm)
  split
  · exact .inr (.inl same.symm)
  split
  · exact .inr (.inl same.symm)
  rw [same]
  cases walked : tree.walk (tree.start (ofText text)) (ofText text).steps with
  | error failure => exact .inr (.inl rfl)
  | ok reached =>
      rw [Except.bind]
      cases done : tree.put reached bytes with
      | error failure => exact .inr (.inl rfl)
      | ok written => exact .inr (.inr ⟨reached, rfl, done⟩)

/-- A directory stays when a file is written. -/
theorem directory_write (there : disk.node? location = some .directory) (text : String)
    (bytes : Bytes) : (disk.write text bytes).2.node? location = some .directory := by
  have stays := node?_makeDirectories_of_some (disk.start (ofText text)) (ofText text).parent there
  rcases disk.write_cases text bytes with same | same | ⟨reached, -, put⟩
  · rw [same, there]
  · rw [same, stays]
  · exact node?_directory_of_put put location stays

/-- A write does not move the working directory. -/
theorem workingDirectory_write (disk : Disk) (text : String) (bytes : Bytes) :
    (disk.write text bytes).2.workingDirectory = disk.workingDirectory := by
  have kept := workingDirectory_makeDirectories disk (disk.start (ofText text)) (ofText text).parent
  rcases disk.write_cases text bytes with same | same | ⟨reached, -, put⟩
  · rw [same]
  · rw [same, kept]
  · rw [(of_put put).2.2, kept]

/-- Whether the way along parts goes up from directories only. -/
def Ascends (disk : Disk) (location parts : List String) : Prop :=
  ∀ upTo, upTo ++ [".."] <+: parts → disk.node? (destination location upTo) = some .directory

/-- What comes after the first part goes up from directories, too. -/
theorem Ascends.tail (ascends : disk.Ascends location (part :: rest)) :
    disk.Ascends (follow location part) rest :=
  fun upTo below => ascends (part :: upTo) (List.cons_prefix_cons.mpr ⟨rfl, below⟩)

/-- What comes after other parts goes up from directories, too. -/
theorem Ascends.of_append {first second : List String}
    (ascends : disk.Ascends location (first ++ second)) :
    disk.Ascends (destination location first) second := by
  intro upTo below
  rw [← destination_append]
  refine ascends (first ++ upTo) ?_
  rw [List.append_assoc]
  exact (List.prefix_append_right_inj first).mpr below

/-- A way that goes up somewhere starts from a directory. -/
theorem Ascends.node?_of_mem (ascends : disk.Ascends location parts) (isTree : disk.IsTree)
    (up : ".." ∈ parts) : disk.node? location = some .directory := by
  induction parts generalizing location with
  | nil => exact absurd up List.not_mem_nil
  | cons part rest ih =>
      by_cases here : part = ".."
      · exact ascends [] (here ▸ List.prefix_append [".."] rest)
      · have further := ih ascends.tail ((List.mem_cons.mp up).resolve_left (Ne.symm here))
        exact isTree.node?_of_directory (prefix_follow here location) further

/-- Whether parts can be followed from a location as far as there is something, and directories be
made from there on: no name is too long, no file is on the way, and the way goes up from directories
only. -/
structure Passable (disk : Disk) (location parts : List String) : Prop where
  short : ∀ part ∈ parts, part.utf8ByteSize ≤ nameLimit
  noFile : ∀ upTo, upTo <+: parts → ∀ bytes,
    disk.node? (destination location upTo) ≠ some (.file bytes)
  up : disk.Ascends location parts

namespace Passable

/-- What comes after the first part can be followed, too. -/
theorem tail (passable : disk.Passable location (part :: rest)) :
    disk.Passable (follow location part) rest where
  short name member := passable.short name (List.mem_cons_of_mem part member)
  noFile upTo below :=
    passable.noFile (part :: upTo) (List.cons_prefix_cons.mpr ⟨rfl, below⟩)
  up := passable.up.tail

/-- Parts can be followed one list after the other. -/
theorem append {first second : List String} (passable : disk.Passable location first)
    (further : disk.Passable (destination location first) second) :
    disk.Passable location (first ++ second) where
  short part member :=
    (List.mem_append.mp member).elim (passable.short part) (further.short part)
  noFile upTo below := by
    rcases List.prefix_or_prefix_of_prefix below (List.prefix_append first second) with
      inside | beyond
    · exact passable.noFile upTo inside
    · obtain ⟨after, rfl⟩ := beyond
      rw [destination_append]
      exact further.noFile after ((List.prefix_append_right_inj first).mp below)
  up upTo below := by
    have inside := (List.prefix_append upTo [".."]).trans below
    rcases List.prefix_or_prefix_of_prefix below (List.prefix_append first second) with
      within | beyond
    · exact passable.up upTo within
    rcases List.prefix_concat_iff.mp beyond with whole | beyond
    · exact passable.up upTo (whole ▸ List.prefix_rfl)
    · obtain ⟨after, rfl⟩ := beyond
      rw [destination_append]
      rw [List.append_assoc] at below
      exact further.up after ((List.prefix_append_right_inj first).mp below)

/-- Short segments can be followed to a location if no file is there or above it. -/
theorem of_segments (segments : ∀ name ∈ parts, FileName.isSegment name = true)
    (short : ∀ name ∈ parts, name.utf8ByteSize ≤ nameLimit)
    (isOpen : disk.Open (location ++ parts)) : disk.Passable location parts where
  short := short
  noFile upTo below := by
    rw [destination_segments fun name member => segments name (below.subset member)]
    exact isOpen _ ((List.prefix_append_right_inj location).mpr below)
  up upTo below := by
    have up := segments ".." (below.subset (List.mem_append_right upTo (List.mem_singleton_self _)))
    exact absurd up (by decide +kernel)

variable (passable : disk.Passable location parts) (isTree : disk.IsTree)

include passable isTree

/-- No way goes up from where nothing is. -/
theorem up_notMem (missing : disk.node? location = none) : ".." ∉ parts := by
  intro up
  cases missing.symm.trans (passable.up.node?_of_mem isTree up)

/-- Where nothing is, the way leads to nothing. -/
theorem node?_destination_eq_none (missing : disk.node? location = none) :
    disk.node? (destination location parts) = none := by
  have inside := prefix_destination (passable.up_notMem isTree missing) location
  by_cases here : location = destination location parts
  · rw [← here, missing]
  · exact isTree.node?_eq_none inside here (by rw [missing]; simp)

/-- A walk from a directory ends where its parts lead, or it misses something on the way, and then
nothing is where they lead. -/
theorem walk (here : disk.node? location = some .directory) :
    disk.walk location parts = .ok (destination location parts) ∨
      disk.walk location parts = .error .missing ∧
        disk.node? (destination location parts) = none := by
  induction parts generalizing location with
  | nil => exact .inl rfl
  | cons part rest ih =>
      have short := passable.short part List.mem_cons_self
      rw [walk_of_directory here, next_eq, if_neg (Nat.not_lt.mpr short), Except.bind,
        destination_cons]
      cases there : disk.node? (follow location part) with
      | none =>
          cases rest with
          | nil => exact .inl rfl
          | cons following rest =>
              refine .inr ⟨?_, passable.tail.node?_destination_eq_none isTree there⟩
              simp only [Disk.walk, there]
      | some node =>
          cases node with
          | file bytes =>
              exact absurd there (passable.noFile [part]
                (List.cons_prefix_cons.mpr ⟨rfl, List.nil_prefix⟩) bytes)
          | directory => exact ih passable.tail there

section

variable (here : disk.node? location = some .directory) {name : String}
  (segment : FileName.isSegment name = true) (short : name.utf8ByteSize ≤ nameLimit)

include here segment short

/-- A walk with one name more ends in the directory where its parts lead, if this is there. -/
theorem walk_into (there : disk.node? (destination location parts) = some .directory) :
    disk.walk location (parts ++ [name]) = .ok (destination location parts ++ [name]) := by
  rcases passable.walk isTree here with reached | ⟨-, missing⟩
  · rw [walk_append, reached, Except.bind, walk_of_directory there, next_segment segment,
      if_neg (Nat.not_lt.mpr short)]
    rfl
  · cases there.symm.trans missing

/-- A walk with one name more ends where this is, or it misses something, and then nothing is
there. -/
theorem walk_concat :
    disk.walk location (parts ++ [name]) = .ok (destination location parts ++ [name]) ∨
      disk.walk location (parts ++ [name]) = .error .missing ∧
        disk.node? (destination location parts ++ [name]) = none := by
  cases there : disk.node? (destination location parts) with
  | some node =>
      cases node with
      | file bytes => exact absurd there (passable.noFile parts List.prefix_rfl bytes)
      | directory => exact .inl (passable.walk_into isTree here segment short there)
  | none =>
      refine .inr ⟨?_, isTree.node?_eq_none (List.prefix_append _ _) (by simp)
        (by rw [there]; simp)⟩
      rw [walk_append]
      rcases passable.walk isTree here with reached | ⟨failed, -⟩
      · rw [reached, Except.bind, Disk.walk, there]
      · rw [failed, Except.bind]

end

/-- Making directories along a way that can be followed makes those that are missing above its end,
and changes nothing else. -/
theorem makeDirectories (here : disk.node? location = some .directory) :
    ∃ made, disk.makeDirectories location parts = (.ok (), made) ∧
      ∀ there, made.node? there =
        if there <+: destination location parts then some .directory else disk.node? there := by
  induction parts generalizing disk location with
  | nil =>
      refine ⟨disk, rfl, fun there => ?_⟩
      split
      · next inside => exact isTree.node?_of_directory inside here
      · rfl
  | cons part rest ih =>
      have short := Nat.not_lt.mpr (passable.short part List.mem_cons_self)
      have tail := passable.tail
      rw [Disk.makeDirectories, destination_cons]
      rw [follow] at tail ⊢
      by_cases dot : part = "."
      · rw [if_pos dot] at tail ⊢
        rw [if_pos dot]
        exact ih tail isTree here
      rw [if_neg dot] at tail ⊢
      rw [if_neg dot]
      by_cases up : part = ".."
      · rw [if_pos up] at tail ⊢
        rw [if_pos up]
        exact ih tail isTree (isTree.node?_dropLast here)
      rw [if_neg up] at tail ⊢
      rw [if_neg up, if_neg short]
      cases there : disk.node? (location ++ [part]) with
      | some node =>
          cases node with
          | file bytes => exact absurd there (tail.noFile [] List.nil_prefix bytes)
          | directory =>
              simp only [there]
              exact ih tail isTree there
      | none =>
          simp only [there]
          have below : location ++ [part] ≠ [] := by simp
          have nodes := node?_insert disk below .directory
          -- What was missing is now a directory, so the rest of the way can still be followed.
          have stillPassable : Disk.Passable
              { disk with nodes := disk.nodes.insert (location ++ [part]) .directory }
              (location ++ [part]) rest := by
            refine ⟨tail.short, fun upTo below bytes => ?_, fun upTo below => ?_⟩
            · rw [nodes]
              split
              · simp
              · exact tail.noFile upTo below bytes
            · rw [nodes]
              split
              · rfl
              · exact tail.up upTo below
          have stillTree := isTree.insert below (by rw [List.dropLast_concat, here])
            (by rw [there]; simp) .directory
          obtain ⟨made, making, whole⟩ := ih stillPassable stillTree (by rw [nodes, if_pos rfl])
          refine ⟨made, making, fun other => ?_⟩
          rw [whole, nodes]
          by_cases same : other = location ++ [part]
          · have inside := prefix_destination (tail.up_notMem isTree there) (location ++ [part])
            rw [if_pos (same ▸ inside), if_pos (same ▸ inside)]
          · rw [if_neg same]

end Passable

end Disk

end TableStore
