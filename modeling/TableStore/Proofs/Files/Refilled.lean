/-
# Other contents in a file

What a file that is there contains is seen only where the file itself is read. Every walk goes on as
before, directories are made and listed as before, and any other file is read and written as before.
So giving the file other contents can be exchanged with all of these.
-/

import TableStore.Proofs.Collections
import TableStore.Proofs.Files.Apart
import TableStore.Proofs.Files.Rewritten
import TableStore.Proofs.Parallel.Basic

namespace TableStore

open HostPath

namespace Disk

variable {disk made : Disk} {location reached start : List String} {parts : List String}
  {old bytes : Bytes} {text root path other : String}

/-- The disk with other contents at a location. -/
def refill (disk : Disk) (location : List String) (bytes : Bytes) : Disk :=
  { disk with nodes := disk.nodes.insert location (.file bytes) }

/-- A file is not at the top. -/
theorem ne_nil_of_file (file : disk.node? location = some (.file old)) : location ≠ [] := by
  rintro rfl
  cases file

section

variable (file : disk.node? location = some (.file old)) (bytes : Bytes)

include file

/-- Other contents are there, and nothing else has changed. -/
theorem node?_refill (there : List String) :
    (disk.refill location bytes).node? there =
      if there = location then some (.file bytes) else disk.node? there :=
  node?_insert disk (ne_nil_of_file file) _ there

/-- The directories are the same, whatever is in a file. -/
theorem directory_refill_iff {there : List String} :
    (disk.refill location bytes).node? there = some .directory ↔
      disk.node? there = some .directory := by
  rw [node?_refill file]
  split
  · next here => simp [here, file]
  · rfl

/-- Something is at the same locations, whatever is in a file. -/
theorem isSome_refill (there : List String) :
    ((disk.refill location bytes).node? there).isSome = (disk.node? there).isSome := by
  rw [node?_refill file]
  split
  · next here => rw [here, file]; rfl
  · rfl

/-- The contents that are there can be put there again. -/
theorem refill_self : disk.refill location old = disk := by
  have bound : disk.nodes[location]? = some (.file old) := by
    rw [← node?_of_ne_nil disk (ne_nil_of_file file), file]
  exact congrArg (fun nodes => { disk with nodes }) (insert_of_getElem? bound)

/-- Other contents can be put there. -/
theorem put_file : disk.put location bytes = .ok (disk.refill location bytes) := by
  rw [put_eq, if_neg (by simp [file])]
  rfl

/-- Walks end alike. -/
theorem walk_refill (start parts : List String) :
    (disk.refill location bytes).walk start parts = disk.walk start parts := by
  induction parts generalizing start with
  | nil => rfl
  | cons part rest ih =>
      by_cases directory : disk.node? start = some .directory
      · rw [walk_of_directory directory,
          walk_of_directory ((directory_refill_iff file bytes).mpr directory)]
        exact congrArg _ (funext ih)
      by_cases here : start = location
      · rw [walk, walk, node?_refill file, if_pos here, here, file]
      · rw [walk, walk, node?_refill file, if_neg here]
        cases there : disk.node? start with
        | none => rfl
        | some node =>
            cases node with
            | file contents => rfl
            | directory => exact absurd there directory

/-- Directories are made alike. -/
theorem makeDirectories_refill (start parts : List String) :
    (disk.refill location bytes).makeDirectories start parts =
      ((disk.makeDirectories start parts).1,
        (disk.makeDirectories start parts).2.refill location bytes) := by
  induction parts generalizing disk start with
  | nil => rfl
  | cons part rest ih =>
      rw [makeDirectories, makeDirectories]
      split
      · exact ih file start
      split
      · exact ih file start.dropLast
      split
      · rfl
      simp only [node?_refill file]
      by_cases here : start ++ [part] = location
      · simp only [here, file, if_true]
      · simp only [if_neg here]
        cases there : disk.node? (start ++ [part]) with
        | none =>
            have below : start ++ [part] ≠ [] := by simp
            have stays : Disk.node?
                { disk with nodes := disk.nodes.insert (start ++ [part]) .directory } location =
                  some (.file old) := by
              rw [node?_insert disk below, if_neg (Ne.symm here), file]
            rw [← ih stays (start ++ [part]), refill, refill]
            dsimp only
            rw [insert_comm disk.nodes here .directory (.file bytes)]
        | some node =>
            cases node with
            | file contents => rfl
            | directory => exact ih file (start ++ [part])

/-- A path names what it did, with other contents if it leads to the file. -/
theorem locate_refill (text : String) :
    (disk.refill location bytes).locate text =
      (disk.locate text).map fun found =>
        if found.1 = location then (location, .file bytes) else found := by
  have same : (disk.refill location bytes).start (ofText text) = disk.start (ofText text) := rfl
  rw [locate, locate]
  simp only [bind, Except.bind]
  rw [same, walk_refill file]
  split
  · rfl
  split
  · rfl
  cases disk.walk (disk.start (ofText text)) (ofText text).steps with
  | error failure => rfl
  | ok reached =>
      simp only [node?_refill file]
      by_cases here : reached = location
      · simp only [here, file, if_true]
        exact congrArg Except.ok (if_pos rfl).symm
      · rw [if_neg here]
        cases disk.node? reached with
        | none => rfl
        | some node => exact congrArg Except.ok (if_neg here).symm

/-- What a path elsewhere names is read as before. -/
theorem read_refill (elsewhere : ∀ node, disk.locate text ≠ .ok (location, node)) :
    (disk.refill location bytes).read text = disk.read text := by
  rw [read, read, locate_refill file]
  rcases located : disk.locate text with failure | ⟨reached, node⟩
  · rfl
  · have apart : reached ≠ location := by
      rintro rfl
      exact elsewhere node located
    rw [Except.map, if_neg apart]

/-- The names in a directory are the same. -/
theorem children_refill (there : List String) :
    (disk.refill location bytes).children there = disk.children there :=
  eq_of_ascending (pairwise_children _ _) (pairwise_children _ _) fun name => by
    rw [mem_children, mem_children, isSome_refill file]

/-- Directories are listed as before. -/
theorem list_refill (text : String) :
    (disk.refill location bytes).list text = disk.list text := by
  rw [list, list, locate_refill file]
  rcases located : disk.locate text with failure | ⟨reached, node⟩
  · rfl
  have there := node?_of_locate located
  by_cases here : reached = location
  · rw [here, file] at there
    cases there
    rw [Except.map, if_pos here]
    rfl
  · rw [Except.map, if_neg here]
    cases node with
    | file contents => rfl
    | directory => exact congrArg Except.ok (children_refill file bytes reached)

/-- Contents are put elsewhere as before. -/
theorem put_refill (apart : reached ≠ location) (others : Bytes) :
    (disk.refill location bytes).put reached others =
      (disk.put reached others).map fun after => after.refill location bytes := by
  rw [put_eq, put_eq]
  simp only [directory_refill_iff file]
  split
  · rfl
  · exact congrArg (fun nodes => Except.ok { disk with nodes })
      (insert_comm disk.nodes (Ne.symm apart) _ _)

/-- A file elsewhere is written as before. -/
theorem write_refill
    (elsewhere : (disk.makeDirectories (disk.start (ofText text)) (ofText text).parent).2.walk
      (disk.start (ofText text)) (ofText text).steps ≠ .ok location) (others : Bytes) :
    (disk.refill location bytes).write text others =
      ((disk.write text others).1, (disk.write text others).2.refill location bytes) := by
  have same : (disk.refill location bytes).start (ofText text) = disk.start (ofText text) := rfl
  have kept := workingDirectory_makeDirectories disk (disk.start (ofText text)) (ofText text).parent
  have stays := node?_makeDirectories_of_some (disk.start (ofText text)) (ofText text).parent file
  rw [Disk.write, Disk.write, same, makeDirectories_refill file]
  split
  · rfl
  split
  · rfl
  generalize disk.makeDirectories (disk.start (ofText text)) (ofText text).parent = making
    at kept stays elsewhere ⊢
  obtain ⟨_ | _, made⟩ := making
  · rfl
  dsimp only at kept stays elsewhere ⊢
  have start := start_eq kept (ofText text)
  have alsoStart : (made.refill location bytes).start (ofText text) = disk.start (ofText text) :=
    start
  rw [start, alsoStart, walk_refill stays]
  split
  · rfl
  split
  · rfl
  split
  · rfl
  cases walked : made.walk (disk.start (ofText text)) (ofText text).steps with
  | error failure => rfl
  | ok reached =>
      have apart : reached ≠ location := fun here => elsewhere (walked.trans (by rw [here]))
      rw [Except.bind, Except.bind, put_refill stays bytes apart]
      cases made.put reached others <;> rfl

end

/-- A plain path leads further down. -/
theorem eq_of_walk_plain (plain : IsPlain path)
    (walked : disk.walk start (segmentsOf path) = .ok reached) :
    reached = start ++ segmentsOf path := by
  rw [eq_of_walk walked, destination_names fun name member => (plain name member).2]

/-- Two plain paths do not lead to one location, also if more directories were made in between. -/
theorem reached_ne_of_walk (plain : IsPlain path) (alsoPlain : IsPlain other) (apart : other ≠ path)
    (stay : ∀ there, disk.node? there = some .directory → made.node? there = some .directory)
    (leads : disk.walk start (parts ++ segmentsOf path) = .ok location) :
    made.walk start (parts ++ segmentsOf other) ≠ .ok location := by
  intro alsoLeads
  obtain ⟨below, walked, still⟩ := walk_append_eq_ok_iff.mp (walk_mono stay leads)
  obtain ⟨alsoBelow, alsoWalked, ended⟩ := walk_append_eq_ok_iff.mp alsoLeads
  cases walked.symm.trans alsoWalked
  have same := (eq_of_walk_plain alsoPlain ended).symm.trans (eq_of_walk_plain plain still)
  exact apart (segmentsOf_injective (List.append_cancel_left same))

section

variable (plain : IsPlain path)
  (leads : disk.locate (join root path) = .ok (location, .file old))

include plain leads

/-- A file that is there can be given any contents, and nothing else is made or changed. -/
theorem write_of_locate (bytes : Bytes) :
    disk.write (join root path) bytes = (.ok (), disk.refill location bytes) := by
  obtain ⟨⟨proper, short⟩, walked, file⟩ := locate_eq_ok_iff.mp leads
  obtain ⟨above, last, whole⟩ : ∃ above last, segmentsOf path = above ++ [last] :=
    ⟨_, _, (List.dropLast_concat_getLast (segmentsOf_ne_nil path)).symm⟩
  have parent : (ofText (join root path)).parent = partsOf root ++ above := by
    rw [plain.parent_join root, whole, List.dropLast_concat]
  have parts : (ofText (join root path)).parts = partsOf root ++ above ++ [last] := by
    rw [plain.ofText_join root, whole, List.append_assoc]
  -- The directories above the file are there, so none has to be made.
  have making : disk.makeDirectories (disk.start (ofText (join root path)))
      (ofText (join root path)).parent = (.ok (), disk) := by
    have steps := walked
    rw [steps_join root plain, whole, ← List.append_assoc, walk_append_eq_ok_iff] at steps
    obtain ⟨there, toParent, last⟩ := steps
    have made := makeDirectories_of_walk toParent (node?_of_walk last) []
    rwa [List.append_nil, ← parent] at made
  refine write_eq_ok_iff.mpr ⟨⟨?_, ?_, proper, short, ?_⟩, disk, location, making, walked,
    put_file file bytes⟩
  · rw [parts, areProper, List.all_append, Bool.and_eq_true] at proper
    rw [parent]
    exact proper.1
  · have size := utf8ByteSize_parentText_le (join root path)
    have limit := of_decide_eq_false short
    exact decide_eq_false (by omega)
  · rw [plain.ofText_join root]
    rfl

omit plain in
/-- A path leads to its file as long as directories stay, the file is there, and the working
directory is not moved. -/
theorem locate_of_kept {after : Disk} (working : after.workingDirectory = disk.workingDirectory)
    (stay : ∀ there, disk.node? there = some .directory → after.node? there = some .directory)
    {contents : Bytes} (file : after.node? location = some (.file contents)) :
    after.locate (join root path) = .ok (location, .file contents) := by
  obtain ⟨accepted, walked, -⟩ := locate_eq_ok_iff.mp leads
  exact locate_eq_ok_iff.mpr ⟨accepted, start_eq working _ ▸ walk_mono stay walked, file⟩

variable (alsoPlain : IsPlain other) (apart : other ≠ path)

include alsoPlain apart

/-- Another plain path leads elsewhere. -/
theorem locate_ne_of_ne (node : Node) : disk.locate (join root other) ≠ .ok (location, node) := by
  intro alsoLeads
  obtain ⟨-, walked, -⟩ := (locate_join_eq_ok_iff plain).mp leads
  obtain ⟨-, alsoWalked, -⟩ := (locate_join_eq_ok_iff alsoPlain).mp alsoLeads
  exact reached_ne_of_walk plain alsoPlain apart (fun _ same => same) walked alsoWalked

/-- Writing another plain path leads elsewhere, whatever directories are made for it. -/
theorem walk_ne_of_ne :
    (disk.makeDirectories (disk.start (ofText (join root other)))
      (ofText (join root other)).parent).2.walk (disk.start (ofText (join root other)))
        (ofText (join root other)).steps ≠ .ok location := by
  obtain ⟨-, walked, -⟩ := (locate_join_eq_ok_iff plain).mp leads
  rw [start_join disk root alsoPlain, steps_join root alsoPlain]
  exact reached_ne_of_walk plain alsoPlain apart
    (fun _ directory => node?_makeDirectories_of_some _ _ directory) walked

/-- A path leads to its file also after another plain path has been written, or could not be. -/
theorem locate_of_write_ne (others : Bytes) :
    (disk.write (join root other) others).2.locate (join root path) =
      .ok (location, .file old) := by
  have file := node?_of_locate leads
  refine locate_of_kept leads (workingDirectory_write disk _ _)
    (fun _ directory => directory_write directory _ _) ?_
  have elsewhere := walk_ne_of_ne plain leads alsoPlain apart
  have stays := node?_makeDirectories_of_some (disk.start (ofText (join root other)))
    (ofText (join root other)).parent file
  have kept := workingDirectory_makeDirectories disk (disk.start (ofText (join root other)))
    (ofText (join root other)).parent
  rcases disk.write_cases (join root other) others with same | same | ⟨reached, walked, put⟩
  · rw [same, file]
  · rw [same, stays]
  · have here : location ≠ reached := by
      rintro rfl
      rw [start_eq kept] at walked
      exact elsewhere walked
    obtain ⟨-, below, after⟩ := of_put put
    rw [after, node?_insert _ below, if_neg here, stays]

end

end Disk

namespace Files

variable {path other : String} {bytes : Bytes} {files first second : Files}

/-- Whether files have come from others by giving a file that was there these contents. -/
inductive Refilled (path : String) (bytes : Bytes) : Files → Files → Prop
  | memory {files : MemoryFiles} (stored : path ∈ files.contents) :
      Refilled path bytes (.memory files) (.memory (files.write path bytes))
  | disk {tree : Disk} {root : String} {location : List String} {old : Bytes}
      (leads : tree.locate (join root path) = .ok (location, .file old)) :
      Refilled path bytes (.disk tree root) (.disk (tree.refill location bytes) root)

section

variable (plain : IsPlain path)

include plain

/-- A file that is there is given other contents by writing it, which does not fail. -/
theorem write_of_isFile (isFile : files.isFile path = true) (bytes : Bytes) :
    (files.write path bytes).1 = .ok () ∧ Refilled path bytes files (files.write path bytes).2 := by
  cases files with
  | memory files => exact ⟨rfl, .memory (Std.ExtTreeMap.contains_iff_mem.mp isFile)⟩
  | disk tree root =>
      obtain ⟨old, read⟩ := Disk.isFile_iff.mp isFile
      obtain ⟨location, leads⟩ := Disk.read_eq_ok_iff.mp read
      rw [write, Disk.write_of_locate plain leads]
      exact ⟨rfl, .disk leads⟩

/-- Files with other contents in a file are what writing it leaves. -/
theorem Refilled.write_eq (refilled : Refilled path bytes first second) :
    first.write path bytes = (.ok (), second) := by
  cases refilled with
  | memory stored => rfl
  | disk leads =>
      rw [write, Disk.write_of_locate plain leads]
      rfl

omit plain in
/-- A file is given the contents that it has. -/
theorem Refilled.of_read (read : files.read path = .ok bytes) :
    Refilled path bytes files files := by
  cases files with
  | memory files =>
      have found := read_memory_eq_ok_iff.mp read
      have refilled := @Refilled.memory path bytes files
        (Std.ExtTreeMap.mem_iff_isSome_getElem?.mpr (by rw [found]; rfl))
      rwa [MemoryFiles.write, insert_of_getElem? found] at refilled
  | disk tree root =>
      obtain ⟨location, leads⟩ := Disk.read_eq_ok_iff.mp (read_disk_eq_ok_iff.mp read)
      have refilled := @Refilled.disk path bytes tree root location bytes leads
      rwa [Disk.refill_self (Disk.node?_of_locate leads)] at refilled

omit plain in
/-- Directories are listed alike, whatever is in a file. -/
theorem shown_list (directory : String) :
    Shown (Refilled path bytes) (Files.list directory) anything := by
  intro first second refilled
  refine ⟨?_, trivial⟩
  cases refilled with
  | @memory files stored =>
      refine congrArg Except.ok (MemoryFiles.list_eq_of_mem_iff fun other _ => ?_)
      rw [MemoryFiles.write, Std.ExtTreeMap.mem_insert]
      refine ⟨.inr, fun stored => stored.elim (fun same => ?_) id⟩
      exact Std.LawfulEqOrd.eq_of_compare same ▸ ‹path ∈ files.contents›
  | disk leads =>
      rw [Files.list, Files.list, Disk.list_refill (Disk.node?_of_locate leads)]

variable (alsoPlain : IsPlain other) (apart : other ≠ path)

include alsoPlain apart

/-- Other files are read alike. -/
theorem shown_read : Shown (Refilled path bytes) (Files.read other) anything := by
  intro first second refilled
  refine ⟨?_, trivial⟩
  cases refilled with
  | memory stored =>
      rw [Files.read, Files.read, MemoryFiles.read, MemoryFiles.read, MemoryFiles.write,
        Std.ExtTreeMap.getElem?_insert, if_neg (by simpa using apart.symm)]
  | disk leads =>
      rw [Files.read, Files.read, Disk.read_refill (Disk.node?_of_locate leads)]
      exact Disk.locate_ne_of_ne plain leads alsoPlain apart

/-- Other files are written alike. -/
theorem changed_write (others : Bytes) :
    Changed (Refilled path bytes) (Files.write other others) := by
  intro first second refilled
  cases refilled with
  | @memory files stored =>
      have exchanged : (files.write path bytes).write other others =
          (files.write other others).write path bytes :=
        congrArg MemoryFiles.mk (insert_comm files.contents apart.symm bytes others)
      have still : path ∈ (files.write other others).contents :=
        Std.ExtTreeMap.mem_insert.mpr (.inr stored)
      rw [Files.write, Files.write, exchanged]
      exact ⟨rfl, .memory still⟩
  | @disk tree root location old leads =>
      have exchanged := Disk.write_refill (Disk.node?_of_locate leads) bytes
        (Disk.walk_ne_of_ne plain leads alsoPlain apart) others
      have still := Disk.locate_of_write_ne plain leads alsoPlain apart others
      rw [Files.write, Files.write, exchanged]
      exact ⟨rfl, .disk still⟩

end

end Files

end TableStore
