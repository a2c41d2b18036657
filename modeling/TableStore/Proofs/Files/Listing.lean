/-
# Tables that are listed

The root lists the names that paths start with. In memory, these are the tables for which a file is
stored. A disk lists the directories of the tables, which are made with the first file and stay,
whatever becomes of their files, until the table is removed.
-/

import TableStore.Proofs.Files.Apart

namespace TableStore

open HostPath

namespace Disk

variable {disk after : Disk} {root text : String} {location : List String}

/-- A root whose path is not too long is listed by what is in its directory. -/
theorem Rooted.list_root (rooted : disk.Rooted root) (short : root.utf8ByteSize ≤ sizeLimit) :
    disk.list root =
      if disk.node? (disk.base root) = none then .error .missing
      else .ok (disk.children (disk.base root)) := by
  have fits : isTooLong root = false := decide_eq_false (Nat.not_lt.mpr short)
  have steps : (ofText root).steps = partsOf root ++ [] ∨
      (ofText root).steps = partsOf root ++ ["."] := by
    rw [HostPath.steps]
    split
    · exact .inr rfl
    · exact .inl (List.append_nil _).symm
  rw [list, locate_root_eq disk rooted.proper, fits, if_neg Bool.false_ne_true]
  rcases rooted.node?_root with there | missing
  · have reached : disk.walk (disk.origin root) (ofText root).steps = .ok (disk.base root) := by
      rcases steps with plain | dotted
      · rw [plain, rooted.walk_of_root there]
        rfl
      · rw [dotted, rooted.walk_of_root there, walk_of_directory there]
        rfl
    rw [reached, if_neg (by simp [there])]
    simp only [Except.bind, there]
    rfl
  · rw [if_pos missing]
    rcases steps with plain | dotted
    · rw [plain, List.append_nil]
      rcases rooted.walk_root with walked | ⟨walked, -⟩
      · rw [walked]
        simp only [Except.bind, missing]
        rfl
      · rw [walked]
        rfl
    · rw [dotted, rooted.walk_of_missing missing (List.cons_ne_nil _ _)]
      rfl

/-- Below the root, the names are those of tables, and each of them is that of a directory. -/
theorem Holds.entry_root {content : Content} (holds : disk.Holds root content) {name : String}
    {node : Node} (there : disk.node? (disk.base root ++ [name]) = some node) :
    FileName.isSegment name = true ∧ node = .directory := by
  generalize same : [name] = names at there
  cases holds.layout names node (by simp [← same]) there with
  | table isTable =>
      cases same
      exact ⟨isTable, rfl⟩
  | area isTable area => cases same
  | file place bytes => cases same

/-- A directory stays when a file is removed. -/
theorem directory_delete (there : disk.node? location = some .directory)
    (deleted : disk.delete text = .ok after) : after.node? location = some .directory := by
  rw [Disk.delete] at deleted
  cases located : disk.locate text with
  | error failure =>
      rw [located] at deleted
      cases deleted
  | ok found =>
      obtain ⟨reached, node⟩ := found
      rw [located] at deleted
      cases node with
      | directory => cases deleted
      | file bytes =>
          cases deleted
          have file := node?_of_locate located
          have below : reached ≠ [] := by
            rintro rfl
            cases file
          rw [node?_erase disk below, if_neg, there]
          rintro rfl
          cases file.symm.trans there

end Disk

/-- The first segment of a place is its table. -/
theorem MemoryFiles.segmentAfter_root (place : Place) :
    segmentAfter "" place.path = place.table := by
  have text : place.path.toList = stem "" ++ place.table.toList ++
      '/' :: (place.area.name.toList ++ '/' :: place.name.toList) := by
    rw [stem, if_pos rfl, List.nil_append, Place.toList_path]
  exact (isFirstSegment_iff.mp
    ⟨FileName.slash_notMem_of_isSegment place.isTable, .inr ⟨_, text⟩⟩).2

namespace Files

variable {files : Files} {table name : String}

/-- What is in the root of a disk under a name. -/
def inRoot? (name : String) : Files → Option Node
  | .memory _ => none
  | .disk tree root => tree.node? (tree.base root ++ [name])

/-- Changes below a table leave what is in the root under other names. -/
theorem Beside.inRoot? {first second : Files} (beside : Beside table first second)
    (apart : name ≠ table) : second.inRoot? name = first.inRoot? name := by
  cases beside with
  | memory same => rfl
  | @disk first second root rooted beside =>
      rw [Files.inRoot?, Files.inRoot?, Disk.base_eq beside.working]
      refine (beside.nodes _ fun below => ?_).resolve_right fun above =>
        concat_not_isPrefix _ _ above.1
      have same := List.IsPrefix.eq_of_length below (by simp)
      exact apart (List.cons.inj (List.append_cancel_left same)).1.symm
  | shut shut => rfl

/-- A directory in the root stays when a file of a table is written. -/
theorem inRoot?_write (anchored : files.Anchored) (there : files.inRoot? name = some .directory)
    (place : Place) (bytes : Bytes) :
    (files.write place.path bytes).2.inRoot? name = some .directory := by
  obtain ⟨-, -, beside⟩ := confined_write place bytes (.refl anchored)
  cases files with
  | memory files => cases there
  | disk tree root =>
      rw [inRoot?] at there
      have stays := Disk.directory_write there (join root place.path) bytes
      rw [write_disk] at beside ⊢
      generalize tree.write (join root place.path) bytes = written at stays beside ⊢
      cases beside with
      | disk _ beside =>
          rw [inRoot?, Disk.base_eq beside.working]
          exact stays
      | shut _ => exact stays

/-- A directory in the root stays when a file of a table is removed. -/
theorem inRoot?_delete (anchored : files.Anchored) (there : files.inRoot? name = some .directory)
    (place : Place) : (files.delete place.path).2.inRoot? name = some .directory := by
  obtain ⟨-, -, beside⟩ := confined_delete place (.refl anchored)
  cases files with
  | memory files => cases there
  | disk tree root =>
      rw [Files.delete] at beside ⊢
      cases deleted : tree.delete (join root place.path) with
      | error failure => exact there
      | ok rest =>
          rw [deleted] at beside
          cases beside with
          | disk _ beside =>
              rw [inRoot?, Disk.base_eq beside.working]
              exact Disk.directory_delete there deleted
          | shut _ => exact Disk.directory_delete there deleted

/-- The directory of a table that the root bypasses is not there once it was removed. -/
theorem inRoot?_deleteAll (anchored : files.Anchored) (bypasses : files.Bypasses table)
    (isTable : FileName.isSegment table = true)
    (removed : (files.deleteAll table).1 = .ok ()) :
    (files.deleteAll table).2.inRoot? table = none := by
  cases files with
  | memory files => rfl
  | disk tree root =>
      rcases anchored.rooted_or_shut with rooted | shut
      · obtain ⟨-, -, beside⟩ := (Disk.AlikeBelow.refl rooted).deleteAll isTable bypasses
        rw [deleteAll_disk] at removed ⊢
        rw [inRoot?, Disk.base_eq beside.working]
        exact rooted.bare_of_deleteAll isTable bypasses (of_gone removed) List.prefix_rfl
      · exact absurd removed (deleteAll_of_shut shut isTable).2

end Files

/-- Whether a medium has a root to be listed: the path of a disk is to be one, and not too long. -/
def Medium.HasRoot : Medium → Prop
  | .memory => True
  | .disk root => root ≠ "" ∧ root.utf8ByteSize ≤ sizeLimit

/-- Whether something is kept of a table: a file in memory, or the directory on a disk. -/
def Files.Keeps (name : String) : Files → Prop
  | .memory files => ∃ place : Place, place.table = name ∧ place.path ∈ files.contents
  | .disk tree root => (Files.disk tree root).inRoot? name = some .directory

namespace Medium.Holds

variable {medium : Medium} {content : Content} {files : Files}

/-- The root lists, ascending, the tables of which something is kept. -/
theorem list_root (holds : medium.Holds content files) (hasRoot : medium.HasRoot) :
    ∃ names, files.list "" = .ok names ∧ names.Pairwise (· < ·) ∧
      ∀ name, name ∈ names ↔ FileName.isSegment name = true ∧ files.Keeps name := by
  cases holds with
  | @memory _ files holds =>
      refine ⟨_, rfl, MemoryFiles.pairwise_list _ _, fun name => ?_⟩
      rw [MemoryFiles.mem_list]
      constructor
      · rintro ⟨-, path, stored, -, segment⟩
        obtain ⟨place, rfl⟩ := holds.exists_place path stored
        rw [MemoryFiles.segmentAfter_root] at segment
        exact ⟨segment ▸ place.isTable, place, segment, stored⟩
      · rintro ⟨isTable, place, rfl, stored⟩
        exact ⟨FileName.ne_empty_of_isSegment isTable, place.path, stored, rfl,
          MemoryFiles.segmentAfter_root place⟩
  | @disk _ tree root holds =>
      refine ⟨tree.children (tree.base root), ?_, Disk.pairwise_children _ _, fun name => ?_⟩
      · have named : join root "" = root := if_pos rfl
        rw [Files.list, named, holds.list_root hasRoot.2]
        by_cases missing : tree.node? (tree.base root) = none
        · have nothing : tree.children (tree.base root) = [] := by
            rw [List.eq_nil_iff_forall_not_mem]
            intro name member
            rw [Disk.mem_children, holds.node?_of_missing missing List.prefix_rfl] at member
            cases member
          rw [if_pos missing, nothing]
        · rw [if_neg missing]
          rfl
      · rw [Disk.mem_children, Files.Keeps, Files.inRoot?]
        constructor
        · intro there
          obtain ⟨node, found⟩ := Option.isSome_iff_exists.mp there
          obtain ⟨isTable, rfl⟩ := holds.entry_root found
          exact ⟨isTable, found⟩
        · rintro ⟨-, there⟩
          rw [there]
          rfl

/-- A table of which a file is held is kept. -/
theorem keeps (holds : medium.Holds content files) {place : Place}
    (stored : (content place).isSome = true) : files.Keeps place.table := by
  cases holds with
  | memory holds => exact ⟨place, rfl, (holds.mem_iff place).mpr stored⟩
  | @disk _ tree root holds =>
      rw [Files.Keeps, Files.inRoot?]
      cases found : tree.node? (tree.base root ++ [place.table]) with
      | none =>
          rw [holds.eq_none_of_missing found] at stored
          cases stored
      | some node => rw [(holds.entry_root found).2]

/-- What is kept of a table on a disk is its directory. -/
theorem keeps_disk_iff {root name : String} (holds : (Medium.disk root).Holds content files) :
    files.Keeps name ↔ files.inRoot? name = some .directory := by
  cases holds
  exact Iff.rfl

/-- What is kept of a table in memory is a file. -/
theorem keeps_memory_iff {name : String} (holds : Medium.memory.Holds content files) :
    files.Keeps name ↔ ∃ place : Place, place.table = name ∧ (content place).isSome = true := by
  cases holds with
  | memory holds =>
      exact exists_congr fun place => and_congr_right fun _ => holds.mem_iff place

/-- What is in the root of a disk is a directory. -/
theorem inRoot?_eq_none {root name : String} (holds : (Medium.disk root).Holds content files)
    (absent : files.inRoot? name ≠ some .directory) : files.inRoot? name = none := by
  cases holds with
  | disk holds =>
      rw [Option.eq_none_iff_forall_ne_some]
      intro node there
      have directory := (holds.entry_root there).2
      exact absent (there.trans (congrArg some directory))

/-- Removing a table leaves what is kept of the others. -/
theorem keeps_deleteAll (holds : medium.Holds content files) {table : String}
    (isTable : FileName.isSegment table = true) (admits : medium.Admits table) (name : String) :
    (files.deleteAll table).2.Keeps name ↔ files.Keeps name ∧ name ≠ table := by
  obtain ⟨after, deleted, held⟩ := holds.deleteAll isTable admits
  have removed : (files.deleteAll table).1 = .ok () := by rw [deleted]
  cases holds with
  | @memory _ files holds =>
      cases deleted
      cases held with
      | memory held =>
          constructor
          · rintro ⟨place, rfl, stored⟩
            have found := (held.mem_iff place).mp stored
            split at found
            · cases found
            · next apart => exact ⟨⟨place, rfl, (holds.mem_iff place).mpr found⟩, apart⟩
          · rintro ⟨⟨place, rfl, stored⟩, apart⟩
            refine ⟨place, rfl, (held.mem_iff place).mpr ?_⟩
            rw [if_neg apart]
            exact (holds.mem_iff place).mp stored
  | @disk _ tree root holds =>
      have anchored : (Files.disk tree root).Anchored := .of_rooted holds.toRooted
      have bypasses : (Files.disk tree root).Bypasses table := holds.bypasses table isTable
      obtain ⟨-, -, beside⟩ := Files.confined_deleteAll isTable bypasses (.refl anchored)
      have gone := Files.inRoot?_deleteAll anchored bypasses isTable removed
      rw [deleted] at beside gone ⊢
      cases held with
      | disk held =>
          rw [Files.Keeps, Files.Keeps]
          by_cases same : name = table
          · rw [same, gone]
            simp
          · rw [beside.inRoot? same, and_iff_left same]

end Medium.Holds

end TableStore
