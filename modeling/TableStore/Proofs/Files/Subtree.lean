/-
# Tables side by side on a disk

Two disks that look the same below the directory of a table answer every access to this table
alike. No access changes anything elsewhere, but that the directories of the root are made.
-/

import TableStore.Proofs.Files.Region
import TableStore.Proofs.Files.Root

namespace TableStore.Disk

open HostPath

variable {root table : String} {disk first second third : Disk} {names : List String}

/-- Directories in which the same names are, are listed alike. -/
theorem children_congr {location other : List String}
    (same : ∀ name, first.node? (location ++ [name]) = second.node? (other ++ [name])) :
    first.children location = second.children other := by
  refine eq_of_ascending (pairwise_children first location) (pairwise_children second other)
    fun name => ?_
  rw [mem_children, mem_children, same]

/-- Whether two disks look the same below the directory of a table. A root that is not there hides
that a name is too long. -/
structure AlikeBelow (root table : String) (first second : Disk) : Prop where
  working : second.workingDirectory = first.workingDirectory
  rooted : first.Rooted root
  alsoRooted : second.Rooted root
  nodes : ∀ location, first.base root ++ [table] <+: location →
    first.node? location = second.node? location
  reach : second.node? (first.base root) = first.node? (first.base root) ∨
    table.utf8ByteSize ≤ nameLimit

/-- Whether nothing is found of a table: if the root is not there, or if the name is short enough
to be looked up and nothing is there. -/
def Bare (root table : String) (disk : Disk) : Prop :=
  disk.node? (disk.base root) = none ∨
    table.utf8ByteSize ≤ nameLimit ∧
      ∀ location, disk.base root ++ [table] <+: location → disk.node? location = none

/-- Whether one disk has come from another by changes below the directory of a table, and by making
the directories of the root. -/
structure Beside (root table : String) (first second : Disk) : Prop where
  working : second.workingDirectory = first.workingDirectory
  rooted : second.Rooted root
  nodes : ∀ location, ¬first.base root ++ [table] <+: location →
    second.node? location = first.node? location ∨
      location <+: first.base root ∧ second.node? location = some .directory
  file : ∀ bytes, second.node? (first.base root ++ [table]) = some (.file bytes) ↔
    first.node? (first.base root ++ [table]) = some (.file bytes)

/-- A store is still rooted after directories have been made below the root. -/
theorem Rooted.makeDirectories (rooted : disk.Rooted root)
    (there : disk.node? (disk.base root) = some .directory) (names : List String) :
    (disk.makeDirectories (disk.base root) names).2.Rooted root :=
  rooted.of_directories (workingDirectory_makeDirectories _ _ _)
    (rooted.isTree.makeDirectories there names)
    (fun location _ => (node?_makeDirectories _ _ _ location).imp_right And.right)
    fun _ here => node?_makeDirectories_of_some _ _ here

/-- Whether one disk has come from another by changes in the directory of a table. Directories may
have gone if the root bypasses the table. -/
structure Within (root table : String) (first second : Disk) : Prop where
  working : second.workingDirectory = first.workingDirectory
  isTree : second.IsTree
  nodes : ∀ location, ¬first.base root ++ [table] <+: location →
    second.node? location = first.node? location
  directories : first.Bypasses root table ∨ ∀ location,
    first.node? location = some .directory → second.node? location = some .directory

namespace Within

/-- A store is still rooted after changes in the directory of a table. -/
theorem rooted (changed : Within root table first second) (rooted : first.Rooted root) :
    second.Rooted root := by
  rcases changed.directories with bypasses | directories
  · exact rooted.of_bypasses bypasses changed.working changed.isTree changed.nodes
  · refine rooted.of_directories changed.working changed.isTree (fun location above => ?_)
      directories
    exact .inl (changed.nodes location fun inside => concat_not_isPrefix _ _ (inside.trans above))

/-- Changes in the directory of a table change nothing elsewhere, and no file in its place. -/
theorem beside (changed : Within root table first second) (rooted : first.Rooted root)
    (file : ∀ bytes, second.node? (first.base root ++ [table]) = some (.file bytes) ↔
      first.node? (first.base root ++ [table]) = some (.file bytes)) :
    Beside root table first second where
  working := changed.working
  rooted := changed.rooted rooted
  nodes location outside := .inl (changed.nodes location outside)
  file := file

/-- A file in the directory of a table may be removed. -/
theorem erase (rooted : disk.Rooted root) {location : List String}
    (inside : disk.base root ++ [table] <+: location) (below : location ≠ []) {bytes : Bytes}
    (file : disk.node? location = some (.file bytes)) :
    Within root table disk { disk with nodes := disk.nodes.erase location } where
  working := rfl
  isTree := rooted.isTree.erase below file
  nodes other outside := by
    have apart : other ≠ location := fun same => outside (same ▸ inside)
    rw [node?_erase disk below, if_neg apart]
  directories := .inr fun other there => by
    have apart : other ≠ location := by
      rintro rfl
      cases there.symm.trans file
    rw [node?_erase disk below, if_neg apart, there]

/-- A file may be put into a directory of a table. -/
theorem insert (rooted : disk.Rooted root) {area name : String}
    (segments : ∀ part ∈ [table, area, name], FileName.isSegment part = true)
    {reached : List String}
    (walked : disk.walk (disk.base root) [table, area, name] = .ok reached)
    (free : disk.node? reached ≠ some .directory) (bytes : Bytes) :
    Within root table disk { disk with nodes := disk.nodes.insert reached (.file bytes) } := by
  have here := prefix_of_walk segments walked
  have below : reached ≠ [] := by simp [here]
  have inside : disk.base root ++ [table] <+: reached := by
    rw [here, List.prefix_append_right_inj]
    exact ⟨[area, name], rfl⟩
  have parent : disk.node? reached.dropLast = some .directory := by
    have initial : ∀ part ∈ [table, area], FileName.isSegment part = true := fun part member =>
      segments part ((List.dropLast_sublist [table, area, name]).mem member)
    rw [show [table, area, name] = [table, area] ++ [name] from rfl,
      walk_append_eq_ok_iff] at walked
    obtain ⟨directory, upTo, last⟩ := walked
    rw [here, List.dropLast_append_of_ne_nil (List.cons_ne_nil _ _)]
    exact prefix_of_walk initial upTo ▸ node?_of_walk last
  refine ⟨rfl, rooted.isTree.insert below parent free _, fun location outside => ?_,
    .inr fun location there => ?_⟩
  · have apart : location ≠ reached := fun same => outside (same ▸ inside)
    rw [node?_insert disk below, if_neg apart]
  · have apart : location ≠ reached := fun same => free (same ▸ there)
    rw [node?_insert disk below, if_neg apart, there]

/-- The directory of a table that the root bypasses may be removed. -/
theorem without (rooted : disk.Rooted root) (bypasses : disk.Bypasses root table) :
    Within root table disk (disk.without (disk.base root ++ [table])) where
  working := rfl
  isTree := by
    apply rooted.isTree.remove (disk.node?_without (by simp))
    exact fun other _ above _ => above.trans (List.dropLast_prefix other)
  nodes other outside := by rw [node?_without disk (by simp), if_neg outside]
  directories := .inl bypasses

end Within

/-- Nothing is there of a table whose directory is missing. -/
theorem Rooted.bare_of_missing (rooted : disk.Rooted root)
    (isTable : FileName.isSegment table = true)
    (located : disk.locate (join root table) = .error .missing) {location : List String}
    (below : disk.base root ++ [table] <+: location) : disk.node? location = none := by
  have segments : ∀ name ∈ [table], FileName.isSegment name = true :=
    List.forall_mem_singleton.mpr isTable
  have path : "/".intercalate [table] = table := String.intercalate_singleton
  rcases rooted.node?_root with there | missing
  · rw [← path, locate_eq disk rooted.proper (List.cons_ne_nil _ _) segments,
      rooted.walk_of_root there, walk_of_directory there, next_segment isTable] at located
    have nothing : disk.node? (disk.base root ++ [table]) = none := by
      cases found : disk.node? (disk.base root ++ [table]) with
      | none => rfl
      | some node =>
          split at located
          · cases located
          · split at located
            · cases located
            · simp only [Except.bind, walk, found] at located
              cases located
    by_cases same : disk.base root ++ [table] = location
    · rw [← same, nothing]
    · exact rooted.isTree.node?_eq_none below same (by rw [nothing]; simp)
  · exact rooted.node?_of_missing missing below

/-- A removed table that the root bypasses has nothing left. -/
theorem Rooted.bare_of_deleteAll (rooted : disk.Rooted root)
    (isTable : FileName.isSegment table = true) (bypasses : disk.Bypasses root table)
    (removed : (disk.deleteAll (join root table)).1 = .ok () ∨
      (disk.deleteAll (join root table)).1 = .error .missing) {location : List String}
    (below : disk.base root ++ [table] <+: location) :
    (disk.deleteAll (join root table)).2.node? location = none := by
  have path : "/".intercalate [table] = table := String.intercalate_singleton
  cases located : disk.locate (join root table) with
  | error failure =>
      rw [Disk.deleteAll, located] at removed ⊢
      rcases removed with done | missing
      · cases done
      · cases missing
        exact rooted.bare_of_missing isTable located below
  | ok found =>
      obtain ⟨reached, node⟩ := found
      cases node with
      | file bytes =>
          rw [Disk.deleteAll, located] at removed
          rcases removed with done | missing
          · cases done
          · cases missing
      | directory =>
          have here := located
          rw [← path] at here
          obtain ⟨rfl, -⟩ := of_locate_join (by simp)
            (List.forall_mem_singleton.mpr isTable) here
          rw [rooted.deleteAll_eq isTable bypasses located, node?_without disk (by simp),
            if_pos below]

namespace Beside

/-- Where nothing has changed, nothing has come from elsewhere. -/
theorem refl (rooted : disk.Rooted root) : Beside root table disk disk where
  working := rfl
  rooted := rooted
  nodes _ _ := .inl rfl
  file _ := Iff.rfl

/-- Changes in the directory of a table, one after another. -/
theorem trans (beside : Beside root table first second) (further : Beside root table second third) :
    Beside root table first third where
  working := further.working.trans beside.working
  rooted := further.rooted
  nodes location outside := by
    have later := further.nodes location
    rw [base_eq beside.working] at later
    rcases later outside with same | made
    · rw [same]
      exact beside.nodes location outside
    · exact .inr made
  file bytes := by
    have later := further.file bytes
    rw [base_eq beside.working] at later
    exact later.trans (beside.file bytes)

/-- A root that is there stays there. -/
theorem root_of_root (beside : Beside root table first second)
    (there : first.node? (first.base root) = some .directory) :
    second.node? (first.base root) = some .directory := by
  rcases beside.nodes (first.base root) (concat_not_isPrefix _ _) with same | ⟨-, made⟩
  · rw [same, there]
  · exact made

end Beside

/-- The directories of a root can be made, and nothing else has changed then. -/
theorem Rooted.makeRoot (rooted : disk.Rooted root) (table : String) :
    ∃ made, disk.makeDirectories (disk.origin root) (partsOf root) = (.ok (), made) ∧
      Beside root table disk made ∧ made.node? (made.base root) = some .directory ∧
      ∀ location, ¬location <+: disk.base root → made.node? location = disk.node? location := by
  obtain ⟨made, making, alsoRooted, working, nodes⟩ := rooted.exists_made
  have outside : ∀ location, ¬location <+: disk.base root →
      made.node? location = disk.node? location := fun location out =>
    (nodes location).trans (if_neg out)
  refine ⟨made, making, ⟨working, alsoRooted, fun location _ => ?_, fun bytes => ?_⟩, ?_, outside⟩
  · rw [nodes]
    split
    · next above => exact .inr ⟨above, rfl⟩
    · exact .inl rfl
  · rw [outside _ (concat_not_isPrefix _ _)]
  · rw [base_eq working, nodes, if_pos List.prefix_rfl]

namespace AlikeBelow

/-- A disk looks like itself. -/
theorem refl (rooted : disk.Rooted root) : AlikeBelow root table disk disk where
  working := rfl
  rooted := rooted
  alsoRooted := rooted
  nodes _ _ := rfl
  reach := .inl rfl

/-- Disks look the same both ways. -/
theorem symm (alike : AlikeBelow root table first second) : AlikeBelow root table second first where
  working := alike.working.symm
  rooted := alike.alsoRooted
  alsoRooted := alike.rooted
  nodes location below := by
    rw [base_eq alike.working] at below
    exact (alike.nodes location below).symm
  reach := by
    rw [base_eq alike.working]
    exact alike.reach.imp_left Eq.symm

/-- Disks that look like the same one look the same. -/
theorem trans (alike : AlikeBelow root table first second)
    (further : AlikeBelow root table second third) : AlikeBelow root table first third where
  working := further.working.trans alike.working
  rooted := alike.rooted
  alsoRooted := further.alsoRooted
  nodes location below := by
    rw [alike.nodes location below]
    exact further.nodes location (by rwa [base_eq alike.working])
  reach := by
    have reach := further.reach
    rw [base_eq alike.working] at reach
    rcases alike.reach with same | short
    · exact reach.imp_left fun alsoSame => alsoSame.trans same
    · exact .inr short

/-- Unless both roots are there, the table is found on neither of the disks. -/
theorem roots_or_bare (alike : AlikeBelow root table first second) :
    first.node? (first.base root) = some .directory ∧
        second.node? (second.base root) = some .directory ∨
      first.Bare root table ∧ second.Bare root table := by
  have sameBase := base_eq alike.working root
  rcases alike.rooted.node?_root with here | missing
  · rcases alike.alsoRooted.node?_root with alsoHere | alsoMissing
    · exact .inl ⟨here, alsoHere⟩
    · refine .inr ⟨.inr ?_, .inl alsoMissing⟩
      rcases alike.reach with same | short
      · rw [← sameBase, alsoMissing, sameBase, here] at same
        cases same
      · refine ⟨short, fun location below => (alike.nodes location below).trans ?_⟩
        exact alike.alsoRooted.node?_of_missing alsoMissing (sameBase ▸ below)
  · refine .inr ⟨.inl missing, ?_⟩
    rcases alike.reach with same | short
    · exact .inl (by rw [sameBase, same, missing])
    · refine .inr ⟨short, fun location below => ?_⟩
      rw [sameBase] at below
      exact (alike.nodes location below).symm.trans (alike.rooted.node?_of_missing missing below)

end AlikeBelow

/-- Below a root that is there, a table whose name is too long for a file is not even looked up. -/
theorem Rooted.locate_of_long (rooted : disk.Rooted root)
    (there : disk.node? (disk.base root) = some .directory)
    (long : nameLimit < table.utf8ByteSize)
    (segments : ∀ name ∈ table :: names, FileName.isSegment name = true) :
    disk.locate (join root ("/".intercalate (table :: names))) = .error .nameTooLong := by
  rw [locate_eq disk rooted.proper (List.cons_ne_nil _ _) segments, rooted.walk_of_root there,
    walk_of_directory there, next_segment (segments table List.mem_cons_self), if_pos long]
  split <;> rfl

/-- Nothing is found in the directory of a table that has none. -/
theorem Rooted.locate_of_bare (rooted : disk.Rooted root) (bare : disk.Bare root table)
    (segments : ∀ name ∈ table :: names, FileName.isSegment name = true) :
    disk.locate (join root ("/".intercalate (table :: names))) =
      if isTooLong (join root ("/".intercalate (table :: names))) then .error .nameTooLong
      else .error .missing := by
  rw [locate_eq disk rooted.proper (List.cons_ne_nil _ _) segments]
  congr 1
  rcases rooted.node?_root with there | missing
  · obtain ⟨short, nothing⟩ := bare.resolve_left (by rw [there]; simp)
    rw [rooted.walk_of_root there, walk_of_directory there,
      next_segment (segments table List.mem_cons_self), if_neg (Nat.not_lt.mpr short)]
    cases names with
    | nil => simp only [Except.bind, walk, nothing _ List.prefix_rfl]
    | cons name rest => simp only [Except.bind, walk, nothing _ List.prefix_rfl]
  · rw [rooted.walk_of_missing missing (List.cons_ne_nil _ _)]
    rfl

namespace AlikeBelow

/-- Walks into the directory of the table end alike below roots that are there. -/
theorem walk_of_roots (alike : AlikeBelow root table first second)
    (there : first.node? (first.base root) = some .directory)
    (alsoThere : second.node? (second.base root) = some .directory)
    (segments : ∀ name ∈ table :: names, FileName.isSegment name = true) :
    first.walk (first.base root) (table :: names) =
      second.walk (second.base root) (table :: names) := by
  have others := fun name member => segments name (List.mem_cons_of_mem table member)
  have isTable := segments table List.mem_cons_self
  rw [walk_of_directory there, walk_of_directory alsoThere, next_segment isTable,
    next_segment isTable, base_eq alike.working]
  split
  · rfl
  · exact walk_congr (fun upTo _ => alike.nodes _ (List.prefix_append _ upTo)) others

/-- What a path below the directory of a table names is found alike. -/
theorem locate (alike : AlikeBelow root table first second)
    (segments : ∀ name ∈ table :: names, FileName.isSegment name = true) :
    first.locate (join root ("/".intercalate (table :: names))) =
      second.locate (join root ("/".intercalate (table :: names))) := by
  rcases alike.roots_or_bare with ⟨there, alsoThere⟩ | ⟨bare, alsoBare⟩
  · have nonempty := List.cons_ne_nil table names
    rw [locate_eq first alike.rooted.proper nonempty segments,
      locate_eq second alike.alsoRooted.proper nonempty segments,
      alike.rooted.walk_of_root there, alike.alsoRooted.walk_of_root alsoThere,
      alike.walk_of_roots there alsoThere segments]
    congr 1
    cases walked : second.walk (second.base root) (table :: names) with
    | error failure => rfl
    | ok reached =>
        simp only [Except.bind]
        rw [alike.nodes reached]
        rw [prefix_of_walk segments walked, base_eq alike.working, List.prefix_append_right_inj]
        exact ⟨names, rfl⟩
  · rw [alike.rooted.locate_of_bare bare segments,
      alike.alsoRooted.locate_of_bare alsoBare segments]

variable (alike : AlikeBelow root table first second)

include alike

section

variable (segments : ∀ name ∈ table :: names, FileName.isSegment name = true)

include segments

/-- A file of the table is read alike. -/
theorem read : first.read (join root ("/".intercalate (table :: names))) =
    second.read (join root ("/".intercalate (table :: names))) := by
  rw [Disk.read, Disk.read, alike.locate segments]

/-- A file of the table is found alike. -/
theorem isFile : first.isFile (join root ("/".intercalate (table :: names))) =
    second.isFile (join root ("/".intercalate (table :: names))) := by
  rw [Disk.isFile, Disk.isFile, alike.locate segments]

/-- A directory of the table is listed alike. -/
theorem list : first.list (join root ("/".intercalate (table :: names))) =
    second.list (join root ("/".intercalate (table :: names))) := by
  rw [Disk.list, Disk.list, alike.locate segments]
  cases located : second.locate (join root ("/".intercalate (table :: names))) with
  | error failure => rfl
  | ok found =>
      obtain ⟨location, node⟩ := found
      cases node with
      | file bytes => rfl
      | directory =>
          obtain ⟨rfl, -⟩ := of_locate_join (List.cons_ne_nil _ _) segments located
          refine congrArg Except.ok (children_congr fun name => alike.nodes _ ?_)
          rw [base_eq alike.working, List.append_assoc, List.prefix_append_right_inj]
          exact ⟨names ++ [name], rfl⟩

end

/-- Disks still look the same after both have changed alike in the directory of the table. -/
theorem within {after other : Disk} (changed : Within root table first after)
    (alsoChanged : Within root table second other)
    (nodes : ∀ location, first.base root ++ [table] <+: location →
      after.node? location = other.node? location) :
    AlikeBelow root table after other := by
  have sameBase := base_eq alike.working root
  have outside := concat_not_isPrefix (first.base root) table
  have kept := changed.nodes _ outside
  have alsoKept := alsoChanged.nodes (first.base root) (sameBase ▸ outside)
  constructor
  · rw [alsoChanged.working, changed.working, alike.working]
  · exact changed.rooted alike.rooted
  · exact alsoChanged.rooted alike.alsoRooted
  · rw [base_eq changed.working]
    exact nodes
  · rw [base_eq changed.working, kept, alsoKept]
    exact alike.reach

/-- A file in the directory of the table is removed alike. -/
theorem delete {part : String}
    (segments : ∀ name ∈ table :: part :: names, FileName.isSegment name = true) :
    (∃ failure,
      first.delete (join root ("/".intercalate (table :: part :: names))) = .error failure ∧
      second.delete (join root ("/".intercalate (table :: part :: names))) = .error failure) ∨
    ∃ after other,
      first.delete (join root ("/".intercalate (table :: part :: names))) = .ok after ∧
      second.delete (join root ("/".intercalate (table :: part :: names))) = .ok other ∧
      AlikeBelow root table after other ∧ Beside root table first after := by
  have same := alike.locate segments
  rw [Disk.delete, Disk.delete, same]
  cases located : second.locate (join root ("/".intercalate (table :: part :: names))) with
  | error failure => exact .inl ⟨failure, rfl, rfl⟩
  | ok found =>
      obtain ⟨location, node⟩ := found
      cases node with
      | directory => exact .inl ⟨.isDirectory, rfl, rfl⟩
      | file bytes =>
          rw [located] at same
          obtain ⟨here, there⟩ := of_locate_join (List.cons_ne_nil _ _) segments same
          obtain ⟨-, alsoThere⟩ := of_locate_join (List.cons_ne_nil _ _) segments located
          have below : location ≠ [] := by simp [here]
          have inside : first.base root ++ [table] <+: location := by
            rw [here, List.prefix_append_right_inj]
            exact ⟨part :: names, rfl⟩
          have changed := Within.erase alike.rooted inside below there
          have alsoChanged := Within.erase alike.alsoRooted
            ((base_eq alike.working root).symm ▸ inside) below alsoThere
          refine .inr ⟨_, _, rfl, rfl, alike.within changed alsoChanged ?_,
            changed.beside alike.rooted ?_⟩
          · intro other within
            rw [node?_erase first below, node?_erase second below, alike.nodes other within]
          · have apart : first.base root ++ [table] ≠ location := by simp [here]
            intro bytes
            rw [node?_erase first below, if_neg apart]

/-- The directory of the table is removed alike if the root bypasses it. -/
theorem deleteAll (isTable : FileName.isSegment table = true)
    (bypasses : first.Bypasses root table) :
    (first.deleteAll (join root table)).1 = (second.deleteAll (join root table)).1 ∧
      AlikeBelow root table (first.deleteAll (join root table)).2
        (second.deleteAll (join root table)).2 ∧
      Beside root table first (first.deleteAll (join root table)).2 := by
  have segments : ∀ name ∈ [table], FileName.isSegment name = true :=
    List.forall_mem_singleton.mpr isTable
  have path : "/".intercalate [table] = table := String.intercalate_singleton
  have same := alike.locate segments
  rw [path] at same
  cases located : second.locate (join root table) with
  | error failure =>
      rw [Disk.deleteAll, Disk.deleteAll, same, located]
      exact ⟨rfl, alike, .refl alike.rooted⟩
  | ok found =>
      obtain ⟨location, node⟩ := found
      rw [located] at same
      have here := located
      have alsoHere := same
      rw [← path] at here alsoHere
      obtain ⟨-, there⟩ := of_locate_join (by simp) segments alsoHere
      obtain ⟨sameLocation, -⟩ := of_locate_join (by simp) segments here
      obtain ⟨rfl, -⟩ := of_locate_join (by simp) segments alsoHere
      cases node with
      | file bytes =>
          rw [Disk.deleteAll, Disk.deleteAll, same, located]
          exact ⟨rfl, alike, .refl alike.rooted⟩
      | directory =>
          have alsoBypasses := bypasses.of_working alike.working
          rw [alike.rooted.deleteAll_eq isTable bypasses same,
            alike.alsoRooted.deleteAll_eq isTable alsoBypasses (sameLocation ▸ located)]
          have changed := Within.without alike.rooted bypasses
          have alsoChanged := Within.without alike.alsoRooted alsoBypasses
          refine ⟨rfl, alike.within changed alsoChanged ?_, changed.beside alike.rooted ?_⟩
          · intro other within
            rw [node?_without first (by simp), node?_without second (by simp), if_pos within,
              if_pos (sameLocation ▸ within)]
          · intro bytes
            rw [node?_without first (by simp), if_pos List.prefix_rfl, there]
            simp

omit alike in
/-- Directories of the table are made alike below roots that are there. -/
theorem makeDirectories_of_roots (alike : AlikeBelow root table first second)
    (there : first.node? (first.base root) = some .directory)
    (alsoThere : second.node? (second.base root) = some .directory)
    (segments : ∀ name ∈ table :: names, FileName.isSegment name = true) :
    (first.makeDirectories (first.base root) (table :: names)).1 =
        (second.makeDirectories (second.base root) (table :: names)).1 ∧
      AlikeBelow root table (first.makeDirectories (first.base root) (table :: names)).2
        (second.makeDirectories (second.base root) (table :: names)).2 ∧
      Beside root table first (first.makeDirectories (first.base root) (table :: names)).2 := by
  have sameBase := base_eq alike.working root
  have inside : ∀ base upTo : List String, upTo ≠ [] → upTo <+: table :: names →
      base ++ [table] <+: base ++ upTo := by
    intro base upTo nonempty below
    obtain ⟨part, rest, rfl⟩ := List.exists_cons_of_ne_nil nonempty
    obtain ⟨rfl, -⟩ := List.cons_prefix_cons.mp below
    exact List.append_cons base part rest ▸ List.prefix_append _ _
  have covers : ∀ upTo, upTo ≠ [] → upTo <+: table :: names →
      second.Covers first (first.base root ++ upTo) := fun upTo nonempty below =>
    .inl (alike.nodes _ (inside _ upTo nonempty below))
  obtain ⟨outcomes, after⟩ := makeDirectories_of_covers covers segments
  have nodes : ∀ location, first.base root ++ [table] <+: location →
      (first.makeDirectories (first.base root) (table :: names)).2.node? location =
        (second.makeDirectories (first.base root) (table :: names)).2.node? location := by
    intro location within
    rcases after location with ⟨same, alsoSame⟩ | ⟨-, -, -, -, made, alsoMade⟩
    · rw [same, alsoSame, alike.nodes location within]
    · rw [made, alsoMade]
  have outside : ∀ disk : Disk, ∀ location, ¬disk.base root ++ [table] <+: location →
      (disk.makeDirectories (disk.base root) (table :: names)).2.node? location =
        disk.node? location := fun disk location out =>
    node?_makeDirectories_of_ne segments fun upTo nonempty below here =>
      out (here ▸ inside _ upTo nonempty below)
  have changed : Within root table first
      (first.makeDirectories (first.base root) (table :: names)).2 :=
    ⟨workingDirectory_makeDirectories _ _ _, alike.rooted.isTree.makeDirectories there _,
      outside first, .inr fun _ here => node?_makeDirectories_of_some _ _ here⟩
  have alsoChanged : Within root table second
      (second.makeDirectories (second.base root) (table :: names)).2 :=
    ⟨workingDirectory_makeDirectories _ _ _, alike.alsoRooted.isTree.makeDirectories alsoThere _,
      outside second, .inr fun _ here => node?_makeDirectories_of_some _ _ here⟩
  refine ⟨sameBase ▸ outcomes, alike.within changed alsoChanged (sameBase ▸ nodes),
    changed.beside alike.rooted fun bytes => ?_⟩
  rcases node?_makeDirectories first (first.base root) (table :: names)
    (first.base root ++ [table]) with same | ⟨missing, made⟩
  · rw [same]
  · rw [missing, made]
    simp

/-- The directories above a file of the table are made alike. -/
theorem makeDirectories (segments : ∀ name ∈ table :: names, FileName.isSegment name = true) :
    ∃ outcome made other,
      first.makeDirectories (first.origin root) (partsOf root ++ table :: names) =
        (outcome, made) ∧
      second.makeDirectories (second.origin root) (partsOf root ++ table :: names) =
        (outcome, other) ∧
      AlikeBelow root table made other ∧ Beside root table first made ∧
      made.node? (made.base root) = some .directory ∧
      other.node? (other.base root) = some .directory := by
  obtain ⟨made, making, beside, there, nodes⟩ := alike.rooted.makeRoot table
  obtain ⟨other, alsoMaking, alsoBeside, alsoThere, alsoNodes⟩ := alike.alsoRooted.makeRoot table
  have sameBase := base_eq alike.working root
  have rootsAlike : AlikeBelow root table made other := by
    constructor
    · rw [alsoBeside.working, beside.working, alike.working]
    · exact beside.rooted
    · exact alsoBeside.rooted
    · intro location below
      rw [base_eq beside.working] at below
      have outside : ¬location <+: first.base root := fun above =>
        concat_not_isPrefix _ _ (below.trans above)
      rw [nodes location outside, alsoNodes location (sameBase ▸ outside),
        alike.nodes location below]
    · refine .inl (Eq.trans ?_ there.symm)
      rw [base_eq beside.working, ← sameBase, ← base_eq alsoBeside.working]
      exact alsoThere
  obtain ⟨outcomes, after, further⟩ := makeDirectories_of_roots rootsAlike there alsoThere segments
  have kept : ∀ {disk : Disk}, disk.node? (disk.base root) = some .directory →
      (disk.makeDirectories (disk.base root) (table :: names)).2.node?
        ((disk.makeDirectories (disk.base root) (table :: names)).2.base root) =
          some .directory := by
    intro disk here
    rw [base_eq (workingDirectory_makeDirectories _ _ _)]
    exact node?_makeDirectories_of_some _ _ here
  refine ⟨(made.makeDirectories (made.base root) (table :: names)).1, _, _, ?_, ?_, after,
    beside.trans further, kept there, kept alsoThere⟩
  · rw [makeDirectories_append first, making, base_eq beside.working]
    rfl
  · rw [makeDirectories_append second, alsoMaking, outcomes,
      base_eq alsoBeside.working]
    rfl

/-- A file is put alike into a directory of the table whose root is there. -/
theorem put {area name : String}
    (segments : ∀ part ∈ [table, area, name], FileName.isSegment part = true)
    (there : first.node? (first.base root) = some .directory)
    (alsoThere : second.node? (second.base root) = some .directory) (bytes : Bytes) :
    (∃ failure,
      (first.walk (first.origin root) (partsOf root ++ [table, area, name])).bind
        (first.put · bytes) = .error failure ∧
      (second.walk (second.origin root) (partsOf root ++ [table, area, name])).bind
        (second.put · bytes) = .error failure) ∨
    ∃ after other,
      (first.walk (first.origin root) (partsOf root ++ [table, area, name])).bind
        (first.put · bytes) = .ok after ∧
      (second.walk (second.origin root) (partsOf root ++ [table, area, name])).bind
        (second.put · bytes) = .ok other ∧
      AlikeBelow root table after other ∧ Beside root table first after := by
  have sameBase := base_eq alike.working root
  rw [alike.rooted.walk_of_root there, alike.alsoRooted.walk_of_root alsoThere,
    alike.walk_of_roots there alsoThere segments]
  cases walked : second.walk (second.base root) [table, area, name] with
  | error failure => exact .inl ⟨failure, rfl, rfl⟩
  | ok reached =>
      have here : reached = first.base root ++ [table, area, name] :=
        sameBase ▸ prefix_of_walk segments walked
      have below : reached ≠ [] := by simp [here]
      have inside : first.base root ++ [table] <+: reached := by
        rw [here, List.prefix_append_right_inj]
        exact ⟨[area, name], rfl⟩
      have nodes := alike.nodes reached inside
      have alsoWalked := (alike.walk_of_roots there alsoThere segments).trans walked
      by_cases directory : second.node? reached = some .directory
      · refine .inl ⟨.isDirectory, ?_, ?_⟩
        · simp only [Except.bind, Disk.put, nodes, directory]
        · simp only [Except.bind, Disk.put, directory]
      · have put : ∀ {disk : Disk}, disk.node? reached ≠ some .directory →
            (Except.ok reached).bind (disk.put · bytes) =
              .ok { disk with nodes := disk.nodes.insert reached (.file bytes) } := by
          intro disk free
          simp only [Except.bind, Disk.put]
        have changed := Within.insert alike.rooted segments
          alsoWalked (nodes ▸ directory) bytes
        have alsoChanged := Within.insert alike.alsoRooted segments
          walked directory bytes
        refine .inr ⟨_, _, put (nodes ▸ directory), put directory,
          alike.within changed alsoChanged ?_, changed.beside alike.rooted ?_⟩
        · intro location within
          rw [node?_insert first below, node?_insert second below, alike.nodes location within]
        · have apart : first.base root ++ [table] ≠ reached := by simp [here]
          intro bytes
          rw [node?_insert first below, if_neg apart]

/-- A file of the table is written alike. -/
theorem write {area name : String}
    (segments : ∀ part ∈ [table, area, name], FileName.isSegment part = true) (bytes : Bytes) :
    (first.write (join root ("/".intercalate [table, area, name])) bytes).1 =
        (second.write (join root ("/".intercalate [table, area, name])) bytes).1 ∧
      AlikeBelow root table
        (first.write (join root ("/".intercalate [table, area, name])) bytes).2
        (second.write (join root ("/".intercalate [table, area, name])) bytes).2 ∧
      Beside root table first
        (first.write (join root ("/".intercalate [table, area, name])) bytes).2 := by
  have initial : ∀ part ∈ [table, area], FileName.isSegment part = true := fun part member =>
    segments part ((List.dropLast_sublist [table, area, name]).mem member)
  rw [write_eq first alike.rooted.proper (List.cons_ne_nil _ _) segments,
    write_eq second alike.rooted.proper (List.cons_ne_nil _ _) segments]
  split
  · exact ⟨rfl, alike, .refl alike.rooted⟩
  obtain ⟨outcome, made, other, making, alsoMaking, madeAlike, beside, there, alsoThere⟩ :=
    alike.makeDirectories initial
  have upTo : [table, area, name].dropLast = [table, area] := rfl
  rw [upTo, making, alsoMaking]
  cases outcome with
  | error failure => exact ⟨rfl, madeAlike, beside⟩
  | ok _ =>
      simp only []
      split
      · exact ⟨rfl, madeAlike, beside⟩
      rcases madeAlike.put segments there alsoThere bytes with
        ⟨failure, failed, alsoFailed⟩ | ⟨after, last, put, alsoPut, putAlike, further⟩
      · rw [failed, alsoFailed]
        exact ⟨rfl, madeAlike, beside⟩
      · rw [put, alsoPut]
        exact ⟨rfl, putAlike, beside.trans further⟩

end AlikeBelow

end TableStore.Disk
