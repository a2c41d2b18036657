/-
# Files on a disk

Below the root of a store lie the directories of tables, in them those of their areas, and in these
the files. What is above the root is never a file, so every path of the store leads to where its
parts say, or to nothing. Directories stay when the last file in them is gone, which no path of the
store can tell from their not being there.
-/

import Mathlib.Logic.Function.Basic
import TableStore.Proofs.Files.Root

namespace TableStore

namespace Place

/-- The parts of the path of a place. -/
def names (place : Place) : List String :=
  [place.table, place.area.name, place.name]

/-- The way to a place has parts. -/
theorem names_ne_nil (place : Place) : place.names ≠ [] :=
  List.cons_ne_nil _ _

/-- The name of an area is a segment. -/
theorem isSegment_area (area : Area) : FileName.isSegment area.name = true := by
  cases area <;> decide +kernel

/-- The parts of the directory of an area are segments. -/
theorem isSegment_of_mem_directory {table : String} (isTable : FileName.isSegment table = true)
    (area : Area) : ∀ name ∈ [table, area.name], FileName.isSegment name = true :=
  List.forall_mem_cons.mpr ⟨isTable, List.forall_mem_singleton.mpr (isSegment_area area)⟩

/-- The parts of the path of a place are segments. -/
theorem isSegment_of_mem_names (place : Place) :
    ∀ name ∈ place.names, FileName.isSegment name = true :=
  List.forall_mem_cons.mpr ⟨place.isTable, List.forall_mem_cons.mpr
    ⟨isSegment_area place.area, List.forall_mem_singleton.mpr place.isName⟩⟩

/-- The directory of an area, from its parts. -/
theorem directory_eq_intercalate (table : String) (area : Area) :
    area.directory table = "/".intercalate [table, area.name] := by
  apply String.toList_inj.mp
  rw [area.toList_directory]
  simp

/-- The path of a place, from its parts. -/
theorem path_eq_intercalate (place : Place) : place.path = "/".intercalate place.names := by
  apply String.toList_inj.mp
  rw [place.toList_path]
  simp [names]

/-- Different places have different parts. -/
theorem names_injective {first second : Place} (same : first.names = second.names) :
    first = second := by
  apply path_injective
  rw [path_eq_intercalate, path_eq_intercalate, same]

end Place

namespace Disk

open HostPath

variable {disk : Disk} {root : String} {names : List String}

/-- The location of a place is within the directory of its table only. -/
theorem prefix_names_iff (base : List String) (table : String) (place : Place) :
    base ++ [table] <+: base ++ place.names ↔ place.table = table := by
  rw [List.prefix_append_right_inj, Place.names, List.cons_prefix_cons]
  exact ⟨fun both => both.1.symm, fun same => ⟨same.symm, List.nil_prefix⟩⟩

/-- What may be below a root: the directories of tables and of their areas, and files in these. -/
inductive Layout : List String → Node → Prop where
  | table {table : String} (isTable : FileName.isSegment table = true) : Layout [table] .directory
  | area {table : String} (isTable : FileName.isSegment table = true) (area : Area) :
      Layout [table, area.name] .directory
  | file (place : Place) (bytes : Bytes) : Layout place.names (.file bytes)

/-- Whether a disk holds given files at their places below a root that bypasses all tables, and no
others. -/
structure Holds (disk : Disk) (root : String) (content : Content) : Prop
    extends Rooted disk root where
  bypasses : ∀ table, FileName.isSegment table = true → disk.Bypasses root table
  layout : ∀ names node, names ≠ [] → disk.node? (disk.base root ++ names) = some node →
    Layout names node
  node?_place : ∀ place : Place,
    disk.node? (disk.base root ++ place.names) = (content place).map .file
  takes : ∀ place : Place, (content place).isSome = true → Takes root place.path

namespace Holds

variable {content : Content}

/-- Directories of tables and areas are no files, whether they are there or not. -/
theorem isOpen_append (holds : disk.Holds root content) (few : names.length ≤ 2) :
    disk.Open (disk.base root ++ names) := by
  intro above below bytes there
  rcases List.prefix_or_prefix_of_prefix below (List.prefix_append _ names) with inside | beyond
  · exact holds.isOpen above inside bytes there
  · obtain ⟨rest, rfl⟩ := beyond
    by_cases here : rest = []
    · rw [here, List.append_nil] at there
      exact holds.isOpen _ List.prefix_rfl bytes there
    · have short := ((List.prefix_append_right_inj _).mp below).length_le
      cases holds.layout rest _ here there
      simp [Place.names] at short
      omega

/-- The path of a place names the file that is held there. -/
theorem locate (holds : disk.Holds root content) {place : Place}
    (takes : Takes root place.path) :
    disk.locate (join root place.path) =
      match content place with
      | some bytes => .ok (disk.base root ++ place.names, .file bytes)
      | none => .error .missing := by
  rw [place.path_eq_intercalate] at takes ⊢
  rw [holds.locate_join place.names_ne_nil place.isSegment_of_mem_names takes
    (holds.isOpen_append (by simp [Place.names])), holds.node?_place]
  cases content place <;> rfl

/-- A file is read where one is held, and missing elsewhere. -/
theorem read (holds : disk.Holds root content) {place : Place}
    (takes : Takes root place.path) :
    disk.read (join root place.path) =
      match content place with
      | some bytes => .ok bytes
      | none => .error .missing := by
  rw [Disk.read, holds.locate takes]
  cases content place <;> rfl

/-- A path names a file where one is held. -/
theorem isFile (holds : disk.Holds root content) (place : Place) :
    disk.isFile (join root place.path) = (content place).isSome := by
  cases stored : content place with
  | some bytes =>
      rw [Disk.isFile, holds.locate (holds.takes place (by rw [stored]; rfl)), stored]
      rfl
  | none =>
      rw [Option.isSome_none, Disk.isFile]
      split
      · next reached bytes located =>
          rw [place.path_eq_intercalate] at located
          obtain ⟨rfl, there⟩ := of_locate_join place.names_ne_nil
            place.isSegment_of_mem_names located
          rw [holds.node?_place, stored] at there
          cases there
      · rfl

/-- Files at places where they are not taken away are still held after others have been. -/
theorem remove (holds : disk.Holds root content) {after : Disk} {gone : List String → Prop}
    [DecidablePred gone] (working : after.workingDirectory = disk.workingDirectory)
    (nodes : ∀ location, after.node? location =
      if gone location then none else disk.node? location)
    (within : ∀ location, gone location →
      ∃ table, FileName.isSegment table = true ∧ disk.base root ++ [table] <+: location)
    (whole : ∀ location, location ≠ [] → gone location.dropLast →
      (disk.node? location).isSome = true → gone location) {left : Content}
    (rest : ∀ place : Place, left place =
      if gone (disk.base root ++ place.names) then none else content place) :
    after.Holds root left := by
  have sameBase := base_eq working root
  have kept : ∀ location node, after.node? location = some node →
      disk.node? location = some node := by
    intro location node there
    rw [nodes] at there
    split at there
    · cases there
    · exact there
  constructor
  · refine holds.of_way working (holds.isTree.remove nodes whole) fun upTo below => .inl ?_
    rw [nodes, if_neg]
    intro away
    obtain ⟨table, isTable, inside⟩ := within _ away
    exact holds.bypasses table isTable upTo below inside
  · exact fun table isTable => (holds.bypasses table isTable).of_working working
  · intro names node nonempty there
    rw [sameBase] at there
    exact holds.layout names node nonempty (kept _ node there)
  · intro place
    rw [sameBase, nodes, holds.node?_place, rest]
    split <;> rfl
  · intro place stored
    rw [rest] at stored
    split at stored
    · cases stored
    · exact holds.takes place stored

/-- A file that is held can be removed. -/
theorem delete (holds : disk.Holds root content) {place : Place}
    (stored : (content place).isSome = true) :
    ∃ after, disk.delete (join root place.path) = .ok after ∧
      after.Holds root (Function.update content place none) := by
  obtain ⟨bytes, found⟩ := Option.isSome_iff_exists.mp stored
  have there : disk.node? (disk.base root ++ place.names) = some (.file bytes) := by
    rw [holds.node?_place, found]
    rfl
  have below : disk.base root ++ place.names ≠ [] := by simp [Place.names]
  let after := { disk with nodes := disk.nodes.erase (disk.base root ++ place.names) }
  refine ⟨after, ?_, ?_⟩
  · rw [Disk.delete, holds.locate (holds.takes place stored), found]
    rfl
  · apply @Holds.remove disk root content holds after (· = disk.base root ++ place.names) _ rfl
      (node?_erase disk below)
    · rintro _ rfl
      exact ⟨place.table, place.isTable, (prefix_names_iff _ _ place).mpr rfl⟩
    · -- Nothing is below a file.
      intro location nonempty parent something
      rw [← parent, holds.isTree location nonempty something] at there
      cases there
    · intro other
      simp only [List.append_cancel_left_eq, Function.update_apply]
      by_cases same : other = place
      · rw [same, if_pos rfl, if_pos rfl]
      · rw [if_neg same, if_neg fun names => same (Place.names_injective names)]

/-- A file that is not held cannot be removed. -/
theorem delete_none (holds : disk.Holds root content) {place : Place}
    (takes : Takes root place.path) (absent : content place = none) :
    disk.delete (join root place.path) = .error .missing := by
  rw [Disk.delete, holds.locate takes, absent]
  rfl

/-- Making the directories above a place does not change what is held. -/
theorem of_made (holds : disk.Holds root content) (place : Place) {made : Disk}
    (working : made.workingDirectory = disk.workingDirectory) (isTree : made.IsTree)
    (nodes : ∀ other, made.node? other =
      if other <+: disk.base root ++ place.names.dropLast then some .directory
      else disk.node? other) :
    made.Holds root content := by
  have sameBase := base_eq working root
  constructor
  · refine holds.of_directories working isTree (fun location above => ?_) fun location there => ?_
    · exact .inr ((nodes location).trans
        (if_pos (above.trans (List.prefix_append _ _))))
    · rw [nodes, there, ite_self]
  · exact fun table isTable => (holds.bypasses table isTable).of_working working
  · intro names node nonempty there
    rw [sameBase, nodes] at there
    split at there
    · next inside =>
        cases there
        have few := (List.prefix_append_right_inj _).mp inside
        rw [Place.names, List.dropLast_cons_of_ne_nil (by simp), List.dropLast_cons_of_ne_nil
          (by simp), List.dropLast_singleton] at few
        match names, nonempty, few with
        | [table], _, few =>
            rw [(List.cons_prefix_cons.mp few).1]
            exact .table place.isTable
        | [table, area], _, few =>
            obtain ⟨sameTable, rest⟩ := List.cons_prefix_cons.mp few
            rw [sameTable, (List.cons_prefix_cons.mp rest).1]
            exact .area place.isTable place.area
        | _ :: _ :: _ :: _, _, few => simp at few
    · exact holds.layout names node nonempty there
  · intro other
    have long : ¬disk.base root ++ other.names <+: disk.base root ++ place.names.dropLast := by
      intro below
      have short := ((List.prefix_append_right_inj _).mp below).length_le
      simp [Place.names] at short
    rw [sameBase, nodes, if_neg long, holds.node?_place]
  · exact holds.takes

/-- Putting a file at a place whose directory is there changes what is held at this place. -/
theorem insert (holds : disk.Holds root content) {place : Place}
    (takes : Takes root place.path)
    (parent : disk.node? (disk.base root ++ place.names.dropLast) = some .directory)
    (bytes : Bytes) :
    Disk.Holds
      { disk with nodes := disk.nodes.insert (disk.base root ++ place.names) (.file bytes) }
      root (Function.update content place (some bytes)) := by
  have below : disk.base root ++ place.names ≠ [] := by simp [Place.names]
  have nodes := node?_insert disk below (.file bytes)
  have free : disk.node? (disk.base root ++ place.names) ≠ some .directory := by
    rw [holds.node?_place]
    cases content place <;> simp
  have isTree := holds.isTree.insert below
    (by rwa [List.dropLast_append_of_ne_nil place.names_ne_nil]) free (.file bytes)
  constructor
  · refine holds.of_directories rfl isTree (fun location above => .inl ?_) fun location there => ?_
    · have apart : location ≠ disk.base root ++ place.names := by
        rintro rfl
        exact append_not_isPrefix _ place.names_ne_nil above
      rw [nodes, if_neg apart]
    · have apart : location ≠ disk.base root ++ place.names := fun same => free (same ▸ there)
      rw [nodes, if_neg apart, there]
  · exact holds.bypasses
  · intro names node nonempty there
    have found := (nodes _).symm.trans there
    split at found
    · next same =>
        cases found
        rw [List.append_cancel_left same]
        exact .file place bytes
    · exact holds.layout names node nonempty found
  · intro other
    have found := nodes (disk.base root ++ other.names)
    rw [holds.node?_place] at found
    refine found.trans ?_
    rw [Function.update_apply]
    by_cases same : other = place
    · rw [if_pos same, if_pos (congrArg _ (congrArg Place.names same)), Option.map_some]
    · rw [if_neg same, if_neg fun names =>
        same (Place.names_injective (List.append_cancel_left names))]
  · intro other stored
    by_cases same : other = place
    · exact same ▸ takes
    · rw [Function.update_of_ne same] at stored
      exact holds.takes other stored

/-- A written file is held at its place. -/
theorem write (holds : disk.Holds root content) {place : Place}
    (takes : Takes root place.path) (bytes : Bytes) :
    ∃ after, disk.write (join root place.path) bytes = (.ok (), after) ∧
      after.Holds root (Function.update content place (some bytes)) := by
  have nonempty := place.names_ne_nil
  have segments := place.isSegment_of_mem_names
  have initial : ∀ name ∈ place.names.dropLast, FileName.isSegment name = true :=
    fun name member => segments name ((List.dropLast_sublist _).mem member)
  have size := takes.size
  have short := takes.names
  rw [place.path_eq_intercalate] at size short ⊢
  rw [partsOf, segmentsOf_intercalate nonempty segments, filter_segments segments] at short
  have fits : isTooLong (join root ("/".intercalate place.names)) = false :=
    decide_eq_false (Nat.not_lt.mpr size)
  have parentFits : isTooLong (parentText (join root ("/".intercalate place.names))) = false :=
    decide_eq_false (Nat.not_lt.mpr (Nat.le_trans (utf8ByteSize_parentText_le _) size))
  -- The directories above the place are made,
  have passable := holds.passable_append initial
    (fun name member => short name ((List.dropLast_sublist _).mem member))
    (holds.isOpen_append (by simp [Place.names]))
  obtain ⟨made, making, nodes⟩ := passable.makeDirectories holds.isTree holds.origin
  rw [destination_append_segments disk root initial] at nodes
  have isTree := holds.isTree.makeDirectories holds.origin (partsOf root ++ place.names.dropLast)
  have working := workingDirectory_makeDirectories disk (disk.origin root)
    (partsOf root ++ place.names.dropLast)
  rw [making] at isTree working
  have held := holds.of_made place working isTree nodes
  have directory : made.node? (made.base root ++ place.names.dropLast) = some .directory := by
    rw [base_eq working, nodes, if_pos List.prefix_rfl]
  -- and the walk then leads into the last of them.
  have last := List.getLast_mem nonempty
  have walked : made.walk (made.origin root) (partsOf root ++ place.names) =
      .ok (made.base root ++ place.names) := by
    have into := (held.passable_append initial
      (fun name member => short name ((List.dropLast_sublist _).mem member))
      (held.isOpen_append (by simp [Place.names]))).walk_into held.isTree held.origin
      (segments _ last) (short _ last)
    rw [destination_append_segments made root initial, List.append_assoc, List.append_assoc,
      List.dropLast_concat_getLast nonempty] at into
    exact into directory
  have free : made.put (made.base root ++ place.names) bytes = .ok
      { made with nodes := made.nodes.insert (made.base root ++ place.names) (.file bytes) } := by
    rw [Disk.put, held.node?_place]
    cases content place <;> rfl
  refine ⟨_, ?_, held.insert takes directory bytes⟩
  rw [write_eq disk holds.proper nonempty segments, parentFits, if_neg Bool.false_ne_true, making]
  simp only [fits, walked, free, Bool.false_eq_true, if_false, Except.bind]

/-- What is in the directory of an area is held there. -/
theorem isSome_node?_iff (holds : disk.Holds root content) (table : String) (area : Area)
    (name : String) :
    (disk.node? (disk.base root ++ [table, area.name] ++ [name])).isSome = true ↔
      ∃ place : Place, place.table = table ∧ place.area = area ∧ place.name = name ∧
        (content place).isSome = true := by
  rw [List.append_assoc]
  constructor
  · intro there
    obtain ⟨node, found⟩ := Option.isSome_iff_exists.mp there
    generalize same : [table, area.name] ++ [name] = names at found
    cases holds.layout names node (by rw [← same]; simp) found with
    | table isTable => simp at same
    | area isTable other => simp at same
    | file place bytes =>
        simp only [Place.names, List.cons_append, List.nil_append, List.cons.injEq] at same
        refine ⟨place, same.1.symm, (Area.name_injective same.2.1).symm, same.2.2.1.symm, ?_⟩
        rw [holds.node?_place] at found
        rw [← @Option.isSome_map _ _ Node.file, found]
        rfl
  · rintro ⟨place, rfl, rfl, rfl, stored⟩
    have there := holds.node?_place place
    rw [Place.names] at there
    rw [List.cons_append, List.singleton_append, there, Option.isSome_map]
    exact stored

/-- The directory of an area lists, ascending, the names under which something is held, unless it
is not there and nothing is held. -/
theorem list (holds : disk.Holds root content) {table : String} {area : Area}
    (isTable : FileName.isSegment table = true) (takes : Takes root (area.directory table)) :
    ∃ names, names.Pairwise (· < ·) ∧
      (∀ name, name ∈ names ↔ ∃ place : Place, place.table = table ∧ place.area = area ∧
        place.name = name ∧ (content place).isSome = true) ∧
      (disk.list (join root (area.directory table)) = .ok names ∨
        names = [] ∧ disk.list (join root (area.directory table)) = .error .missing) := by
  have segments := Place.isSegment_of_mem_directory isTable area
  rw [Place.directory_eq_intercalate] at takes ⊢
  have located := holds.locate_join (by simp) segments takes
    (holds.isOpen_append (by simp : [table, area.name].dropLast.length ≤ 2))
  cases there : disk.node? (disk.base root ++ [table, area.name]) with
  | none =>
      refine ⟨[], .nil, fun name => ?_, .inr ⟨rfl, ?_⟩⟩
      · refine iff_of_false List.not_mem_nil fun held => ?_
        have parent := holds.isTree _ (by simp) ((holds.isSome_node?_iff table area name).mpr held)
        rw [List.dropLast_concat, there] at parent
        cases parent
      · rw [Disk.list, located, there]
        rfl
  | some node =>
      cases node with
      | file bytes =>
          exact absurd there (holds.isOpen_append (by simp) _ List.prefix_rfl bytes)
      | directory =>
          refine ⟨disk.children (disk.base root ++ [table, area.name]),
            pairwise_children disk _, fun name => ?_, .inl ?_⟩
          · exact mem_children.trans (holds.isSome_node?_iff table area name)
          · rw [Disk.list, located, there]
            rfl

/-- The files of other tables are still held when a directory of a table and all that is below it
have been removed. -/
theorem without (holds : disk.Holds root content) {table : String}
    (isTable : FileName.isSegment table = true) :
    (disk.without (disk.base root ++ [table])).Holds root fun place =>
      if place.table = table then none else content place := by
  have below : disk.base root ++ [table] ≠ [] := by simp
  apply @Holds.remove disk root content holds (disk.without (disk.base root ++ [table]))
    (disk.base root ++ [table] <+: ·) _ rfl (node?_without disk below)
  · exact fun other inside => ⟨table, isTable, inside⟩
  · intro other _ above _
    exact above.trans (List.dropLast_prefix other)
  · intro place
    simp only [prefix_names_iff]

/-- Nothing is held for a table whose directory is not there. -/
theorem eq_none_of_missing (holds : disk.Holds root content) {place : Place}
    (missing : disk.node? (disk.base root ++ [place.table]) = none) : content place = none := by
  by_contra stored
  have parent := holds.isTree.node?_of_prefix ((prefix_names_iff _ _ place).mpr rfl)
    (by simp [Place.names])
    (by rw [holds.node?_place, Option.isSome_map]; exact Option.isSome_iff_ne_none.mpr stored)
  rw [missing] at parent
  cases parent

/-- Removing the directory of a table removes what is held for it, and fails only if there is no
directory. -/
theorem deleteAll (holds : disk.Holds root content) {table : String}
    (isTable : FileName.isSegment table = true) (takes : Takes root table) :
    ∃ outcome after, disk.deleteAll (join root table) = (outcome, after) ∧
      (outcome = .ok () ∨ outcome = .error .missing) ∧
      after.Holds root fun place => if place.table = table then none else content place := by
  have segments : ∀ name ∈ [table], FileName.isSegment name = true :=
    List.forall_mem_singleton.mpr isTable
  have path : table = "/".intercalate [table] := String.intercalate_singleton.symm
  rw [path] at takes
  have located := holds.locate_join (by simp) segments takes
    (holds.isOpen_append (by simp : [table].dropLast.length ≤ 2))
  rw [← path] at located
  cases there : disk.node? (disk.base root ++ [table]) with
  | none =>
      refine ⟨.error .missing, disk, by rw [Disk.deleteAll, located, there], .inr rfl, ?_⟩
      convert holds using 1
      funext place
      split
      · next here => exact (holds.eq_none_of_missing (here ▸ there)).symm
      · rfl
  | some node =>
      cases node with
      | file bytes =>
          exact absurd there (holds.isOpen_append (by simp) _ List.prefix_rfl bytes)
      | directory =>
          exact ⟨.ok (), _, holds.deleteAll_eq isTable (holds.bypasses table isTable)
            (by rw [located, there]), .inl rfl,
            holds.without isTable⟩

end Holds

end Disk

end TableStore
