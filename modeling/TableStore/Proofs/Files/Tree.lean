/-
# Disks as trees

Every location of a disk lies in directories, up to the top. A disk stays such a tree when something
is put into a directory, and when something is removed with everything below it.
-/

import Mathlib.Data.List.Induction
import TableStore.Proofs.Collections
import TableStore.Proofs.Files.Path

namespace TableStore.Disk

variable {disk : Disk} {location above : List String}

/-- Whether everything on a disk lies in a directory. -/
def IsTree (disk : Disk) : Prop :=
  ∀ location, location ≠ [] → (disk.node? location).isSome = true →
    disk.node? location.dropLast = some .directory

/-- Whether no file lies at a location or above it. -/
def Open (disk : Disk) (location : List String) : Prop :=
  ∀ above, above <+: location → ∀ bytes, disk.node? above ≠ some (.file bytes)

/-- Everything above a location where something is, is a directory. -/
theorem IsTree.node?_of_prefix (isTree : disk.IsTree) {above : List String}
    (below : above <+: location) (apart : above ≠ location)
    (there : (disk.node? location).isSome = true) : disk.node? above = some .directory := by
  induction location using List.reverseRecOn with
  | nil => exact absurd (List.prefix_nil.mp below) apart
  | append_singleton start last ih =>
      have parent := isTree (start ++ [last]) (by simp) there
      rw [List.dropLast_concat] at parent
      have inside : above <+: start := (List.prefix_concat_iff.mp below).resolve_left apart
      by_cases here : above = start
      · rw [here, parent]
      · exact ih inside here (by rw [parent]; rfl)

/-- Everything above a directory is one, and so is the directory itself. -/
theorem IsTree.node?_of_directory (isTree : disk.IsTree) {above : List String}
    (below : above <+: location) (directory : disk.node? location = some .directory) :
    disk.node? above = some .directory := by
  by_cases here : above = location
  · rw [here, directory]
  · exact isTree.node?_of_prefix below here (by rw [directory]; rfl)

/-- Nothing is below what is not a directory. -/
theorem IsTree.node?_eq_none (isTree : disk.IsTree) (below : above <+: location)
    (apart : above ≠ location) (noDirectory : disk.node? above ≠ some .directory) :
    disk.node? location = none := by
  cases there : disk.node? location with
  | none => rfl
  | some node =>
      exact absurd (isTree.node?_of_prefix below apart (by rw [there]; rfl)) noDirectory

/-- What is at a location that is not the top. -/
theorem node?_of_ne_nil (disk : Disk) (below : location ≠ []) :
    disk.node? location = disk.nodes[location]? := by
  cases location with
  | nil => exact absurd rfl below
  | cons first rest => rfl

/-- What is put at a location is there, and nothing else has changed. -/
theorem node?_insert (disk : Disk) (below : location ≠ []) (node : Node) (other : List String) :
    Disk.node? { disk with nodes := disk.nodes.insert location node } other =
      if other = location then some node else disk.node? other := by
  by_cases top : other = []
  · rw [top, if_neg (Ne.symm below)]
    rfl
  · rw [node?_of_ne_nil _ top, node?_of_ne_nil _ top, Std.ExtTreeMap.getElem?_insert]
    simp only [Std.compare_eq_iff_eq, @eq_comm _ location other]

/-- What is removed is not there any more, and nothing else has changed. -/
theorem node?_erase (disk : Disk) (below : location ≠ []) (other : List String) :
    Disk.node? { disk with nodes := disk.nodes.erase location } other =
      if other = location then none else disk.node? other := by
  by_cases top : other = []
  · rw [top, if_neg (Ne.symm below)]
    rfl
  · rw [node?_of_ne_nil _ top, node?_of_ne_nil _ top, Std.ExtTreeMap.getElem?_erase]
    simp only [Std.compare_eq_iff_eq, @eq_comm _ location other]

/-- What is there after some locations have been removed. -/
theorem node?_filter (disk : Disk) (keep : List String → Bool) (top : keep [] = true)
    (other : List String) :
    Disk.node? { disk with nodes := disk.nodes.filter fun kept _ => keep kept } other =
      if keep other = true then disk.node? other else none := by
  by_cases here : other = []
  · rw [here, if_pos top]
    rfl
  · rw [node?_of_ne_nil _ here, node?_of_ne_nil _ here, Std.ExtTreeMap.getElem?_filter']
    cases disk.nodes[other]? <;> cases keep other <;> rfl

/-- What is left of a tree when everything below what was removed has been removed, too, is one. -/
theorem IsTree.remove (isTree : disk.IsTree) {after : Disk} {gone : List String → Prop}
    [DecidablePred gone]
    (nodes : ∀ location, after.node? location =
      if gone location then none else disk.node? location)
    (whole : ∀ location, location ≠ [] → gone location.dropLast →
      (disk.node? location).isSome = true → gone location) : after.IsTree := by
  intro location nonempty there
  rw [nodes] at there
  split at there
  · cases there
  · next stays =>
      rw [nodes, if_neg fun above => stays (whole location nonempty above there)]
      exact isTree location nonempty there

/-- A tree with one more directory or file in a directory is one, if no directory was replaced. -/
theorem IsTree.insert (isTree : disk.IsTree) (below : location ≠ [])
    (parent : disk.node? location.dropLast = some .directory)
    (free : disk.node? location ≠ some .directory) (node : Node) :
    Disk.IsTree { disk with nodes := disk.nodes.insert location node } := by
  intro there nonempty something
  have directory : disk.node? there.dropLast = some .directory := by
    rw [node?_insert disk below] at something
    split at something
    · next same => rw [same, parent]
    · exact isTree there nonempty something
  have apart : there.dropLast ≠ location := by
    intro same
    rw [same] at directory
    exact free directory
  rw [node?_insert disk below, if_neg apart, directory]

/-- A tree without one of its files is one. -/
theorem IsTree.erase (isTree : disk.IsTree) (below : location ≠ []) {bytes : Bytes}
    (file : disk.node? location = some (.file bytes)) :
    Disk.IsTree { disk with nodes := disk.nodes.erase location } := by
  apply isTree.remove (disk.node?_erase below)
  -- Nothing is below a file.
  intro there nonempty parent something
  rw [← parent, isTree there nonempty something] at file
  cases file

/-- A disk without what is below a location. -/
def emptied (disk : Disk) (location : List String) : Disk :=
  { disk with
    nodes := disk.nodes.filter fun other _ => other = location || !isWithin location other }

/-- What is below a location has been removed, and nothing else. -/
theorem node?_emptied (disk : Disk) (below : location ≠ []) (other : List String) :
    (disk.emptied location).node? other =
      if location <+: other ∧ other ≠ location then none else disk.node? other := by
  have outside : ∀ other, ¬location <+: other → isWithin location other = false := fun other out =>
    Bool.eq_false_iff.mpr (mt List.isPrefixOf_iff_prefix.mp out)
  have top : isWithin location [] = false := outside [] (mt List.prefix_nil.mp below)
  rw [emptied, node?_filter disk _ (by simp [top])]
  by_cases inside : location <+: other
  · have within : isWithin location other = true := List.isPrefixOf_iff_prefix.mpr inside
    by_cases same : other = location
    · simp [same]
    · simp [same, inside, within]
  · simp [inside, outside other inside]

/-- A tree without what is below a location is one. -/
theorem IsTree.emptied (isTree : disk.IsTree) (below : location ≠ []) :
    (disk.emptied location).IsTree := by
  apply isTree.remove (disk.node?_emptied below)
  intro other nonempty above something
  refine ⟨above.1.trans (List.dropLast_prefix other), fun same => above.2 ?_⟩
  apply List.IsPrefix.eq_of_length_le _ above.1.length_le
  rw [← same]
  exact List.dropLast_prefix other

/-- A disk without a location and what is below it. -/
def without (disk : Disk) (location : List String) : Disk :=
  { disk.emptied location with nodes := (disk.emptied location).nodes.erase location }

/-- A location and what is below it have been removed, and nothing else. -/
theorem node?_without (disk : Disk) (below : location ≠ []) (other : List String) :
    (disk.without location).node? other =
      if location <+: other then none else disk.node? other := by
  rw [without, node?_erase _ below, node?_emptied disk below]
  by_cases here : other = location
  · rw [if_pos here, if_pos (here ▸ List.prefix_rfl)]
  · rw [if_neg here]
    simp only [ne_eq, here, not_false_eq_true, and_true]

/-- The names in a directory are the last parts of the locations in it. -/
theorem mem_children {name : String} :
    name ∈ disk.children location ↔ (disk.node? (location ++ [name])).isSome = true := by
  rw [node?_of_ne_nil disk (by simp), ← Std.ExtTreeMap.mem_iff_isSome_getElem?, children,
    List.mem_filterMap]
  constructor
  · rintro ⟨other, member, found⟩
    split at found
    · next parent =>
        obtain ⟨start, rfl⟩ := List.getLast?_eq_some_iff.mp found
        rw [← parent, List.dropLast_concat]
        exact Std.ExtTreeMap.mem_keys.mp member
    · cases found
  · intro member
    refine ⟨location ++ [name], Std.ExtTreeMap.mem_keys.mpr member, ?_⟩
    rw [List.dropLast_concat, if_pos rfl, List.getLast?_concat]

/-- The names in a directory are ascending. -/
theorem pairwise_children (disk : Disk) (location : List String) :
    (disk.children location).Pairwise (· < ·) := by
  rw [children, List.pairwise_filterMap]
  apply Std.ExtTreeMap.ordered_keys.imp
  intro first second less name found other alsoFound
  split at found
  · next parent =>
      split at alsoFound
      · next alsoParent =>
          obtain ⟨start, rfl⟩ := List.getLast?_eq_some_iff.mp found
          obtain ⟨begin, rfl⟩ := List.getLast?_eq_some_iff.mp alsoFound
          rw [List.dropLast_concat] at parent alsoParent
          rw [parent, alsoParent, compare_append_singleton] at less
          exact compareOfLessAndEq_eq_lt.mp less
      · cases alsoFound
  · cases found

end TableStore.Disk
