/-
# Roots that refuse everything

The way to a root may be blocked, by a file in the place of a directory, by a name that is too long,
or by a path that is none. Then every path below the root is refused, and no access changes
anything. A root that is merely missing is not blocked. If it can be made where its path leads, it
is anchored, as are the roots that are there and those that are blocked.
-/

import TableStore.Proofs.Files.Root

namespace TableStore

open HostPath

namespace Disk

/-- Whether every path below a root is refused: the path of the root cannot be handed to the file
system, or the walk into the root fails, though not because something is missing. -/
def Shut (disk : Disk) (root : String) : Prop :=
  areProper (partsOf root) = false ∨
    disk.IsTree ∧ disk.node? (disk.origin root) = some .directory ∧
      ∃ failure, failure ≠ .missing ∧
        disk.walk (disk.origin root) (partsOf root ++ ["."]) = .error failure

variable {disk : Disk} {location parts names : List String} {root : String}
  {failure : HostFailure}

/-- What cannot be walked into cannot be walked through. -/
theorem walk_through (refused : disk.walk location (parts ++ ["."]) = .error failure)
    (nonempty : names ≠ []) : disk.walk location (parts ++ names) = .error failure := by
  obtain ⟨name, rest, rfl⟩ := List.exists_cons_of_ne_nil nonempty
  rw [walk_append] at refused ⊢
  cases walked : disk.walk location parts with
  | error other =>
      rw [walked] at refused
      exact refused
  | ok reached =>
      rw [walked] at refused
      rw [Except.bind] at refused ⊢
      cases there : disk.node? reached with
      | none =>
          simp only [walk, there] at refused ⊢
          exact refused
      | some node =>
          cases node with
          | file bytes =>
              simp only [walk, there] at refused ⊢
              exact refused
          | directory =>
              rw [walk_of_directory there] at refused
              cases refused

/-- No directories are made along a way that is blocked. -/
theorem makeDirectories_of_refused (isTree : disk.IsTree)
    (here : disk.node? location = some .directory) (blocked : failure ≠ .missing)
    (refused : disk.walk location (parts ++ ["."]) = .error failure) :
    disk.makeDirectories location parts = (.error failure, disk) := by
  induction parts generalizing location with
  | nil =>
      rw [List.nil_append, walk_of_directory here] at refused
      cases refused
  | cons part rest ih =>
      rw [List.cons_append, walk_of_directory here, next] at refused
      rw [makeDirectories]
      split at refused
      · next dot =>
          rw [if_pos dot]
          exact ih here refused
      next dot =>
      split at refused
      · next up =>
          rw [if_neg dot, if_pos up]
          exact ih (isTree.node?_dropLast here) refused
      next up =>
      split at refused
      · next long =>
          rw [if_neg dot, if_neg up, if_pos long]
          cases refused
          rfl
      next short =>
      rw [if_neg dot, if_neg up, if_neg short]
      rw [Except.bind] at refused
      cases there : disk.node? (location ++ [part]) with
      | none =>
          -- Something would be missing on the way.
          cases rest with
          | nil =>
              simp only [List.nil_append, walk, there] at refused
              exact absurd (Except.error.inj refused).symm blocked
          | cons following rest =>
              simp only [List.cons_append, walk, there] at refused
              exact absurd (Except.error.inj refused).symm blocked
      | some node =>
          cases node with
          | file bytes =>
              simp only [there]
              cases rest with
              | nil =>
                  simp only [List.nil_append, walk, there] at refused
                  rw [Except.error.inj refused]
              | cons following rest =>
                  simp only [List.cons_append, walk, there] at refused
                  rw [Except.error.inj refused]
          | directory =>
              simp only [there]
              exact ih there refused

namespace Shut

/-- A path that has parts which cannot be handed to the file system cannot either. -/
theorem areProper_append_eq_false (improper : areProper (partsOf root) = false)
    (names : List String) : areProper (partsOf root ++ names) = false := by
  rw [areProper, List.all_append, ← areProper, improper, Bool.false_and]

/-- If its path can be handed to the file system, the walk into a shut root fails. -/
theorem refused (shut : disk.Shut root) (proper : areProper (partsOf root) = true) :
    disk.IsTree ∧ disk.node? (disk.origin root) = some .directory ∧
      ∃ failure, failure ≠ .missing ∧
        disk.walk (disk.origin root) (partsOf root ++ ["."]) = .error failure := by
  refine shut.resolve_left fun improper => ?_
  cases improper.symm.trans proper

variable (shut : disk.Shut root) (nonempty : names ≠ [])
  (segments : ∀ name ∈ names, FileName.isSegment name = true)

include shut nonempty segments

/-- A path below a shut root names nothing, though not because something is missing. -/
theorem locate : ∃ failure, failure ≠ .missing ∧
    disk.locate (join root ("/".intercalate names)) = .error failure := by
  cases proper : areProper (partsOf root) with
  | false =>
      refine ⟨.invalidPath, by simp, ?_⟩
      rw [Disk.locate, ofText_join root nonempty segments]
      simp only [areProper_append_eq_false proper, Bool.not_false, if_true]
      rfl
  | true =>
      obtain ⟨-, -, failure, blocked, refused⟩ := shut.refused proper
      rw [locate_eq disk proper nonempty segments, walk_through refused nonempty]
      split
      · exact ⟨.nameTooLong, by simp, rfl⟩
      · exact ⟨failure, blocked, rfl⟩

/-- Nothing is written below a shut root, and no directory is made. -/
theorem write (bytes : Bytes) :
    (disk.write (join root ("/".intercalate names)) bytes).2 = disk := by
  cases proper : areProper (partsOf root) with
  | false =>
      rw [Disk.write, parent_join root nonempty segments]
      simp only [areProper_append_eq_false proper, Bool.not_false, if_true]
  | true =>
      obtain ⟨isTree, here, failure, blocked, refused⟩ := shut.refused proper
      rw [write_eq disk proper nonempty segments]
      split
      · rfl
      · rw [makeDirectories_append, makeDirectories_of_refused isTree here blocked refused]

end Shut

/-- Whether the path of a root leads to the same once the root is made: if the root is missing, the
way to it can be followed as far as there is something. Below a root `x/..` where `x` is missing,
nothing is found until something is written, and then what was there all along. -/
def Anchored (disk : Disk) (root : String) : Prop :=
  areProper (partsOf root) = true →
    disk.IsTree ∧ disk.node? (disk.origin root) = some .directory ∧
      (disk.walk (disk.origin root) (partsOf root ++ ["."]) = .error .missing →
        disk.Passable (disk.origin root) (partsOf root))

namespace Anchored

/-- Files can be kept below an anchored root, or it is shut. -/
theorem rooted_or_shut (anchored : disk.Anchored root) : disk.Rooted root ∨ disk.Shut root := by
  cases proper : areProper (partsOf root) with
  | false => exact .inr (.inl proper)
  | true =>
      obtain ⟨isTree, origin, way⟩ := anchored proper
      cases walked : disk.walk (disk.origin root) (partsOf root ++ ["."]) with
      | ok reached => exact .inl (.of_walk isTree proper walked)
      | error failure =>
          by_cases missing : failure = .missing
          · rw [missing] at walked
            exact .inl ⟨isTree, proper, origin, way walked⟩
          · exact .inr (.inr ⟨isTree, origin, failure, missing, walked⟩)

/-- A root below which files can be kept is anchored. -/
theorem of_rooted (rooted : disk.Rooted root) : disk.Anchored root :=
  fun _ => ⟨rooted.isTree, rooted.origin, fun _ => rooted.way⟩

/-- A shut root is anchored. -/
theorem of_shut (shut : disk.Shut root) : disk.Anchored root := by
  intro proper
  obtain ⟨isTree, origin, failure, blocked, refused⟩ := shut.refused proper
  refine ⟨isTree, origin, fun missing => ?_⟩
  exact absurd (Except.error.inj (refused.symm.trans missing)) blocked

end Anchored

end Disk

end TableStore
