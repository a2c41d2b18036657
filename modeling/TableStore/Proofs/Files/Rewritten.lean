/-
# Writing one file, and writing it again

Whether a file can be written does not depend on its contents. A write changes this file and no
other, and the same write once more changes nothing: the directories that it would make are there,
and the contents it would put are those it has put.
-/

import TableStore.Proofs.Collections
import TableStore.Proofs.Files.Written

namespace TableStore

open HostPath

namespace Disk

variable {disk made after other : Disk} {text : String} {bytes : Bytes} {location : List String}

/-- A write fails or succeeds whatever the contents are. -/
theorem fst_write_eq_ok (written : (disk.write text bytes).1 = .ok ()) (others : Bytes) :
    (disk.write text others).1 = .ok () := by
  cases outcome : disk.write text bytes with
  | mk answer after =>
      rw [outcome] at written
      cases written
      obtain ⟨writable, made, location, making, walked, put⟩ := write_eq_ok_iff.mp outcome
      obtain ⟨free, -, -⟩ := of_put put
      have alsoPut := put_eq made location others
      rw [if_neg free] at alsoPut
      rw [write_eq_ok_iff.mpr ⟨writable, made, location, making, walked, alsoPut⟩]

/-- Making directories keeps the working directory. -/
theorem workingDirectory_of_making {parts : List String}
    (making : disk.makeDirectories location parts = (.ok (), made)) :
    made.workingDirectory = disk.workingDirectory := by
  have kept := workingDirectory_makeDirectories disk location parts
  rwa [making] at kept

/-- Making directories replaces none. -/
theorem node?_directory_of_making {parts there : List String}
    (making : disk.makeDirectories location parts = (.ok (), made))
    (directory : disk.node? there = some .directory) : made.node? there = some .directory := by
  have kept := node?_makeDirectories_of_some location parts directory
  rwa [making] at kept

/-- Directories that have been made need not be made again. -/
theorem makeDirectories_again {parts : List String}
    (making : disk.makeDirectories location parts = (.ok (), made))
    (stay : ∀ there, made.node? there = some .directory → other.node? there = some .directory) :
    other.makeDirectories location parts = (.ok (), other) := by
  induction parts generalizing disk location with
  | nil => rfl
  | cons part rest ih =>
      rw [makeDirectories] at making ⊢
      by_cases dot : part = "."
      · rw [if_pos dot] at making ⊢
        exact ih making
      by_cases up : part = ".."
      · rw [if_neg dot, if_pos up] at making ⊢
        exact ih making
      by_cases long : nameLimit < part.utf8ByteSize
      · rw [if_neg dot, if_neg up, if_pos long] at making
        cases making
      rw [if_neg dot, if_neg up, if_neg long] at making ⊢
      -- Whatever is made further on, the next directory is there from now on.
      have continued : ∀ first : Disk, first.node? (location ++ [part]) = some .directory →
          first.makeDirectories (location ++ [part]) rest = (.ok (), made) →
          other.node? (location ++ [part]) = some .directory := by
        intro first here further
        exact stay _ (node?_directory_of_making further here)
      cases here : disk.node? (location ++ [part]) with
      | none =>
          simp only [here] at making
          have below : location ++ [part] ≠ [] := by simp
          have there := node?_insert disk below .directory (location ++ [part])
          rw [if_pos rfl] at there
          simp only [continued _ there making]
          exact ih making
      | some node =>
          cases node with
          | file bytes =>
              simp only [here] at making
              cases making
          | directory =>
              simp only [here] at making
              simp only [continued disk here making]
              exact ih making

/-- The same write once more changes nothing. -/
theorem write_again (written : disk.write text bytes = (.ok (), after)) :
    after.write text bytes = (.ok (), after) := by
  obtain ⟨writable, made, location, making, walked, put⟩ := write_eq_ok_iff.mp written
  have stay := node?_directory_of_put put
  obtain ⟨-, below, rfl⟩ := of_put put
  have start := start_eq (workingDirectory_of_making making) (ofText text)
  refine write_eq_ok_iff.mpr ⟨writable, _, location, ?_, walk_mono stay walked, ?_⟩
  · change Disk.makeDirectories _ (made.start (ofText text)) _ = _
    rw [start]
    exact makeDirectories_again making stay
  · have here := node?_insert made below (.file bytes) location
    rw [if_pos rfl] at here
    rw [put_eq, if_neg (by simp [here])]
    exact congrArg (fun nodes => Except.ok { made with nodes }) (insert_again made.nodes location _)

end Disk

namespace Files

variable {files : Files} {path : String} {bytes : Bytes}

/-- Whether files have come from others by a change of the one file that a path leads to. -/
inductive ChangesOnly (path : String) : Files → Files → Prop
  | memory {before after : MemoryFiles}
      (same : ∀ other, other ≠ path → after.contents[other]? = before.contents[other]?) :
      ChangesOnly path (.memory before) (.memory after)
  | disk {before after : Disk} {root : String} {location : List String} {bytes : Bytes}
      (leads : after.locate (join root path) = .ok (location, .file bytes))
      (same : ∀ other, other ≠ location → after.file? other = before.file? other) :
      ChangesOnly path (.disk before root) (.disk after root)

/-- A write to a disk that succeeds, as one of its tree. -/
theorem write_disk_eq_ok {tree : Disk} {root : String}
    (written : ((Files.disk tree root).write path bytes).1 = .ok ()) :
    ∃ after, tree.write (join root path) bytes = (.ok (), after) ∧
      (Files.disk tree root).write path bytes = (.ok (), .disk after root) := by
  rw [write] at written ⊢
  rcases outcome : tree.write (join root path) bytes with ⟨_ | _, after⟩
  · rw [outcome] at written
    cases written
  · exact ⟨after, rfl, rfl⟩

/-- A write fails or succeeds whatever the contents are. -/
theorem fst_write_eq_ok (written : (files.write path bytes).1 = .ok ()) (others : Bytes) :
    (files.write path others).1 = .ok () := by
  cases files with
  | memory files => rfl
  | disk tree root =>
      obtain ⟨after, outcome, -⟩ := write_disk_eq_ok written
      have accepted := Disk.fst_write_eq_ok (congrArg Prod.fst outcome) others
      rw [write]
      cases also : tree.write (join root path) others with
      | mk answer other =>
          rw [also] at accepted
          cases accepted
          rfl

/-- A write changes one file. -/
theorem changesOnly_write (written : (files.write path bytes).1 = .ok ()) :
    ChangesOnly path files (files.write path bytes).2 := by
  cases files with
  | memory files =>
      refine .memory fun other apart => ?_
      rw [MemoryFiles.write, Std.ExtTreeMap.getElem?_insert]
      simp [apart.symm]
  | disk tree root =>
      obtain ⟨after, outcome, result⟩ := write_disk_eq_ok written
      obtain ⟨location, leads, same⟩ := Disk.locate_of_write outcome
      rw [result]
      exact .disk leads same

/-- The same write once more changes nothing. -/
theorem write_again (written : (files.write path bytes).1 = .ok ()) :
    (files.write path bytes).2.write path bytes = (.ok (), (files.write path bytes).2) := by
  cases files with
  | memory files =>
      exact congrArg (fun contents => (Except.ok (), Files.memory ⟨contents⟩))
        (insert_again files.contents path bytes)
  | disk tree root =>
      obtain ⟨after, outcome, result⟩ := write_disk_eq_ok written
      rw [result, write, Disk.write_again outcome]
      rfl

end Files

end TableStore
