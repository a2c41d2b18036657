/-
# Directories as stretches of sorted paths

The paths that start with the stem of a directory follow each other among the sorted paths, and
none of them is less than the stem. So a walk from the stem on that stops at the first path of
another stem finds all of them, whatever the paths and the name of the directory are.
-/

import Mathlib.Data.List.TakeWhile
import Mathlib.Tactic.Tauto
import TableStore.Files.Memory
import TableStore.Proofs.Collections

namespace TableStore

namespace MemoryFiles

/-- Paths are kept in ascending order. -/
theorem pairwise_keys (files : MemoryFiles) : files.contents.keys.Pairwise (· < ·) := by
  refine files.contents.ordered_keys.imp fun {first second} less => ?_
  exact compareOfLessAndEq_eq_lt.mp less

/-- A path lies below a directory if it starts with its stem. -/
theorem isBelow_iff {directory path : String} :
    isBelow directory path = true ↔ stem directory <+: path.toList :=
  List.isPrefixOf_iff_prefix

/-- The paths below a directory are a stretch of all paths: those before it are less than the
stem, and none after it starts with the stem. -/
theorem exists_keys_eq_append (files : MemoryFiles) (directory : String) :
    ∃ before after, files.contents.keys = before ++ files.pathsBelow directory ++ after ∧
      (∀ path ∈ before, path.toList < stem directory) ∧
      ∀ path ∈ after, isBelow directory path = false := by
  let isLess : String → Bool := fun path => path < String.ofList (stem directory)
  have isLess_iff (path : String) : isLess path = true ↔ path.toList < stem directory := by
    rw [decide_eq_true_iff, String.lt_iff, String.toList_ofList]
  have ascending := files.pairwise_keys
  -- From the stem on, a path before one below the directory lies between it and the stem.
  have notLess : ∀ path ∈ files.contents.keys.dropWhile isLess, ¬path.toList < stem directory := by
    intro path member less
    have final : isLess path = false :=
      eq_false_of_mem_dropWhile (ascending.imp fun {first second} before => by
        rw [isLess_iff, isLess_iff]
        exact List.lt_trans (String.lt_iff.mp before)) member
    exact absurd ((isLess_iff path).mpr less) (Bool.eq_false_iff.mp final)
  refine ⟨files.contents.keys.takeWhile isLess,
    (files.contents.keys.dropWhile isLess).dropWhile (isBelow directory), ?_, ?_, ?_⟩
  · rw [pathsBelow, List.append_assoc, List.takeWhile_append_dropWhile,
      List.takeWhile_append_dropWhile]
  · intro path member
    exact (isLess_iff path).mp (List.all_eq_true.mp List.all_takeWhile path member)
  · intro path member
    refine eq_false_of_mem_dropWhile ?_ member
    refine (ascending.sublist (List.dropWhile_sublist _)).imp_of_mem
      fun {first second} isFirst _ before => ?_
    rw [isBelow_iff, isBelow_iff]
    exact isPrefix_of_between (notLess first isFirst) (String.lt_iff.mp before)

/-- The walk over the paths from the stem of a directory on finds what a look at every path
finds. -/
theorem pathsBelow_eq_filter (files : MemoryFiles) (directory : String) :
    files.pathsBelow directory = files.contents.keys.filter (isBelow directory) := by
  obtain ⟨before, after, split, less, apart⟩ := files.exists_keys_eq_append directory
  have none_before : before.filter (isBelow directory) = [] := by
    refine List.filter_eq_nil_iff.mpr fun path member below => ?_
    exact not_lt_of_isPrefix (isBelow_iff.mp below) (less path member)
  have none_after : after.filter (isBelow directory) = [] := by
    refine List.filter_eq_nil_iff.mpr fun path member => ?_
    exact Bool.eq_false_iff.mp (apart path member)
  have all_between : (files.pathsBelow directory).filter (isBelow directory) =
      files.pathsBelow directory :=
    List.filter_eq_self.mpr fun path member => List.all_eq_true.mp List.all_takeWhile path member
  rw [split, List.filter_append, List.filter_append, none_before, none_after, all_between,
    List.nil_append, List.append_nil]

/-- The paths below a directory are those that start with its stem. -/
theorem mem_pathsBelow {files : MemoryFiles} {directory path : String} :
    path ∈ files.pathsBelow directory ↔
      path ∈ files.contents ∧ isBelow directory path = true := by
  rw [pathsBelow_eq_filter, List.mem_filter, Std.ExtTreeMap.mem_keys]

/-- The names below a directory are the segments after its stem that are not empty. -/
theorem mem_list {files : MemoryFiles} {directory name : String} :
    name ∈ files.list directory ↔
      name ≠ "" ∧ ∃ path ∈ files.contents, isBelow directory path = true ∧
        segmentAfter directory path = name := by
  simp only [list, Std.ExtTreeSet.mem_toList, Std.ExtTreeSet.mem_ofList, List.contains_iff_mem,
    List.mem_filter, List.mem_map, mem_pathsBelow, decide_eq_true_eq]
  tauto

/-- Names are listed in ascending order. -/
theorem pairwise_list (files : MemoryFiles) (directory : String) :
    (files.list directory).Pairwise (· < ·) := by
  refine Std.ExtTreeSet.ordered_toList.imp fun {first second} less => ?_
  exact compareOfLessAndEq_eq_lt.mp less

/-- What is stored after everything below a directory is removed. -/
theorem getElem?_deleteAll (files : MemoryFiles) (directory path : String) :
    (files.deleteAll directory).contents[path]? =
      if isBelow directory path = true then none else files.contents[path]? := by
  rw [deleteAll, Std.ExtTreeMap.getElem?_filter']
  cases files.contents[path]? <;> cases isBelow directory path <;> rfl

/-- Nothing is listed below a directory that is removed. -/
theorem list_deleteAll (files : MemoryFiles) (directory : String) :
    (files.deleteAll directory).list directory = [] := by
  refine List.eq_nil_iff_forall_not_mem.mpr fun name member => ?_
  obtain ⟨-, path, stored, below, -⟩ := mem_list.mp member
  rw [Std.ExtTreeMap.mem_iff_isSome_getElem?, getElem?_deleteAll, if_pos below] at stored
  cases stored

/-- The text in front of the paths below a directory: none for the directory without a name, else
its name up to the slashes at its end, and one slash. -/
inductive IsStem : String → List Char → Prop
  | unnamed : IsStem "" []
  | named {directory : String} {letters : List Char} (slashes : Nat) (nonempty : directory ≠ "")
      (text : directory.toList = letters ++ List.replicate slashes '/')
      (trimmed : letters.getLast? ≠ some '/') : IsStem directory (letters ++ ['/'])

/-- The stem of a directory is the text in front of the paths below it. -/
theorem isStem_stem (directory : String) : IsStem directory (stem directory) := by
  by_cases unnamed : directory = ""
  · rw [stem, if_pos unnamed, unnamed]
    exact .unnamed
  · rw [stem, if_neg unnamed]
    let isSlash : Char → Bool := fun c => c = '/'
    let reversed := directory.toList.reverse
    refine .named (reversed.takeWhile isSlash).length unnamed ?_ ?_
    · have slashes : reversed.takeWhile isSlash =
          List.replicate (reversed.takeWhile isSlash).length '/' :=
        List.eq_replicate_of_mem fun c member =>
          of_decide_eq_true (List.all_eq_true.mp List.all_takeWhile c member)
      rw [← List.reverse_replicate, ← slashes, ← List.reverse_append,
        List.takeWhile_append_dropWhile, List.reverse_reverse]
    · rw [List.getLast?_reverse]
      intro last
      have isEnd := List.head?_dropWhile_not isSlash reversed
      rw [last] at isEnd
      cases isEnd

/-- Whether a name is the first segment of a path after a stem: no slash is in it, and after it
the path ends or goes on with a slash. -/
structure IsFirstSegment (stem : List Char) (path name : String) : Prop where
  slash_notMem : '/' ∉ name.toList
  text : path.toList = stem ++ name.toList ∨
    ∃ rest, path.toList = stem ++ name.toList ++ '/' :: rest

/-- The segment after the stem of a directory is the first one of a path below it. -/
theorem isFirstSegment_iff {directory path name : String} :
    IsFirstSegment (stem directory) path name ↔
      isBelow directory path = true ∧ segmentAfter directory path = name := by
  rw [isBelow_iff, segmentAfter]
  constructor
  · rintro ⟨plain, text⟩
    have passed : ∀ c ∈ name.toList, decide (c ≠ '/') = true := by
      intro c member
      simpa using fun slash : c = '/' => plain (slash ▸ member)
    rcases text with text | ⟨rest, text⟩
    · refine ⟨text ▸ List.prefix_append _ _, ?_⟩
      rw [text, List.drop_left, List.takeWhile_eq_self_iff.mpr passed, String.ofList_toList]
    · rw [List.append_assoc] at text
      refine ⟨text ▸ List.prefix_append _ _, ?_⟩
      rw [text, List.drop_left, List.takeWhile_append_of_pos passed,
        List.takeWhile_cons_of_neg (by simp), List.append_nil, String.ofList_toList]
  · rintro ⟨⟨rest, text⟩, rfl⟩
    rw [← text, List.drop_left]
    refine ⟨?_, ?_⟩
    · rw [String.toList_ofList]
      intro member
      simpa using List.all_eq_true.mp List.all_takeWhile _ member
    · have parts : (rest.takeWhile fun c => decide (c ≠ '/')) ++
          (rest.dropWhile fun c => decide (c ≠ '/')) = rest := List.takeWhile_append_dropWhile
      have stops := List.head?_dropWhile_not (fun c : Char => decide (c ≠ '/')) rest
      rw [String.toList_ofList, ← text]
      cases following : rest.dropWhile fun c => decide (c ≠ '/') with
      | nil =>
          rw [following, List.append_nil] at parts
          exact .inl (congrArg (stem directory ++ ·) parts.symm)
      | cons c others =>
          rw [following] at parts stops
          obtain rfl : c = '/' := by simpa using stops
          exact .inr ⟨others, by rw [List.append_assoc, parts]⟩

/-- What the walk lists and what is removed with a directory are determined by its stem alone.
The names listed are, each once and ascending, the first segments after the stem, as long as they
are not empty, of all paths with the stem, which are the paths the walk meets. Removing the
directory removes just these paths, so nothing is listed below it afterwards. -/
theorem list_and_deleteAll_by_stem (files : MemoryFiles) (directory : String) :
    IsStem directory (stem directory) ∧
      files.pathsBelow directory =
        files.contents.keys.filter (fun path : String => stem directory <+: path.toList) ∧
      (files.list directory).Pairwise (· < ·) ∧
      (∀ name, name ∈ files.list directory ↔
        name ≠ "" ∧ ∃ path ∈ files.contents, IsFirstSegment (stem directory) path name) ∧
      (∀ path : String, (files.deleteAll directory).contents[path]? =
        if stem directory <+: path.toList then none else files.contents[path]?) ∧
      (files.deleteAll directory).list directory = [] := by
  refine ⟨isStem_stem directory, ?_, files.pairwise_list directory, fun name => ?_, fun path => ?_,
    files.list_deleteAll directory⟩
  · rw [pathsBelow_eq_filter]
    exact List.filter_congr fun path _ => by
      rw [Bool.eq_iff_iff, isBelow_iff, decide_eq_true_iff]
  · simp only [mem_list, isFirstSegment_iff]
  · simp only [getElem?_deleteAll, isBelow_iff]

/-- Slashes at its end do not change what a directory is, and names that go on after it are not
below it. -/
example :
    ((((empty.write "films/rows/1" []).write "films" []).write "films!" []).write "films2/a"
      []).list "films//" = ["rows"] := by
  rfl

end MemoryFiles

end TableStore
