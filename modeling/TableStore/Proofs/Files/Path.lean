/-
# Paths below a root

The paths of a store are segments between slashes. Below a root, such a path has the parts of the
root in front of its own, whatever slashes the root ends with, and starts at the top if the root
does.
-/

import TableStore.Files.Disk
import TableStore.Proofs.Files.Place

namespace TableStore

namespace HostPath

/-- What stands between the slashes of two texts with a slash between them. -/
theorem segmentsOf_append_slash (first second : String) :
    segmentsOf (first ++ "/" ++ second) = segmentsOf first ++ segmentsOf second := by
  have letters : (first ++ "/" ++ second).toList = first.toList ++ '/' :: second.toList := by
    simp
  rw [segmentsOf, letters, List.splitOn_append_cons_self, List.map_append]
  rfl

/-- A text without slashes stands for itself. -/
theorem segmentsOf_of_notMem {text : String} (noSlash : '/' ∉ text.toList) :
    segmentsOf text = [text] := by
  rw [segmentsOf, List.splitOn_eq_singleton noSlash, List.map_singleton, String.ofList_toList]

/-- An empty text stands for itself. -/
theorem segmentsOf_empty : segmentsOf "" = [""] :=
  rfl

/-- A text is what stands between its slashes, with the slashes. -/
theorem intercalate_segmentsOf (text : String) : "/".intercalate (segmentsOf text) = text := by
  apply String.toList_inj.mp
  have letters : String.toList ∘ String.ofList = id := funext fun _ => String.toList_ofList
  rw [String.toList_intercalate, segmentsOf, List.map_map, letters, List.map_id]
  exact List.intercalate_splitOn '/'

/-- Something stands between the slashes of every text. -/
theorem segmentsOf_ne_nil (text : String) : segmentsOf text ≠ [] :=
  mt List.map_eq_nil_iff.mp (List.splitOn_ne_nil '/' text.toList)

/-- What stands between the slashes tells texts apart. -/
theorem segmentsOf_injective {first second : String} (same : segmentsOf first = segmentsOf second) :
    first = second := by
  rw [← intercalate_segmentsOf first, same, intercalate_segmentsOf second]

/-- The size of segments with slashes between them. -/
theorem utf8ByteSize_intercalate_le_append (segments others : List String) :
    ("/".intercalate segments).utf8ByteSize ≤
      ("/".intercalate (segments ++ others)).utf8ByteSize := by
  by_cases empty : segments = []
  · rw [empty, String.intercalate_nil]
    exact Nat.zero_le _
  by_cases alone : others = []
  · exact Nat.le_of_eq (by rw [alone, List.append_nil])
  · rw [String.intercalate_append_of_ne_nil empty alone, String.utf8ByteSize_append,
      String.utf8ByteSize_append, Nat.add_assoc]
    exact Nat.le_add_right _ _

/-- Without its tail, a list of segments is the start of one with it. -/
theorem isPrefix_withoutTail (segments : List String) : withoutTail segments <+: segments := by
  have tail := List.dropWhile_suffix (l := segments.reverse) fun segment =>
    decide (segment = "" ∨ segment = ".")
  rw [withoutTail, ← List.reverse_suffix, List.reverse_reverse]
  exact tail

/-- The directory in which a path lies has no longer text than the path. -/
theorem utf8ByteSize_parentText_le (text : String) :
    (parentText text).utf8ByteSize ≤ text.utf8ByteSize := by
  have start : withoutTail (withoutTail (segmentsOf text)).dropLast <+: segmentsOf text :=
    (isPrefix_withoutTail _).trans ((List.dropLast_prefix _).trans (isPrefix_withoutTail _))
  obtain ⟨others, whole⟩ := start
  have size := utf8ByteSize_intercalate_le_append
    (withoutTail (withoutTail (segmentsOf text)).dropLast) others
  rw [whole, intercalate_segmentsOf] at size
  exact size

variable {names : List String}

/-- Segments with slashes between them are what stands between the slashes. -/
theorem segmentsOf_intercalate (nonempty : names ≠ [])
    (segments : ∀ name ∈ names, FileName.isSegment name = true) :
    segmentsOf ("/".intercalate names) = names := by
  induction names with
  | nil => exact absurd rfl nonempty
  | cons first rest ih =>
      have plain := FileName.slash_notMem_of_isSegment (segments first List.mem_cons_self)
      by_cases last : rest = []
      · rw [last, String.intercalate_singleton, segmentsOf_of_notMem plain]
      · rw [String.intercalate_cons_of_ne_nil last, segmentsOf_append_slash,
          segmentsOf_of_notMem plain, List.singleton_append,
          ih last fun name member => segments name (List.mem_cons_of_mem first member)]

/-- Segments are not empty, so none is lost among the parts. -/
theorem filter_segments (segments : ∀ name ∈ names, FileName.isSegment name = true) :
    (names.filter fun part => decide (part ≠ "")) = names := by
  apply List.filter_eq_self.mpr
  intro name member
  exact decide_eq_true (FileName.ne_empty_of_isSegment (segments name member))

/-- What stands between the slashes of a text that ends with one. -/
theorem segmentsOf_append_last (text : String) :
    segmentsOf (text ++ "/") = segmentsOf text ++ [""] := by
  have split := segmentsOf_append_slash text ""
  rwa [String.append_empty, segmentsOf_empty] at split

/-- A text that ends with a slash is another one and a slash. -/
theorem exists_append_slash {text : String} (last : text.toList.getLast? = some '/') :
    ∃ start, text = start ++ "/" := by
  obtain ⟨letters, whole⟩ := List.getLast?_eq_some_iff.mp last
  refine ⟨String.ofList letters, String.toList_inj.mp ?_⟩
  rw [whole, String.toList_append, String.toList_ofList]
  rfl

/-- Whether every part of a path is a name: none is missing or stands for a directory by where it
is. -/
def IsPlain (path : String) : Prop :=
  ∀ part ∈ segmentsOf path, part ≠ "" ∧ part ≠ "." ∧ part ≠ ".."

/-- Segments with slashes between them are a plain path. -/
theorem isPlain_intercalate (nonempty : names ≠ [])
    (segments : ∀ name ∈ names, FileName.isSegment name = true) :
    IsPlain ("/".intercalate names) := by
  intro name member
  rw [segmentsOf_intercalate nonempty segments] at member
  have segment := segments name member
  refine ⟨FileName.ne_empty_of_isSegment segment, ?_, ?_⟩
  · rintro rfl
    exact absurd segment (by decide)
  · rintro rfl
    exact absurd segment (by decide)

/-- A plain path below another one is plain. -/
theorem IsPlain.append {first second : String} (plain : IsPlain first)
    (alsoPlain : IsPlain second) : IsPlain (first ++ "/" ++ second) := by
  intro part member
  rw [segmentsOf_append_slash] at member
  exact (List.mem_append.mp member).elim (plain part) (alsoPlain part)

section

variable {path : String} (plain : IsPlain path)

include plain

/-- No part of a plain path is missing. -/
theorem IsPlain.empty_notMem : "" ∉ segmentsOf path :=
  fun member => (plain "" member).1 rfl

/-- A plain path is some text. -/
theorem IsPlain.ne_empty : path ≠ "" := by
  rintro rfl
  exact plain.empty_notMem (segmentsOf_empty ▸ List.mem_singleton_self "")

/-- A plain path does not start with a slash. -/
theorem IsPlain.not_isAbsolute : isAbsolute path = false := by
  apply decide_eq_false
  intro first
  obtain ⟨letters, whole⟩ := List.head?_eq_some_iff.mp first
  have text : path = "" ++ "/" ++ String.ofList letters := by
    apply String.toList_inj.mp
    rw [whole]
    simp
  apply plain.empty_notMem
  rw [text, segmentsOf_append_slash, segmentsOf_empty]
  exact List.mem_cons_self

/-- A plain path does not end with a slash. -/
theorem IsPlain.getLast?_ne : path.toList.getLast? ≠ some '/' := by
  intro last
  obtain ⟨start, text⟩ := exists_append_slash last
  apply plain.empty_notMem
  rw [text, segmentsOf_append_last]
  exact List.mem_append_right _ (List.mem_singleton_self "")

/-- The parts of a plain path are what stands between its slashes. -/
theorem IsPlain.partsOf_eq : partsOf path = segmentsOf path := by
  apply List.filter_eq_self.mpr
  intro part member
  exact decide_eq_true (plain part member).1

/-- The parts of a path below a root are those of the root and those of the path. -/
theorem IsPlain.partsOf_join (root : String) :
    partsOf (join root path) = partsOf root ++ segmentsOf path := by
  have own := plain.partsOf_eq
  rw [join, if_neg plain.ne_empty, if_neg (by simp [plain.not_isAbsolute])]
  split
  · next ends =>
      rcases ends with rfl | last
      · rw [String.empty_append, own]
        simp [partsOf, segmentsOf_empty]
      · obtain ⟨start, rfl⟩ := exists_append_slash last
        rw [partsOf, segmentsOf_append_slash, List.filter_append, ← partsOf, ← partsOf, own]
        simp [partsOf, segmentsOf_append_last]
  · rw [partsOf, segmentsOf_append_slash, List.filter_append, ← partsOf, ← partsOf, own]

/-- A path below a root starts where the root does. -/
theorem IsPlain.isAbsolute_join (root : String) :
    isAbsolute (join root path) = isAbsolute root := by
  rw [join, if_neg plain.ne_empty, if_neg (by simp [plain.not_isAbsolute])]
  by_cases empty : root = ""
  · rw [if_pos (.inl empty), empty, String.empty_append, plain.not_isAbsolute]
    rfl
  · obtain ⟨first, rest, letters⟩ := List.exists_cons_of_ne_nil fun none =>
      empty (String.toList_eq_nil_iff.mp none)
    split <;> simp [isAbsolute, letters]

/-- A path below a root ends with a name, and not with a slash. -/
theorem IsPlain.getLast?_join_ne (root : String) :
    (join root path).toList.getLast? ≠ some '/' := by
  have own := plain.getLast?_ne
  cases found : path.toList.getLast? with
  | none =>
      rw [List.getLast?_eq_none_iff, String.toList_eq_nil_iff] at found
      exact absurd found plain.ne_empty
  | some last =>
      rw [found] at own
      rw [join, if_neg plain.ne_empty, if_neg (by simp [plain.not_isAbsolute])]
      split
      · rwa [String.toList_append, List.getLast?_append, found, Option.some_or]
      · rwa [String.toList_append, List.getLast?_append, found, Option.some_or]

/-- A plain path below a root, taken apart. -/
theorem IsPlain.ofText_join (root : String) :
    ofText (join root path) =
      ⟨isAbsolute root, partsOf root ++ segmentsOf path, false⟩ := by
  rw [ofText, plain.isAbsolute_join root, plain.partsOf_join root,
    decide_eq_false (plain.getLast?_join_ne root), Bool.and_false]

/-- A plain path lies in the directory that its parts before the last one lead to. -/
theorem IsPlain.parent_join (root : String) :
    (ofText (join root path)).parent = partsOf root ++ (segmentsOf path).dropLast := by
  rw [plain.ofText_join root, parent]
  obtain ⟨start, last, whole⟩ : ∃ start last, segmentsOf path = start ++ [last] :=
    ⟨_, _, (List.dropLast_concat_getLast (segmentsOf_ne_nil path)).symm⟩
  have name : last ≠ "." := (plain last (by rw [whole]; simp)).2.1
  simp [whole, name]

/-- A plain path does not end in dots. -/
theorem IsPlain.endsInDots_join (root : String) :
    (ofText (join root path)).endsInDots = false := by
  rw [plain.ofText_join root, endsInDots]
  obtain ⟨start, last, whole⟩ : ∃ start last, segmentsOf path = start ++ [last] :=
    ⟨_, _, (List.dropLast_concat_getLast (segmentsOf_ne_nil path)).symm⟩
  obtain ⟨-, one, two⟩ := plain last (by rw [whole]; simp)
  simp [whole, one, two]

end

/-- A path below a root, taken apart. -/
theorem ofText_join (root : String) (nonempty : names ≠ [])
    (segments : ∀ name ∈ names, FileName.isSegment name = true) :
    ofText (join root ("/".intercalate names)) =
      ⟨isAbsolute root, partsOf root ++ names, false⟩ := by
  rw [(isPlain_intercalate nonempty segments).ofText_join root,
    segmentsOf_intercalate nonempty segments]

end HostPath

end TableStore
