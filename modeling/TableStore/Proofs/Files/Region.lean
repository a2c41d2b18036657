/-
# Regions of a disk

What a walk along names finds, and which directories are made along them, depends only on what is
there on the way. So two disks that are alike on the way are walked alike, and if one of them also
has directories where the other has nothing, then the walks part only where something is missing.
-/

import TableStore.Proofs.Collections
import TableStore.Proofs.Files.Walk

namespace TableStore

namespace Disk

open HostPath

variable {disk other : Disk} {location : List String} {part : String} {parts rest : List String}

/-- A walk along segments sees only what is on the way. -/
theorem walk_congr
    (same : ∀ upTo, upTo <+: parts →
      disk.node? (location ++ upTo) = other.node? (location ++ upTo))
    (segments : ∀ name ∈ parts, FileName.isSegment name = true) :
    disk.walk location parts = other.walk location parts := by
  induction parts generalizing location with
  | nil => rfl
  | cons part rest ih =>
      have here := same [] List.nil_prefix
      rw [List.append_nil] at here
      have others := fun name member => segments name (List.mem_cons_of_mem part member)
      have further : ∀ upTo, upTo <+: rest →
          disk.node? (location ++ [part] ++ upTo) = other.node? (location ++ [part] ++ upTo) := by
        intro upTo below
        rw [List.append_assoc]
        exact same (part :: upTo) (List.cons_prefix_cons.mpr ⟨rfl, below⟩)
      cases there : disk.node? location with
      | none => rw [walk, walk, ← here, there]
      | some node =>
          cases node with
          | file bytes => rw [walk, walk, ← here, there]
          | directory =>
              have alsoThere := here.symm.trans there
              rw [walk_of_directory there, walk_of_directory alsoThere,
                next_segment (segments part List.mem_cons_self)]
              split
              · rfl
              · exact ih further others

/-- Whether a disk has at a location what another has, or a directory where the other has
nothing. -/
def Covers (disk other : Disk) (location : List String) : Prop :=
  other.node? location = disk.node? location ∨
    other.node? location = none ∧ disk.node? location = some .directory

/-- A disk covers itself. -/
theorem Covers.refl (disk : Disk) (location : List String) : disk.Covers disk location :=
  .inl rfl

section

variable (isTree : other.IsTree) (segments : ∀ name ∈ parts, FileName.isSegment name = true)

include isTree segments

/-- A walk along names that only one of two disks has finds directories, or misses something. -/
theorem walk_of_covers_none (missing : other.node? location = none)
    (covers : ∀ upTo, upTo <+: parts → disk.Covers other (location ++ upTo))
    (short : ∀ upTo name, upTo ++ [name] <+: parts → other.node? (location ++ upTo) = none →
      disk.node? (location ++ upTo) = some .directory → name.utf8ByteSize ≤ nameLimit) :
    disk.walk location parts = .error .missing ∨
      disk.walk location parts = .ok (location ++ parts) ∧
        other.node? (location ++ parts) = none := by
  induction parts generalizing location with
  | nil => exact .inr ⟨by rw [walk, List.append_nil], by rw [List.append_nil, missing]⟩
  | cons part rest ih =>
      have here := covers [] List.nil_prefix
      rw [List.append_nil, Covers, missing] at here
      rcases here with none | ⟨-, directory⟩
      · exact .inl (by simp only [walk, ← none])
      have fits := short [] part (List.cons_prefix_cons.mpr ⟨rfl, List.nil_prefix⟩)
        (by rw [List.append_nil, missing]) (by rw [List.append_nil, directory])
      rw [walk_of_directory directory, next_segment (segments part List.mem_cons_self),
        if_neg (Nat.not_lt.mpr fits), Except.bind, List.append_cons location part rest]
      apply ih fun name member => segments name (List.mem_cons_of_mem part member)
      · exact isTree.node?_eq_none (List.prefix_append _ _) (by simp) (by rw [missing]; simp)
      · intro upTo below
        rw [← List.append_cons]
        exact covers (part :: upTo) (List.cons_prefix_cons.mpr ⟨rfl, below⟩)
      · intro upTo name below
        rw [← List.append_cons]
        exact short (part :: upTo) name (List.cons_prefix_cons.mpr ⟨rfl, below⟩)

/-- Walks end alike on a disk and on one that it covers, or what they lead to is only on the first
of them. -/
theorem walk_of_covers
    (covers : ∀ upTo, upTo <+: parts → disk.Covers other (location ++ upTo))
    (short : ∀ upTo name, upTo ++ [name] <+: parts → other.node? (location ++ upTo) = none →
      disk.node? (location ++ upTo) = some .directory → name.utf8ByteSize ≤ nameLimit) :
    other.walk location parts = disk.walk location parts ∨
      other.walk location parts = .error .missing ∧
        disk.walk location parts = .ok (location ++ parts) ∧
        other.node? (location ++ parts) = none := by
  induction parts generalizing location with
  | nil => exact .inl rfl
  | cons part rest ih =>
      have here := covers [] List.nil_prefix
      rw [List.append_nil] at here
      cases there : other.node? location with
      | none =>
          have walked : other.walk location (part :: rest) = .error .missing := by
            simp only [walk, there]
          rcases walk_of_covers_none isTree segments there covers short with missing | found
          · exact .inl (walked.trans missing.symm)
          · exact .inr ⟨walked, found⟩
      | some node =>
          have same : disk.node? location = some node := by
            rw [← there]
            exact (here.resolve_right fun gone => by simp [there] at gone).symm
          cases node with
          | file bytes => exact .inl (by simp only [walk, there, same])
          | directory =>
              rw [walk_of_directory there, walk_of_directory same,
                next_segment (segments part List.mem_cons_self)]
              split
              · exact .inl rfl
              rw [Except.bind, Except.bind, List.append_cons location part rest]
              apply ih fun name member => segments name (List.mem_cons_of_mem part member)
              · intro upTo below
                rw [← List.append_cons]
                exact covers (part :: upTo) (List.cons_prefix_cons.mpr ⟨rfl, below⟩)
              · intro upTo name below
                rw [← List.append_cons]
                exact short (part :: upTo) name (List.cons_prefix_cons.mpr ⟨rfl, below⟩)

end

/-- Whether a disk is another one on which there is a directory at a location. -/
def HasAlso (location : List String) (disk made : Disk) : Prop :=
  ∀ there, made.node? there = if there = location then some .directory else disk.node? there

/-- A disk on which the directory is there has it. -/
theorem hasAlso_of_directory (directory : disk.node? location = some .directory) :
    HasAlso location disk disk := by
  intro there
  split
  · next same => rw [same, directory]
  · rfl

/-- Whether directories along the parts of a path were made alike on two disks: what is anywhere was
there before, or it is on both a directory along the path. -/
def MadeAlike (location parts : List String) (disk other made alsoMade : Disk) : Prop :=
  ∀ there,
    alsoMade.node? there = other.node? there ∧ made.node? there = disk.node? there ∨
    ∃ upTo, upTo ≠ [] ∧ upTo <+: parts ∧ there = location ++ upTo ∧
      alsoMade.node? there = some .directory ∧ made.node? there = some .directory

namespace MadeAlike

/-- Where nothing is made, it is made alike. -/
theorem refl (location parts : List String) (disk other : Disk) :
    MadeAlike location parts disk other disk other :=
  fun _ => .inl ⟨rfl, rfl⟩

/-- Once the first directory is there, the others are made below it. -/
theorem cons {first second made alsoMade : Disk} (has : HasAlso (location ++ [part]) disk first)
    (alsoHas : HasAlso (location ++ [part]) other second)
    (alike : MadeAlike (location ++ [part]) rest first second made alsoMade) :
    MadeAlike location (part :: rest) disk other made alsoMade := by
  intro there
  rcases alike there with ⟨alsoSame, same⟩ | ⟨upTo, -, below, rfl, alsoThere, isThere⟩
  · rw [has there] at same
    rw [alsoHas there] at alsoSame
    by_cases next : there = location ++ [part]
    · rw [if_pos next] at same alsoSame
      exact .inr ⟨[part], List.cons_ne_nil _ _, List.cons_prefix_cons.mpr ⟨rfl, List.nil_prefix⟩,
        next, alsoSame, same⟩
    · rw [if_neg next] at same alsoSame
      exact .inl ⟨alsoSame, same⟩
  · exact .inr ⟨part :: upTo, List.cons_ne_nil _ _, List.cons_prefix_cons.mpr ⟨rfl, below⟩,
      (List.append_cons _ _ _).symm, alsoThere, isThere⟩

end MadeAlike

/-- Directories are made alike on a disk and on one that it covers along the way. -/
theorem makeDirectories_of_covers
    (covers : ∀ upTo, upTo ≠ [] → upTo <+: parts → disk.Covers other (location ++ upTo))
    (segments : ∀ name ∈ parts, FileName.isSegment name = true) :
    (other.makeDirectories location parts).1 = (disk.makeDirectories location parts).1 ∧
      MadeAlike location parts disk other (disk.makeDirectories location parts).2
        (other.makeDirectories location parts).2 := by
  induction parts generalizing disk other location with
  | nil => exact ⟨rfl, .refl _ _ _ _⟩
  | cons part rest ih =>
      have others := fun name member => segments name (List.mem_cons_of_mem part member)
      have here := covers [part] (List.cons_ne_nil _ _)
        (List.cons_prefix_cons.mpr ⟨rfl, List.nil_prefix⟩)
      have continued : ∀ first second : Disk, HasAlso (location ++ [part]) disk first →
          HasAlso (location ++ [part]) other second →
          (second.makeDirectories (location ++ [part]) rest).1 =
              (first.makeDirectories (location ++ [part]) rest).1 ∧
            MadeAlike location (part :: rest) disk other
              (first.makeDirectories (location ++ [part]) rest).2
              (second.makeDirectories (location ++ [part]) rest).2 := by
        intro first second has alsoHas
        have covered : ∀ upTo, upTo ≠ [] → upTo <+: rest →
            first.Covers second (location ++ [part] ++ upTo) := by
          intro upTo nonempty below
          have apart : location ++ [part] ++ upTo ≠ location ++ [part] := by simpa using nonempty
          rw [Covers, has, alsoHas, if_neg apart, if_neg apart, ← List.append_cons]
          exact covers (part :: upTo) (List.cons_ne_nil _ _)
            (List.cons_prefix_cons.mpr ⟨rfl, below⟩)
        exact (ih covered others).imp_right (.cons has alsoHas)
      have made := fun disk : Disk =>
        node?_insert disk (List.append_ne_nil_of_right_ne_nil location (List.cons_ne_nil part []))
          .directory
      rw [makeDirectories_segment (segments part List.mem_cons_self),
        makeDirectories_segment (segments part List.mem_cons_self)]
      split
      · exact ⟨rfl, .refl _ _ _ _⟩
      rcases here with same | ⟨missing, directory⟩
      · rw [← same]
        cases there : other.node? (location ++ [part]) with
        | none => exact continued _ _ (made disk) (made other)
        | some node =>
            cases node with
            | file bytes => exact ⟨rfl, .refl _ _ _ _⟩
            | directory =>
                exact continued _ _ (hasAlso_of_directory (same ▸ there))
                  (hasAlso_of_directory there)
      · rw [missing, directory]
        exact continued _ _ (hasAlso_of_directory directory) (made other)

/-- Making directories along segments changes nothing off the way. -/
theorem node?_makeDirectories_of_ne (segments : ∀ name ∈ parts, FileName.isSegment name = true)
    {there : List String}
    (apart : ∀ upTo, upTo ≠ [] → upTo <+: parts → there ≠ location ++ upTo) :
    (disk.makeDirectories location parts).2.node? there = disk.node? there := by
  have covers : ∀ upTo, upTo ≠ [] → upTo <+: parts → disk.Covers disk (location ++ upTo) :=
    fun upTo _ _ => .refl disk _
  rcases (makeDirectories_of_covers covers segments).2 there with
    ⟨same, -⟩ | ⟨upTo, nonempty, below, here, -⟩
  · exact same
  · exact absurd here (apart upTo nonempty below)

end Disk

end TableStore
