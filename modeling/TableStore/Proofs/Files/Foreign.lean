/-
# Foreign entries among the rows

The directory of the rows of a table may have entries that are not named for rows. A disk on which
there are such entries, and the directories that they lie in, answers every access to a row or an
index as it would without them, and no such access changes them.
-/

import TableStore.Proofs.Files.Fresh
import TableStore.Proofs.Files.Subtree

namespace TableStore

open HostPath

/-- Whether parts of a path lead to an entry among the rows of a table that is not named for a row,
or further down from there. -/
def IsForeign (table : String) (names : List String) : Prop :=
  ∃ name rest, names = table :: Area.rows.name :: name :: rest ∧ ∀ id : RowId, name ≠ id.fileName

/-- The parts of the directory of the rows of a table. -/
def rowsOf (table : String) : List String :=
  [table, Area.rows.name]

namespace IsForeign

variable {table : String} {names more : List String}

/-- What leads further down from a foreign entry is foreign. -/
theorem mono (isForeign : IsForeign table names) (further : names <+: more) :
    IsForeign table more := by
  obtain ⟨name, rest, rfl, unnamed⟩ := isForeign
  obtain ⟨others, rfl⟩ := further
  exact ⟨name, rest ++ others, rfl, unnamed⟩

/-- Whether parts lead to a foreign entry is told by the first of them. -/
theorem of_cons {other area name : String} {rest : List String}
    (isForeign : IsForeign table (other :: area :: name :: rest)) :
    IsForeign table [other, area, name] := by
  obtain ⟨_, _, same, unnamed⟩ := isForeign
  simp only [List.cons.injEq] at same
  obtain ⟨here, areas, names, -⟩ := same
  exact ⟨name, [], by rw [here, areas], names ▸ unnamed⟩

/-- Foreign entries lie below the directory of the rows. -/
theorem not_within (isForeign : IsForeign table names) (other : String) (area : Area) :
    ¬names <+: [other, area.name] := by
  obtain ⟨name, rest, rfl, -⟩ := isForeign
  intro above
  simpa using above.length_le

/-- Nothing but a foreign entry lies where a foreign entry does. -/
theorem append_ne (isForeign : IsForeign table names) {others : List String}
    (plain : ¬IsForeign table others) (location : List String) :
    location ++ names ≠ location ++ others := fun same =>
  plain (List.append_cancel_left same ▸ isForeign)

end IsForeign

namespace Place

variable {table : String} (place : Place)

/-- A file is foreign if it lies among the rows under a name that no identifier is read off. -/
theorem isForeign_iff :
    IsForeign table place.names ↔
      place.table = table ∧ place.area = .rows ∧ RowId.ofFileName? place.name = none := by
  constructor
  · rintro ⟨name, rest, names, unnamed⟩
    simp only [Place.names, List.cons.injEq] at names
    obtain ⟨here, area, rfl, -⟩ := names
    refine ⟨here, Area.name_injective area, ?_⟩
    exact Option.eq_none_iff_forall_ne_some.mpr fun id named =>
      unnamed id (RowId.ofFileName?_eq_some_iff.mp named)
  · rintro ⟨here, area, none⟩
    refine ⟨place.name, [], by rw [Place.names, here, area], fun id named => ?_⟩
    rw [named, RowId.ofFileName?_fileName] at none
    cases none

/-- Other numbers of digits, too great a number, other endings and other digits do not name rows. -/
example : ["42.json", "00042.json", "18446744073709551616.json", "0042.txt", "+042.json",
    "٠٠٤٢.json"].all fun name => RowId.ofFileName? name = none := by decide +kernel

/-- The file of a row is not foreign. -/
theorem not_isForeign_row (isTable : FileName.isSegment table = true) (id : RowId)
    (other : String) : ¬IsForeign other (row table isTable id).names := by
  intro isForeign
  obtain ⟨-, -, none⟩ := (isForeign_iff _).mp isForeign
  cases (RowId.ofFileName?_fileName id).symm.trans none

/-- The file of an index is not foreign. -/
theorem not_isForeign_index (isTable : FileName.isSegment table = true) {column : String}
    (isColumn : FileName.isSegment column = true) (other : String) :
    ¬IsForeign other (index table isTable column isColumn).names := by
  intro isForeign
  obtain ⟨-, area, -⟩ := (isForeign_iff _).mp isForeign
  cases area

/-- The way to a place leads further than to the directory of the rows. -/
theorem names_not_within (table : String) : ¬place.names <+: rowsOf table := fun above => by
  simpa [names, rowsOf] using above.length_le

/-- The way to a place leads through the directory of its area. -/
theorem prefix_of_prefix_names {upTo : List String} (below : upTo <+: place.names) :
    upTo <+: [place.table, place.area.name] ∨ upTo = place.names := by
  have parts : place.names = [place.table, place.area.name] ++ [place.name] := rfl
  rw [parts, List.prefix_concat_iff] at below
  exact below.symm

variable {place}

/-- On the way to a place that is not foreign, the names in the directories in which foreign entries
lie are short. -/
theorem utf8ByteSize_le_of_not_isForeign (plain : ¬IsForeign table place.names)
    {upTo : List String} {name : String} (below : upTo ++ [name] <+: place.names)
    (nonempty : upTo ≠ []) (within : upTo <+: rowsOf table) :
    name.utf8ByteSize ≤ Disk.nameLimit := by
  match upTo with
  | [] => exact absurd rfl nonempty
  | [_] =>
      simp only [Place.names, List.singleton_append, List.cons_prefix_cons] at below
      obtain ⟨-, rfl, -⟩ := below
      cases place.area <;> decide
  | [_, _] =>
      simp only [Place.names, List.cons_append, List.nil_append, List.cons_prefix_cons] at below
      simp only [rowsOf, List.cons_prefix_cons] at within
      obtain ⟨rfl, rfl, rfl, -⟩ := below
      obtain ⟨here, area, -⟩ := within
      by_contra long
      refine plain ⟨place.name, [], by rw [Place.names, here, area], fun id named => long ?_⟩
      exact named ▸ id.utf8ByteSize_fileName_le
  | _ :: _ :: _ :: _ =>
      have few := within.length_le
      simp [rowsOf] at few

end Place

namespace Disk

variable {root table : String} {first second : Disk}

/-- Whether a disk is another one on which foreign entries may have been strewn among the rows of a
table, with the directories that these lie in. -/
structure Strewn (root table : String) (first second : Disk) : Prop where
  working : second.workingDirectory = first.workingDirectory
  rooted : first.Rooted root
  alsoRooted : second.Rooted root
  nodes : ∀ names, ¬IsForeign table names →
    first.node? (first.base root ++ names) = second.node? (first.base root ++ names) ∨
      names <+: rowsOf table ∧ first.node? (first.base root ++ names) = none ∧
        second.node? (first.base root ++ names) = some .directory

/-- Whether the foreign entries among the rows of a table are on a disk what they were on
another. -/
structure Untouched (root table : String) (before after : Disk) : Prop where
  working : after.workingDirectory = before.workingDirectory
  nodes : ∀ names, IsForeign table names →
    after.node? (before.base root ++ names) = before.node? (before.base root ++ names)

namespace Untouched

variable {before between after : Disk}

/-- Foreign entries are what they are. -/
theorem refl (disk : Disk) : Untouched root table disk disk where
  working := rfl
  nodes _ _ := rfl

/-- Changes that leave foreign entries alone, one after another. -/
theorem trans (untouched : Untouched root table before between)
    (further : Untouched root table between after) : Untouched root table before after where
  working := further.working.trans untouched.working
  nodes names isForeign := by
    have later := further.nodes names isForeign
    rw [base_eq untouched.working] at later
    exact later.trans (untouched.nodes names isForeign)

end Untouched

namespace Strewn

/-- Nothing is strewn on a disk as it is. -/
theorem refl (rooted : first.Rooted root) : Strewn root table first first where
  working := rfl
  rooted := rooted
  alsoRooted := rooted
  nodes _ _ := .inl rfl

/-- Foreign entries are all that was strewn, one time after another. -/
theorem trans {third : Disk} (strewn : Strewn root table first second)
    (further : Strewn root table second third) : Strewn root table first third where
  working := further.working.trans strewn.working
  rooted := strewn.rooted
  alsoRooted := further.alsoRooted
  nodes names plain := by
    have later := further.nodes names plain
    rw [base_eq strewn.working] at later
    rcases strewn.nodes names plain with same | ⟨within, missing, directory⟩
    · rw [same]
      exact later
    · refine .inr ⟨within, missing, ?_⟩
      rcases later with same | ⟨-, alsoMissing, -⟩
      · rw [← same, directory]
      · cases alsoMissing.symm.trans directory

/-- Foreign entries are still all that was strewn after both disks have changed alike elsewhere. -/
theorem after (strewn : Strewn root table first second) {after other : Disk}
    (working : after.workingDirectory = first.workingDirectory) (rooted : after.Rooted root)
    (alsoWorking : other.workingDirectory = second.workingDirectory)
    (alsoRooted : other.Rooted root)
    (nodes : ∀ names, ¬IsForeign table names →
      after.node? (first.base root ++ names) = first.node? (first.base root ++ names) ∧
          other.node? (first.base root ++ names) = second.node? (first.base root ++ names) ∨
        after.node? (first.base root ++ names) = other.node? (first.base root ++ names)) :
    Strewn root table after other where
  working := alsoWorking.trans (strewn.working.trans working.symm)
  rooted := rooted
  alsoRooted := alsoRooted
  nodes names plain := by
    rw [base_eq working]
    rcases nodes names plain with ⟨same, alsoSame⟩ | equal
    · rw [same, alsoSame]
      exact strewn.nodes names plain
    · exact .inl equal

/-- They are, too, after changes in the directory of one table. -/
theorem within (strewn : Strewn root table first second) {own : String} {after other : Disk}
    (changed : Within root own first after) (alsoChanged : Within root own second other)
    (nodes : ∀ names, ¬IsForeign table names →
      after.node? (first.base root ++ names) = first.node? (first.base root ++ names) ∧
          other.node? (first.base root ++ names) = second.node? (first.base root ++ names) ∨
        after.node? (first.base root ++ names) = other.node? (first.base root ++ names)) :
    Strewn root table after other :=
  strewn.after changed.working (changed.rooted strewn.rooted) alsoChanged.working
    (alsoChanged.rooted strewn.alsoRooted) nodes

variable (strewn : Strewn root table first second)

include strewn

/-- Both disks have the same where no foreign entries lie below. -/
theorem node?_eq {names : List String} (plain : ¬IsForeign table names)
    (outside : ¬names <+: rowsOf table) :
    first.node? (first.base root ++ names) = second.node? (first.base root ++ names) :=
  (strewn.nodes names plain).resolve_right fun above => outside above.1

/-- What is there without foreign entries is there with them, or it is a directory with them
only. -/
theorem covers {names : List String} (plain : ¬IsForeign table names) :
    second.Covers first (first.base root ++ names) :=
  (strewn.nodes names plain).imp_right And.right

/-- A root that is there is there with foreign entries, too. -/
theorem root_of_root (there : first.node? (first.base root) = some .directory) :
    second.node? (first.base root) = some .directory := by
  have plain : ¬IsForeign table [] := fun isForeign =>
    isForeign.not_within "" .rows List.nil_prefix
  have here := strewn.covers plain
  rw [List.append_nil, Covers, there] at here
  rcases here with same | ⟨missing, -⟩
  · exact same.symm
  · cases missing

section

variable {place : Place} (plain : ¬IsForeign table place.names)
  (hosts : first.node? (first.base root) = some .directory ∨
    place.table.utf8ByteSize ≤ nameLimit)

include plain hosts

/-- On the way to a place, the names in directories that are there with foreign entries only are
short. -/
theorem short {upTo : List String} {name : String} (below : upTo ++ [name] <+: place.names)
    (missing : first.node? (first.base root ++ upTo) = none)
    (directory : second.node? (first.base root ++ upTo) = some .directory) :
    name.utf8ByteSize ≤ nameLimit := by
  have upToPlain : ¬IsForeign table upTo := fun isForeign =>
    plain (isForeign.mono ((List.prefix_append upTo [name]).trans below))
  rcases strewn.nodes upTo upToPlain with same | ⟨within, -⟩
  · rw [missing, directory] at same
    cases same
  by_cases empty : upTo = []
  · rw [empty, List.append_nil] at missing
    rw [empty, List.nil_append, Place.names, List.cons_prefix_cons] at below
    rw [below.1]
    exact hosts.resolve_left (by rw [missing]; simp)
  · exact Place.utf8ByteSize_le_of_not_isForeign plain below empty within

/-- A walk on the way to a place ends alike with and without foreign entries, or at a directory that
is there with foreign entries only. -/
theorem walk {names : List String} (nonempty : names ≠ []) (onWay : names <+: place.names) :
    first.walk (first.origin root) (partsOf root ++ names) =
        second.walk (second.origin root) (partsOf root ++ names) ∨
      first.walk (first.origin root) (partsOf root ++ names) = .error .missing ∧
        second.walk (second.origin root) (partsOf root ++ names) =
          .ok (first.base root ++ names) ∧
        first.node? (first.base root ++ names) = none := by
  have sameBase := base_eq strewn.working root
  have segments : ∀ name ∈ names, FileName.isSegment name = true := fun name member =>
    place.isSegment_of_mem_names name (onWay.subset member)
  have covers : ∀ upTo, upTo <+: names → second.Covers first (first.base root ++ upTo) :=
    fun upTo below => strewn.covers fun isForeign => plain (isForeign.mono (below.trans onWay))
  have short : ∀ upTo name, upTo ++ [name] <+: names →
      first.node? (first.base root ++ upTo) = none →
      second.node? (first.base root ++ upTo) = some .directory →
      name.utf8ByteSize ≤ nameLimit :=
    fun upTo name below => strewn.short plain hosts (below.trans onWay)
  rcases strewn.rooted.node?_root with there | missing
  · have alsoThere := strewn.root_of_root there
    rw [strewn.rooted.walk_of_root there,
      strewn.alsoRooted.walk_of_root (sameBase ▸ alsoThere), sameBase]
    exact walk_of_covers strewn.rooted.isTree segments covers short
  · rw [strewn.rooted.walk_of_missing missing nonempty]
    rcases strewn.alsoRooted.node?_root with alsoThere | alsoMissing
    · rw [strewn.alsoRooted.walk_of_root alsoThere, sameBase]
      rcases walk_of_covers_none strewn.rooted.isTree segments missing covers short with
        failed | found
      · exact .inl failed.symm
      · exact .inr ⟨rfl, found⟩
    · exact .inl (strewn.alsoRooted.walk_of_missing alsoMissing nonempty).symm

/-- The way to a place leads to the same with and without foreign entries, or to a directory that is
there with foreign entries only. -/
theorem locate {names : List String} (nonempty : names ≠ []) (onWay : names <+: place.names) :
    first.locate (join root ("/".intercalate names)) =
        second.locate (join root ("/".intercalate names)) ∨
      first.locate (join root ("/".intercalate names)) = .error .missing ∧
        second.locate (join root ("/".intercalate names)) =
          .ok (first.base root ++ names, .directory) ∧
        first.node? (first.base root ++ names) = none := by
  have sameBase := base_eq strewn.working root
  have segments : ∀ name ∈ names, FileName.isSegment name = true := fun name member =>
    place.isSegment_of_mem_names name (onWay.subset member)
  rw [locate_eq first strewn.rooted.proper nonempty segments,
    locate_eq second strewn.alsoRooted.proper nonempty segments]
  split
  · exact .inl rfl
  have here := strewn.covers fun isForeign => plain (isForeign.mono onWay)
  rcases strewn.walk plain hosts nonempty onWay with same | ⟨failed, found, missing⟩
  · rw [same]
    cases ended : second.walk (second.origin root) (partsOf root ++ names) with
    | error failure => exact .inl rfl
    | ok reached =>
        have upTo : reached = first.base root ++ names := by
          rw [eq_of_walk ended, destination_append_segments second root segments, sameBase]
        rw [upTo, Except.bind, Except.bind]
        rcases here with equal | ⟨missing, directory⟩
        · rw [equal]
          exact .inl rfl
        · rw [missing, directory]
          exact .inr ⟨rfl, rfl, rfl⟩
  · rw [failed, found, Except.bind, Except.bind]
    rcases here with equal | ⟨-, directory⟩
    · rw [← equal, missing]
      exact .inl rfl
    · rw [directory]
      exact .inr ⟨rfl, rfl, missing⟩

/-- The file at a place is the same with and without foreign entries. -/
theorem locate_place : first.locate (join root ("/".intercalate place.names)) =
    second.locate (join root ("/".intercalate place.names)) := by
  refine (strewn.locate plain hosts place.names_ne_nil List.prefix_rfl).resolve_right ?_
  rintro ⟨-, located, missing⟩
  have there := (of_locate_join place.names_ne_nil
    place.isSegment_of_mem_names located).2
  rw [← strewn.node?_eq plain (place.names_not_within table), missing] at there
  cases there

/-- The file at a place is read alike. -/
theorem read : first.read (join root ("/".intercalate place.names)) =
    second.read (join root ("/".intercalate place.names)) := by
  rw [Disk.read, Disk.read, strewn.locate_place plain hosts]

/-- The file at a place is found alike. -/
theorem isFile : first.isFile (join root ("/".intercalate place.names)) =
    second.isFile (join root ("/".intercalate place.names)) := by
  rw [Disk.isFile, Disk.isFile, strewn.locate_place plain hosts]

/-- The file at a place is removed alike, and foreign entries stay. -/
theorem delete :
    (∃ failure,
      first.delete (join root ("/".intercalate place.names)) = .error failure ∧
      second.delete (join root ("/".intercalate place.names)) = .error failure) ∨
    ∃ after other,
      first.delete (join root ("/".intercalate place.names)) = .ok after ∧
      second.delete (join root ("/".intercalate place.names)) = .ok other ∧
      Strewn root table after other ∧ Untouched root table second other := by
  have same := strewn.locate_place plain hosts
  have segments := place.isSegment_of_mem_names
  have sameBase := base_eq strewn.working root
  rw [Disk.delete, Disk.delete, same]
  cases located : second.locate (join root ("/".intercalate place.names)) with
  | error failure => exact .inl ⟨failure, rfl, rfl⟩
  | ok found =>
      obtain ⟨location, node⟩ := found
      cases node with
      | directory => exact .inl ⟨.isDirectory, rfl, rfl⟩
      | file bytes =>
          rw [located] at same
          obtain ⟨here, there⟩ := of_locate_join place.names_ne_nil segments same
          obtain ⟨-, alsoThere⟩ :=
            of_locate_join place.names_ne_nil segments located
          have below : location ≠ [] := by simp [here, Place.names]
          have inside : first.base root ++ [place.table] <+: location := by
            rw [here, List.prefix_append_right_inj]
            exact ⟨[place.area.name, place.name], rfl⟩
          have erased := node?_erase first below
          have alsoErased := node?_erase second below
          have changed := Within.erase strewn.rooted inside below there
          have alsoChanged := Within.erase strewn.alsoRooted (sameBase ▸ inside) below alsoThere
          refine .inr ⟨_, _, rfl, rfl, strewn.within changed alsoChanged fun names _ => ?_, rfl,
            fun names isForeign => ?_⟩
          · rw [erased, alsoErased]
            split
            · exact .inr rfl
            · exact .inl ⟨rfl, rfl⟩
          · rw [alsoErased, here, sameBase, if_neg (isForeign.append_ne plain _)]

end

/-- The directories of the root are made alike, and foreign entries stay. -/
theorem makeRoot :
    ∃ made other,
      first.makeDirectories (first.origin root) (partsOf root) = (.ok (), made) ∧
      second.makeDirectories (second.origin root) (partsOf root) = (.ok (), other) ∧
      Strewn root table made other ∧ Untouched root table second other ∧
      made.base root = first.base root ∧ other.base root = second.base root ∧
      made.node? (made.base root) = some .directory ∧
      other.node? (other.base root) = some .directory := by
  obtain ⟨made, making, beside, there, nodes⟩ := strewn.rooted.makeRoot table
  obtain ⟨other, alsoMaking, alsoBeside, alsoThere, alsoNodes⟩ := strewn.alsoRooted.makeRoot table
  have sameBase := base_eq strewn.working root
  have madeBase := base_eq beside.working root
  have otherBase := base_eq alsoBeside.working root
  refine ⟨made, other, making, alsoMaking, strewn.after beside.working beside.rooted
    alsoBeside.working alsoBeside.rooted fun names _ => ?_, ⟨alsoBeside.working,
    fun names isForeign => ?_⟩, madeBase, otherBase, there, alsoThere⟩
  · by_cases empty : names = []
    · rw [empty, List.append_nil, ← madeBase, there, madeBase, ← sameBase, ← otherBase, alsoThere]
      exact .inr rfl
    · exact .inl ⟨nodes _ (append_not_isPrefix _ empty),
        alsoNodes _ (sameBase ▸ append_not_isPrefix _ empty)⟩
  · have nonempty : names ≠ [] := by
      obtain ⟨name, rest, rfl, -⟩ := isForeign
      exact List.cons_ne_nil _ _
    exact alsoNodes _ (append_not_isPrefix _ nonempty)

/-- The directories above a place are made alike below roots that are there, and foreign entries
stay. -/
theorem makeDirectories (place : Place) (there : first.node? (first.base root) = some .directory) :
    let names := [place.table, place.area.name]
    (first.makeDirectories (first.base root) names).1 =
        (second.makeDirectories (second.base root) names).1 ∧
      Strewn root table (first.makeDirectories (first.base root) names).2
        (second.makeDirectories (second.base root) names).2 ∧
      Untouched root table second (second.makeDirectories (second.base root) names).2 ∧
      ((first.makeDirectories (first.base root) names).1 = .ok () → ∀ upTo, upTo <+: names →
        (first.makeDirectories (first.base root) names).2.node? (first.base root ++ upTo) =
            some .directory ∧
          (second.makeDirectories (second.base root) names).2.node? (first.base root ++ upTo) =
            some .directory) := by
  intro names
  have segments := Place.isSegment_of_mem_directory place.isTable place.area
  have alsoThere := strewn.root_of_root there
  rw [base_eq strewn.working]
  have covers : ∀ upTo, upTo ≠ [] → upTo <+: names →
      second.Covers first (first.base root ++ upTo) := fun upTo _ below =>
    strewn.covers fun isForeign => isForeign.not_within _ _ below
  obtain ⟨outcomes, nodes⟩ := makeDirectories_of_covers covers segments
  have alsoRooted :=
    strewn.alsoRooted.makeDirectories (base_eq strewn.working root ▸ alsoThere) names
  rw [base_eq strewn.working] at alsoRooted
  refine ⟨outcomes, strewn.after (workingDirectory_makeDirectories _ _ _)
    (strewn.rooted.makeDirectories there names) (workingDirectory_makeDirectories _ _ _)
    alsoRooted fun others _ => ?_, ⟨workingDirectory_makeDirectories _ _ _,
    fun others isForeign => ?_⟩, fun made upTo below => ?_⟩
  · exact (nodes _).imp_right fun ⟨_, _, _, _, made, alsoMade⟩ => made.trans alsoMade.symm
  · rw [base_eq strewn.working]
    rcases nodes (first.base root ++ others) with ⟨-, same⟩ | ⟨upTo, -, below, here, -⟩
    · exact same
    · exact absurd (List.append_cancel_left here ▸ below) (isForeign.not_within _ _)
  · by_cases empty : upTo = []
    · rw [empty, List.append_nil]
      exact ⟨node?_makeDirectories_of_some _ names there,
        node?_makeDirectories_of_some _ names alsoThere⟩
    · exact ⟨node?_of_makeDirectories segments made empty below,
        node?_of_makeDirectories segments (outcomes ▸ made) empty below⟩

section

variable {place : Place} (plain : ¬IsForeign table place.names)

include plain

/-- A file is put alike into a directory that is there, and foreign entries stay. -/
theorem put
    (there : ∀ upTo, upTo <+: [place.table, place.area.name] →
      first.node? (first.base root ++ upTo) = some .directory ∧
        second.node? (first.base root ++ upTo) = some .directory) (bytes : Bytes) :
    (∃ failure,
      (first.walk (first.origin root) (partsOf root ++ place.names)).bind (first.put · bytes) =
        .error failure ∧
      (second.walk (second.origin root) (partsOf root ++ place.names)).bind (second.put · bytes) =
        .error failure) ∨
    ∃ after other,
      (first.walk (first.origin root) (partsOf root ++ place.names)).bind (first.put · bytes) =
        .ok after ∧
      (second.walk (second.origin root) (partsOf root ++ place.names)).bind (second.put · bytes) =
        .ok other ∧
      Strewn root table after other ∧ Untouched root table second other := by
  have sameBase := base_eq strewn.working root
  have segments := place.isSegment_of_mem_names
  obtain ⟨rootThere, alsoRootThere⟩ := there [] List.nil_prefix
  rw [List.append_nil] at rootThere alsoRootThere
  have same : ∀ upTo, upTo <+: place.names →
      first.node? (first.base root ++ upTo) = second.node? (first.base root ++ upTo) := by
    intro upTo below
    rcases place.prefix_of_prefix_names below with within | rfl
    · rw [(there upTo within).1, (there upTo within).2]
    · exact strewn.node?_eq plain (place.names_not_within table)
  rw [strewn.rooted.walk_of_root rootThere, strewn.alsoRooted.walk_of_root
    (sameBase ▸ alsoRootThere), sameBase, walk_congr same segments]
  cases walked : second.walk (first.base root) place.names with
  | error failure => exact .inl ⟨failure, rfl, rfl⟩
  | ok reached =>
      obtain rfl := prefix_of_walk segments walked
      have here := same place.names List.prefix_rfl
      have below : first.base root ++ place.names ≠ [] := by simp [place.names_ne_nil]
      rw [Except.bind, Except.bind, put_eq, put_eq, here]
      split
      · exact .inl ⟨_, rfl, rfl⟩
      next free =>
      have inserted := node?_insert first below (.file bytes)
      have alsoInserted := node?_insert second below (.file bytes)
      have alsoWalked := (walk_congr same segments).trans walked
      have changed := Within.insert strewn.rooted segments alsoWalked (here ▸ free) bytes
      have alsoChanged := Within.insert strewn.alsoRooted segments (sameBase ▸ walked) free bytes
      refine .inr ⟨_, _, rfl, rfl, strewn.within changed alsoChanged fun names _ => ?_, rfl,
        fun names isForeign => ?_⟩
      · rw [inserted, alsoInserted]
        split
        · exact .inr rfl
        · exact .inl ⟨rfl, rfl⟩
      · rw [alsoInserted, sameBase, if_neg (isForeign.append_ne plain _)]

/-- The file at a place is written alike, and foreign entries stay. -/
theorem write (bytes : Bytes) :
    (first.write (join root ("/".intercalate place.names)) bytes).1 =
        (second.write (join root ("/".intercalate place.names)) bytes).1 ∧
      Strewn root table (first.write (join root ("/".intercalate place.names)) bytes).2
        (second.write (join root ("/".intercalate place.names)) bytes).2 ∧
      Untouched root table second
        (second.write (join root ("/".intercalate place.names)) bytes).2 := by
  have segments := place.isSegment_of_mem_names
  rw [write_eq first strewn.rooted.proper place.names_ne_nil segments,
    write_eq second strewn.alsoRooted.proper place.names_ne_nil segments]
  split
  · exact ⟨rfl, strewn, .refl second⟩
  obtain ⟨roots, alsoRoots, making, alsoMaking, rootsStrewn, untouched, sameBase, alsoSameBase,
    there, -⟩ := strewn.makeRoot
  obtain ⟨outcomes, madeStrewn, further, directories⟩ := rootsStrewn.makeDirectories place there
  have upTo : place.names.dropLast = [place.table, place.area.name] := rfl
  have runs : first.makeDirectories (first.origin root) (partsOf root ++ place.names.dropLast) =
      roots.makeDirectories (roots.base root) [place.table, place.area.name] := by
    rw [makeDirectories_append first, making, upTo, sameBase]
    rfl
  have alsoRuns :
      second.makeDirectories (second.origin root) (partsOf root ++ place.names.dropLast) =
        alsoRoots.makeDirectories (alsoRoots.base root) [place.table, place.area.name] := by
    rw [makeDirectories_append second, alsoMaking, upTo,
      alsoSameBase]
    rfl
  rw [runs, alsoRuns]
  have workings := workingDirectory_makeDirectories roots (roots.base root)
    [place.table, place.area.name]
  generalize roots.makeDirectories (roots.base root) [place.table, place.area.name] = made at *
  generalize alsoRoots.makeDirectories (alsoRoots.base root) [place.table, place.area.name] =
    other at *
  obtain ⟨outcome, made⟩ := made
  obtain ⟨alsoOutcome, other⟩ := other
  dsimp only at outcomes directories madeStrewn further workings
  subst outcomes
  cases outcome with
  | error failure => exact ⟨rfl, madeStrewn, untouched.trans further⟩
  | ok _ =>
      simp only []
      split
      · exact ⟨rfl, madeStrewn, untouched.trans further⟩
      rcases madeStrewn.put plain (base_eq workings root ▸ directories rfl) bytes with
        ⟨failure, failed, alsoFailed⟩ | ⟨after, last, put, alsoPut, putStrewn, kept⟩
      · rw [failed, alsoFailed]
        exact ⟨rfl, madeStrewn, untouched.trans further⟩
      · rw [put, alsoPut]
        exact ⟨rfl, putStrewn, (untouched.trans further).trans kept⟩

end

section

variable {other : String} (isTable : FileName.isSegment other = true)
  (hosts : first.node? (first.base root) = some .directory ∨ other.utf8ByteSize ≤ nameLimit)

include isTable hosts

/-- A directory of an area is listed with the same names but those of foreign entries. One that is
there with foreign entries only has no others. -/
theorem list (area : Area) :
    (∃ error, (Files.disk first root).list (area.directory other) = .error error ∧
      (Files.disk second root).list (area.directory other) = .error error) ∨
    ∃ names others, (Files.disk first root).list (area.directory other) = .ok names ∧
      (Files.disk second root).list (area.directory other) = .ok others ∧
      ∀ name, ¬IsForeign table [other, area.name, name] → (name ∈ names ↔ name ∈ others) := by
  have segments := Place.isSegment_of_mem_directory isTable area
  have nonempty := List.cons_ne_nil other [area.name]
  have same : ∀ name, ¬IsForeign table [other, area.name, name] →
      first.node? (first.base root ++ [other, area.name] ++ [name]) =
        second.node? (first.base root ++ [other, area.name] ++ [name]) := by
    intro name plain
    rw [List.append_assoc]
    refine strewn.node?_eq plain fun above => ?_
    simpa [rowsOf] using above.length_le
  obtain ⟨place, onWay, plain, rfl⟩ : ∃ place : Place, [other, area.name] <+: place.names ∧
      ¬IsForeign table place.names ∧ place.table = other := by
    cases area with
    | rows =>
        exact ⟨.row other isTable ⟨0⟩, ⟨[_], rfl⟩, Place.not_isForeign_row isTable _ table, rfl⟩
    | indexes =>
        have isColumn : FileName.isSegment "id" = true := by decide
        exact ⟨.index other isTable "id" isColumn, ⟨[_], rfl⟩,
          Place.not_isForeign_index isTable isColumn table, rfl⟩
  rw [Files.list, Files.list, Place.directory_eq_intercalate, Disk.list, Disk.list]
  rcases strewn.locate plain hosts nonempty onWay with equal | ⟨failed, located, missing⟩
  · rw [equal]
    cases located : second.locate (join root ("/".intercalate [place.table, area.name])) with
    | error failure =>
        cases failure with
        | missing => exact .inr ⟨[], [], rfl, rfl, fun _ _ => Iff.rfl⟩
        | _ => exact .inl ⟨_, rfl, rfl⟩
    | ok found =>
        obtain ⟨location, node⟩ := found
        cases node with
        | file bytes => exact .inl ⟨_, rfl, rfl⟩
        | directory =>
            obtain ⟨rfl, -⟩ := of_locate_join nonempty segments (equal.trans located)
            refine .inr ⟨_, _, rfl, rfl, fun name plain => ?_⟩
            rw [mem_children, mem_children, same name plain]
  · rw [failed, located]
    refine .inr ⟨_, _, rfl, rfl, fun name plain => ?_⟩
    have nothing : first.node? (first.base root ++ [place.table, area.name] ++ [name]) = none :=
      strewn.rooted.isTree.node?_eq_none (List.prefix_append _ _) (by simp) (by rw [missing]; simp)
    rw [mem_children, ← same name plain, nothing]
    simp

/-- The directory of another table is removed alike if the root bypasses it, and foreign entries
stay. -/
theorem deleteAll (bypasses : first.Bypasses root other) (apart : other ≠ table) :
    (first.deleteAll (join root other)).1 = (second.deleteAll (join root other)).1 ∧
      Strewn root table (first.deleteAll (join root other)).2
        (second.deleteAll (join root other)).2 ∧
      Untouched root table second (second.deleteAll (join root other)).2 := by
  have sameBase := base_eq strewn.working root
  have segments : ∀ name ∈ [other], FileName.isSegment name = true :=
    List.forall_mem_singleton.mpr isTable
  have path : "/".intercalate [other] = other := String.intercalate_singleton
  have plain : ¬IsForeign table [other] := fun isForeign =>
    isForeign.not_within other .rows ⟨[Area.rows.name], rfl⟩
  have same : first.locate (join root other) = second.locate (join root other) := by
    refine path ▸ (@locate _ _ _ _ strewn (.row other isTable ⟨0⟩)
      (Place.not_isForeign_row isTable _ table) hosts [other] (List.cons_ne_nil _ _)
      ⟨_, rfl⟩).resolve_right ?_
    rintro ⟨-, located, missing⟩
    obtain ⟨-, there⟩ := of_locate_join (List.cons_ne_nil _ _) segments located
    rw [← strewn.node?_eq plain (by simp [rowsOf, apart]), missing] at there
    cases there
  cases located : second.locate (join root other) with
  | error failure =>
      rw [Disk.deleteAll, Disk.deleteAll, same, located]
      exact ⟨rfl, strewn, .refl second⟩
  | ok found =>
      obtain ⟨location, node⟩ := found
      rw [located] at same
      cases node with
      | file bytes =>
          rw [Disk.deleteAll, Disk.deleteAll, same, located]
          exact ⟨rfl, strewn, .refl second⟩
      | directory =>
          obtain ⟨rfl, -⟩ := of_locate_join (List.cons_ne_nil _ _) segments
            (path.symm ▸ same)
          have alsoBypasses := bypasses.of_working strewn.working
          rw [strewn.rooted.deleteAll_eq isTable bypasses same,
            strewn.alsoRooted.deleteAll_eq isTable alsoBypasses (sameBase ▸ located)]
          have changed := Within.without strewn.rooted bypasses
          have alsoChanged := Within.without strewn.alsoRooted alsoBypasses
          refine ⟨rfl, strewn.within changed alsoChanged fun names _ => ?_, rfl,
            fun names isForeign => ?_⟩
          · rw [node?_without first (by simp), node?_without second (by simp), sameBase]
            split
            · exact .inr rfl
            · exact .inl ⟨rfl, rfl⟩
          · have outside : ¬second.base root ++ [other] <+: second.base root ++ names := by
              obtain ⟨name, rest, rfl, -⟩ := isForeign
              simp [List.prefix_append_right_inj, apart]
            rw [node?_without second (by simp), if_neg outside]

end

end Strewn

/-- Making the directories of the root strews nothing. -/
theorem Rooted.strewn_makeRoot (rooted : first.Rooted root) (table : String) :
    ∃ made, first.makeDirectories (first.origin root) (partsOf root) = (.ok (), made) ∧
      Strewn root table first made ∧ made.node? (made.base root) = some .directory := by
  obtain ⟨made, making, beside, there, nodes⟩ := rooted.makeRoot table
  refine ⟨made, making, ⟨beside.working, rooted, beside.rooted, fun names _ => ?_⟩, there⟩
  by_cases empty : names = []
  · rw [base_eq beside.working] at there
    rw [empty, List.append_nil, there]
    exact rooted.node?_root.imp_right fun missing => ⟨List.nil_prefix, missing, rfl⟩
  · exact .inl (nodes _ (append_not_isPrefix _ empty)).symm

/-- Making the directories of the rows strews nothing. -/
theorem Rooted.strewn_makeDirectories (rooted : first.Rooted root)
    (there : first.node? (first.base root) = some .directory)
    (isTable : FileName.isSegment table = true) :
    Strewn root table first (first.makeDirectories (first.base root) (rowsOf table)).2 := by
  have segments := Place.isSegment_of_mem_directory isTable .rows
  refine ⟨workingDirectory_makeDirectories _ _ _, rooted, rooted.makeDirectories there _,
    fun names _ => ?_⟩
  by_cases within : names <+: rowsOf table
  · exact (node?_makeDirectories first (first.base root) (rowsOf table) _).imp Eq.symm
      fun made => ⟨within, made⟩
  · refine .inl (node?_makeDirectories_of_ne segments fun upTo _ below here => ?_).symm
    exact within (List.append_cancel_left here ▸ below)

/-- Writing a foreign file strews nothing else. -/
theorem Rooted.strewn_write (rooted : first.Rooted root) {place : Place}
    (isForeign : IsForeign table place.names) (bytes : Bytes) :
    Strewn root table first (first.write (join root ("/".intercalate place.names)) bytes).2 := by
  have segments := place.isSegment_of_mem_names
  obtain ⟨upTo, rfl⟩ : place.names.dropLast = rowsOf table ∧ place.table = table := by
    obtain ⟨name, rest, names, -⟩ := isForeign
    simp only [Place.names, List.cons.injEq] at names
    obtain ⟨here, area, -⟩ := names
    exact ⟨by simp [Place.names, rowsOf, here, area], here⟩
  rw [write_eq first rooted.proper place.names_ne_nil segments]
  split
  · exact .refl rooted
  obtain ⟨roots, making, rootsStrewn, there⟩ := rooted.strewn_makeRoot place.table
  have madeStrewn := rootsStrewn.alsoRooted.strewn_makeDirectories there place.isTable
  have strewn := rootsStrewn.trans madeStrewn
  have rootStays := madeStrewn.root_of_root there
  rw [base_eq rootsStrewn.working] at strewn rootStays
  have runs : first.makeDirectories (first.origin root) (partsOf root ++ place.names.dropLast) =
      roots.makeDirectories (first.base root) (rowsOf place.table) := by
    rw [upTo, makeDirectories_append first, making]
    rfl
  rw [runs]
  generalize roots.makeDirectories (first.base root) (rowsOf place.table) = made at *
  obtain ⟨outcome, made⟩ := made
  dsimp only at strewn rootStays
  rw [← base_eq strewn.working] at rootStays
  cases outcome with
  | error failure => exact strewn
  | ok _ =>
      simp only []
      split
      · exact strewn
      rw [strewn.alsoRooted.walk_of_root rootStays]
      cases walked : made.walk (made.base root) place.names with
      | error failure => exact strewn
      | ok reached =>
          rw [Except.bind]
          cases put : made.put reached bytes with
          | error failure => exact strewn
          | ok after =>
              obtain ⟨free, below, rfl⟩ := of_put put
              refine strewn.trans ⟨rfl, strewn.alsoRooted, (Within.insert strewn.alsoRooted
                segments walked free bytes).rooted strewn.alsoRooted, fun names plain => ?_⟩
              obtain rfl := prefix_of_walk segments walked
              rw [node?_insert made below, if_neg (isForeign.append_ne plain _).symm]
              exact .inl rfl

end Disk

end TableStore
