/-
# What a medium promises

Memory and disk keep the files of tables alike: a place holds what was last written there, and an
area lists the names under which something is held. Only a disk refuses paths, because of their
length or their characters, whatever is stored; every other fact about tables rests on the laws
stated here and holds for both.
-/

import TableStore.Files.Basic
import TableStore.Proofs.Files.Disk
import TableStore.Proofs.Files.Memory

namespace TableStore

/-- What keeps the files. -/
inductive Medium where
  | memory
  /-- A directory of a disk. -/
  | disk (root : String)

namespace Medium

/-- Whether a medium takes a path at all. -/
def Admits : Medium → String → Prop
  | .memory, _ => True
  | .disk root, path => Disk.Takes root path

/-- Whether a medium takes all paths that the rows and the drop of a table need. -/
structure AdmitsTable (medium : Medium) (table : String) : Prop where
  directory : medium.Admits table
  area : ∀ area : Area, medium.Admits (area.directory table)
  row : ∀ isTable id, medium.Admits (Place.row table isTable id).path

/-- Memory takes all paths. -/
theorem admitsTable_memory (table : String) : memory.AdmitsTable table where
  directory := trivial
  area _ := trivial
  row _ _ := trivial

/-- Whether the files of a medium are given ones, at their places. -/
inductive Holds : Medium → Content → Files → Prop where
  | memory {content : Content} {files : MemoryFiles} (holds : files.Holds content) :
      Holds .memory content (.memory files)
  | disk {content : Content} {tree : Disk} {root : String} (holds : tree.Holds root content) :
      Holds (.disk root) content (.disk tree root)

namespace Holds

variable {medium : Medium} {content : Content} {files : Files}

/-- What is held lies at a place that the medium takes. -/
theorem admits (holds : medium.Holds content files) {place : Place}
    (stored : (content place).isSome = true) : medium.Admits place.path := by
  cases holds with
  | memory holds => trivial
  | disk holds => exact holds.takes place stored

/-- A file is read where one is held, and missing elsewhere. -/
theorem read (holds : medium.Holds content files) {place : Place}
    (admitted : medium.Admits place.path) :
    files.read place.path =
      match content place with
      | some bytes => .ok bytes
      | none => .error (.notFound place.path) := by
  cases holds with
  | memory holds =>
      cases found : content place with
      | none => simp only [Files.read, MemoryFiles.read, holds.getElem?, found]
      | some bytes => simp only [Files.read, MemoryFiles.read, holds.getElem?, found]
  | disk holds =>
      rw [Files.read, holds.read admitted]
      cases content place <;> rfl

/-- What is held is read. -/
theorem read_eq_ok (holds : medium.Holds content files) (place : Place) {bytes : Bytes}
    (stored : content place = some bytes) : files.read place.path = .ok bytes := by
  rw [holds.read (holds.admits (by rw [stored]; rfl)), stored]

/-- A path names a file where one is held. -/
theorem isFile (holds : medium.Holds content files) (place : Place) :
    files.isFile place.path = (content place).isSome := by
  cases holds with
  | memory holds =>
      rw [Files.isFile, MemoryFiles.isFile, Std.ExtTreeMap.contains_eq_isSome_getElem?,
        holds.getElem?]
  | disk holds => exact holds.isFile place

/-- A written file is held at its place. -/
theorem write (holds : medium.Holds content files) {place : Place}
    (admitted : medium.Admits place.path) (bytes : Bytes) :
    ∃ after, files.write place.path bytes = (.ok (), after) ∧
      medium.Holds (Function.update content place (some bytes)) after := by
  cases holds with
  | memory holds => exact ⟨_, rfl, .memory (holds.write place bytes)⟩
  | disk holds =>
      obtain ⟨after, written, held⟩ := holds.write admitted bytes
      exact ⟨.disk after _, by rw [Files.write, written]; rfl, .disk held⟩

/-- A file that is held can be removed. -/
theorem delete (holds : medium.Holds content files) {place : Place}
    (admitted : medium.Admits place.path) (stored : (content place).isSome = true) :
    ∃ after, files.delete place.path = (.ok (), after) ∧
      medium.Holds (Function.update content place none) after := by
  cases holds with
  | memory holds =>
      have found := (holds.mem_iff place).mpr stored
      refine ⟨_, ?_, .memory (holds.erase place)⟩
      simp only [Files.delete, MemoryFiles.delete, Std.ExtTreeMap.contains_iff_mem, found, if_true]
  | disk holds =>
      obtain ⟨after, deleted, held⟩ := holds.delete stored
      exact ⟨.disk after _, by rw [Files.delete, deleted], .disk held⟩

/-- A file that is not held is missing when it is to be removed. -/
theorem delete_none (holds : medium.Holds content files) {place : Place}
    (admitted : medium.Admits place.path) (absent : content place = none) :
    files.delete place.path = (.error (.notFound place.path), files) := by
  cases holds with
  | memory holds =>
      have missing : place.path ∉ _ := fun found => by
        have stored := (holds.mem_iff place).mp found
        rw [absent] at stored
        cases stored
      simp only [Files.delete, MemoryFiles.delete, Std.ExtTreeMap.contains_iff_mem, missing,
        if_false]
  | disk holds =>
      rw [Files.delete, holds.delete_none admitted absent]
      rfl

/-- The directory of an area lists, ascending, the names under which something is held. -/
theorem list (holds : medium.Holds content files) {table : String} {area : Area}
    (isTable : FileName.isSegment table = true)
    (admitted : medium.Admits (area.directory table)) :
    ∃ names, files.list (area.directory table) = .ok names ∧ names.Pairwise (· < ·) ∧
      ∀ name, name ∈ names ↔ ∃ place : Place, place.table = table ∧ place.area = area ∧
        place.name = name ∧ (content place).isSome = true := by
  cases holds with
  | memory holds =>
      exact ⟨_, rfl, MemoryFiles.pairwise_list _ _, holds.mem_list_directory isTable area⟩
  | disk holds =>
      obtain ⟨names, ascending, members, answered⟩ := holds.list isTable admitted
      refine ⟨names, ?_, ascending, members⟩
      rcases answered with listed | ⟨rfl, missing⟩
      · rw [Files.list, listed]
        rfl
      · rw [Files.list, missing]

/-- Removing the directory of a table removes what is held for it. -/
theorem deleteAll (holds : medium.Holds content files) {table : String}
    (isTable : FileName.isSegment table = true) (admitted : medium.Admits table) :
    ∃ after, files.deleteAll table = (.ok (), after) ∧
      medium.Holds (fun place => if place.table = table then none else content place) after := by
  cases holds with
  | memory holds => exact ⟨_, rfl, .memory (holds.deleteAll isTable)⟩
  | disk holds =>
      obtain ⟨outcome, after, deleted, answered, held⟩ := holds.deleteAll isTable admitted
      refine ⟨.disk after _, ?_, .disk held⟩
      rw [Files.deleteAll, deleted]
      rcases answered with rfl | rfl <;> rfl

end Holds

end Medium

end TableStore
