/-
# A table refines its machine

Calls that follow one another through one handle answer what the machine answers, and the files of
the table are at every point one for each row and one for each column with an index.
-/

import TableStore.Proofs.Table.Obeys

namespace TableStore

/-- Carry out calls one after another. A rejected call does not keep the next ones. -/
def Table.performAll (table : Table) : List Call → StateM Store (List (Except TableError Answer))
  | [] => return []
  | call :: rest => do
      let answer ← (table.perform call).run
      return answer :: (← table.performAll rest)

namespace Ledger

/-- The answers to calls that follow one another. -/
def answers (ledger : Ledger) (options : TableOptions) :
    List Call → List (Except TableError Answer)
  | [] => []
  | call :: rest => ledger.answer options call :: (ledger.after options call).answers options rest

/-- The ledger after calls that follow one another. -/
def afterAll (ledger : Ledger) (options : TableOptions) (calls : List Call) : Ledger :=
  calls.foldl (fun ledger call => ledger.after options call) ledger

end Ledger

namespace Table

open Ledger

variable {medium : Medium} {ledgers : String → Ledger} {table : Table}

/-- Calls answer what the machine answers and leave the files of its ledger. -/
theorem ensures_performAll (isTable : FileName.isSegment table.name = true)
    (admits : medium.AdmitsTable table.name) {calls : List Call}
    (admitted : ∀ call ∈ calls, call.Admitted medium table) :
    Ensures medium [] (table.performAll calls) (content ledgers) fun answers left =>
      answers = (ledgers table.name).answers table.options calls ∧
        left = content (Function.update ledgers table.name
          ((ledgers table.name).afterAll table.options calls)) := by
  induction calls generalizing ledgers with
  | nil =>
      refine .pure ⟨rfl, ?_⟩
      rw [afterAll, List.foldl_nil, Function.update_eq_self]
  | cons call rest ih =>
      have obeyed : Runs medium [] (table.perform call) (content ledgers) _ _ :=
        obeys isTable admits call (admitted call List.mem_cons_self)
      apply Ensures.bind obeyed
      intro answer left reached
      obtain ⟨answered, kept⟩ := reached
      rw [kept]
      apply (ih fun other member => admitted other (List.mem_cons_of_mem _ member)).bind
      intro answers last reached
      obtain ⟨alsoAnswered, alsoKept⟩ := reached
      rw [Function.update_self] at alsoAnswered alsoKept
      rw [Function.update_idem] at alsoKept
      refine .pure ⟨?_, alsoKept⟩
      rw [answered, alsoAnswered, Ledger.answers]

/-- A table that starts empty, among any others, refines the machine: the calls answer what the
machine answers, the files of the table are then one for each of its rows and one for each column
with an index, the file of a row is read as this row, and the files of other tables are as
before. -/
theorem performAll_refines {name : String} {options : TableOptions}
    (opened : ofName name options = .ok table) (admits : medium.AdmitsTable name)
    {calls : List Call} (admitted : ∀ call ∈ calls, call.Admitted medium table) {files : Files}
    (holds : medium.Holds (content ledgers) files) (fresh : ledgers name = .empty) :
    let machine := Ledger.empty.afterAll options calls
    let ran := (table.performAll calls).run (Store.ofFiles files)
    ran.1 = Ledger.empty.answers options calls ∧
      ∃ left, medium.Holds left ran.2.files ∧
        (∀ place : Place, place.table = name → ((left place).isSome = true ↔
          (∃ id ∈ machine.rows, place.path = table.rowPath id) ∨
            ∃ column ∈ machine.columns, place.path = table.indexPath column)) ∧
        (∀ isTable id, (left (.row name isTable id)).map Row.ofBytes =
          (machine.row? id).map Except.ok) ∧
        ∀ place : Place, place.table ≠ name → left place = content ledgers place := by
  obtain ⟨rfl, isTable⟩ := of_ofName opened
  intro machine ran
  obtain ⟨left, held, -, answered, kept⟩ :=
    ensures_performAll isTable admits admitted (Store.ofFiles files) holds rfl
  simp only [fresh] at answered kept
  refine ⟨answered, left, held, ?_, ?_, ?_⟩
  · intro place here
    rw [kept]
    constructor
    · intro stored
      rcases exists_of_content stored with ⟨id, member, same⟩ | ⟨column, member, same⟩
      · left
        rw [here, Function.update_self] at member
        exact ⟨id, member, by rw [same]; subst here; rfl⟩
      · right
        rw [here, Function.update_self] at member
        exact ⟨column, member, by rw [same]; subst here; rfl⟩
    · rintro (⟨id, member, path⟩ | ⟨column, member, path⟩)
      · have same : place = .row name isTable id := Place.path_injective path
        rw [same, content_row, Function.update_self, Option.isSome_map]
        exact Std.ExtTreeMap.mem_iff_isSome_getElem?.mp member
      · have isColumn := machine.isColumn column member
        have same : place = .index name isTable column isColumn := Place.path_injective path
        rw [same, content_index, Function.update_self, if_pos member]
        rfl
  · intro isTable id
    rw [kept, content_row, Function.update_self, Option.map_map, row?, Option.map_map]
    congr 1
    funext stored
    exact stored.ofBytes_bytes
  · intro place other
    rw [kept, content_update_of_ne other]

/-- Calls with what they answer. The identifier stands last in a row, or where the row already had
the column for it; changes are merged; a row that is erased is not there to be changed, and its
identifier, the greatest so far, is given again. -/
def reusingId : List (Call × Except TableError Answer) :=
  let age (years : UInt64) : String × Json := ("age", .number (.ofUInt64 years))
  let id (text : String) : String × Json := ("id", .string text)
  [(.insert (.ofColumns [age 1]), .ok (.id ⟨0⟩)),
    (.addIndex "age", .ok .done),
    (.insert (.ofColumns [("id", .null), age 2]), .ok (.id ⟨1⟩)),
    (.update ⟨0⟩ (.ofColumns [("town", .string "Ulm"), age 3]),
      .ok (.row (.ofColumns [age 3, id "0000", ("town", .string "Ulm")]))),
    (.erase ⟨1⟩, .ok (.row (.ofColumns [id "0001", age 2]))),
    (.update ⟨1⟩ (.ofColumns [age 4]), .error (.notFound ⟨1⟩)),
    (.insert (.ofColumns [age 5]), .ok (.id ⟨1⟩)),
    (.read ⟨1⟩, .ok (.row? (some (.ofColumns [age 5, id "0001"])))),
    (.rowIds, .ok (.ids [⟨0⟩, ⟨1⟩]))]

/-- A table in memory and the machine both give these answers. -/
theorem performAll_reusingId :
    let people : Table := ⟨"people", .default⟩
    let calls := reusingId.map Prod.fst
    let machine := Ledger.empty.afterAll .default calls
    let ran := (people.performAll calls).run (.ofFiles (.memory .empty))
    ran.1 = Ledger.empty.answers .default calls ∧
      ran.1 = reusingId.map Prod.snd ∧
      ∃ left, Medium.memory.Holds left ran.2.files ∧
        (∀ place : Place, place.table = "people" → ((left place).isSome = true ↔
          (∃ id ∈ machine.rows, place.path = people.rowPath id) ∨
            ∃ column ∈ machine.columns, place.path = people.indexPath column)) ∧
        (∀ isTable id, (left (.row "people" isTable id)).map Row.ofBytes =
          (machine.row? id).map Except.ok) ∧
        ∀ place : Place, place.table ≠ "people" →
          left place = content (fun _ => .empty) place := by
  intro people
  have opened : ofName "people" .default = .ok people := rfl
  have started : Medium.memory.Holds (content fun _ => .empty) (.memory .empty) := by
    rw [content_empty]
    exact .memory .empty
  obtain ⟨answered, left⟩ := performAll_refines opened (Medium.admitsTable_memory "people")
    (fun call _ => call.admitted_memory people) started rfl
  have given : Ledger.empty.answers .default (reusingId.map Prod.fst) = reusingId.map Prod.snd := by
    -- the greatest key of a map does not compute, but its keys do
    simp only [reusingId, List.map, answers, answer, after, step, Ledger.freshId,
      Std.ExtTreeMap.maxKey?_eq_getLast?_keys]
    rfl
  exact ⟨answered, answered.trans given, left⟩

end Table

end TableStore
