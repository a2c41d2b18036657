/-
# Indexes agree with the rows

After any program, every index holds each row under its key and nothing else, and its file is the
one that building the index anew would write.
-/

import TableStore.Proofs.Session.Simulation
import TableStore.Proofs.Table.View

namespace TableStore.Session

open Ledger

/-- In the state that a program reaches which starts without files, whatever probes fail, the check
of all indexes of a table passes; and every index with a file loads, holds a row under a key exactly
when the row is there and has this key in the column, and is stored as the bytes that building it
now writes. -/
theorem index_agrees_with_rows {medium : Medium} {program : List Step}
    (admitted : medium.AdmitsProgram program) {files : Files}
    (fresh : medium.Holds (fun _ => none) files) (probes : List Bool) {table : Table}
    (isTable : FileName.isSegment table.name = true) (admits : medium.AdmitsTable table.name) :
    let reached := ((start.run program).run (.probing files probes)).2
    (table.verifyIndexes.run.run reached).1 = .ok () ∧
      ∀ column, FileName.isSegment column = true →
        reached.files.isFile (table.indexPath column) = true → ∃ index bytes,
          ((table.readIndex column).run.run reached).1 = .ok index ∧
          (∀ key id, index.contains key id = true ↔
            ∃ row, ((table.read id).run.run reached).1 = .ok (some row) ∧
              IndexKey.ofJson? (row.value column) = some key) ∧
          reached.files.read (table.indexPath column) = .ok bytes ∧
          ((table.addIndex column).run.run reached).1 = .ok () ∧
          ((table.addIndex column).run.run reached).2.files.read (table.indexPath column) =
            .ok bytes := by
  intro reached
  obtain ⟨left, held, unfaulted, -, rfl, -⟩ :=
    ensures_run_start admitted (Store.probing files probes) fresh rfl
  have holds : medium.Holds (content (Ideal.start.run program).2.ledgers) reached.files := held
  generalize (Ideal.start.run program).2.ledgers = ledgers at holds
  obtain ⟨verified, rebuilt⟩ := Table.indexesAgree isTable admits holds unfaulted
  exact ⟨verified, rebuilt⟩

/-- A program in which a row of a table with an index on the age grows older. -/
def growingOlder : List Step :=
  [.handle "people" .default, .call 0 (.insert (Row.empty.insert "age" (.number (.ofUInt64 1)))),
    .call 0 (.addIndex "age"),
    .call 0 (.update .first (Row.empty.insert "age" (.number (.ofUInt64 2))))]

/-- After this program, the index on the age agrees with the row. -/
theorem index_agrees_after_growingOlder :
    let people : Table := ⟨"people", .default⟩
    let reached := ((start.run growingOlder).run (.probing (.memory .empty) [])).2
    ∃ index bytes, ((people.readIndex "age").run.run reached).1 = .ok index ∧
      (∀ key id, index.contains key id = true ↔
        ∃ row, ((people.read id).run.run reached).1 = .ok (some row) ∧
          IndexKey.ofJson? (row.value "age") = some key) ∧
      reached.files.read (people.indexPath "age") = .ok bytes ∧
      ((people.addIndex "age").run.run reached).1 = .ok () ∧
      ((people.addIndex "age").run.run reached).2.files.read (people.indexPath "age") =
        .ok bytes := by
  intro people
  have isTable : FileName.isSegment people.name = true := by decide
  apply (index_agrees_with_rows (Medium.admitsProgram_memory growingOlder) (.memory .empty) []
    isTable (Medium.admitsTable_memory people.name)).2 "age" (by decide)
  decide +kernel

end TableStore.Session
