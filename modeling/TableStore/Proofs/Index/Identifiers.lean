/-
# Identifiers as texts

An identifier and its text stand for each other, wherever the text comes from: given by itself, as
the stem of a file name, or as a string in an index file. A list of strings in such a file is read
exactly if each of them is the text of an identifier, and the whole file is refused if one is not.
-/

import TableStore.Proofs.Collections
import TableStore.Proofs.Index.File
import TableStore.Proofs.Row.Decimal
import TableStore.Table.Error

namespace TableStore

namespace IndexTable

namespace Entry

/-- A list is read as identifiers exactly if it is an array of their texts. -/
theorem ids?_eq_some_iff {source : Json.Source} {ids : List RowId} :
    ids? source = some ids ↔
      ∃ items, source = .array items ∧
        items.map Json.Source.string? = ids.map fun id => some id.toText := by
  have each : ∀ (items : List Json.Source) (ids : List RowId),
      items.mapM (fun item => item.string?.bind RowId.ofText?) = some ids ↔
        items.map Json.Source.string? = ids.map fun id => some id.toText := by
    intro items
    induction items with
    | nil =>
        intro ids
        cases ids <;> simp
    | cons item rest ih =>
        intro ids
        have first : ∀ id, item.string?.bind RowId.ofText? = some id ↔
            item.string? = some id.toText := by
          intro id
          simp only [Option.bind_eq_some_iff, RowId.ofText?_eq_some_iff, exists_eq_right]
        cases ids with
        | nil => simp [List.mapM_cons, Option.bind_eq_some_iff]
        | cons id others =>
            simp [List.mapM_cons, Option.bind_eq_some_iff, first, ih, and_comm]
  cases source with
  | array items => simp [ids?, each]
  | _ => simp [ids?]

/-- Whether a record lists these sources under its identifiers. -/
def Lists (record : Json.Source) (names : List Json.Source) : Prop :=
  ∃ fields, record.record? ["value", "ids"] = some fields ∧
    fields.lookup "ids" = some (.array names)

/-- A record is refused if what it lists are not all texts of identifiers. -/
theorem ofSource?_eq_none {record name : Json.Source} {names : List Json.Source}
    (lists : Lists record names) (listed : name ∈ names)
    (unnamed : ∀ id : RowId, name.string? ≠ some id.toText) : ofSource? record = none := by
  obtain ⟨fields, read, found⟩ := lists
  have nameless : name.string?.bind RowId.ofText? = none := by
    rw [Option.eq_none_iff_forall_ne_some]
    intro id named
    obtain ⟨text, string, identifier⟩ := Option.bind_eq_some_iff.mp named
    rw [RowId.ofText?_eq_some_iff.mp identifier] at string
    exact unnamed id string
  have refused : ids? (.array names) = none := mapM_eq_none_of_mem listed nameless
  simp [ofSource?, read, found, refused]

end Entry

/-- An index file is refused if one of its records lists anything but texts of identifiers. -/
theorem ofBytes_of_unnamed {column : String} {bytes : Bytes} {records names : List Json.Source}
    {record name : Json.Source} (read : Json.Source.ofBytes? bytes = some (.array records))
    (member : record ∈ records) (lists : Entry.Lists record names) (listed : name ∈ names)
    (unnamed : ∀ id : RowId, name.string? ≠ some id.toText) :
    ofBytes column bytes = .error .malformed := by
  have refused : entriesOfBytes? bytes = none := by
    rw [entriesOfBytes?, read]
    exact mapM_eq_none_of_mem member (Entry.ofSource?_eq_none lists listed unnamed)
  rw [ofBytes, refused]

end IndexTable

namespace RowId

/-- Different identifiers have different texts. -/
theorem toText_injective {first second : RowId} (same : first.toText = second.toText) :
    first = second := by
  have read : ofText? first.toText = ofText? second.toText := congrArg ofText? same
  simpa using read

/-- A text is accepted exactly if it is that of the identifier. -/
theorem parse_eq_ok_iff {text : String} {id : RowId} : parse text = .ok id ↔ text = id.toText := by
  rw [← ofText?_eq_some_iff, parse]
  cases ofText? text <;> simp

/-- An identifier and its text stand for each other. A text is read as an identifier exactly if it
is the text of this identifier, which is the decimal of its number padded with zeros to four digits.
Every other text is refused, and named in the failure: one with a character other than the ten
digits, with a missing or a superfluous zero, or with a number beyond a word. So no two texts stand
for one identifier, and no two identifiers have one text. A file name is read exactly if it is that
of the row's file. And what an index file lists as identifiers is read exactly if it is an array of
their texts, and makes the whole file malformed otherwise. -/
theorem reads_own_text_only :
    (∀ text id, ofText? text = some id ↔ text = id.toText) ∧
    (∀ text id, parse text = .ok id ↔ text = id.toText) ∧
    (∀ id : RowId, Decimal id.toText id.value.toNat) ∧
    (∀ text id, ofText? text = some id ↔ Decimal text id.value.toNat) ∧
    (∀ text, (¬∃ number < UInt64.size, Decimal text number) →
      ofText? text = none ∧ parse text = .error (.invalidRowId text)) ∧
    (∀ first second id, ofText? first = some id → ofText? second = some id → first = second) ∧
    (∀ first second : RowId, first.toText = second.toText → first = second) ∧
    (∀ name id, ofFileName? name = some id ↔ name = id.fileName) ∧
    (∀ source ids, IndexTable.Entry.ids? source = some ids ↔
      ∃ items, source = .array items ∧
        items.map Json.Source.string? = ids.map fun id => some id.toText) ∧
    ∀ column bytes records record names name,
      Json.Source.ofBytes? bytes = some (.array records) → record ∈ records →
      IndexTable.Entry.Lists record names → name ∈ names →
      (∀ id : RowId, name.string? ≠ some id.toText) →
      IndexTable.ofBytes column bytes = .error .malformed := by
  refine ⟨fun _ _ => ofText?_eq_some_iff, fun _ _ => parse_eq_ok_iff, decimal_toText,
    fun _ _ => ofText?_eq_some_iff_decimal, ?_, ?_, fun _ _ => toText_injective,
    fun _ _ => ofFileName?_eq_some_iff, fun _ _ => IndexTable.Entry.ids?_eq_some_iff,
    fun _ _ _ _ _ _ => IndexTable.ofBytes_of_unnamed⟩
  · intro text undecimal
    have refused : ofText? text = none := by
      apply Option.not_isSome_iff_eq_none.mp
      rw [isSome_ofText?_iff]
      exact undecimal
    exact ⟨refused, by rw [parse, refused]⟩
  · intro first second id read alsoRead
    rw [ofText?_eq_some_iff.mp read, ofText?_eq_some_iff.mp alsoRead]

/-- An index file whose only row is named without the zeros. -/
def unpaddedRow : Bytes :=
  Utf8.encode "[\x7b\"value\":null,\"ids\":[\"7\"]\x7d]".toList

/-- The greatest number of a word is read, and the next one is not. A seven is read with three zeros
in front of it, but not by itself, nor from an index file. -/
theorem reads_own_text_only_sevens :
    ofText? "18446744073709551615" = some ⟨0xFFFFFFFFFFFFFFFF⟩ ∧
    ofText? "18446744073709551616" = none ∧
    ofText? "0007" = some ⟨7⟩ ∧ parse "7" = .error (.invalidRowId "7") ∧
    IndexTable.ofBytes "age" unpaddedRow = .error .malformed := by
  have beyond : ¬∃ number < UInt64.size, Decimal "18446744073709551616" number := by
    rintro ⟨number, word, decimal⟩
    rw [← decimal.value] at word
    exact absurd word (by decide)
  have short : ¬∃ number < UInt64.size, Decimal "7" number := fun ⟨_, _, decimal⟩ =>
    absurd decimal.wide (by decide)
  have unnamed : ∀ id : RowId, (Json.Source.string (some "7")).string? ≠ some id.toText :=
    fun id same => short ⟨id.value.toNat, id.value.toNat_lt, by
      rw [Option.some.inj same]
      exact reads_own_text_only.2.2.1 id⟩
  exact ⟨(reads_own_text_only.1 _ _).mpr (by decide +kernel),
    (reads_own_text_only.2.2.2.2.1 _ beyond).1, (reads_own_text_only.1 _ _).mpr (by decide +kernel),
    (reads_own_text_only.2.2.2.2.1 _ short).2,
    reads_own_text_only.2.2.2.2.2.2.2.2.2 "age" unpaddedRow _ _ _ _ rfl List.mem_cons_self
      ⟨_, rfl, rfl⟩ List.mem_cons_self unnamed⟩

end RowId

end TableStore
