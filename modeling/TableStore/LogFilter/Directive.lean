/-
# Directives

A directive says how much of the journal is shown, and of which events: those whose source starts
with a given text, those that have a given field, or those inside a given span. It is written
`source[span{field=value}]=level`. Of the level, the source and the part in brackets each can be
left out, but not all of them, and without a level everything is shown.
-/

import TableStore.Event
import TableStore.LogFilter.FieldValue
import TableStore.Text.Stretch
import TableStore.Text.WhiteSpace

namespace TableStore

/-- What a directive asks of events besides their source. -/
inductive Condition where
  | always
  | hasField (name : String)
  /-- The event is inside a span. Nothing that the store does is one. -/
  | insideSpan
  deriving DecidableEq, Repr

/-- The level up to which events of some sources are shown, if they meet a condition. -/
structure Directive where
  /-- What the source of an event has to start with. -/
  source : String
  condition : Condition
  /-- The greatest detail that is shown; zero shows nothing. -/
  detail : Nat
  deriving DecidableEq, Repr

namespace Condition

/-- Whether an event meets a condition. -/
def holds (event : Event) : Condition → Bool
  | .always => true
  | .hasField name => event.fieldNames.contains name
  | .insideSpan => false

/-- Whether one condition takes second place to another. A field counts for more than none, and
of two fields the one whose name comes later. -/
def yieldsTo : Condition → Condition → Bool
  | .hasField first, .hasField second => first < second
  | .always, .hasField _ => true
  | _, _ => false

/-- The condition that a field in braces sets, with an equals sign before its value if it has
one. Only spans have values. -/
def ofField? (written : List Char) : Option Condition :=
  if written = [] then none
  else
    match written.dropWhile fun c => c ≠ '=' with
    | [] => some (.hasField (String.ofList written))
    | _ :: value =>
        let value := value.takeWhile fun c => c ≠ '='
        if LogFilter.isFieldValue value then some .insideSpan else none

end Condition

namespace Directive

/-- Whether a directive has a say on an event. -/
def appliesTo (event : Event) (directive : Directive) : Bool :=
  directive.source.toList.isPrefixOf event.source.toList && directive.condition.holds event

/-- Whether one directive takes second place to another on an event that both apply to. The longer
source counts, and under the same source the condition. -/
def yieldsTo (first second : Directive) : Bool :=
  if first.source.length = second.source.length then first.condition.yieldsTo second.condition
  else first.source.length < second.source.length

/-! ## Reading -/

/-- Why a directive cannot be read. -/
inductive Flaw where
  | malformed
  /-- A part starts or ends inside a character. -/
  | splitCharacter
  deriving DecidableEq, Repr

/-- The number that decimal digits write, with a plus sign in front or without. -/
def number? (word : List Char) : Option Nat :=
  let digits := if word.head? = some '+' then word.drop 1 else word
  if digits ≠ [] ∧ digits.all Char.isDigit then some (Nat.ofDigitChars 10 digits 0) else none

/-- The detail that a word names: a level in letters of any case, its number, or nothing at
all. -/
def detail? (word : List Char) : Option Nat :=
  match number? word with
  | some detail => if detail ≤ Level.trace.detail then some detail else none
  | none =>
      let name := (String.ofList word).toUpper
      if name = "OFF" then some 0
      else (Level.all.find? fun level => level.name = name).map Level.detail

/-- Whether a character can start a source or a level. -/
def startsWord (c : Char) : Bool :=
  Text.isAlphanumeric c || c = '-' || c = ':' || c = '_'

/-- Where a reader of a directive stands, with the places where unfinished parts start. -/
inductive Mode where
  /-- In the level, or in the source before it. -/
  | word
  | span (start : Nat)
  | field (start : Nat)
  /-- After the field. -/
  | afterField
  /-- After the brackets. -/
  | afterBrackets
  | level (start : Nat)
  deriving DecidableEq, Repr

/-- The part of a text between two places. -/
def part (text : List Char) (start stop : Nat) : Except Flaw (List Char) :=
  match Text.stretch? start stop text with
  | some part => .ok part
  | none => .error .splitCharacter

/-- What a character at a place does to what has been read so far. -/
def step (text : List Char) (place : Nat) (c : Char) (mode : Mode) (read : Directive) :
    Except Flaw (Mode × Directive) :=
  match mode with
  | .word =>
      if c = '=' ∨ c = '[' then do
        let source ← part text 0 place
        let next : Mode := if c = '=' then .level (place + 1) else .span (place + 1)
        return (next, { read with source := String.ofList source })
      else return (.word, read)
  | .span start =>
      if c = ']' then do
        let _ ← part text start place
        return (.afterBrackets, { read with condition := .insideSpan })
      else if c = '\x7b' then do
        let name ← part text start place
        let condition : Condition := if name = [] then .always else .insideSpan
        return (.field (place + 1), { read with condition })
      else return (.span start, read)
  | .field start =>
      if c = '\x7d' then do
        let written ← part text start place
        let some condition := Condition.ofField? written | throw .malformed
        let both : Condition := if read.condition = .insideSpan then .insideSpan else condition
        return (.afterField, { read with condition := both })
      else return (.field start, read)
  | .afterField => if c = ']' then return (.afterBrackets, read) else throw .malformed
  | .afterBrackets => if c = '=' then return (.level (place + 1), read) else throw .malformed
  | .level start => return (.level start, read)

/-- What has been read when the characters are over. -/
def finish (text : List Char) (mode : Mode) (read : Directive) : Except Flaw Directive :=
  match mode with
  | .word =>
      match detail? text with
      | some detail => return { read with detail }
      | none => return { read with source := String.ofList text }
  | .level start => do
      let word ← part text start (Text.byteCount text)
      if word = [] then return read
      let some detail := detail? word | throw .malformed
      return { read with detail }
  | .afterBrackets => return read
  | _ => throw .malformed

/-- Read the characters from a place on. -/
def readFrom (text : List Char) : (place : Nat) → Mode → Directive → List Char →
    Except Flaw Directive
  | _, mode, read, [] => finish text mode read
  | place, mode, read, c :: rest => do
      let (mode, read) ← step text place c mode read
      readFrom text (place + c.utf8Size) mode read rest

/-- Read a directive. Its parts are told apart in the text without the blanks around it, but they
are cut at these places from the text with them, so that blanks in front shift every part and
blanks behind belong to the last one. -/
def ofText (text : String) : Except Flaw Directive :=
  let letters := text.toList
  let everything : Directive := ⟨"", .always, Level.trace.detail⟩
  match Text.trimmed letters with
  | [] => .error .malformed
  | c :: rest =>
      if c = '[' then readFrom letters 1 (.span 1) everything rest
      else if startsWord c then readFrom letters c.utf8Size .word everything rest
      else .error .malformed

end Directive

end TableStore
