/-
# Text in files

A file holds bytes; what is read from it and written to it is text in UTF-8. Reading never
fails as a whole: bytes that belong to no well-formed sequence are kept as gaps, so that a
reader may still skip over a damaged stretch that it does not have to understand.
-/

namespace TableStore

/-- The contents of one stored file. -/
abbrev Bytes := List UInt8

namespace Utf8

/-- The bytes of a text. -/
def encode (text : List Char) : Bytes :=
  text.flatMap String.utf8EncodeChar

/-- The six payload bits of a continuation byte. -/
def payload? (byte : UInt8) : Option Nat :=
  if byte.toNat / 64 = 2 then some (byte.toNat % 64) else none

/-- Append the payloads of the next `count` continuation bytes to the bits read so far. -/
def extend? : (count bits : Nat) → Bytes → Option Nat
  | 0, bits, _ => some bits
  | _ + 1, _, [] => none
  | count + 1, bits, byte :: rest =>
      (payload? byte).bind fun low => extend? count (64 * bits + low) rest

/-- What a leading byte announces: how many continuation bytes follow it, its own payload,
and the least code point that needs a sequence of this length. -/
def announced? (lead : UInt8) : Option (Nat × Nat × Nat) :=
  let bits := lead.toNat
  if bits < 0x80 then some (0, bits, 0)
  else if bits < 0xC0 then none
  else if bits < 0xE0 then some (1, bits % 0x20, 0x80)
  else if bits < 0xF0 then some (2, bits % 0x10, 0x800)
  else if bits < 0xF8 then some (3, bits % 0x08, 0x10000)
  else none

/-- The character whose sequence starts with `lead`, with the number of bytes it takes from
`rest`. Overlong sequences, surrogates and code points past the last are refused. -/
def first? (lead : UInt8) (rest : Bytes) : Option (Char × Nat) := do
  let (count, bits, least) ← announced? lead
  let code ← extend? count bits rest
  if least ≤ code ∧ code.isValidChar then some (Char.ofNat code, count) else none

/-- Decode after passing over `taken` bytes that a character has already consumed. -/
def decodeAfter : (taken : Nat) → Bytes → List (Option Char)
  | _, [] => []
  | taken + 1, _ :: rest => decodeAfter taken rest
  | 0, lead :: rest =>
      match first? lead rest with
      | some (c, count) => some c :: decodeAfter count rest
      | none => none :: decodeAfter 0 rest

/-- The characters of a file; `none` marks a byte that belongs to no well-formed sequence. -/
def decode (bytes : Bytes) : List (Option Char) :=
  decodeAfter 0 bytes

/-- The text of a file, if all of it is well formed. -/
def text? (bytes : Bytes) : Option (List Char) :=
  (decode bytes).mapM id

end Utf8

end TableStore
