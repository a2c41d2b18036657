/-
# Supported expressions

An expression is compiled to a machine that reads the bytes of a text in UTF-8. This limits what
it may ask for. With the flag `u`, which is on at first, it is about characters, but there are no
tables to tell which of them are digits or letters or differ in case only. Without the flag it is
about bytes, and then it must not match a part of a character.
-/

import TableStore.LogFilter.Pattern.Basic

namespace TableStore.LogFilter.Pattern

/-- The flags that decide what is supported. -/
structure Flags where
  /-- The flag `u`: the expression is about characters, not bytes. -/
  unicode : Bool
  /-- The flag `i`: letters match whatever their case. -/
  ignoreCase : Bool
  deriving DecidableEq, Repr

namespace Flags

/-- The flags at the start of an expression. -/
def initial : Flags where
  unicode := true
  ignoreCase := false

/-- The flags after a change. -/
def apply (flags : Flags) (change : FlagChange) : Flags where
  unicode := (change.value? 'u').getD flags.unicode
  ignoreCase := (change.value? 'i').getD flags.ignoreCase

/-- Whether the case of characters would have to be known. -/
def needsCases (flags : Flags) : Bool :=
  flags.unicode && flags.ignoreCase

end Flags

/-- Whether a literal outside of sets is supported. -/
def Literal.isSupported (flags : Flags) (literal : Literal) : Bool :=
  if flags.unicode then !flags.ignoreCase
  else !literal.isByte || literal.char.toNat < 0x80

/-- Whether a shorthand is supported. Its complement has bytes that are no characters. -/
def supportsShorthand (flags : Flags) (negated : Bool) : Bool :=
  !flags.unicode && !negated

/-! ## Sets -/

namespace CharSet

mutual

/-- Whether a set has all characters rather than none, when the case of characters would have to
be known. A set with a definite character in it has no answer. -/
def isEverything? : CharSet → Option Bool
  | .bracketed negated content => content.isEverything?.map fun everything => everything ^^ negated
  | .union parts => anyIsEverything? parts
  | .operation kind left right => do
      let left ← left.isEverything?
      let right ← right.isEverything?
      match kind with
      | .intersection => some (left && right)
      | .difference => some (left && !right)
      | .symmetricDifference => some (left ^^ right)
  | _ => none

/-- The answer for the union of some sets. -/
def anyIsEverything? : List CharSet → Option Bool
  | [] => some false
  | part :: rest => do
      let first ← part.isEverything?
      let others ← anyIsEverything? rest
      some (first || others)

end

mutual

/-- Whether a set can be built when case does not matter. A set of bytes has only those of single
characters, and so it is no complement. -/
def isDefinite (flags : Flags) : CharSet → Bool
  | .literal single => flags.unicode || single.char.toNat < 0x80
  | .range low high => flags.unicode || low.char.toNat < 0x80 && high.char.toNat < 0x80
  | .named negated => flags.unicode || !negated
  | .shorthand negated => supportsShorthand flags negated
  | .bracketed negated content => (flags.unicode || !negated) && content.isDefinite flags
  | .union parts => allDefinite flags parts
  | .operation _ left right => left.isDefinite flags && right.isDefinite flags

/-- Whether all of some sets can be built. -/
def allDefinite (flags : Flags) : List CharSet → Bool
  | [] => true
  | part :: rest => part.isDefinite flags && allDefinite flags rest

end

/-- Whether a set is supported. -/
def isSupported (flags : Flags) (set : CharSet) : Bool :=
  if flags.needsCases then set.isEverything?.isSome else set.isDefinite flags

end CharSet

/-! ## Expressions -/

namespace Expression

/-- The flags after a part that leaves them as they are, if it is supported. -/
def keeping (flags : Flags) (supported : Bool) : Option Flags :=
  if supported then some flags else none

mutual

/-- The flags after an expression, if all of it is supported. A change lasts to the end of the
group that it is in. -/
def flagsAfter? (flags : Flags) : Expression → Option Flags
  | .flags change => some (flags.apply change)
  | .literal single => keeping flags (single.isSupported flags)
  | .any => keeping flags flags.unicode
  | .edge => some flags
  | .wordEdge => keeping flags !flags.unicode
  | .shorthand negated => keeping flags (supportsShorthand flags negated)
  | .set content => keeping flags (content.isSupported flags)
  | .repetition repeated => repeated.flagsAfter? flags
  | .group change content => (content.flagsAfter? (flags.apply change)).map fun _ => flags
  | .sequence parts => flagsAfterAll? flags parts
  | .alternatives parts => flagsAfterAll? flags parts

/-- The flags after some expressions, one after the other, if all are supported. -/
def flagsAfterAll? (flags : Flags) : List Expression → Option Flags
  | [] => some flags
  | part :: rest => (part.flagsAfter? flags).bind fun flags => flagsAfterAll? flags rest

end

/-- How deep an expression may be nested. -/
def nestingLimit : Nat :=
  250

/-- Whether an expression is supported. -/
def isSupported (expression : Expression) : Bool :=
  expression.fits nestingLimit && (expression.flagsAfter? Flags.initial).isSome

end Expression

end TableStore.LogFilter.Pattern
