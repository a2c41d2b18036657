/-
# Values of fields

What a directive asks of the value of a field is a number, a truth value or a regular expression.
Nothing is ever matched with it, because only spans have values to match, but a directive whose
value cannot be read does not count.
-/

import TableStore.LogFilter.Pattern.Reader
import TableStore.LogFilter.Pattern.Support

namespace TableStore.LogFilter

/-- Whether a text is a regular expression that is supported. -/
def isExpression (text : List Char) : Bool :=
  match Pattern.read? text with
  | some expression => expression.isSupported
  | none => false

/-- Whether a text is a number with a plus sign in front. All other numbers, and the truth values,
are regular expressions as well. -/
def isPlusNumber : List Char → Bool
  | '+' :: rest =>
      let name := (String.ofList rest).toLower
      let mantissa := rest.takeWhile fun c => c.isDigit || c = '.'
      let exponent :=
        match rest.drop mantissa.length with
        | [] => some []
        | mark :: digits =>
            if mark ≠ 'e' ∧ mark ≠ 'E' then none
            else if digits.head? = some '+' ∨ digits.head? = some '-' then some (digits.drop 1)
            else some digits
      let isScaled :=
        match exponent with
        | none => false
        | some digits =>
            digits.all Char.isDigit && (digits ≠ [] || rest.length = mantissa.length)
      name = "inf" || name = "infinity" || name = "nan" ||
        mantissa.any Char.isDigit && mantissa.count '.' ≤ 1 && isScaled
  | _ => false

/-- Whether a text can stand for the value of a field. -/
def isFieldValue (text : List Char) : Bool :=
  isExpression text || isPlusNumber text

end TableStore.LogFilter
