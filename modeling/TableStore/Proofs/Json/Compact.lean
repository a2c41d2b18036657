/-
# Compact texts stand on one line

A control character in a string or in a key is written by an escape, and everything else that the
printer writes is visible. So the compact text of any value, however deep, holds no control
character and in particular no line break.
-/

import TableStore.Json.Printer
import TableStore.Proofs.Json.Token

namespace TableStore.Json

/-- Whether a text holds no control character. -/
def Visible (text : List Char) : Prop :=
  ∀ c ∈ text, 0x20 ≤ c.toNat

instance (text : List Char) : Decidable (Visible text) :=
  List.decidableBAll (fun c : Char => 0x20 ≤ c.toNat) text

/-- A visible character in front of a visible text. -/
theorem Visible.cons {text : List Char} (visible : Visible text) {c : Char}
    (first : 0x20 ≤ c.toNat) : Visible (c :: text) :=
  List.forall_mem_cons.mpr ⟨first, visible⟩

/-- Two visible texts after one another. -/
theorem Visible.append {first second : List Char} (visible : Visible first)
    (rest : Visible second) : Visible (first ++ second) :=
  List.forall_mem_append.mpr ⟨visible, rest⟩

/-- A hexadecimal digit is visible. -/
theorem le_toNat_digitChar {n : Nat} (small : n < 16) : 0x20 ≤ (Nat.digitChar n).toNat := by
  have all : ∀ n < 16, 0x20 ≤ (Nat.digitChar n).toNat := by decide
  exact all n small

/-- A character is written visibly inside a string. -/
theorem visible_escapedChar (c : Char) : Visible (escapedChar c) := by
  unfold escapedChar
  -- a letter after the backslash makes a closed text; digits, or the character itself, do not
  iterate 7
    split
    · decide
  split
  · next control =>
      have prefixed : Visible ['\\', 'u', '0', '0'] := by decide
      have low := le_toNat_digitChar (show c.toNat % 16 < 16 by omega)
      have high := le_toNat_digitChar (show c.toNat / 16 < 16 by omega)
      exact prefixed.append ((Visible.cons (List.forall_mem_nil _) low).cons high)
  · next visible => exact Visible.cons (List.forall_mem_nil _) (Nat.not_lt.mp visible)

/-- A string is written visibly. -/
theorem visible_writeString (value : String) : Visible (writeString value) := by
  have inside : Visible (value.toList.flatMap escapedChar) := by
    intro c member
    obtain ⟨written, -, letter⟩ := List.mem_flatMap.mp member
    exact visible_escapedChar written c letter
  have quote : Visible ['"'] := by decide
  exact quote.append (inside.append quote)

/-- A truth value is written visibly. -/
theorem visible_writeBool (value : Bool) : Visible (writeBool value) := by
  cases value <;> decide

/-- A number is written visibly. -/
theorem visible_write (number : Number) : Visible number.write := by
  obtain ⟨numeral, proper, text, -⟩ := Number.exists_numeral number
  rw [← text]
  intro c member
  have letter := Numeral.isLetter_of_mem_text proper c member
  simp only [Numeral.isLetter, Bool.or_eq_true, decide_eq_true_eq] at letter
  rcases letter with (((digit | rfl) | rfl) | rfl) | rfl
  · have above : '0'.toNat ≤ c.toNat := (Char.isDigit_iff_toNat.mp digit).1
    exact Nat.le_trans (by decide) above
  all_goals decide

mutual

/-- The compact text of a value is visible. -/
theorem visible_compact : (value : Json) → Visible value.compact
  | .null => by decide
  | .bool value => visible_writeBool value
  | .number value => visible_write value
  | .string value => visible_writeString value
  | .array items => ((visible_compactItems items).cons (by decide)).append (by decide)
  | .object members => ((visible_compactMembers members).cons (by decide)).append (by decide)

/-- The compact text of items is visible. -/
theorem visible_compactItems : (items : List Json) → Visible (compactItems items)
  | [] => List.forall_mem_nil _
  | [item] => visible_compact item
  | item :: next :: rest => by
      rw [compactItems]
      · exact (visible_compact item).append
          ((visible_compactItems (next :: rest)).cons (by decide))
      all_goals simp

/-- The compact text of members is visible. -/
theorem visible_compactMembers :
    (members : List (String × Json)) → Visible (compactMembers members)
  | [] => List.forall_mem_nil _
  | [(key, value)] =>
      (visible_writeString key).append ((visible_compact value).cons (by decide))
  | (key, value) :: next :: rest => by
      rw [compactMembers]
      · exact ((visible_writeString key).append ((visible_compact value).cons (by decide))).append
          ((visible_compactMembers (next :: rest)).cons (by decide))
      all_goals simp

end

/-- The compact text of a value holds no line break. -/
theorem lineBreak_notMem_compact (value : Json) : '\n' ∉ value.compact := by
  intro member
  exact absurd (visible_compact value '\n' member) (by decide)

end TableStore.Json
