/-
# Text is cut into the words it was made of

The printer puts a word next to a punctuation mark, a blank or a quote, never next to another
word. Where one such text ends the scanner has therefore settled all of its tokens, or would do so
at the next character: the tokens of two texts are those of the one before those of the other.
-/

import TableStore.Json.Printer
import TableStore.Json.Token
import TableStore.Proofs.Json.Number

namespace TableStore

namespace Json.Token

/-- Read a text without damage. -/
def run (progress : Progress) (text : List Char) : Option Progress :=
  (text.map some).foldlM advance progress

@[simp]
theorem run_nil (progress : Progress) : run progress [] = some progress :=
  rfl

theorem run_cons (progress : Progress) (c : Char) (text : List Char) :
    run progress (c :: text) = (advance progress (some c)).bind fun next => run next text :=
  rfl

theorem run_append (progress : Progress) (first second : List Char) :
    run progress (first ++ second) = (run progress first).bind fun next => run next second := by
  simp only [run, List.map_append, List.foldlM_append]
  rfl

/-- The tokens of a progress, last first, when the word that is being read ends here. -/
def settled? : Progress → Option (List Token)
  | (read, .between) => some read
  | (read, .word letters) => (ofWord? letters.reverse).map (· :: read)
  | _ => none

/-- Whether a text, read from between tokens, is made of the given ones. -/
def Spells (text : List Char) (tokens : List Token) : Prop :=
  ∀ before, (run (before, .between) text).bind settled? = some (tokens.reverse ++ before)

/-- Whether a text starts with a character that ends a word, if with any. -/
def Breaks (text : List Char) : Prop :=
  ∀ c ∈ text.head?, endsWord c = true

/-- Where a word ends, it makes no difference that its token was not settled yet. -/
theorem run_eq_of_settled? {progress : Progress} {read : List Token} {text : List Char}
    (settled : settled? progress = some read) (breaks : Breaks text) :
    (run progress text).bind settled? = (run (read, .between) text).bind settled? := by
  obtain ⟨before, mode⟩ := progress
  cases mode with
  | between => rw [← Option.some.inj settled]
  | word letters =>
      obtain ⟨token, word, rfl⟩ := Option.map_eq_some_iff.mp settled
      cases text with
      | nil => exact settled
      | cons c rest =>
          have ends : endsWord c = true := breaks c rfl
          have same : advance (before, .word letters) (some c) =
              advance (token :: before, .between) (some c) := by
            simp [advance, step, ends, word]
          rw [run_cons, run_cons, same]
  | string => simp [settled?] at settled
  | escape => simp [settled?] at settled
  | unit => simp [settled?] at settled

/-- The tokens of a text are all that is read from it. -/
theorem Spells.scan? {text : List Char} {tokens : List Token} (spells : Spells text tokens) :
    Token.scan? (text.map some) = some tokens := by
  have finish : ∀ progress, finish? progress = (settled? progress).map List.reverse := by
    rintro ⟨read, mode⟩
    cases mode with
    | word letters =>
        cases word : ofWord? letters.reverse <;> simp [finish?, settled?, word]
    | _ => rfl
  have all := spells []
  rw [List.append_nil] at all
  obtain ⟨progress, reached, settled⟩ := Option.bind_eq_some_iff.mp all
  calc Token.scan? (text.map some)
      = (run ([], .between) text).bind finish? := rfl
    _ = some tokens := by
        rw [reached, Option.bind_some, finish, settled, Option.map_some, List.reverse_reverse]

theorem Spells.nil : Spells [] [] :=
  fun _ => rfl

/-- Two texts after one another have the tokens of both. -/
theorem Spells.append {first second : List Char} {tokens others : List Token}
    (spells : Spells first tokens) (rest : Spells second others) (breaks : Breaks second) :
    Spells (first ++ second) (tokens ++ others) := by
  intro before
  obtain ⟨progress, reached, settled⟩ := Option.bind_eq_some_iff.mp (spells before)
  rw [run_append, reached, Option.bind_some, run_eq_of_settled? settled breaks,
    rest (tokens.reverse ++ before), List.reverse_append, List.append_assoc]

/-- A punctuation mark ends a word. -/
theorem endsWord_of_punctuation {c : Char} {token : Token}
    (mark : punctuation? c = some token) : endsWord c = true := by
  simp [endsWord, mark]

/-- A punctuation mark is a token. -/
theorem Spells.punctuation {c : Char} {token : Token} (mark : punctuation? c = some token)
    (visible : isBlank c = false) (noQuote : c ≠ '"') : Spells [c] [token] := by
  intro before
  simp [run_cons, advance, step, start, mark, visible, noQuote, settled?]

/-- A text and a punctuation mark after it. -/
theorem Spells.punctuated {text : List Char} {tokens : List Token} {c : Char} {token : Token}
    (spells : Spells text tokens) (mark : punctuation? c = some token)
    (visible : isBlank c = false) (noQuote : c ≠ '"') :
    Spells (text ++ [c]) (tokens ++ [token]) := by
  refine spells.append (.punctuation mark visible noQuote) fun d first => ?_
  rw [← Option.some.inj first]
  exact endsWord_of_punctuation mark

/-- A punctuation mark and any text after it. -/
theorem Spells.cons {text : List Char} {tokens : List Token} {c : Char} {token : Token}
    (spells : Spells text tokens) (mark : punctuation? c = some token)
    (visible : isBlank c = false) (noQuote : c ≠ '"') :
    Spells (c :: text) (token :: tokens) := by
  intro before
  have marked : advance (before, .between) (some c) = some (token :: before, .between) := by
    simp [advance, step, start, mark, visible, noQuote]
  rw [run_cons, marked, Option.bind_some, spells (token :: before)]
  simp

/-- A blank in front of a text is no token. -/
theorem Spells.blank {text : List Char} {tokens : List Token} {c : Char}
    (spells : Spells text tokens) (blank : isBlank c = true) : Spells (c :: text) tokens := by
  intro before
  have passed : advance (before, .between) (some c) = some (before, .between) := by
    simp [advance, step, start, blank]
  rw [run_cons, passed, Option.bind_some, spells before]

/-- Blanks in front of a text are no tokens. -/
theorem Spells.blanks {text : List Char} {tokens : List Token} {blanks : List Char}
    (spells : Spells text tokens) (allBlank : ∀ c ∈ blanks, isBlank c = true) :
    Spells (blanks ++ text) tokens := by
  induction blanks with
  | nil => exact spells
  | cons c rest ih =>
      exact (ih fun d member => allBlank d (List.mem_cons_of_mem c member)).blank
        (allBlank c List.mem_cons_self)

/-- Letters are gathered into a word. -/
theorem run_word {letters word : List Char} (before : List Token)
    (inside : ∀ c ∈ letters, endsWord c = false) :
    run (before, .word word) letters = some (before, .word (letters.reverse ++ word)) := by
  induction letters generalizing word with
  | nil => rfl
  | cons c rest ih =>
      have gathered : advance (before, .word word) (some c) = some (before, .word (c :: word)) := by
        simp [advance, step, inside c List.mem_cons_self]
      rw [run_cons, gathered, Option.bind_some,
        ih fun d member => inside d (List.mem_cons_of_mem c member), List.reverse_cons,
        List.append_assoc]
      rfl

/-- A word is a token. -/
theorem Spells.word {letters : List Char} {token : Token} (nonempty : letters ≠ [])
    (together : (letters.all fun c => !endsWord c) = true) (word : ofWord? letters = some token) :
    Spells letters [token] := by
  intro before
  have inside : ∀ c ∈ letters, endsWord c = false := by
    intro c member
    simpa using List.all_eq_true.mp together c member
  obtain ⟨c, rest, rfl⟩ := List.exists_cons_of_ne_nil nonempty
  have letter := inside c List.mem_cons_self
  simp only [endsWord, Bool.or_eq_false_iff, decide_eq_false_iff_not, Option.isSome_eq_false_iff,
    Option.isNone_iff_eq_none] at letter
  have begun : advance (before, .between) (some c) = some (before, .word [c]) := by
    simp [advance, step, start, letter]
  rw [run_cons, begun, Option.bind_some,
    run_word before fun d member => inside d (List.mem_cons_of_mem c member)]
  simp [settled?, word]

/-- The piece that a written character is read as. -/
def piece (c : Char) : Piece :=
  if c.toNat < 0x20 ∧ ¬(c = '\x08' ∨ c = '\t' ∨ c = '\n' ∨ c = '\x0c' ∨ c = '\r') then
    .unit c.toNat
  else .char c

/-- Two hexadecimal digits count what they were made from. -/
theorem hexDigit?_digitChar {n : Nat} (small : n < 16) :
    hexDigit? (Nat.digitChar n) = some n := by
  have all : ∀ n < 16, hexDigit? (Nat.digitChar n) = some n := by decide
  exact all n small

/-- A written character is read as one piece. -/
theorem run_escapedChar (before : List Token) (read : List Piece) (c : Char) :
    run (before, .string read) (escapedChar c) = some (before, .string (piece c :: read)) := by
  unfold escapedChar piece
  split
  · next quote => subst quote; rfl
  split
  · next backslash => subst backslash; rfl
  split
  · next special => subst special; rfl
  split
  · next special => subst special; rfl
  split
  · next special => subst special; rfl
  split
  · next special => subst special; rfl
  split
  · next special => subst special; rfl
  split
  · next control =>
      have high := hexDigit?_digitChar (show c.toNat / 16 < 16 by omega)
      have low := hexDigit?_digitChar (show c.toNat % 16 < 16 by omega)
      have whole : 16 * (c.toNat / 16) + c.toNat % 16 = c.toNat := by omega
      have opened : advance (before, .string read) (some '\\') = some (before, .escape read) := rfl
      have unit : advance (before, .escape read) (some 'u') = some (before, .unit read 3 0) := rfl
      have first : advance (before, .unit read 3 0) (some '0') =
          some (before, .unit read 2 0) := rfl
      have second : advance (before, .unit read 2 0) (some '0') =
          some (before, .unit read 1 0) := rfl
      have third : advance (before, .unit read 1 0) (some (Nat.digitChar (c.toNat / 16))) =
          some (before, .unit read 0 (c.toNat / 16)) := by
        simp [advance, step, high]
      have fourth : advance (before, .unit read 0 (c.toNat / 16))
          (some (Nat.digitChar (c.toNat % 16))) =
          some (before, .string (.unit c.toNat :: read)) := by
        simp [advance, step, low, whole]
      rw [if_pos ⟨control, by tauto⟩]
      simp only [run_cons, run_nil, opened, unit, first, second, third, fourth, Option.bind_some]
  · next noQuote noBackslash _ _ _ _ _ visible =>
      simp [run_cons, advance, step, noQuote, noBackslash, visible]

/-- Written characters are read as their pieces. -/
theorem run_escaped (before : List Token) (read : List Piece) (text : List Char) :
    run (before, .string read) (text.flatMap escapedChar) =
      some (before, .string ((text.map piece).reverse ++ read)) := by
  induction text generalizing read with
  | nil => rfl
  | cons c rest ih =>
      rw [List.flatMap_cons, run_append, run_escapedChar, Option.bind_some, ih, List.map_cons,
        List.reverse_cons, List.append_assoc]
      rfl

/-- A code unit that is no surrogate stands for itself, whatever follows. -/
theorem decode?_unit {code : Nat} (small : code < 0xD800) (pieces : List Piece) :
    Piece.decode? (.unit code :: pieces) =
      (Piece.decode? pieces).map (Char.ofNat code :: ·) := by
  have noPair : ¬(0xD800 ≤ code ∧ code < 0xDC00) := by omega
  have noHalf : ¬(0xDC00 ≤ code ∧ code < 0xE000) := by omega
  have noSurrogate : ¬(0xD800 ≤ code ∧ code < 0xE000) := by omega
  cases pieces with
  | nil => simp only [Piece.decode?, noSurrogate, if_false]
  | cons next rest =>
      cases next with
      | unit low => simp only [Piece.decode?, noPair, noHalf, if_false]
      | char c => simp only [Piece.decode?, noSurrogate, if_false]
      | damaged => simp only [Piece.decode?, noSurrogate, if_false]

/-- The pieces of a text denote its characters. -/
theorem decode?_map_piece (text : List Char) : Piece.decode? (text.map piece) = some text := by
  induction text with
  | nil => rfl
  | cons c rest ih =>
      rw [List.map_cons, piece]
      split
      · next control =>
          rw [decode?_unit (by omega), ih, Option.map_some, Char.ofNat_toNat]
      · rw [Piece.decode?, ih, Option.map_some]

/-- A string between its quotes is a token. -/
theorem Spells.string (value : String) : Spells (writeString value) [.string (some value)] := by
  intro before
  have opened : advance (before, .between) (some '"') = some (before, .string []) := rfl
  rw [writeString, List.cons_append, run_cons, opened, Option.bind_some, run_append, run_escaped,
    Option.bind_some, List.append_nil]
  simp [run_cons, advance, step, decode?_map_piece, settled?]

end Json.Token

namespace Numeral

/-- The characters that numerals are made of. -/
def isLetter (c : Char) : Bool :=
  c.isDigit || c = '-' || c = '+' || c = '.' || c = 'e'

/-- A numeral is made of its letters. -/
theorem isLetter_of_mem_text {numeral : Numeral} (proper : numeral.Proper) :
    ∀ c ∈ numeral.text, isLetter c = true := by
  have digits : ∀ text, AllDigits text → ∀ c ∈ text, isLetter c = true := by
    intro text all c member
    simp [isLetter, all c member]
  have unsigned : ∀ c ∈ numeral.unsignedText, isLetter c = true := by
    intro c member
    rcases List.mem_append.mp member with whole | tail
    · exact digits _ proper.whole_digits c whole
    rcases List.mem_append.mp tail with fraction | exponent
    · cases found : numeral.fraction with
      | none => simp [found] at fraction
      | some text =>
          rw [found] at fraction
          rcases List.mem_cons.mp fraction with rfl | digit
          · rfl
          · exact digits _ (proper.fraction_digits text found) c digit
    · cases found : numeral.exponent with
      | none => simp [found] at exponent
      | some power =>
          rw [found] at exponent
          rcases List.mem_cons.mp exponent with rfl | letter
          · rfl
          rcases List.mem_cons.mp letter with rfl | digit
          · split <;> rfl
          · exact digits _ (allDigits_toDigits power.natAbs) c digit
  unfold text
  split
  · intro c member
    rcases List.mem_cons.mp member with rfl | letter
    · rfl
    · exact unsigned c letter
  · exact unsigned

/-- The letters of numerals do not end a word. -/
theorem endsWord_of_isLetter {c : Char} (letter : isLetter c = true) :
    Json.Token.endsWord c = false := by
  let marks := [' ', '\t', '\n', '\r', '"', '[', ']', '\x7b', '\x7d', ',', ':']
  have none : (marks.all fun mark => !isLetter mark) = true := rfl
  have apart : ∀ mark ∈ marks, c ≠ mark := by
    rintro mark member rfl
    have noLetter := List.all_eq_true.mp none c member
    rw [letter] at noLetter
    cases noLetter
  simp only [marks, List.forall_mem_cons] at apart
  simp [Json.Token.endsWord, Json.Token.isBlank, Json.Token.punctuation?, apart]

end Numeral

end TableStore
