/-
# Written values are read as they were

Both layouts of a value spell the same tokens, and these tokens build the tree of the value. The
tree has the value it was made from, provided that the value is not nested too deeply and no object
in it repeats a key.
-/

import TableStore.Json.Reader
import TableStore.Proofs.Json.Token
import TableStore.Proofs.Text.Utf8

namespace TableStore.Json

open Token

mutual

/-- The tokens of a value. -/
def tokens : Json → List Token
  | .null => [.null]
  | .bool value => [.bool value]
  | .number value => [.number (some value)]
  | .string value => [.string (some value)]
  | .array items => .openArray :: (itemTokens items ++ [.closeArray])
  | .object members => .openObject :: (memberTokens members ++ [.closeObject])

/-- The tokens of items, with the commas between them. -/
def itemTokens : List Json → List Token
  | [] => []
  | [item] => tokens item
  | item :: rest => tokens item ++ .comma :: itemTokens rest

/-- The tokens of members, with the commas between them. -/
def memberTokens : List (String × Json) → List Token
  | [] => []
  | [(key, value)] => .string (some key) :: .colon :: tokens value
  | (key, value) :: rest =>
      .string (some key) :: .colon :: tokens value ++ .comma :: memberTokens rest

end

mutual

/-- The source tree of a value. -/
def source : Json → Source
  | .null => .null
  | .bool value => .bool value
  | .number value => .number (some value)
  | .string value => .string (some value)
  | .array items => .array (itemSources items)
  | .object members => .object (memberSources members)

/-- The source trees of items. -/
def itemSources : List Json → List Source
  | [] => []
  | item :: rest => source item :: itemSources rest

/-- The members of the source tree of an object. -/
def memberSources : List (String × Json) → List (Option String × Source)
  | [] => []
  | (key, value) :: rest => (some key, source value) :: memberSources rest

end

/-- The text of a truth value is a token. -/
theorem spells_writeBool (value : Bool) : Spells (writeBool value) [.bool value] := by
  cases value
  · exact .word (List.cons_ne_nil _ _) rfl rfl
  · exact .word (List.cons_ne_nil _ _) rfl rfl

/-- The text of the null value is a token. -/
theorem spells_null : Spells ['n', 'u', 'l', 'l'] [.null] :=
  .word (List.cons_ne_nil _ _) rfl rfl

/-- The text of a number is a token. -/
theorem spells_write (number : Number) : Spells number.write [.number (some number)] := by
  obtain ⟨numeral, proper, text, named⟩ := Number.exists_numeral number
  have letters := Numeral.isLetter_of_mem_text proper
  rw [text] at letters
  have read : Numeral.read? number.write = some numeral := by
    rw [← text, Numeral.read?_text proper]
  have none : ∀ name ∈ [[], ['n', 'u', 'l', 'l'], ['t', 'r', 'u', 'e'],
      ['f', 'a', 'l', 's', 'e']], Numeral.read? name = none := by
    decide
  have apart : ∀ name ∈ [[], ['n', 'u', 'l', 'l'], ['t', 'r', 'u', 'e'],
      ['f', 'a', 'l', 's', 'e']], number.write ≠ name := by
    intro name member same
    rw [same, none name member] at read
    cases read
  simp only [List.forall_mem_cons] at apart
  have together : (number.write.all fun c => !endsWord c) = true := by
    apply List.all_eq_true.mpr
    intro c member
    rw [Numeral.endsWord_of_isLetter (letters c member)]
    rfl
  refine .word apart.1 together ?_
  simp [ofWord?, apart, read, named]

/-- A text after a comma starts with a character that ends a word. -/
theorem breaks_cons {c : Char} (ends : endsWord c = true) (text : List Char) :
    Breaks (c :: text) := by
  intro d first
  rw [← Option.some.inj first]
  exact ends

/-- A comma between two texts. -/
theorem Token.Spells.separated {first second : List Char} {tokens others : List Token}
    (spells : Spells first tokens) (rest : Spells second others) :
    Spells (first ++ ',' :: second) (tokens ++ .comma :: others) :=
  spells.append (rest.cons rfl rfl (by decide)) (breaks_cons rfl second)

/-- A key, a colon and the text of a value. -/
theorem Token.Spells.member (key : String) {text : List Char} {tokens : List Token}
    (spells : Spells text tokens) :
    Spells (writeString key ++ ':' :: text) (.string (some key) :: .colon :: tokens) :=
  (Spells.string key).append (spells.cons rfl rfl (by decide)) (breaks_cons rfl text)

mutual

/-- The compact text of a value spells its tokens. -/
theorem spells_compact : (value : Json) → Spells value.compact value.tokens
  | .null => spells_null
  | .bool value => spells_writeBool value
  | .number value => spells_write value
  | .string value => .string value
  | .array items =>
      ((spells_compactItems items).punctuated rfl rfl (by decide)).cons rfl rfl (by decide)
  | .object members =>
      ((spells_compactMembers members).punctuated rfl rfl (by decide)).cons rfl rfl (by decide)

/-- The compact text of items spells their tokens. -/
theorem spells_compactItems : (items : List Json) → Spells (compactItems items) (itemTokens items)
  | [] => .nil
  | [item] => spells_compact item
  | item :: next :: rest => by
      rw [compactItems, itemTokens]
      · exact (spells_compact item).separated (spells_compactItems (next :: rest))
      all_goals simp

/-- The compact text of members spells their tokens. -/
theorem spells_compactMembers :
    (members : List (String × Json)) → Spells (compactMembers members) (memberTokens members)
  | [] => .nil
  | [(key, value)] => .member key (spells_compact value)
  | (key, value) :: next :: rest => by
      rw [compactMembers, memberTokens]
      · exact (Spells.member key (spells_compact value)).separated
          (spells_compactMembers (next :: rest))
      all_goals simp

end

/-- A line break and its indentation in front of a text are no tokens. -/
theorem Token.Spells.line {text : List Char} {tokens : List Token} (spells : Spells text tokens)
    (level : Nat) : Spells (newline level ++ text) tokens := by
  refine spells.blanks fun c member => ?_
  rcases List.mem_cons.mp member with rfl | blank
  · rfl
  · rw [List.eq_of_mem_replicate blank]
    rfl

/-- A space is a blank. -/
theorem isBlank_space : isBlank ' ' = true :=
  rfl

/-- A text, a line break and a closing mark. -/
theorem Token.Spells.closed {text : List Char} {tokens : List Token} (spells : Spells text tokens)
    (level : Nat) {c : Char} {token : Token} (mark : punctuation? c = some token)
    (visible : isBlank c = false) (noQuote : c ≠ '"') :
    Spells (text ++ newline level ++ [c]) (tokens ++ [token]) := by
  rw [List.append_assoc]
  exact spells.append ((Spells.punctuation mark visible noQuote).line level)
    (breaks_cons rfl _)

mutual

/-- The laid-out text of a value spells its tokens. -/
theorem spells_laidOut : (level : Nat) → (value : Json) → Spells (laidOut level value) value.tokens
  | _, .null => spells_null
  | _, .bool value => spells_writeBool value
  | _, .number value => spells_write value
  | _, .string value => .string value
  | _, .array [] => (Spells.punctuation rfl rfl (by decide)).cons rfl rfl (by decide)
  | level, .array (item :: rest) =>
      ((spells_laidOutItems (level + 1) (item :: rest)).closed level rfl rfl (by decide)).cons
        rfl rfl (by decide)
  | _, .object [] => (Spells.punctuation rfl rfl (by decide)).cons rfl rfl (by decide)
  | level, .object (member :: rest) =>
      ((spells_laidOutMembers (level + 1) (member :: rest)).closed level rfl rfl
        (by decide)).cons rfl rfl (by decide)

/-- The laid-out text of items spells their tokens. -/
theorem spells_laidOutItems : (level : Nat) → (items : List Json) →
    Spells (laidOutItems level items) (itemTokens items)
  | _, [] => .nil
  | level, [item] => (spells_laidOut level item).line level
  | level, item :: next :: rest => by
      rw [laidOutItems, itemTokens]
      · exact ((spells_laidOut level item).line level).separated
          (spells_laidOutItems level (next :: rest))
      all_goals simp

/-- The laid-out text of members spells their tokens. -/
theorem spells_laidOutMembers : (level : Nat) → (members : List (String × Json)) →
    Spells (laidOutMembers level members) (memberTokens members)
  | _, [] => .nil
  | level, [(key, value)] => by
      rw [laidOutMembers, memberTokens, List.append_assoc]
      exact (Spells.member key ((spells_laidOut level value).blank isBlank_space)).line level
  | level, (key, value) :: next :: rest => by
      rw [laidOutMembers, memberTokens, List.append_assoc, List.append_assoc]
      · have member := Spells.member key ((spells_laidOut level value).blank isBlank_space)
        have line := (member.line level).separated (spells_laidOutMembers level (next :: rest))
        simpa using line
      all_goals simp

end

namespace Source

/-- A value that may be the first of an array is started like any other: no value starts with the
end of an array. -/
theorem foldlM_firstItem (stack : List Frame) (value : Json) (rest : List Token) :
    (value.tokens ++ rest).foldlM step (.array [] :: stack, .firstItem) =
      (value.tokens ++ rest).foldlM step (.array [] :: stack, .value) := by
  cases value <;> rfl

/-- One token in front of others. -/
theorem foldlM_cons {state next : State} {token : Token} (stepped : step state token = some next)
    (rest : List Token) : (token :: rest).foldlM step state = rest.foldlM step next := by
  rw [List.foldlM_cons, stepped]
  rfl

/-- The tokens of items start with those of the first. -/
theorem exists_itemTokens_append (item : Json) (items : List Json) :
    ∃ rest, itemTokens (item :: items) = item.tokens ++ rest := by
  cases items with
  | nil => exact ⟨[], (List.append_nil _).symm⟩
  | cons next items => exact ⟨.comma :: itemTokens (next :: items), rfl⟩

mutual

/-- The tokens of a value build its source tree. -/
theorem foldlM_tokens : (value : Json) → (stack : List Frame) → (rest : List Token) →
    (value.tokens ++ rest).foldlM step (stack, .value) =
      rest.foldlM step (stack, .done value.source)
  | .null, _, _ => rfl
  | .bool _, _, _ => rfl
  | .number _, _, _ => rfl
  | .string _, _, _ => rfl
  | .array [], _, _ => rfl
  | .array (item :: items), stack, rest => by
      obtain ⟨others, first⟩ := exists_itemTokens_append item items
      rw [tokens, List.cons_append, foldlM_cons rfl, List.append_assoc, first, List.append_assoc,
        foldlM_firstItem, ← List.append_assoc, ← first]
      exact foldlM_itemTokens (item :: items) (by simp) [] stack rest
  | .object [], _, _ => rfl
  | .object (member :: members), stack, rest => by
      have opened : (memberTokens (member :: members) ++ [closeObject] ++ rest).foldlM step
            (stack, .firstKey) =
          (memberTokens (member :: members) ++ [closeObject] ++ rest).foldlM step
            (stack, .key []) := by
        cases members <;> rfl
      rw [tokens, List.cons_append, foldlM_cons rfl, opened, List.append_assoc]
      exact foldlM_memberTokens (member :: members) (by simp) [] stack rest

/-- The tokens of the items of an array, from some item on, and its end. -/
theorem foldlM_itemTokens : (items : List Json) → items ≠ [] → (before : List Source) →
    (stack : List Frame) → (rest : List Token) →
    (itemTokens items ++ .closeArray :: rest).foldlM step (.array before :: stack, .value) =
      rest.foldlM step (stack, .done (.array (before.reverse ++ itemSources items)))
  | [], nonempty, _, _, _ => absurd rfl nonempty
  | [item], _, before, stack, rest => by
      rw [itemTokens, foldlM_tokens item, foldlM_cons rfl, List.reverse_cons]
      rfl
  | item :: next :: items, _, before, stack, rest => by
      rw [itemTokens, List.append_assoc, List.cons_append, foldlM_tokens item, foldlM_cons rfl,
        foldlM_itemTokens (next :: items) (by simp), List.reverse_cons, List.append_assoc]
      · rfl
      · simp

/-- The tokens of the members of an object, from some key on, and its end. -/
theorem foldlM_memberTokens : (members : List (String × Json)) → members ≠ [] →
    (before : List (Option String × Source)) → (stack : List Frame) → (rest : List Token) →
    (memberTokens members ++ .closeObject :: rest).foldlM step (stack, .key before) =
      rest.foldlM step (stack, .done (.object (before.reverse ++ memberSources members)))
  | [], nonempty, _, _, _ => absurd rfl nonempty
  | [(key, value)], _, before, stack, rest => by
      rw [memberTokens, List.cons_append, foldlM_cons rfl, List.cons_append, foldlM_cons rfl,
        foldlM_tokens value, foldlM_cons rfl, List.reverse_cons]
      rfl
  | (key, value) :: next :: members, _, before, stack, rest => by
      rw [memberTokens, List.append_assoc, List.cons_append, foldlM_cons rfl, List.cons_append,
        foldlM_cons rfl, List.cons_append, foldlM_tokens value, foldlM_cons rfl,
        foldlM_memberTokens (next :: members) (by simp), List.reverse_cons, List.append_assoc]
      · rfl
      · simp

end

/-- The tokens of a value are those of its source tree. -/
theorem ofTokens?_tokens (value : Json) : ofTokens? value.tokens = some value.source := by
  have built := foldlM_tokens value [] []
  rw [List.append_nil] at built
  simp [ofTokens?, built]

/-- A file that spells a value is read as the source tree of this value. -/
theorem ofBytes?_encode {text : List Char} {value : Json} (spells : Spells text value.tokens) :
    ofBytes? (Utf8.encode text) = some value.source := by
  rw [ofBytes?, Utf8.decode_encode, ofText?, spells.scan?, Option.bind_some, ofTokens?_tokens]

/-- The source tree of a scalar has this scalar as its value. -/
theorem value?_source {value : Json} (scalar : value.isScalar = true) (depth : Nat) :
    value? depth value.source = some value := by
  cases value with
  | array => simp [isScalar] at scalar
  | object => simp [isScalar] at scalar
  | _ => simp [source, value?]

/-- Items that are read as they were are read one after another. -/
theorem itemValues?_itemSources {depth : Nat} {items : List Json}
    (read : ∀ item ∈ items, value? depth item.source = some item) :
    itemValues? depth (itemSources items) = some items := by
  induction items with
  | nil => simp [itemSources, itemValues?]
  | cons item rest ih =>
      rw [List.forall_mem_cons] at read
      rw [itemSources, itemValues?, read.1, ih read.2]
      rfl

/-- Members whose values are read as they were are set one after another. -/
theorem memberValues?_memberSources {depth : Nat} {members : List (String × Json)}
    (read : ∀ member ∈ members, value? depth member.2.source = some member.2)
    (before : List (String × Json)) :
    memberValues? depth before (memberSources members) =
      some (members.foldl (fun read member => setMember member.1 member.2 read) before) := by
  induction members generalizing before with
  | nil => simp [memberSources, memberValues?]
  | cons member rest ih =>
      obtain ⟨key, value⟩ := member
      rw [List.forall_mem_cons] at read
      rw [List.foldl_cons, ← ih read.2, memberSources, memberValues?, read.1]
      rfl

end Source

/-- A key that is not there yet is set at the end. -/
theorem setMember_of_notMem {key : String} {members : List (String × Json)} (value : Json)
    (absent : key ∉ members.map Prod.fst) :
    setMember key value members = members ++ [(key, value)] := by
  induction members with
  | nil => rfl
  | cons member rest ih =>
      obtain ⟨other, old⟩ := member
      rw [List.map_cons, List.mem_cons, not_or] at absent
      rw [setMember, if_neg (fun same => absent.1 same.symm), ih absent.2, List.cons_append]

/-- Members under distinct keys are set one after another. -/
theorem foldl_setMember {before members : List (String × Json)}
    (distinct : ((before ++ members).map Prod.fst).Nodup) :
    members.foldl (fun read member => setMember member.1 member.2 read) before =
      before ++ members := by
  induction members generalizing before with
  | nil => simp
  | cons member rest ih =>
      have absent : member.1 ∉ before.map Prod.fst := by
        rw [List.map_append, List.nodup_append] at distinct
        exact fun listed => distinct.2.2 _ listed _ (by simp) rfl
      rw [List.foldl_cons, setMember_of_notMem member.2 absent, ih (by simpa using distinct),
        List.append_assoc]
      rfl

/-- Whether a value is read as it was: it is nested no deeper than `depth` levels, and no object in
it repeats a key. -/
inductive Readable : (depth : Nat) → Json → Prop
  | scalar {depth : Nat} {value : Json} (isScalar : value.isScalar = true) : Readable depth value
  | array {depth : Nat} {items : List Json} (each : ∀ item ∈ items, Readable depth item) :
      Readable (depth + 1) (.array items)
  | object {depth : Nat} {members : List (String × Json)} (distinct : (members.map Prod.fst).Nodup)
      (each : ∀ member ∈ members, Readable depth member.2) : Readable (depth + 1) (.object members)

/-- The source tree of a readable value has this value. -/
theorem Readable.value?_source {depth : Nat} {value : Json} (readable : Readable depth value) :
    Source.value? depth value.source = some value := by
  induction readable with
  | scalar isScalar => exact Source.value?_source isScalar _
  | array _ read => rw [source, Source.value?, Source.itemValues?_itemSources read, Option.map_some]
  | object distinct _ read =>
      rw [source, Source.value?, Source.memberValues?_memberSources read,
        foldl_setMember (by simpa using distinct), Option.map_some, List.nil_append]

/-- A text that spells a readable value is read as this value. -/
theorem read?_of_spells {text : List Char} {value : Json}
    (spells : Token.Spells text value.tokens) (readable : Readable depthLimit value) :
    read? (text.map some) = some value := by
  rw [read?, Source.ofText?, spells.scan?, Option.bind_some, Source.ofTokens?_tokens,
    Option.bind_some, readable.value?_source]

/-- A file that spells a readable value is read as this value. -/
theorem ofBytes?_encode {text : List Char} {value : Json}
    (spells : Token.Spells text value.tokens) (readable : Readable depthLimit value) :
    ofBytes? (Utf8.encode text) = some value := by
  rw [ofBytes?, Utf8.decode_encode, read?_of_spells spells readable]

/-- The compact text of a readable value is read as this value. -/
theorem ofText?_toText {value : Json} (readable : Readable depthLimit value) :
    ofText? value.toText = some value := by
  rw [ofText?, toText, String.toList_ofList, read?_of_spells (spells_compact value) readable]

end TableStore.Json
