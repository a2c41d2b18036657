/-
# Text survives being stored

A text that is encoded and decoded again is the same text, with no gap in it. Every character is
decoded from exactly the bytes that it was given, so the sequences can be laid end to end.
-/

import TableStore.Text.Utf8

namespace TableStore.Utf8

/-- The number of a byte that is made from a small enough number. -/
theorem toNat_byte {value : Nat} (small : value < 0x100) : (UInt8.ofNat value).toNat = value := by
  rw [UInt8.toNat_ofNat']
  omega

/-- One more continuation byte appends its payload to the bits read so far. -/
theorem extend?_continuation (value count bits : Nat) (rest : Bytes) :
    extend? (count + 1) bits (UInt8.ofNat (value % 0x40 + 0x80) :: rest) =
      extend? count (64 * bits + value % 0x40) rest := by
  have number : (UInt8.ofNat (value % 0x40 + 0x80)).toNat = value % 0x40 + 0x80 :=
    toNat_byte (by omega)
  have payload : payload? (UInt8.ofNat (value % 0x40 + 0x80)) = some (value % 0x40) := by
    rw [payload?, number, if_pos (by omega)]
    congr 1
    omega
  rw [extend?, payload, Option.bind_some]

/-- A sequence starts with a character if the leading byte announces it, the continuation bytes
complete its code point, and no shorter sequence would have done. -/
theorem decodeAfter_of_announced {lead : UInt8} {count bits least : Nat} {c : Char} {rest : Bytes}
    (announced : announced? lead = some (count, bits, least))
    (extended : extend? count bits rest = some c.val.toNat) (needed : least ≤ c.val.toNat) :
    decodeAfter 0 (lead :: rest) = some c :: decodeAfter count rest := by
  have valid : c.val.toNat.isValidChar := c.valid
  have named : Char.ofNat c.val.toNat = c := Char.ofNat_toNat c
  have found : first? lead rest = some (c, count) := by
    simp only [first?, announced, extended, Option.bind_eq_bind, Option.bind_some, needed, valid,
      named, and_self, if_true]
  simp only [decodeAfter, found]

/-- The first character of a text is decoded from its own bytes, and from all of them. -/
theorem decodeAfter_encodeChar (c : Char) (rest : Bytes) :
    decodeAfter 0 (String.utf8EncodeChar c ++ rest) = some c :: decodeAfter 0 rest := by
  have bound : c.val.toNat < 0x110000 := by
    have valid : c.val.toNat.isValidChar := c.valid
    rcases valid with low | ⟨-, high⟩ <;> omega
  generalize code : c.val.toNat = v at bound
  simp only [String.utf8EncodeChar, code]
  split
  · have lead : (UInt8.ofNat v).toNat = v := toNat_byte (by omega)
    have announced : announced? (UInt8.ofNat v) = some (0, v, 0) := by
      rw [announced?, lead, if_pos (by omega)]
    exact decodeAfter_of_announced announced (by rw [extend?, code]) (Nat.zero_le _)
  split
  · have lead : (UInt8.ofNat (v / 64 % 32 + 192)).toNat = v / 64 % 32 + 192 :=
      toNat_byte (by omega)
    have announced : announced? (UInt8.ofNat (v / 64 % 32 + 192)) = some (1, v / 64, 0x80) := by
      rw [announced?, lead, if_neg (by omega), if_neg (by omega), if_pos (by omega)]
      congr 3
      omega
    refine decodeAfter_of_announced announced ?_ (by omega)
    simp only [List.append_eq, List.cons_append]
    rw [extend?_continuation, extend?, code]
    congr 1
    omega
  split
  · have lead : (UInt8.ofNat (v / 4096 % 16 + 224)).toNat = v / 4096 % 16 + 224 :=
      toNat_byte (by omega)
    have announced :
        announced? (UInt8.ofNat (v / 4096 % 16 + 224)) = some (2, v / 4096, 0x800) := by
      rw [announced?, lead, if_neg (by omega), if_neg (by omega), if_neg (by omega),
        if_pos (by omega)]
      congr 3
      omega
    refine decodeAfter_of_announced announced ?_ (by omega)
    simp only [List.append_eq, List.cons_append]
    rw [extend?_continuation, extend?_continuation, extend?, code]
    congr 1
    omega
  · have lead : (UInt8.ofNat (v / 262144 % 8 + 240)).toNat = v / 262144 % 8 + 240 :=
      toNat_byte (by omega)
    have announced :
        announced? (UInt8.ofNat (v / 262144 % 8 + 240)) = some (3, v / 262144, 0x10000) := by
      rw [announced?, lead, if_neg (by omega), if_neg (by omega), if_neg (by omega),
        if_neg (by omega), if_pos (by omega)]
      congr 3
      omega
    refine decodeAfter_of_announced announced ?_ (by omega)
    simp only [List.append_eq, List.cons_append]
    rw [extend?_continuation, extend?_continuation, extend?_continuation, extend?, code]
    congr 1
    omega

/-- What was encoded is decoded again, without gaps. -/
theorem decode_encode (text : List Char) : decode (encode text) = text.map some := by
  induction text with
  | nil => rfl
  | cons c rest ih =>
      rw [encode, List.flatMap_cons, decode, decodeAfter_encodeChar, List.map_cons]
      exact congrArg (some c :: ·) ih

/-- The text of a file that was encoded is the text it was encoded from. -/
theorem text?_encode (text : List Char) : text? (encode text) = some text := by
  rw [text?, decode_encode]
  induction text with
  | nil => rfl
  | cons c rest ih =>
      rw [List.map_cons, List.mapM_cons, ih]
      rfl

/-- A byte below the continuation bytes is a character by itself. -/
theorem toNat_eq_of_mem_encodeChar {c : Char} {byte : UInt8}
    (member : byte ∈ String.utf8EncodeChar c) (small : byte.toNat < 0x80) :
    byte.toNat = c.toNat := by
  have bound : c.val.toNat < 0x110000 := by
    rcases c.valid with low | ⟨-, high⟩
    · exact Nat.lt_trans low (by decide)
    · exact high
  have large : ∀ value, 0x80 ≤ value → value < 0x100 → byte ≠ UInt8.ofNat value := by
    intro value least most same
    rw [same, toNat_byte most] at small
    omega
  have continuation : ∀ value, byte ≠ UInt8.ofNat (value % 0x40 + 0x80) := fun value =>
    large _ (by omega) (by omega)
  simp only [String.utf8EncodeChar] at member
  split at member
  · rw [List.mem_singleton.mp member, toNat_byte (by omega)]
    rfl
  -- every byte of a longer sequence announces it or continues it
  split at member
  · simp only [List.mem_cons, List.not_mem_nil, or_false] at member
    rcases member with lead | last
    · exact absurd lead (large _ (by omega) (by omega))
    · exact absurd last (continuation _)
  split at member
  · simp only [List.mem_cons, List.not_mem_nil, or_false] at member
    rcases member with lead | second | last
    · exact absurd lead (large _ (by omega) (by omega))
    · exact absurd second (continuation _)
    · exact absurd last (continuation _)
  · simp only [List.mem_cons, List.not_mem_nil, or_false] at member
    rcases member with lead | second | third | last
    · exact absurd lead (large _ (by omega) (by omega))
    · exact absurd second (continuation _)
    · exact absurd third (continuation _)
    · exact absurd last (continuation _)

/-- A character of one byte that is not in a text is not among the bytes of this text. -/
theorem notMem_encode {text : List Char} {c : Char} (short : c.toNat < 0x80) (absent : c ∉ text) :
    UInt8.ofNat c.toNat ∉ encode text := by
  intro member
  obtain ⟨other, listed, byte⟩ := List.mem_flatMap.mp member
  have value : (UInt8.ofNat c.toNat).toNat = c.toNat := toNat_byte (by omega)
  have same := toNat_eq_of_mem_encodeChar byte (by omega)
  rw [value] at same
  exact absent (Char.toNat_inj.mp same ▸ listed)

end TableStore.Utf8
