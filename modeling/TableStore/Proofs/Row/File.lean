/-
# Row files are read as the rows they were written for

The columns of a row are distinct and hold scalars, so neither setting them one after another nor
the check for damage loses anything.
-/

import TableStore.Proofs.Json.Source
import TableStore.Row.File

namespace TableStore.Row

/-- Whether all columns hold scalars. -/
def Scalar (row : Row) : Prop :=
  ∀ column ∈ row.columns, column.2.isScalar = true

/-- A row of scalars is one in which no composite value is found. -/
theorem firstComposite?_eq_none_iff {row : Row} : row.firstComposite? = none ↔ row.Scalar := by
  simp [firstComposite?, Scalar]

/-- The columns of a row give this row again. -/
theorem ofColumns_columns (row : Row) : ofColumns row.columns = row := by
  have columns : ∀ (members : List (String × Json)) (start : Row),
      (start.insertAll members).columns =
        members.foldl (fun read member => Json.setMember member.1 member.2 read) start.columns := by
    intro members
    induction members with
    | nil => exact fun _ => rfl
    | cons member rest ih => exact fun start => ih (start.insert member.1 member.2)
  obtain ⟨members, distinct⟩ := row
  have same : (ofColumns members).columns = members := by
    rw [ofColumns, columns, Json.foldl_setMember (by simpa [empty] using distinct)]
    rfl
  cases given : ofColumns members
  rw [given] at same
  cases same
  rfl

/-- A row of scalars is a value that can be read. -/
theorem Scalar.readable {row : Row} (scalar : row.Scalar) :
    Json.Readable Json.depthLimit row.toJson :=
  .object row.distinct fun column member => .scalar (scalar column member)

/-- Both layouts of a row spell its tokens. -/
theorem spells_layout (pretty : Bool) (row : Row) :
    Json.Token.Spells (if pretty then row.toJson.laidOut 0 else row.toJson.compact)
      row.toJson.tokens := by
  cases pretty
  · exact Json.spells_compact row.toJson
  · exact Json.spells_laidOut 0 row.toJson

/-- The file of a row of scalars, in either layout, is read as this row. -/
theorem ofBytes_toBytes (pretty : Bool) {row : Row} (scalar : row.Scalar) :
    ofBytes (row.toBytes pretty) = .ok row := by
  have read : Json.ofBytes? (row.toBytes pretty) = some (.object row.columns) :=
    Json.ofBytes?_encode (spells_layout pretty row) scalar.readable
  simp only [ofBytes, read, ofJson?, ofColumns_columns, firstComposite?_eq_none_iff.mpr scalar]

/-- What is read from a row file is a row of scalars. -/
theorem scalar_of_ofBytes {bytes : Bytes} {row : Row} (read : ofBytes bytes = .ok row) :
    row.Scalar := by
  simp only [ofBytes] at read
  split at read
  · cases read
  split at read
  · cases read
  · next found =>
      split at read
      · cases read
      · next none =>
          cases read
          exact firstComposite?_eq_none_iff.mp none

/-- The value of a column of a row of scalars is a scalar. -/
theorem Scalar.isScalar_value {row : Row} (scalar : row.Scalar) (column : String) :
    (row.value column).isScalar = true := by
  rw [value, get?]
  cases found : row.columns.lookup column with
  | none => rfl
  | some value =>
      obtain ⟨before, rest, same, -⟩ := List.lookup_eq_some_iff.mp found
      exact scalar (column, value) (by rw [same]; simp)

/-- The columns of a row in which a column is set. -/
theorem mem_setMember {key : String} {value : Json} {members : List (String × Json)}
    {member : String × Json} (found : member ∈ Json.setMember key value members) :
    member = (key, value) ∨ member ∈ members := by
  induction members with
  | nil => simpa [Json.setMember] using found
  | cons first rest ih =>
      rw [Json.setMember] at found
      split at found
      · rcases List.mem_cons.mp found with same | listed
        · exact .inl same
        · exact .inr (List.mem_cons_of_mem _ listed)
      · rcases List.mem_cons.mp found with same | listed
        · exact .inr (same ▸ List.mem_cons_self)
        · exact (ih listed).imp_right (List.mem_cons_of_mem _)

/-- Setting a column to a scalar keeps a row of scalars one. -/
theorem Scalar.insert {row : Row} (scalar : row.Scalar) (column : String) {value : Json}
    (isScalar : value.isScalar = true) : (row.insert column value).Scalar := by
  intro member found
  rcases mem_setMember found with rfl | listed
  · exact isScalar
  · exact scalar member listed

/-- Two rows of scalars make a row of scalars. -/
theorem Scalar.merge {left right : Row} (scalar : left.Scalar) (alsoScalar : right.Scalar) :
    (left.merge right).Scalar := by
  have all : ∀ (columns : List (String × Json)) (row : Row), row.Scalar →
      (∀ column ∈ columns, column.2.isScalar = true) → (row.insertAll columns).Scalar := by
    intro columns
    induction columns with
    | nil => exact fun _ scalar _ => scalar
    | cons column rest ih =>
        exact fun row scalar scalars => ih (row.insert column.1 column.2)
          (scalar.insert column.1 (scalars column List.mem_cons_self))
          fun other member => scalars other (List.mem_cons_of_mem column member)
  exact all right.columns left scalar alsoScalar

/-- A row of scalars is read from its file as it was, in whichever layout it was written: the same
columns in the same order, each with the same value. What is read from any file is such a row. -/
theorem ofBytes_toBytes_of_scalars :
    (∀ (row : Row) (pretty : Bool), row.firstComposite? = none →
      ofBytes (row.toBytes pretty) = .ok row) ∧
    ∀ (bytes : Bytes) (row : Row), ofBytes bytes = .ok row →
      row.firstComposite? = none ∧ ∀ pretty, ofBytes (row.toBytes pretty) = .ok row := by
  refine ⟨fun row pretty none => ofBytes_toBytes pretty (firstComposite?_eq_none_iff.mp none),
    fun bytes row read => ?_⟩
  have scalar := scalar_of_ofBytes read
  exact ⟨firstComposite?_eq_none_iff.mpr scalar, fun pretty => ofBytes_toBytes pretty scalar⟩

/-- A row with a quoted and a control character, an integer above every signed word and a negative
zero, which is not the positive one. -/
def oddities : Row where
  columns := [("\"z\"\n", .string "\u0007 \\ \u2028"),
    ("a", .number (.integer 0xFFFFFFFFFFFFFFFF ⟨by decide, by decide⟩)),
    ("", .number (.float ⟨0x8000000000000000⟩ rfl))]
  distinct := by decide

/-- A row file that gives a column twice. -/
def repeatedColumn : Bytes :=
  Utf8.encode "\x7b\"b\": -0.0, \"a\": 1, \"b\": \"x\"\x7d".toList

/-- The odd row is read as it was from both layouts, and so is the row of the file that gives a
column twice. -/
theorem ofBytes_toBytes_oddities :
    ofBytes (oddities.toBytes false) = .ok oddities ∧
      ofBytes (oddities.toBytes true) = .ok oddities ∧
      ∃ row, ofBytes repeatedColumn = .ok row ∧ ofBytes (row.toBytes true) = .ok row := by
  refine ⟨ofBytes_toBytes_of_scalars.1 oddities false rfl,
    ofBytes_toBytes_of_scalars.1 oddities true rfl, ?_⟩
  have accepted : (ofBytes repeatedColumn).toBool = true := by decide +kernel
  cases read : ofBytes repeatedColumn with
  | error =>
      rw [read] at accepted
      cases accepted
  | ok row => exact ⟨row, rfl, (ofBytes_toBytes_of_scalars.2 _ row read).2 true⟩

end TableStore.Row
