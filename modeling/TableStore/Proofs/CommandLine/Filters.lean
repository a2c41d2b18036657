/-
# Conditions as they are meant

A condition is cut at its first equals sign: before it stands the column, after it a text that is
read as JSON, or taken as a string if it is none. So the compact text of a value stands for this
value, whatever equals signs are in it, and a text is refused only if it has no equals sign or
nothing before it.
-/

import Mathlib.Data.List.TakeWhile
import TableStore.CommandLine.Text
import TableStore.Proofs.Collections
import TableStore.Proofs.Json.Source
import TableStore.Proofs.Query.Plan

namespace TableStore

/-- The predicate of a column is the last one that it is given. -/
theorem Criteria.get?_foldl_insert (entries : List (String × Predicate)) (criteria : Criteria)
    (column : String) :
    (entries.foldl (fun criteria entry => criteria.insert entry.1 entry.2) criteria).get? column =
      (entries.reverse.lookup column).or (criteria.get? column) := by
  induction entries generalizing criteria with
  | nil => rfl
  | cons entry rest ih =>
      have first : (criteria.insert entry.1 entry.2).get? column =
          ([entry].lookup column).or (criteria.get? column) := by
        rw [get?, getElem?_insert, List.lookup_cons]
        by_cases here : entry.1 = column
        · simp [here]
        · simp [here, beq_false_of_ne (Ne.symm here), get?]
      rw [List.foldl_cons, ih, first, List.reverse_cons, List.lookup_append, Option.or_assoc]

/-- Criteria give each column the last predicate that is listed for it. -/
theorem Criteria.get?_ofList (entries : List (String × Predicate)) (column : String) :
    (ofList entries).get? column = entries.reverse.lookup column := by
  have none : empty.get? column = none := Std.ExtTreeMap.getElem?_empty
  rw [ofList, get?_foldl_insert, none, Option.or_none]

namespace CommandLine

/-- What the text after the equals sign stands for. -/
def valueOf (text : String) : Json :=
  match Json.ofText? text with
  | some value => value
  | none => .string text

/-- The compact text of a scalar stands for this scalar. -/
theorem valueOf_toText {value : Json} (scalar : value.isScalar = true) :
    valueOf value.toText = value := by
  rw [valueOf, Json.ofText?_toText (.scalar scalar)]

/-- Whether a text can be cut: there is an equals sign in it, and something before the first. -/
def IsCondition (text : String) : Prop :=
  '=' ∈ text.toList ∧ text.toList.head? ≠ some '='

/-- A condition is cut at its first equals sign. -/
theorem parseFilter_append {column : String} (named : column ≠ "") (noSign : '=' ∉ column.toList)
    (text : String) : parseFilter (column ++ "=" ++ text) = .ok (column, valueOf text) := by
  have letters : (column ++ "=" ++ text).toList = column.toList ++ '=' :: text.toList := by
    simp
  have apart : ∀ c ∈ column.toList, decide (c ≠ '=') = true := by
    intro c member
    exact decide_eq_true fun same => noSign (same ▸ member)
  have before : (column.toList ++ '=' :: text.toList).takeWhile (fun c => c ≠ '=') =
      column.toList := by
    rw [List.takeWhile_append_of_pos apart, List.takeWhile_cons_of_neg (by simp), List.append_nil]
  have after : (column.toList ++ '=' :: text.toList).dropWhile (fun c => c ≠ '=') =
      '=' :: text.toList := by
    rw [List.dropWhile_append_of_pos apart, List.dropWhile_cons_of_neg (by simp)]
  have nonempty : column.toList.isEmpty = false := by
    rw [List.isEmpty_eq_false_iff]
    simpa using named
  have value : (Json.read? (text.toList.map some)).getD (.string text) = valueOf text := by
    rw [valueOf, Json.ofText?]
    cases Json.read? (text.toList.map some) <;> rfl
  simp only [parseFilter, letters, before, after, nonempty, String.ofList_toList, value]
  rfl

/-- Every text that can be cut is a column, an equals sign and a text. -/
theorem IsCondition.exists_append {text : String} (condition : IsCondition text) :
    ∃ column value, column ≠ "" ∧ '=' ∉ column.toList ∧ text = column ++ "=" ++ value := by
  obtain ⟨before, after, whole, noSign⟩ := List.eq_append_cons_of_mem condition.1
  refine ⟨String.ofList before, String.ofList after, ?_, by simpa using noSign, ?_⟩
  · intro empty
    apply condition.2
    have nothing : before = [] := by simpa using congrArg String.toList empty
    rw [whole, nothing]
    rfl
  · apply String.toList_inj.mp
    simp [whole]

/-- A text without an equals sign is refused. -/
theorem parseFilter_of_notMem {text : String} (noSign : '=' ∉ text.toList) :
    parseFilter text = .error (.malformedFilter text) := by
  have all : text.toList.dropWhile (fun c => c ≠ '=') = [] := by
    rw [List.dropWhile_eq_nil_iff]
    intro c member
    exact decide_eq_true fun same => noSign (same ▸ member)
  simp only [parseFilter, all]

/-- A text that starts with an equals sign is refused. -/
theorem parseFilter_of_head? {text : String} (starts : text.toList.head? = some '=') :
    parseFilter text = .error (.emptyColumn text) := by
  obtain ⟨rest, letters⟩ := List.head?_eq_some_iff.mp starts
  simp [parseFilter, letters]

/-- Which texts are refused as conditions, and with which failure. -/
theorem parseFilter_eq_error_iff {text : String} {error : CommandError} :
    parseFilter text = .error error ↔
      '=' ∉ text.toList ∧ error = .malformedFilter text ∨
        text.toList.head? = some '=' ∧ error = .emptyColumn text := by
  by_cases signed : '=' ∈ text.toList
  · by_cases starts : text.toList.head? = some '='
    · simp [parseFilter_of_head? starts, signed, starts, eq_comm]
    · obtain ⟨column, value, named, noSign, whole⟩ := IsCondition.exists_append ⟨signed, starts⟩
      have accepted := parseFilter_append named noSign value
      rw [← whole] at accepted
      simp [accepted, signed, starts]
  · have starts : text.toList.head? ≠ some '=' := fun first =>
      signed (List.mem_of_head? first)
    simp [parseFilter_of_notMem signed, signed, starts, eq_comm]

/-- Conditions are read one after another, and set one after another. -/
theorem parseFilters_eq (texts : List String) :
    parseFilters texts = (texts.mapM parseFilter).map fun conditions =>
      Criteria.ofList (conditions.map fun condition => (condition.1, .literal condition.2)) := by
  unfold parseFilters Criteria.ofList
  -- both folds start from any criteria, so that the induction can go on from the ones read so far
  generalize Criteria.empty = criteria
  induction texts generalizing criteria with
  | nil => rfl
  | cons text rest ih =>
      rw [List.foldlM_cons, List.mapM_cons]
      cases parseFilter text with
      | error => rfl
      | ok condition =>
          refine (ih _).trans ?_
          cases rest.mapM parseFilter <;> rfl

/-- Texts that can be cut are all accepted, and the last condition on a column counts. -/
theorem parseFilters_append {conditions : List (String × String)}
    (proper : ∀ condition ∈ conditions, condition.1 ≠ "" ∧ '=' ∉ condition.1.toList) :
    ∃ criteria, parseFilters (conditions.map fun condition => condition.1 ++ "=" ++ condition.2) =
        .ok criteria ∧
      ∀ column, criteria.get? column =
        (conditions.reverse.lookup column).map fun text => .literal (valueOf text) := by
  have read : (conditions.map fun condition => condition.1 ++ "=" ++ condition.2).mapM parseFilter =
      .ok (conditions.map fun condition => (condition.1, valueOf condition.2)) := by
    induction conditions with
    | nil => rfl
    | cons condition rest ih =>
        rw [List.forall_mem_cons] at proper
        rw [List.map_cons, List.mapM_cons, parseFilter_append proper.1.1 proper.1.2, ih proper.2]
        rfl
  refine ⟨_, (parseFilters_eq _).trans (congrArg (Except.map _) read), fun column => ?_⟩
  rw [Criteria.get?_ofList, List.map_map, ← List.map_reverse]
  exact lookup_map_snd (fun text => Predicate.literal (valueOf text)) conditions.reverse column

/-- Conditions are refused exactly if some text has no equals sign or starts with one. -/
theorem exists_parseFilters_eq_error_iff {texts : List String} :
    (∃ error, parseFilters texts = .error error) ↔
      ∃ text ∈ texts, '=' ∉ text.toList ∨ text.toList.head? = some '=' := by
  have each : ∀ text, (∃ error, parseFilter text = .error error) ↔
      '=' ∉ text.toList ∨ text.toList.head? = some '=' := by
    intro text
    simp [parseFilter_eq_error_iff, exists_or]
  simp only [← each, ← exists_mapM_eq_error_iff, parseFilters_eq]
  cases texts.mapM parseFilter <;> simp [Except.map]

/-- The first text that cannot be cut decides how conditions fail. -/
theorem parseFilters_of_first {before after : List String} {text : String} {error : CommandError}
    (proper : ∀ other ∈ before, IsCondition other) (failed : parseFilter text = .error error) :
    parseFilters (before ++ text :: after) = .error error := by
  have read : ∃ conditions, before.mapM parseFilter = .ok conditions := by
    cases found : before.mapM parseFilter with
    | ok conditions => exact ⟨conditions, rfl⟩
    | error other =>
        obtain ⟨refused, member, reason, faulty⟩ := exists_mapM_eq_error_iff.mp ⟨other, found⟩
        obtain ⟨signed, starts⟩ := proper refused member
        rcases parseFilter_eq_error_iff.mp faulty with improper | improper
        · exact absurd signed improper.1
        · exact absurd improper.1 starts
  obtain ⟨conditions, accepted⟩ := read
  rw [parseFilters_eq, List.mapM_append, accepted, List.mapM_cons, failed]
  rfl

/-- Conditions of the command line are decoded as they were meant. Columns without an equals sign,
each with the compact text of a scalar, give criteria in which each column equals the scalar that it
was given last. In general the text after the first equals sign stands for the value that it is as
JSON, and for itself if it is not JSON. Conditions are refused exactly if some text has no equals
sign or starts with one, and the first such text is named in the failure. -/
theorem parseFilters_decodes :
    (∀ conditions : List (String × Json),
      (∀ condition ∈ conditions,
        condition.1 ≠ "" ∧ '=' ∉ condition.1.toList ∧ condition.2.isScalar = true) →
      ∃ criteria,
        parseFilters (conditions.map fun condition => condition.1 ++ "=" ++ condition.2.toText) =
          .ok criteria ∧
        ∀ column, criteria.get? column = (conditions.reverse.lookup column).map .literal) ∧
    (∀ conditions : List (String × String),
      (∀ condition ∈ conditions, condition.1 ≠ "" ∧ '=' ∉ condition.1.toList) →
      ∃ criteria,
        parseFilters (conditions.map fun condition => condition.1 ++ "=" ++ condition.2) =
          .ok criteria ∧
        ∀ column, criteria.get? column =
          (conditions.reverse.lookup column).map fun text =>
            .literal (match Json.ofText? text with
              | some value => value
              | none => .string text)) ∧
    (∀ texts, (∃ error, parseFilters texts = .error error) ↔
      ∃ text ∈ texts, '=' ∉ text.toList ∨ text.toList.head? = some '=') ∧
    ∀ before text after, (∀ other ∈ before, IsCondition other) →
      ('=' ∉ text.toList →
        parseFilters (before ++ text :: after) = .error (.malformedFilter text)) ∧
      (text.toList.head? = some '=' →
        parseFilters (before ++ text :: after) = .error (.emptyColumn text)) := by
  refine ⟨?_, fun conditions proper => parseFilters_append proper,
    fun _ => exists_parseFilters_eq_error_iff, fun before text after proper =>
      ⟨fun noSign => parseFilters_of_first proper (parseFilter_of_notMem noSign),
        fun starts => parseFilters_of_first proper (parseFilter_of_head? starts)⟩⟩
  intro conditions proper
  have texts : ∀ condition ∈ conditions.map fun condition => (condition.1, condition.2.toText),
      condition.1 ≠ "" ∧ '=' ∉ condition.1.toList := by
    intro condition member
    obtain ⟨given, listed, rfl⟩ := List.mem_map.mp member
    exact ⟨(proper given listed).1, (proper given listed).2.1⟩
  obtain ⟨criteria, read, last⟩ := parseFilters_append texts
  refine ⟨criteria, ?_, fun column => ?_⟩
  · rw [← read, List.map_map]
    rfl
  · rw [last, ← List.map_reverse, lookup_map_snd, Option.map_map]
    cases found : conditions.reverse.lookup column with
    | none => rfl
    | some value =>
        obtain ⟨before, after, whole, -⟩ := List.lookup_eq_some_iff.mp found
        have listed : (column, value) ∈ conditions := by
          rw [← List.mem_reverse, whole]
          exact List.mem_append_right before List.mem_cons_self
        rw [Option.map_some, Option.map_some, Function.comp_apply,
          valueOf_toText (proper _ listed).2.2]

/-- Of two ages the last one counts; a motto keeps its own equals sign, and a name without quotes is
a string; and a condition on no column is named although a worse one follows. -/
theorem parseFilters_decodes_twoAges :
    (∃ criteria, parseFilters ["age=20", "motto=\"a=b\"", "age=null"] = .ok criteria ∧
      criteria.get? "age" = some (.literal .null) ∧
      criteria.get? "motto" = some (.literal (.string "a=b"))) ∧
    (∃ criteria, parseFilters ["name=bob"] = .ok criteria ∧
      criteria.get? "name" = some (.literal (.string "bob"))) ∧
    parseFilters ["name=bob", "=1", "age"] = .error (.emptyColumn "=1") := by
  refine ⟨?_, ?_, ?_⟩
  · obtain ⟨criteria, read, last⟩ := parseFilters_decodes.1
      [("age", .number (.integer 20 ⟨by decide, by decide⟩)), ("motto", .string "a=b"),
        ("age", .null)]
      (by simp [Json.isScalar])
    exact ⟨criteria, read, last "age", last "motto"⟩
  · obtain ⟨criteria, read, last⟩ := parseFilters_decodes.2.1 [("name", "bob")] (by simp)
    exact ⟨criteria, read, last "name"⟩
  · exact (parseFilters_decodes.2.2.2 ["name=bob"] "=1" ["age"]
      (by simp [IsCondition])).2 rfl

end CommandLine

end TableStore
