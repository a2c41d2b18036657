/-
# Lists and maps

General facts about lists and maps that the library lacks: how lists compare that continue each
other, what is left of a list whose first items are dropped, whose repetitions are left out or which
is cut at a mark, when steps over a list fail, what is found under a key, and which bindings of a
map change nothing or can be exchanged.
-/

import Mathlib.Data.List.Sort

namespace TableStore

/-! ## Order and prefixes -/

section

variable {α : Type}

/-- A list does not start with itself and something more. -/
theorem append_not_isPrefix (start : List α) {more : List α} (nonempty : more ≠ []) :
    ¬start ++ more <+: start := by
  intro below
  have long := below.length_le
  rw [List.length_append] at long
  exact nonempty (List.length_eq_zero_iff.mp (by omega))

/-- A list does not start with itself and one more item. -/
theorem concat_not_isPrefix (start : List α) (item : α) : ¬start ++ [item] <+: start :=
  append_not_isPrefix start (List.cons_ne_nil item [])

/-- Lists that part in their last items only are in the order of these. -/
theorem compare_append_singleton [Ord α] [Std.ReflOrd α] (start : List α) (first second : α) :
    compare (start ++ [first]) (start ++ [second]) = compare first second := by
  induction start with
  | nil =>
      rw [List.nil_append, List.nil_append, List.compare_cons_cons, List.compare_nil_nil]
      cases compare first second <;> rfl
  | cons item rest ih =>
      rw [List.cons_append, List.cons_append, List.compare_cons_cons, ih,
        @Std.ReflCmp.compare_self α compare _ item]
      rfl

/-- Lists in the order of an asymmetric relation are known by their items. -/
theorem eq_of_pairwise {before : α → α → Prop} (asymmetric : ∀ x y, before x y → ¬before y x)
    {first second : List α} (ordered : first.Pairwise before) (alsoOrdered : second.Pairwise before)
    (same : ∀ item, item ∈ first ↔ item ∈ second) : first = second := by
  have irreflexive : Std.Irrefl before := ⟨fun item less => asymmetric item item less less⟩
  have antisymmetric : Std.Antisymm before :=
    ⟨fun x y less more => absurd more (asymmetric x y less)⟩
  exact List.Pairwise.eq_of_mem_iff ordered alsoOrdered same

end

/-- Ascending texts are known by which ones they are. -/
theorem eq_of_ascending {first second : List String} (ascending : first.Pairwise (· < ·))
    (alsoAscending : second.Pairwise (· < ·)) (same : ∀ text, text ∈ first ↔ text ∈ second) :
    first = second :=
  eq_of_pairwise (fun _ _ => String.lt_asymm) ascending alsoAscending same

/-- What lies between a list and one that continues it continues it, too. -/
theorem isPrefix_of_between {start first second : List Char} (lower : ¬first < start)
    (upper : first < second) (continued : start <+: second) : start <+: first := by
  induction start generalizing first second with
  | nil => exact List.nil_prefix
  | cons c start ih =>
      obtain ⟨rest, rfl⟩ := continued
      cases first with
      | nil => exact absurd (List.nil_lt_cons c start) lower
      | cons d first =>
          rw [List.cons_append, List.cons_lt_cons_iff] at upper
          rw [List.cons_lt_cons_iff, not_or, not_and] at lower
          rcases upper with less | ⟨rfl, upper⟩
          · exact absurd less lower.1
          · exact (List.cons_prefix_cons).mpr
              ⟨rfl, ih (lower.2 rfl) upper (List.prefix_append start rest)⟩

/-- A list that continues another is not less than it. -/
theorem not_lt_of_isPrefix {start list : List Char} (continued : start <+: list) :
    ¬list < start := by
  induction start generalizing list with
  | nil => exact List.not_lt_nil list
  | cons c start ih =>
      obtain ⟨rest, rfl⟩ := continued
      rw [List.cons_append, List.cons_lt_cons_iff, not_or, not_and]
      exact ⟨fun less => absurd less (Nat.lt_irrefl _), fun _ => ih (List.prefix_append start rest)⟩

/-- What follows two lists decides their order only where one of them continues the other. -/
theorem lt_or_continues {first second rest : List Char} (less : first ++ rest < second ++ rest) :
    first < second ∨ ∃ more, first = second ++ more ∧ more ++ rest < rest := by
  induction first generalizing second with
  | nil =>
      cases second with
      | nil => exact absurd less (List.lt_irrefl _)
      | cons c others => exact .inl (List.nil_lt_cons c others)
  | cons c others ih =>
      cases second with
      | nil => exact .inr ⟨c :: others, rfl, less⟩
      | cons d following =>
          rw [List.cons_append, List.cons_append, List.cons_lt_cons_iff] at less
          rcases less with lower | ⟨rfl, lower⟩
          · exact .inl (List.cons_lt_cons_iff.mpr (.inl lower))
          · rcases ih lower with before | ⟨more, rfl, early⟩
            · exact .inl (List.cons_lt_cons_iff.mpr (.inr ⟨rfl, before⟩))
            · exact .inr ⟨more, rfl, early⟩

/-! ## Dropping, repetitions and cuts -/

section

variable {α : Type}

/-- Where what an item fulfils is fulfilled by all items before it, none that is left after dropping
the first ones fulfils it. -/
theorem eq_false_of_mem_dropWhile {fulfils : α → Bool} {items : List α}
    (initial : items.Pairwise fun first second => fulfils second = true → fulfils first = true)
    {item : α} (member : item ∈ items.dropWhile fulfils) : fulfils item = false := by
  induction items with
  | nil => cases member
  | cons first rest ih =>
      rw [List.pairwise_cons] at initial
      by_cases passed : fulfils first = true
      · rw [List.dropWhile_cons_of_pos passed] at member
        exact ih initial.2 member
      · rw [List.dropWhile_cons_of_neg passed] at member
        rcases List.mem_cons.mp member with rfl | member
        · exact Bool.eq_false_iff.mpr passed
        · exact Bool.eq_false_iff.mpr fun also => passed (initial.1 item member also)

variable [BEq α] [LawfulBEq α]

/-- Without its repetitions a list has no repetitions. -/
theorem nodup_eraseDups : (items : List α) → items.eraseDups.Nodup
  | [] => List.nodup_nil
  | item :: rest => by
      rw [List.eraseDups_cons, List.nodup_cons, List.mem_eraseDups]
      exact ⟨by simp, nodup_eraseDups _⟩
termination_by items => items.length
decreasing_by exact Nat.lt_succ_of_le (List.length_filter_le _ _)

/-- Items that are distinct stay as they are when repetitions are left out. -/
theorem eraseDups_of_nodup {items : List α} (distinct : items.Nodup) : items.eraseDups = items := by
  induction items with
  | nil => rfl
  | cons item rest ih =>
      obtain ⟨fresh, distinct⟩ := List.nodup_cons.mp distinct
      have others : rest.filter (fun other => !other == item) = rest := by
        rw [List.filter_eq_self]
        intro other member
        have apart : other ≠ item := fun same => fresh (same ▸ member)
        simpa using apart
      rw [List.eraseDups_cons, others, ih distinct]

/-- Pieces without the mark, each closed by it, are cut apart at the marks. The last mark closes a
piece too, so nothing is left after it. -/
theorem splitOn_flatMap_closed {mark : α} {pieces : List (List α)}
    (unmarked : ∀ piece ∈ pieces, mark ∉ piece) :
    (pieces.flatMap fun piece => piece ++ [mark]).splitOn mark = pieces ++ [[]] := by
  induction pieces with
  | nil => exact List.splitOn_nil mark
  | cons piece rest ih =>
      rw [List.forall_mem_cons] at unmarked
      rw [List.flatMap_cons, List.append_assoc, List.singleton_append,
        List.splitOn_append_cons_self_of_not_mem unmarked.1, ih unmarked.2, List.cons_append]

end

/-! ## Steps over a list -/

section

variable {α β : Type}

/-- One step without an answer leaves all of them without one. -/
theorem mapM_eq_none_of_mem {f : α → Option β} {items : List α} {item : α}
    (member : item ∈ items) (fails : f item = none) : items.mapM f = none := by
  induction items with
  | nil => cases member
  | cons first rest ih =>
      rw [List.mapM_cons]
      rcases List.mem_cons.mp member with same | later
      · rw [← same, fails]
        rfl
      · rw [ih later]
        cases f first <;> rfl

/-- Steps one after another fail exactly if one of them does. -/
theorem exists_mapM_eq_error_iff {ε : Type} {f : α → Except ε β} {items : List α} :
    (∃ error, items.mapM f = .error error) ↔ ∃ item ∈ items, ∃ error, f item = .error error := by
  induction items with
  | nil => simp [pure, Except.pure]
  | cons item rest ih =>
      simp only [List.mapM_cons, List.mem_cons, exists_eq_or_imp, ← ih]
      cases here : f item with
      | error error => exact iff_of_true ⟨error, rfl⟩ (.inl ⟨error, rfl⟩)
      | ok answer => cases rest.mapM f <;> simp [bind, Except.bind, pure, Except.pure]

end

/-! ## Lookups under keys -/

section

variable {κ α β : Type} [BEq κ]

/-- What is found under a key when all values are changed alike. -/
theorem lookup_map_snd (change : α → β) (entries : List (κ × α)) (key : κ) :
    (entries.map fun entry => (entry.1, change entry.2)).lookup key =
      (entries.lookup key).map change := by
  rw [List.lookup_eq_findSome?, List.lookup_eq_findSome?, List.findSome?_map, List.map_findSome?]
  congr 1
  funext entry
  simp only [Function.comp]
  split <;> rfl

variable [LawfulBEq κ]

/-- What is found under a key is the value of the first entry with this key. -/
theorem lookup_cons_eq_ite [DecidableEq κ] (key first : κ) (value : α) (rest : List (κ × α)) :
    ((first, value) :: rest).lookup key = if key = first then some value else rest.lookup key := by
  rw [List.lookup_cons]
  by_cases same : key = first
  · simp [same]
  · simp [same, beq_false_of_ne same]

/-- Under distinct keys, what is found is what is there. -/
theorem lookup_eq_some_iff_mem {entries : List (κ × α)} (distinct : (entries.map Prod.fst).Nodup)
    {key : κ} {value : α} : entries.lookup key = some value ↔ (key, value) ∈ entries := by
  constructor
  · intro found
    obtain ⟨before, rest, same, -⟩ := List.lookup_eq_some_iff.mp found
    rw [same]
    exact List.mem_append_right before List.mem_cons_self
  · intro member
    obtain ⟨before, rest, rfl⟩ := List.append_of_mem member
    refine List.lookup_eq_some_iff.mpr ⟨before, rest, rfl, fun entry earlier => ?_⟩
    rw [List.map_append, List.nodup_append] at distinct
    have apart := distinct.2.2 entry.1 (List.mem_map_of_mem earlier) key List.mem_cons_self
    exact bne_iff_ne.mpr (Ne.symm apart)

end

/-! ## Bindings of a map -/

section

variable {κ β : Type} [Ord κ] [Std.TransOrd κ] [Std.LawfulEqOrd κ]

/-- Binding a key to the value that it has changes nothing. -/
theorem insert_of_getElem? {map : Std.ExtTreeMap κ β} {key : κ} {value : β}
    (bound : map[key]? = some value) : map.insert key value = map := by
  apply Std.ExtTreeMap.ext_getElem?
  intro other
  rw [Std.ExtTreeMap.getElem?_insert]
  split
  · next same => rw [← Std.LawfulEqOrd.eq_of_compare same, bound]
  · rfl

/-- The same binding once more changes nothing. -/
theorem insert_again (map : Std.ExtTreeMap κ β) (key : κ) (value : β) :
    (map.insert key value).insert key value = map.insert key value :=
  insert_of_getElem? Std.ExtTreeMap.getElem?_insert_self

/-- Bindings of different keys can be made in any order. -/
theorem insert_comm (map : Std.ExtTreeMap κ β) {first second : κ} (apart : first ≠ second)
    (value other : β) :
    (map.insert first value).insert second other =
      (map.insert second other).insert first value := by
  apply Std.ExtTreeMap.ext_getElem?
  intro key
  simp only [Std.ExtTreeMap.getElem?_insert]
  by_cases here : compare second key = .eq
  · have there : compare first key ≠ .eq := fun same => apart <|
      (Std.LawfulEqOrd.eq_of_compare same).trans (Std.LawfulEqOrd.eq_of_compare here).symm
    rw [if_pos here, if_neg there, if_pos here]
  · rw [if_neg here, if_neg here]

end

end TableStore
