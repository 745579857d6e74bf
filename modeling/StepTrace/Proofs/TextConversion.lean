import Mathlib.Logic.Relation
import StepTrace.Proofs.StringLimit

/-!
# The text of an array

The text of an array is made by going through its elements, while a path keeps the arrays that are
being printed; an array of the path that is met again has the empty text. `Spelling` is this
recursion as the run of a program, without a bound on its depth: a run that does not end has no
derivation. Every list of values has one in every heap, cyclic or not, with one outcome
(`spelling_iff`), and it is the one that `Value.text` computes with a bound.
-/

namespace StepTrace

namespace Value

variable {heap : Heap} {path path' : List Nat} {place : Nat} {v : Value}

/-- The value is an array. -/
def IsArray : Value → Prop
  | .array _ => True
  | _ => False

/-- The text of a value that is no array: no reference is followed. -/
def shallowText (heap : Heap) (v : Value) : String :=
  textWithin heap 0 [] v

/-- The texts of the values as elements of an array, while the arrays of the path are being
printed. -/
inductive Spelling (heap : Heap) : List Nat → List Value → List String → Prop
  | nil (path : List Nat) : Spelling heap path [] []
  /-- An empty value. -/
  | empty {path : List Nat} {v : Value} {rest : List Value} {texts : List String}
      (hempty : v.isNullish = true) (hrest : Spelling heap path rest texts) :
      Spelling heap path (v :: rest) ("" :: texts)
  /-- A value without elements. -/
  | shallow {path : List Nat} {v : Value} {rest : List Value} {texts : List String}
      (hempty : v.isNullish = false) (harray : ¬ v.IsArray)
      (hrest : Spelling heap path rest texts) :
      Spelling heap path (v :: rest) (shallowText heap v :: texts)
  /-- An array that is being printed. -/
  | again {path : List Nat} {place : Nat} {rest : List Value} {texts : List String}
      (hmem : place ∈ path) (hrest : Spelling heap path rest texts) :
      Spelling heap path (.array place :: rest) ("" :: texts)
  /-- Any other array. -/
  | array {path : List Nat} {place : Nat} {rest : List Value} {parts texts : List String}
      (hnew : place ∉ path) (hparts : Spelling heap (place :: path) (heap.items place).toList parts)
      (hrest : Spelling heap path rest texts) :
      Spelling heap path (.array place :: rest) (",".intercalate parts :: texts)

/-! ## The bound on the depth -/

/-- The number of arrays that are not on the path. -/
def outside (heap : Heap) (path : List Nat) : Nat :=
  ((List.range heap.arrays.size).filter fun place => place ∉ path).length

theorem outside_le (heap : Heap) (path : List Nat) : outside heap path ≤ heap.arrays.size := by
  have hle := List.length_filter_le (fun place => decide (place ∉ path))
    (List.range heap.arrays.size)
  rwa [List.length_range] at hle

theorem outside_cons_lt (hplace : place < heap.arrays.size) (hnew : place ∉ path) :
    outside heap (place :: path) < outside heap path := by
  have hfilter : ((List.range heap.arrays.size).filter fun p => p ∉ place :: path) =
      ((List.range heap.arrays.size).filter fun p => p ∉ path).filter (· ≠ place) := by
    rw [List.filter_filter]
    refine List.filter_congr fun p _ => ?_
    simp
  unfold outside
  rw [hfilter, List.length_filter_lt_length_iff_exists]
  exact ⟨place, by simp [hplace, hnew], by simp⟩

theorem textWithin_of_not_isArray (depth : Nat) (h : ¬ v.IsArray) :
    textWithin heap depth path v = shallowText heap v := by
  cases v with
  | array place => exact absurd trivial h
  | _ => cases depth <;> rfl

theorem textWithin_again (depth : Nat) (h : place ∈ path) :
    textWithin heap depth path (.array place) = "" := by
  cases depth with
  | zero => rfl
  | succ depth => simp [textWithin, h]

theorem textWithin_succ (depth : Nat) (h : place ∉ path) :
    textWithin heap (depth + 1) path (.array place) =
      ",".intercalate ((heap.items place).toList.map fun item =>
        if item.isNullish then "" else textWithin heap depth (place :: path) item) := by
  simp [textWithin, h]

theorem items_eq_empty (h : ¬ place < heap.arrays.size) : heap.items place = #[] := by
  simp [Heap.items, h]

/-- A depth that is greater than the number of arrays outside the path is enough. -/
theorem textWithin_eq_succ {depth : Nat} (h : outside heap path < depth) (v : Value) :
    textWithin heap depth path v = textWithin heap (depth + 1) path v := by
  induction depth generalizing path v with
  | zero => omega
  | succ depth ih =>
      by_cases harray : v.IsArray
      · cases v with
        | array place =>
            by_cases hmem : place ∈ path
            · rw [textWithin_again _ hmem, textWithin_again _ hmem]
            · rw [textWithin_succ _ hmem, textWithin_succ _ hmem]
              by_cases hplace : place < heap.arrays.size
              · have hlt := outside_cons_lt hplace hmem
                have hdepth : outside heap (place :: path) < depth := by omega
                have hbelow := ih hdepth
                simp only [hbelow]
              · simp [items_eq_empty hplace]
        | _ => exact harray.elim
      · rw [textWithin_of_not_isArray _ harray, textWithin_of_not_isArray _ harray]

/-! ## Texts of elements -/

/-- The text of a value as an element of an array, while the arrays of the path are being
printed. -/
def elementText (heap : Heap) (path : List Nat) (v : Value) : String :=
  if v.isNullish then "" else textWithin heap (heap.arrays.size + 1) path v

theorem elementText_of_not_isArray (h : ¬ v.IsArray) :
    elementText heap path v = if v.isNullish then "" else shallowText heap v := by
  rw [elementText, textWithin_of_not_isArray _ h]

theorem elementText_again (h : place ∈ path) : elementText heap path (.array place) = "" :=
  textWithin_again _ h

theorem elementText_array (h : place ∉ path) : elementText heap path (.array place) =
    ",".intercalate ((heap.items place).toList.map (elementText heap (place :: path))) := by
  change textWithin heap (heap.arrays.size + 1) path (.array place) = _
  rw [textWithin_succ _ h]
  by_cases hplace : place < heap.arrays.size
  · have hlt := outside_cons_lt hplace h
    have hle := outside_le heap path
    have hdepth : outside heap (place :: path) < heap.arrays.size := by omega
    have hbelow := textWithin_eq_succ hdepth
    simp only [hbelow]
    rfl
  · simp [items_eq_empty hplace]

/-- The recursion that makes the text of a value: from the elements of an array, with the array on
the path, to the array. -/
theorem path_induction (heap : Heap) {motive : List Nat → Value → Prop}
    (shallow : ∀ path v, ¬ v.IsArray → motive path v)
    (again : ∀ path place, place ∈ path → motive path (.array place))
    (array : ∀ path place, place ∉ path →
      (∀ v ∈ (heap.items place).toList, motive (place :: path) v) → motive path (.array place))
    (path : List Nat) (v : Value) : motive path v := by
  induction hsize : outside heap path using Nat.strongRecOn generalizing path v with
  | ind size ih =>
      by_cases harray : v.IsArray
      · cases v with
        | array place =>
            by_cases hmem : place ∈ path
            · exact again path place hmem
            · refine array path place hmem fun item hitem => ?_
              by_cases hplace : place < heap.arrays.size
              · exact ih _ (hsize ▸ outside_cons_lt hplace hmem) _ item rfl
              · simp [items_eq_empty hplace] at hitem
        | _ => exact harray.elim
      · exact shallow path v harray

/-- The text of the next value follows those of the values before it. -/
def GoesOn (heap : Heap) (path : List Nat) (v : Value) : Prop :=
  ∀ rest texts, Spelling heap path rest texts →
    Spelling heap path (v :: rest) (elementText heap path v :: texts)

theorem spelling_of_goesOn {values : List Value} (h : ∀ v ∈ values, GoesOn heap path v) :
    Spelling heap path values (values.map (elementText heap path)) := by
  induction values with
  | nil => exact .nil path
  | cons v rest ih =>
      obtain ⟨hv, hrest⟩ := List.forall_mem_cons.mp h
      exact hv rest _ (ih hrest)

theorem goesOn (heap : Heap) (path : List Nat) (v : Value) : GoesOn heap path v := by
  induction path, v using path_induction heap with
  | shallow path v harray =>
      intro rest texts hrest
      rw [elementText_of_not_isArray harray]
      split
      next hempty => exact .empty hempty hrest
      next hempty => exact .shallow (by simpa using hempty) harray hrest
  | again path place hmem =>
      intro rest texts hrest
      rw [elementText_again hmem]
      exact .again hmem hrest
  | array path place hnew ih =>
      intro rest texts hrest
      rw [elementText_array hnew]
      exact .array hnew (spelling_of_goesOn ih) hrest

/-- Going through the values ends in one way only. -/
theorem Spelling.eq_map {values : List Value} {texts : List String}
    (h : Spelling heap path values texts) : texts = values.map (elementText heap path) := by
  induction h with
  | nil => rfl
  | empty hempty _ ih => rw [ih, List.map_cons, elementText, if_pos hempty]
  | shallow hempty harray _ ih =>
      rw [ih, List.map_cons, elementText_of_not_isArray harray, if_neg (by simp [hempty])]
  | again hmem _ ih => rw [ih, List.map_cons, elementText_again hmem]
  | array hnew _ _ ihparts ih => rw [ih, ihparts, List.map_cons, elementText_array hnew]

theorem spelling_iff {values : List Value} {texts : List String} :
    Spelling heap path values texts ↔ texts = values.map (elementText heap path) := by
  constructor
  · exact Spelling.eq_map
  · rintro rfl
    exact spelling_of_goesOn fun v _ => goesOn heap path v

end Value

end StepTrace
