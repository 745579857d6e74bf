import Mathlib.Algebra.Order.BigOperators.Group.List
import Mathlib.Algebra.Order.Group.Nat
import StepTrace.Proofs.LimitedStrings
import StepTrace.Proofs.TextConversion

/-!
# The text of an array and the texts of its elements

`String` converts an array with the array on the path, so that the array is cut off where it is
met inside itself. The methods `join` and `toString` convert every element on its own, with
nothing on the path. So an array that is inside itself is printed once more where it is met
there. That shows if the array has two elements, for then its text has a comma; the text of an
array whose only element is an array of the path is empty in any case.

* `Value.Meets`: on the way down from an array, another one is met.
* `Value.joinedText_eq_text_iff` and `Value.array_texts`: exactly when the two texts are the same.
* `Value.not_agree_selfHolding`: an array for which they are not.
-/

namespace StepTrace

open Relation
open Syntax (Location)

namespace Value

variable {heap : Heap} {path path' : List Nat} {place q : Nat} {v : Value}

/-! ## Arrays that arrays hold -/

/-- The second array is an element of the first one. -/
def HoldsArray (heap : Heap) (p q : Nat) : Prop :=
  .array q ∈ (heap.items p).toList

/-- On the same path, as far as the value leads, the texts are the same. -/
theorem elementText_congr {path' : List Nat}
    (h : ∀ p q, v = .array p → ReflTransGen (HoldsArray heap) p q → (q ∈ path ↔ q ∈ path')) :
    elementText heap path v = elementText heap path' v := by
  induction path, v using path_induction heap generalizing path' with
  | shallow path v harray =>
      rw [elementText_of_not_isArray harray, elementText_of_not_isArray harray]
  | again path place hmem =>
      have hmem' := (h place place rfl .refl).mp hmem
      rw [elementText_again hmem, elementText_again hmem']
  | array path place hnew ih =>
      have hnew' : place ∉ path' := fun hmem => hnew ((h place place rfl .refl).mpr hmem)
      rw [elementText_array hnew, elementText_array hnew']
      refine congrArg _ (List.map_congr_left fun item hitem => ih item hitem ?_)
      rintro p q rfl hreach
      have hbelow := h place q rfl (.head hitem hreach)
      rw [List.mem_cons, List.mem_cons, hbelow]

/-! ## An array with one element -/

/-- An array whose only element is an array of the path has the empty text. -/
theorem elementText_single {p : Nat} (hitems : heap.items place = #[.array p]) (hp : p ∈ path) :
    elementText heap path (.array place) = "" := by
  by_cases hmem : place ∈ path
  · exact elementText_again hmem
  · rw [elementText_array hmem, hitems]
    change ",".intercalate [elementText heap (place :: path) (.array p)] = ""
    rw [elementText_again (List.mem_cons_of_mem place hp), String.intercalate_singleton]

/-- So it makes no difference whether it is on the path itself. -/
theorem elementText_of_single {p : Nat} (hitems : heap.items place = #[.array p])
    (hp : p ∈ path) (hp' : p ∈ path') (h : ∀ q, q ≠ place → (q ∈ path ↔ q ∈ path')) :
    elementText heap path v = elementText heap path' v := by
  induction path, v using path_induction heap generalizing path' with
  | shallow path v harray =>
      rw [elementText_of_not_isArray harray, elementText_of_not_isArray harray]
  | again path q hmem =>
      by_cases hq : q = place
      · subst hq
        rw [elementText_again hmem, elementText_single hitems hp']
      · rw [elementText_again hmem, elementText_again ((h q hq).mp hmem)]
  | array path q hnew ih =>
      by_cases hq : q = place
      · subst hq
        rw [elementText_single hitems hp, elementText_single hitems hp']
      · have hnew' : q ∉ path' := fun hmem => hnew ((h q hq).mpr hmem)
        rw [elementText_array hnew, elementText_array hnew']
        refine congrArg _ (List.map_congr_left fun item hitem => ?_)
        refine ih item hitem (List.mem_cons_of_mem q hp) (List.mem_cons_of_mem q hp') ?_
        intro r hr
        rw [List.mem_cons, List.mem_cons, h r hr]

/-- The only element of an array has the same text inside the array and on its own. -/
theorem elementText_only {item : Value} (hitems : heap.items place = #[item]) :
    elementText heap [place] item = elementText heap [] item := by
  by_cases harray : item.IsArray
  · cases item with
    | array p =>
        by_cases hp : p = place
        · subst hp
          rw [elementText_again List.mem_cons_self, elementText_array List.not_mem_nil, hitems]
          change "" = ",".intercalate [elementText heap [p] (.array p)]
          rw [elementText_again List.mem_cons_self, String.intercalate_singleton]
        · rw [elementText_array (by simp [hp]), elementText_array List.not_mem_nil]
          refine congrArg _ (List.map_congr_left fun v _ => ?_)
          exact elementText_of_single hitems List.mem_cons_self List.mem_cons_self
            fun q hq => by simp [hq]
    | _ => exact harray.elim
  · rw [elementText_of_not_isArray harray, elementText_of_not_isArray harray]

/-! ## An array that is met inside itself -/

/-- On the way down from array `q`, array `a` is met without being on the path. -/
inductive Meets (heap : Heap) (a : Nat) : List Nat → Nat → Prop
  | here {path : List Nat} (hnew : a ∉ path) : Meets heap a path a
  | inner {path : List Nat} {q next : Nat} (hnew : q ∉ path) (hnext : HoldsArray heap q next)
      (hrest : Meets heap a (q :: path) next) : Meets heap a path q

namespace Meets

variable {a : Nat}

theorem mono (h : Meets heap a path q) (hsub : path' ⊆ path) : Meets heap a path' q := by
  induction h generalizing path' with
  | here hnew => exact .here fun hmem => hnew (hsub hmem)
  | inner hnew hnext _ ih =>
      exact .inner (fun hmem => hnew (hsub hmem)) hnext (ih (List.cons_subset_cons _ hsub))

/-- The way does not pass through `p`, or what is behind its last passage begins at an element of
`p`. -/
theorem avoids {p : Nat} (hp : p ≠ a) (h : Meets heap a path q) : Meets heap a (p :: path) q ∨
    ∃ next, HoldsArray heap p next ∧ Meets heap a (p :: path) next := by
  induction h with
  | here hnew => exact .inl (.here (by simp [hp.symm, hnew]))
  | @inner path q next hnew hnext hrest ih =>
      have hdrop : p :: path ⊆ p :: q :: path :=
        List.cons_subset_cons p (List.subset_cons_self q path)
      have hswap : q :: p :: path ⊆ p :: q :: path := (List.Perm.swap p q path).subset
      rcases ih with hpast | ⟨behind, hbehind, hpast⟩
      · by_cases hq : q = p
        · exact .inr ⟨next, hq ▸ hnext, hpast.mono hdrop⟩
        · exact .inl (.inner (by simp [hq, hnew]) hnext (hpast.mono hswap))
      · exact .inr ⟨behind, hbehind, hpast.mono hdrop⟩

theorem of_reflTransGen (h : ReflTransGen (HoldsArray heap) q a) : Meets heap a [] q := by
  induction h using ReflTransGen.head_induction_on with
  | refl => exact .here List.not_mem_nil
  | @head p next hedge _ ih =>
      by_cases hp : p = a
      · subst hp
        exact .here List.not_mem_nil
      · rcases ih.avoids hp with hrest | ⟨behind, hbehind, hrest⟩
        · exact .inner List.not_mem_nil hedge hrest
        · exact .inner List.not_mem_nil hbehind hrest

end Meets

/-! ## Sizes of texts -/

/-- The sum of the sizes decides which of two texts with as many parts is longer. -/
theorem size_intercalate_map (f : Value → String) (items : List Value) :
    (",".intercalate (items.map f)).utf8ByteSize =
      (items.map fun v => (f v).utf8ByteSize).foldr (· + ·) 0 + (items.length - 1) := by
  have hcomma : ",".utf8ByteSize = 1 := rfl
  rw [utf8ByteSize_intercalate, hcomma, Nat.one_mul, List.map_map, List.length_map]
  rfl

section

variable {f g : Value → String} {items : List Value}

theorem size_intercalate_le (h : ∀ v ∈ items, (f v).utf8ByteSize ≤ (g v).utf8ByteSize) :
    (",".intercalate (items.map f)).utf8ByteSize ≤
      (",".intercalate (items.map g)).utf8ByteSize := by
  rw [size_intercalate_map, size_intercalate_map]
  exact Nat.add_le_add_right (List.sum_le_sum h) _

theorem size_intercalate_lt (h : ∀ v ∈ items, (f v).utf8ByteSize ≤ (g v).utf8ByteSize)
    (hlt : ∃ v ∈ items, (f v).utf8ByteSize < (g v).utf8ByteSize) :
    (",".intercalate (items.map f)).utf8ByteSize <
      (",".intercalate (items.map g)).utf8ByteSize := by
  rw [size_intercalate_map, size_intercalate_map]
  exact Nat.add_lt_add_right (List.sum_lt_sum _ _ h hlt) _

end

/-- The longer the path, the shorter the text. -/
theorem size_elementText_le (hsub : path ⊆ path') :
    (elementText heap path' v).utf8ByteSize ≤ (elementText heap path v).utf8ByteSize := by
  induction path, v using path_induction heap generalizing path' with
  | shallow path v harray =>
      rw [elementText_of_not_isArray harray, elementText_of_not_isArray harray]
  | again path place hmem =>
      rw [elementText_again (hsub hmem)]
      exact Nat.zero_le _
  | array path place hnew ih =>
      by_cases hmem : place ∈ path'
      · rw [elementText_again hmem]
        exact Nat.zero_le _
      · rw [elementText_array hnew, elementText_array hmem]
        exact size_intercalate_le fun item hitem =>
          ih item hitem (List.cons_subset_cons place hsub)

/-- An array with two elements has a text with a comma. -/
theorem size_elementText_pos (hitems : 2 ≤ (heap.items place).size) (hnew : place ∉ path) :
    0 < (elementText heap path (.array place)).utf8ByteSize := by
  rw [elementText_array hnew, size_intercalate_map, Array.length_toList]
  omega

/-- Where such an array is met, it matters whether it is on the path. -/
theorem Meets.size_lt {a : Nat} (h : Meets heap a path q) (hitems : 2 ≤ (heap.items a).size)
    (hpath : ∀ p, p ∈ path' ↔ p = a ∨ p ∈ path) :
    (elementText heap path' (.array q)).utf8ByteSize <
      (elementText heap path (.array q)).utf8ByteSize := by
  induction h generalizing path' with
  | here hnew =>
      rw [elementText_again ((hpath a).mpr (.inl rfl))]
      exact size_elementText_pos hitems hnew
  | @inner path q next hnew hnext hrest ih =>
      have hsub : q :: path ⊆ q :: path' :=
        List.cons_subset_cons q fun p hp => (hpath p).mpr (.inr hp)
      by_cases hq : q = a
      · subst hq
        rw [elementText_again ((hpath q).mpr (.inl rfl))]
        exact size_elementText_pos hitems hnew
      · have hnew' : q ∉ path' := by simp [hpath, hq, hnew]
        rw [elementText_array hnew, elementText_array hnew']
        refine size_intercalate_lt (fun item _ => size_elementText_le hsub)
          ⟨.array next, hnext, ih fun p => ?_⟩
        rw [List.mem_cons, List.mem_cons, hpath]
        exact or_left_comm

/-! ## The two conversions -/

theorem text_array (heap : Heap) (place : Nat) : (Value.array place).text heap =
    ",".intercalate ((heap.items place).toList.map (elementText heap [place])) := by
  have hnew : place ∉ ([] : List Nat) := List.not_mem_nil
  exact elementText_array hnew

/-- The texts of the elements, each made on its own. -/
theorem joinedText_items (heap : Heap) (place : Nat) :
    Builtin.joinedText heap (heap.items place) "," =
      ",".intercalate ((heap.items place).toList.map (elementText heap [])) := rfl

theorem text_eq_joinedText_of_acyclic (h : ¬ TransGen (HoldsArray heap) place place) :
    (Value.array place).text heap = Builtin.joinedText heap (heap.items place) "," := by
  rw [text_array, joinedText_items]
  refine congrArg _ (List.map_congr_left fun item hitem => elementText_congr ?_)
  rintro p q rfl hreach
  have hq : q ≠ place := by
    rintro rfl
    exact h (.head' hitem hreach)
  simp [hq]

theorem text_eq_joinedText_of_size_le (h : (heap.items place).size ≤ 1) :
    (Value.array place).text heap = Builtin.joinedText heap (heap.items place) "," := by
  rw [text_array, joinedText_items]
  cases hitems : (heap.items place).toList with
  | nil => rfl
  | cons item rest =>
      have hrest : rest = [] := by
        have hlength := congrArg List.length hitems
        rw [Array.length_toList, List.length_cons] at hlength
        exact List.eq_nil_of_length_eq_zero (by omega)
      subst hrest
      refine congrArg _ (List.map_congr_left fun v hv => ?_)
      cases List.mem_singleton.mp hv
      exact elementText_only (Array.toList_inj.mp hitems)

theorem size_text_lt (hsize : 2 ≤ (heap.items place).size)
    (hcycle : TransGen (HoldsArray heap) place place) :
    ((Value.array place).text heap).utf8ByteSize <
      (Builtin.joinedText heap (heap.items place) ",").utf8ByteSize := by
  obtain ⟨q, hq, hreach⟩ := TransGen.head'_iff.mp hcycle
  rw [text_array, joinedText_items]
  refine size_intercalate_lt (fun item _ => size_elementText_le (List.nil_subset _))
    ⟨.array q, hq, ?_⟩
  exact (Meets.of_reflTransGen hreach).size_lt hsize (by simp)

/-- The two conversions agree, unless the array has two elements and is inside itself. -/
theorem joinedText_eq_text_iff : Builtin.joinedText heap (heap.items place) "," =
    (Value.array place).text heap ↔
      (heap.items place).size ≤ 1 ∨ ¬ TransGen (HoldsArray heap) place place := by
  constructor
  · intro heq
    by_contra hnot
    rw [not_or, Classical.not_not, Nat.not_le] at hnot
    have hlt := size_text_lt hnot.1 hnot.2
    rw [heq] at hlt
    exact Nat.lt_irrefl _ hlt
  · rintro (hsize | hacyclic)
    · exact (text_eq_joinedText_of_size_le hsize).symm
    · exact (text_eq_joinedText_of_acyclic hacyclic).symm

/-- **Texts of arrays.** In every heap the conversion of an array by `String`, and going through its
elements for `join` and `toString`, end, with one outcome. The text of `String` is the outcome of
the first; `join` and `toString` answer with the outcome of the second if it is within the limit.
The two texts are the same exactly if the array has at most one element or is not inside itself. -/
theorem array_texts (call : Caller) (place : Nat) (loc : Location) (s : State) :
    (∀ texts, Spelling s.heap [] [.array place] texts ↔
        texts = [(Value.array place).text s.heap]) ∧
      (∃ parts, (∀ texts, Spelling s.heap [] (s.heap.items place).toList texts ↔ texts = parts) ∧
        Builtin.joinedText s.heap (s.heap.items place) "," = ",".intercalate parts) ∧
      Native.string.call call [.array place] loc s =
        .done (.string ((Value.array place).text s.heap))
          (s.record (.untested (.string ((Value.array place).text s.heap)))) ∧
      (∀ method, method = "join" ∨ method = "toString" →
        (Value.array place).callMethod call method [] loc s =
          if (Builtin.joinedText s.heap (s.heap.items place) ",").utf8ByteSize ≤
              Limit.stringLength then
            .done (.string (Builtin.joinedText s.heap (s.heap.items place) ",")) s
          else .stopped (.fault ⟨.stringLength, loc⟩) s) ∧
      (Builtin.joinedText s.heap (s.heap.items place) "," = (Value.array place).text s.heap ↔
        (s.heap.items place).size ≤ 1 ∨ ¬ TransGen (HoldsArray s.heap) place place) := by
  refine ⟨fun texts => spelling_iff, ⟨_, fun texts => spelling_iff, joinedText_items _ _⟩, rfl,
    fun method hmethod => ?_, joinedText_eq_text_iff⟩
  exact Composition.run_eq (.join place method hmethod []) call loc s trivial

/-- A heap with an array that has itself as its second element. -/
def selfHolding : Heap :=
  ⟨#[#[.string "x", .array 0]], #[], #[]⟩

/-- The array is cut off inside itself by `String`, and by `join` only one level further down. -/
theorem not_agree_selfHolding :
    let s : State := { State.initial with heap := selfHolding }
    Native.string.call (callWithin [] 1) [.array 0] ⟨3, 9⟩ s =
        .done (.string "x,") (s.record (.untested (.string "x,"))) ∧
      (Value.array 0).callMethod (callWithin [] 1) "join" [] ⟨4, 9⟩ s =
        .done (.string "x,x,") s ∧
      "x," ≠ "x,x," := by
  refine ⟨rfl, rfl, by decide⟩

end Value

end StepTrace
