import StepTrace.Proofs.ExactIntegers
import StepTrace.Proofs.StateCells

/-!
# Splices and slices

A position argument counts from the end if it is negative and is moved to the nearer end of the
array if it is outside. So a splice takes out a part of the array that is there, and no element is
lost: the part and what is left of the array, around the inserted elements, are the array. A slice
copies a part and changes nothing, and the two slices that meet at a position are the array
(`splice_slice`).

* `positionIn`, `clamped`: the positions and counts that integers ask for.
* `relativePosition_le`, `spliceCount_le`: no argument whatever leads out of the array.
* `State.ChangesOnly`: what a method leaves as it was.
-/

namespace StepTrace

open Syntax (Location)
open Number (StandsFor)

variable {heap : Heap} {args : List Value} {asked : Option Int} {s t u : State}

/-! ## New arrays -/

theorem Heap.size_addArray (heap : Heap) (items : Array Value) :
    (heap.addArray items).arrays.size = heap.arrays.size + 1 := Array.size_push _

theorem Heap.size_onArray (heap : Heap) (array : Nat) (change : Array Value → Array Value) :
    (heap.onArray array change).arrays.size = heap.arrays.size := Array.size_modify

theorem State.items_addArray_front (s : State) (front back : Array Value) :
    ((s.changeHeap (·.addArray front)).changeHeap (·.addArray back)).heap.items
      s.heap.arrays.size = front := by
  have hlt : s.heap.arrays.size < (s.heap.addArray front).arrays.size := by
    rw [Heap.size_addArray]
    exact Nat.lt_succ_self _
  exact (Heap.items_addArray_of_lt hlt back).trans (Heap.items_addArray s.heap front)

theorem State.items_addArray_back (s : State) (front back : Array Value) :
    ((s.changeHeap (·.addArray front)).changeHeap (·.addArray back)).heap.items
      (s.heap.arrays.size + 1) = back := by
  rw [← Heap.size_addArray s.heap front]
  exact Heap.items_addArray _ back

/-! ## Frames -/

/-- Apart from its history the second state differs from the first one in the elements of the arrays
that were written and in new arrays at most. -/
structure State.ChangesOnly (s : State) (written : Nat → Prop) (t : State) : Prop where
  env : t.env = s.env
  closures : t.closures = s.closures
  objects : t.heap.objects = s.heap.objects
  functions : t.heap.functions = s.heap.functions
  size_le : s.heap.arrays.size ≤ t.heap.arrays.size
  items : ∀ p < s.heap.arrays.size, ¬ written p → t.heap.items p = s.heap.items p

namespace State.ChangesOnly

variable {written : Nat → Prop}

theorem trans (h : s.ChangesOnly written t) (h' : t.ChangesOnly written u) :
    s.ChangesOnly written u where
  env := h'.env.trans h.env
  closures := h'.closures.trans h.closures
  objects := h'.objects.trans h.objects
  functions := h'.functions.trans h.functions
  size_le := Nat.le_trans h.size_le h'.size_le
  items p hp hnot := by
    rw [h'.items p (Nat.lt_of_lt_of_le hp h.size_le) hnot, h.items p hp hnot]

theorem addArray (s : State) (items : Array Value) :
    s.ChangesOnly written (s.changeHeap (·.addArray items)) where
  env := rfl
  closures := rfl
  objects := rfl
  functions := rfl
  size_le := by
    change _ ≤ (s.heap.addArray items).arrays.size
    rw [Heap.size_addArray]
    exact Nat.le_succ _
  items _ hp _ := Heap.items_addArray_of_lt hp items

theorem onArray (s : State) (array : Nat) (change : Array Value → Array Value) :
    s.ChangesOnly (· = array)
      ((s.changeHeap (·.onArray array change)).record (.unchecked array)) where
  env := rfl
  closures := rfl
  objects := rfl
  functions := rfl
  size_le := Nat.le_of_eq (Heap.size_onArray s.heap array change).symm
  items p _ hnot := by
    change (s.heap.onArray array change).items p = _
    rw [State.items_onArray_or, if_neg fun h => hnot h.1]

end State.ChangesOnly

namespace Builtin

/-! ## Positions -/

/-- What an argument asks for: nothing, or an integer. -/
inductive Asks : Option Value → Option Int → Prop
  | nothing : Asks none none
  | integer {x : Float} {n : Int} (h : StandsFor x n) : Asks (some (.number x)) (some n)

/-- The integer moved into the range from zero to `length`. -/
def clamped (n : Int) (length : Nat) : Nat :=
  (max 0 (min n length)).toNat

/-- The position that an integer asks for, counted from the end if it is negative. -/
def positionIn (length : Nat) (n : Int) : Nat :=
  clamped (if n < 0 then length + n else n) length

theorem relativePosition_eq {k : Nat} (h : Asks (given? args k) asked) (length default : Nat) :
    relativePosition heap args k length default =
      (asked.map (positionIn length)).getD default := by
  rw [relativePosition]
  generalize given? args k = given at h
  cases h with
  | nothing => rfl
  | @integer x n h =>
      have hnumber : (Value.number x).toNumber heap = x := rfl
      rw [Option.map_some, Option.getD_some, positionIn, clamped]
      dsimp only
      rw [hnumber, fromEitherEnd, h.toInt?_eq]
      dsimp only
      by_cases hneg : n < 0
      · rw [if_pos hneg, if_pos hneg]
        omega
      · rw [if_neg hneg, if_neg hneg]
        omega

theorem spliceCount_eq (h : Asks args[1]? asked) (length start : Nat) :
    spliceCount heap args length start =
      (asked.map (clamped · (length - start))).getD (length - start) := by
  rw [spliceCount]
  generalize args[1]? = given at h
  cases h with
  | nothing => rfl
  | @integer x n h =>
      have hnumber : (Value.number x).toNumber heap = x := rfl
      rw [Option.map_some, Option.getD_some, clamped]
      dsimp only
      rw [hnumber, clampPosition, h.toInt?_eq]
      dsimp only
      omega

theorem fromEitherEnd_le (x : Float) (length : Nat) : fromEitherEnd x length ≤ length := by
  unfold fromEitherEnd
  split
  · split
    · omega
    · omega
  · split
    · exact Nat.le_refl length
    · exact Nat.zero_le length

/-- No argument gives a position outside. -/
theorem relativePosition_le (heap : Heap) (args : List Value) (k : Nat) {length default : Nat}
    (h : default ≤ length) : relativePosition heap args k length default ≤ length := by
  rw [relativePosition]
  split
  · exact h
  · exact fromEitherEnd_le _ length

/-- No argument gives a count that leads out of the rest of the array. -/
theorem spliceCount_le (heap : Heap) (args : List Value) (length start : Nat) :
    spliceCount heap args length start ≤ length - start := by
  unfold spliceCount
  split
  · exact Nat.le_refl _
  · unfold clampPosition
    split
    · exact Nat.min_le_right _ _
    · split
      · exact Nat.le_refl _
      · exact Nat.zero_le _

/-! ## The methods -/

theorem slice_apply (call : Caller) (array : Nat) (args : List Value) (loc : Location)
    (s : State) :
    (Value.array array).callMethod call "slice" args loc s = .done (.array s.heap.arrays.size)
      (s.changeHeap (·.addArray ((s.heap.items array).extract
        (relativePosition s.heap args 0 (s.heap.items array).size 0)
        (relativePosition s.heap args 1 (s.heap.items array).size
          (s.heap.items array).size)))) := rfl

theorem toList_extract (items : Array Value) (i j : Nat) :
    (items.extract i j).toList = if i < j then (items.toList.drop i).take (j - i) else [] := by
  rw [Array.toList_extract, List.extract_eq_take_drop]
  split
  · rfl
  · next h => rw [Nat.sub_eq_zero_of_le (Nat.not_lt.mp h), List.take_zero]

/-- The slices up to a position and from there on, one after the other. -/
theorem slices_apply (call : Caller) {array : Nat} (loc loc' : Location) {s : State} {zero : Float}
    (x : Float) (harray : array < s.heap.arrays.size) (hzero : StandsFor zero 0) :
    let items := s.heap.items array
    let i := fromEitherEnd x items.size
    let t := s.changeHeap (·.addArray (items.extract 0 i))
    (Value.array array).callMethod call "slice" [.number zero, .number x] loc s =
        .done (.array s.heap.arrays.size) t ∧
      (Value.array array).callMethod call "slice" [.number x] loc' t =
        .done (.array (s.heap.arrays.size + 1))
          (t.changeHeap (·.addArray (items.extract i items.size))) := by
  intro items i t
  have hasks : Asks (given? [.number zero, .number x] 0) (some 0) := .integer hzero
  have hfront : relativePosition s.heap [.number zero, .number x] 0 items.size 0 = 0 :=
    relativePosition_eq hasks items.size 0
  have hitems : t.heap.items array = items := Heap.items_addArray_of_lt harray _
  have hnew : t.heap.arrays.size = s.heap.arrays.size + 1 := Heap.size_addArray _ _
  constructor
  · rw [slice_apply, hfront]
    rfl
  · rw [slice_apply, hitems, hnew]
    rfl

/-- The state after a splice. -/
def splicedState (s : State) (array start count : Nat) (inserted : List Value) : State :=
  let parts := spliced (s.heap.items array).toList start count inserted
  ((s.changeHeap (·.onArray array fun _ => parts.2.toArray)).record
    (.unchecked array)).changeHeap (·.addArray parts.1.toArray)

theorem splice_apply (call : Caller) (array : Nat) (args : List Value) (loc : Location)
    (s : State) :
    let start := relativePosition s.heap args 0 (s.heap.items array).size 0
    (Value.array array).callMethod call "splice" args loc s = .done (.array s.heap.arrays.size)
      (splicedState s array start (spliceCount s.heap args (s.heap.items array).size start)
        (args.drop 2)) := by
  intro start
  rw [← Heap.size_onArray s.heap array]
  rfl

section SplicedState

variable (s : State) (start count : Nat) (inserted : List Value)

theorem changesOnly_splicedState (array : Nat) :
    s.ChangesOnly (· = array) (splicedState s array start count inserted) :=
  (State.ChangesOnly.onArray s array _).trans (.addArray _ _)

/-- The new array has what was taken out. -/
theorem items_splicedState (array : Nat) :
    ((splicedState s array start count inserted).heap.items s.heap.arrays.size).toList =
      ((s.heap.items array).toList.drop start).take count := by
  rw [← Heap.size_onArray s.heap array]
  exact congrArg Array.toList (Heap.items_addArray _ _)

theorem items_splicedState_self {array : Nat} (harray : array < s.heap.arrays.size) :
    ((splicedState s array start count inserted).heap.items array).toList =
      (s.heap.items array).toList.take start ++ inserted ++
        (s.heap.items array).toList.drop (start + count) := by
  rw [← List.drop_drop]
  apply congrArg Array.toList
  refine (Heap.items_addArray_of_lt ?_ _).trans (Heap.items_onArray harray _)
  rwa [← Heap.size_onArray s.heap array] at harray

end SplicedState

/-- The part up to a position and the part from there on. -/
theorem extract_append (items : Array Value) {i : Nat} (hi : i ≤ items.size) :
    (items.extract 0 i).toList ++ (items.extract i items.size).toList = items.toList := by
  have hjoined : items.extract 0 i ++ items.extract i items.size =
      items.extract (min 0 i) (max i items.size) := Array.extract_append_extract
  rw [Nat.zero_min, Nat.max_eq_right hi, Array.extract_size] at hjoined
  rw [← Array.toList_append, hjoined]

/-- **Splices and slices.** A splice gives a new array with the part that it takes out and leaves
the rest around the inserted elements. A slice gives a new array with the part between two
positions, nothing if they cross, and changes nothing that was there. The slice up to a position and
the one from there on are the array. No argument whatever leads out of the array. -/
theorem splice_slice (call : Caller) (loc loc' : Location) (s : State) {array : Nat}
    (harray : array < s.heap.arrays.size) :
    let items := (s.heap.items array).toList
    let length := items.length
    (∀ args start count, Asks (given? args 0) start → Asks args[1]? count →
      let i := (start.map (positionIn length)).getD 0
      let d := (count.map (clamped · (length - i))).getD (length - i)
      ∃ t, (Value.array array).callMethod call "splice" args loc s =
          .done (.array s.heap.arrays.size) t ∧
        (t.heap.items s.heap.arrays.size).toList = (items.drop i).take d ∧
        (t.heap.items array).toList = items.take i ++ args.drop 2 ++ items.drop (i + d) ∧
        s.ChangesOnly (· = array) t) ∧
    (∀ args start stop, Asks (given? args 0) start → Asks (given? args 1) stop →
      let i := (start.map (positionIn length)).getD 0
      let j := (stop.map (positionIn length)).getD length
      ∃ t, (Value.array array).callMethod call "slice" args loc s =
          .done (.array s.heap.arrays.size) t ∧
        (t.heap.items s.heap.arrays.size).toList =
          (if i < j then (items.drop i).take (j - i) else []) ∧
        s.ChangesOnly (fun _ => False) t) ∧
    (∀ zero x, StandsFor zero 0 →
      ∃ t u, (Value.array array).callMethod call "slice" [.number zero, .number x] loc s =
          .done (.array s.heap.arrays.size) t ∧
        (Value.array array).callMethod call "slice" [.number x] loc' t =
          .done (.array (s.heap.arrays.size + 1)) u ∧
        (u.heap.items s.heap.arrays.size).toList ++
          (u.heap.items (s.heap.arrays.size + 1)).toList = items ∧
        s.ChangesOnly (fun _ => False) u) ∧
    ∀ args, relativePosition s.heap args 0 length 0 ≤ length ∧
      relativePosition s.heap args 1 length length ≤ length ∧
      relativePosition s.heap args 0 length 0 +
        spliceCount s.heap args length (relativePosition s.heap args 0 length 0) ≤ length := by
  intro items length
  have hsize : (s.heap.items array).size = length := Array.length_toList.symm
  refine ⟨?_, ?_, ?_, ?_⟩
  · intro args start count hstart hcount i d
    refine ⟨_, splice_apply call array args loc s, ?_⟩
    rw [hsize, relativePosition_eq hstart, spliceCount_eq hcount]
    exact ⟨items_splicedState s i d _ array, items_splicedState_self s i d _ harray,
      changesOnly_splicedState s i d _ array⟩
  · intro args start stop hstart hstop i j
    refine ⟨_, slice_apply call array args loc s, ?_, State.ChangesOnly.addArray s _⟩
    rw [hsize, relativePosition_eq hstart, relativePosition_eq hstop]
    exact (congrArg Array.toList (Heap.items_addArray _ _)).trans (toList_extract _ i j)
  · intro zero x hzero
    obtain ⟨hfront, hback⟩ := slices_apply call loc loc' x harray hzero
    refine ⟨_, _, hfront, hback, ?_, (State.ChangesOnly.addArray s _).trans (.addArray _ _)⟩
    rw [State.items_addArray_front, State.items_addArray_back]
    exact extract_append _ (fromEitherEnd_le x _)
  · intro args
    have hstart := relativePosition_le s.heap args 0 (Nat.zero_le length)
    refine ⟨hstart, relativePosition_le s.heap args 1 (Nat.le_refl length), ?_⟩
    have hcount := spliceCount_le s.heap args length (relativePosition s.heap args 0 length 0)
    omega

/-- The position of the last element but one, and one element taken out. -/
theorem splice_slice_from_end :
    let heap : Heap := ⟨#[#[.bool true, .null, .undefined]], #[], #[]⟩
    let s : State := ⟨.initial, heap, #[], .of []⟩
    0 < s.heap.arrays.size ∧
      ∃ t, (Value.array 0).callMethod (callWithin [] 0) "splice"
          [.number (Number.ofInt (-2)), .number (Number.ofInt 1), .string "c"] ⟨1, 9⟩ s =
            .done (.array 1) t ∧
        (t.heap.items 1).toList = [.null] ∧
        (t.heap.items 0).toList = [.bool true, .string "c", .undefined] := by
  intro heap s
  have harray : 0 < s.heap.arrays.size := by decide
  refine ⟨harray, ?_⟩
  have hstart : StandsFor (Number.ofInt (-2)) (-2) := .ofInt (by decide)
  have hcount : StandsFor (Number.ofInt 1) 1 := .ofInt (by decide)
  obtain ⟨hsplice, -⟩ := splice_slice (callWithin [] 0) ⟨1, 9⟩ ⟨2, 9⟩ s harray
  obtain ⟨t, hcall, hremoved, hleft, -⟩ := hsplice
    [.number (Number.ofInt (-2)), .number (Number.ofInt 1), .string "c"] (some (-2)) (some 1)
    (.integer hstart) (.integer hcount)
  exact ⟨t, hcall, hremoved, hleft⟩

end Builtin

end StepTrace
