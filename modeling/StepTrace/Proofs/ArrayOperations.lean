import StepTrace.Proofs.ArrayLimit
import StepTrace.Proofs.Correspondence

/-!
# Operations on arrays and their limit

Every operation that the language provides leaves all arrays within the limit, as long as those
are that it does not check (`KeepsLimit.arrayMethod`, `KeepsLimit.nativeCall`). It asks for the
length, or the result is no longer than an array that it was made from: a callback gives one
element at most for each that the array had, and sorting loses and adds none.

An operation that asks refuses a length that is not allowed before it changes anything
(`Eval.write_apply`, `Builtin.lengthened_apply`, `Builtin.concat_apply`).
-/

namespace StepTrace

open Syntax (Location)

variable {α β : Type} {known : Prop}

theorem size_appendList (items : Array α) (more : List α) :
    (items ++ more).size = items.size + more.length := by
  rw [← Array.length_toList, Array.toList_appendList, List.length_append, Array.length_toList]

/-! ## Changes of containers -/

namespace Heap

@[simp]
theorem items_addArray (heap : Heap) (items : Array Value) :
    (heap.addArray items).items heap.arrays.size = items := by
  simp [Heap.items, addArray]

theorem items_addArray_of_lt {heap : Heap} {array : Nat} (h : array < heap.arrays.size)
    (items : Array Value) : (heap.addArray items).items array = heap.items array := by
  simp [Heap.items, addArray, Array.getElem?_push, Nat.ne_of_lt h]

theorem items_onArray {heap : Heap} {array : Nat} (h : array < heap.arrays.size)
    (change : Array Value → Array Value) :
    (heap.onArray array change).items array = change (heap.items array) := by
  simp [Heap.items, onArray, Array.getElem?_modify, Array.getElem?_eq_getElem h]

end Heap

theorem Eval.newUnchecked_apply (items : Array Value) (s : State) :
    newUnchecked items s = .done (.array s.heap.arrays.size)
      ((s.changeHeap (·.addArray items)).record (.unchecked s.heap.arrays.size)) := rfl

theorem Eval.allow_checkArray_apply (loc : Location) (length : Nat) (f : Eval α) (s : State) :
    (do
      Eval.allow loc (Limit.checkArray length)
      f) s =
      if length ≤ Limit.arrayLength then f s
      else .stopped (.fault ⟨.arrayLength, loc⟩) s := by
  rw [Eval.bind_apply, Limit.checkArray_eq]
  split
  · rfl
  · rfl

theorem Eval.consultAt_apply (loc : Location) (question : Heap → Except Cause α) (s : State) :
    consultAt loc question s = match question s.heap with
      | .ok a => .done a s
      | .error cause => .stopped (.fault ⟨cause, loc⟩) s := by
  unfold consultAt
  rw [bind_apply]
  change allow loc (question s.heap) s = _
  cases question s.heap with
  | error cause => rfl
  | ok a => rfl

theorem Eval.write_apply (loc : Location) (decide : Heap → Except Cause Write) (s : State) :
    write loc decide s = match decide s.heap with
      | .ok change => .done () (s.changeHeap (·.perform change))
      | .error cause => .stopped (.fault ⟨cause, loc⟩) s := by
  unfold write
  rw [bind_apply, consultAt_apply]
  cases decide s.heap with
  | error cause => rfl
  | ok change => rfl

theorem Eval.write_of_ite {loc : Location} {decide : Heap → Except Cause Write} {s : State}
    {admitted : Prop} [Decidable admitted] {change : Write} {cause : Cause}
    (h : decide s.heap = if admitted then .ok change else .error cause) :
    write loc decide s = if admitted then .done () (s.changeHeap (·.perform change))
      else .stopped (.fault ⟨cause, loc⟩) s := by
  rw [write_apply, h]
  by_cases hadmitted : admitted
  · rw [if_pos hadmitted, if_pos hadmitted]
  · rw [if_neg hadmitted, if_neg hadmitted]

namespace KeepsLimit

theorem newUnchecked (items : Array Value) :
    arrayUpkeep.Keeps known (fun _ => True) (Eval.newUnchecked items) := by
  intro s _
  rw [Eval.newUnchecked_apply]
  exact Upkeep.Kept.unchecked fun hs => hs.addArray_but items

/-- The elements are replaced by any number of others. -/
theorem replaceUnchecked (array : Nat) (change : Array Value → Array Value)
    {f : Unit → Eval β} {good : β → Prop} (hf : ∀ a, arrayUpkeep.Keeps known good (f a)) :
    arrayUpkeep.Keeps known good (do
      Eval.changeHeap (·.onArray array change)
      Eval.unchecked array
      f ()) := by
  have hreplace : KeepsLimit (do
      Eval.changeHeap (·.onArray array change)
      Eval.unchecked array) :=
    fun s _ => Upkeep.Kept.unchecked fun hs => hs.onArray_but array change
  have hall := Upkeep.Keeps.seq hreplace hf
  rwa [bind_assoc] at hall

theorem newObject (fields : Fields) : KeepsLimit (Eval.newObject fields) :=
  Upkeep.Keeps.newObject (fun _ _ hheap => hheap) fun _ => trivial

theorem write (loc : Location) {decide : Heap → Except Cause Write}
    (h : ∀ {heap change}, decide heap = .ok change → change.Limited heap) :
    KeepsLimit (Eval.write loc decide) :=
  Upkeep.Keeps.write fun _ _ hheap _ hchange => h hchange hheap

end KeepsLimit

/-! ## Methods that ask for the length -/

namespace Builtin

theorem lengthened_apply (array extra : Nat) (loc : Location)
    (change : Array Value → Array Value) (s : State) :
    lengthened array extra loc change s =
      if (s.heap.items array).size + extra ≤ Limit.arrayLength then
        .done (.ofCount ((s.heap.items array).size + extra))
          (s.changeHeap (·.onArray array change))
      else .stopped (.fault ⟨.arrayLength, loc⟩) s :=
  Eval.allow_checkArray_apply loc _ _ s

/-- The values one behind the other, those of an array in its place. -/
def appended (heap : Heap) (items : Array Value) (values : List Value) : Array Value :=
  values.foldl (fun items value => items ++ spreadValue heap value) items

theorem size_appended (heap : Heap) (items : Array Value) (values : List Value) :
    (appended heap items values).size =
      (values.map fun value => (spreadValue heap value).size).foldr (· + ·) items.size := by
  unfold appended
  induction values generalizing items with
  | nil => rfl
  | cons value rest ih =>
      rw [List.foldl_cons, ih, Array.size_append, List.map_cons, List.foldr_cons]
      rw [List.foldr_assoc, Nat.add_comm]

theorem concat_apply (call : Caller) (array : Nat) (args : List Value) (loc : Location)
    (s : State) :
    arrayMethod call array "concat" args loc s =
      if (appended s.heap (s.heap.items array) args).size ≤ Limit.arrayLength then
        Eval.newArray (appended s.heap (s.heap.items array) args) s
      else .stopped (.fault ⟨.arrayLength, loc⟩) s := by
  rw [size_appended]
  exact Eval.allow_checkArray_apply loc _ _ s

/-- The length that an object states as a number; zero if it states none. -/
def statedNumber (heap : Heap) (fields : Fields) : Float :=
  (fields["length"]?.map fun value => value.toNumber heap).getD 0

/-- The object does not state to have no end of elements. -/
def StatesEnd (heap : Heap) (fields : Fields) : Prop :=
  ¬ ((statedNumber heap fields).isInf = true ∧ statedNumber heap fields > 0)

instance (heap : Heap) (fields : Fields) : Decidable (StatesEnd heap fields) :=
  inferInstanceAs (Decidable (¬ _))

theorem statedLength_eq (heap : Heap) (fields : Fields) :
    statedLength heap fields =
      if Number.toCount (statedNumber heap fields) ≤ Limit.arrayLength ∧
          StatesEnd heap fields then .ok (Number.toCount (statedNumber heap fields))
      else .error .arrayLength := by
  change (do
    if (statedNumber heap fields).isInf && statedNumber heap fields > 0 then throw Cause.arrayLength
    Limit.checkArray (Number.toCount (statedNumber heap fields))
    pure (Number.toCount (statedNumber heap fields))) = _
  by_cases hend : StatesEnd heap fields
  · rw [if_neg (by simpa [StatesEnd] using hend), Limit.checkArray_eq]
    simp only [hend, and_true]
    split
    · rfl
    · rfl
  · rw [if_pos (by simpa [StatesEnd] using hend), if_neg fun h => hend h.2]
    rfl

end Builtin

/-! ## Methods and provided functions -/

namespace KeepsLimit

open Builtin

theorem lengthened (array extra : Nat) (loc : Location) {change : Array Value → Array Value}
    (h : ∀ items, (change items).size ≤ items.size + extra) :
    KeepsLimit (Builtin.lengthened array extra loc change) := by
  intro s _
  rw [lengthened_apply]
  split
  case isTrue hsize =>
    have hchange := h (s.heap.items array)
    exact Upkeep.Kept.changeHeap s fun _ hs => hs.onArray (by omega)
  case isFalse => exact Upkeep.Kept.refl fun _ _ => trivial

theorem concat (call : Caller) (array : Nat) (args : List Value) (loc : Location) :
    KeepsLimit (arrayMethod call array "concat" args loc) := by
  intro s hs
  rw [concat_apply]
  split
  case isTrue hsize =>
    have hnew : KeepsLimit (Eval.newArray (appended s.heap (s.heap.items array) args)) :=
      newArray fun _ => hsize
    exact hnew s hs
  case isFalse => exact Upkeep.Kept.refl fun _ _ => trivial

section Callbacks

variable {call : Caller} (hcall : ∀ f args callee loc, KeepsLimit (call f args callee loc))
include hcall

theorem sortValues (comparator : Option Value) (loc : Location) (items : List Value) :
    arrayUpkeep.Keeps True (fun sorted => sorted.length = items.length)
      (Builtin.sortValues call comparator loc items) := by
  have hsort := Upkeep.keeps_sortValues (P := fun _ => True)
    (fun f a b callee => (hcall f [a, b] callee loc).weaken) comparator items
  exact hsort.mono (fun _ _ _ => trivial) fun sorted _ hsorted => hsorted.length_eq

omit hcall in
theorem length_keep_le (method : Search) (item result : Value) :
    (method.keep item result).length ≤ 1 := by
  cases method with
  | filter =>
      unfold Search.keep
      dsimp only
      split
      · exact Nat.le_refl 1
      · exact Nat.zero_le 1
  | map => exact Nat.le_refl 1
  | _ => exact Nat.zero_le 1

omit hcall in
theorem searchContinue {known : Prop} {apply : Value → Nat → Eval Value}
    (h : ∀ item index, KeepsLimit (apply item index)) (method : Search) (index : Nat)
    (kept : Array Value) (items : List Value)
    (hsize : known → kept.size + items.length ≤ Limit.arrayLength) :
    arrayUpkeep.Keeps known (fun _ => True) (method.continue apply index kept items) := by
  induction items generalizing index kept with
  | nil =>
      cases method
      case map => exact newArray hsize
      case filter => exact newArray hsize
      all_goals exact .pure fun _ => trivial
  | cons item rest ih =>
      refine (h item index).seq fun result => ?_
      split
      · exact .pure fun _ => trivial
      · refine ih _ _ fun hknown => ?_
        have hkeep := length_keep_le method item result
        have hall := hsize hknown
        rw [List.length_cons] at hall
        rw [size_appendList]
        omega

theorem searchRun (method : Search) (array : Nat) (args : List Value) (loc : Location) :
    KeepsLimit (method.run call array args loc) := by
  unfold Search.run
  dsimp only
  split
  · exact (consult _).seq fun _ => .raise _ _
  · have hitems : arrayUpkeep.Keeps True (fun items => items.size ≤ Limit.arrayLength)
        (Eval.consult (·.items array)) := .consult fun _ heap hheap => hheap array
    refine hitems.bind fun items => ?_
    refine searchContinue (fun item index => hcall _ _ _ loc) method 0 #[] items.toList ?_
    rintro ⟨-, hsize⟩
    simpa using hsize

omit hcall in
theorem reduceFrom {apply : Value → Value → Nat → Eval Value}
    (h : ∀ value item index, KeepsLimit (apply value item index)) (index : Nat) (value : Value)
    (items : List Value) : KeepsLimit (Builtin.reduceFrom apply index value items) := by
  induction items generalizing index value with
  | nil => exact pure value
  | cons item rest ih => exact (h value item index).seq fun _ => ih _ _

theorem reduce (array : Nat) (args : List Value) (loc : Location) :
    KeepsLimit (Builtin.reduce call array args loc) := by
  refine (consult _).seq fun items => ?_
  split
  · exact reduceFrom (fun _ _ _ => hcall _ _ _ loc) 0 _ _
  · exact reduceFrom (fun _ _ _ => hcall _ _ _ loc) 1 _ _
  · exact .raise _ _

theorem arrayMethod (array : Nat) (method : String) (args : List Value) (loc : Location) :
    KeepsLimit (Builtin.arrayMethod call array method args loc) := by
  by_cases hconcat : method = "concat"
  · subst hconcat
    exact concat call array args loc
  have hitems : arrayUpkeep.Keeps True (fun items => items.size ≤ Limit.arrayLength)
      (Eval.consult (·.items array)) := .consult fun _ heap hheap => hheap array
  unfold Builtin.arrayMethod
  split
  case h_1 => exact lengthened _ _ loc fun items => Nat.le_of_eq (size_appendList items args)
  case h_2 => exact lengthened _ _ loc fun items => by simp [Nat.add_comm]
  case h_3 =>
    refine (consult _).seq fun _ => ?_
    refine Upkeep.Keeps.seq (.changeHeap fun _ heap hheap => ?_) fun _ => pure _
    have hsize := hheap array
    exact hheap.onArray (by rw [Array.size_pop]; omega)
  case h_4 =>
    refine (consult _).seq fun _ => ?_
    refine Upkeep.Keeps.seq (.changeHeap fun _ heap hheap => ?_) fun _ => pure _
    have hsize := hheap array
    refine hheap.onArray ?_
    unfold Array.eraseIdxIfInBounds
    split
    · rw [Array.size_eraseIdx]
      omega
    · exact hsize
  case h_5 =>
    refine (consult _).seq fun positions => changed array fun _ items hsize => ?_
    rwa [filled, Array.size_mapIdx]
  case h_6 =>
    have hpart : arrayUpkeep.Keeps True (fun part => part.size ≤ Limit.arrayLength)
        (Eval.consult fun heap =>
          let items := heap.items array
          items.extract (relativePosition heap args 0 items.size 0)
            (relativePosition heap args 1 items.size items.size)) := by
      refine .consult fun _ heap hheap => ?_
      have hsize := hheap array
      dsimp only
      rw [Array.size_extract]
      omega
    exact hpart.bind fun part => newArray And.right
  case h_7 =>
    have hparts : arrayUpkeep.Keeps True (fun parts : List Value × List Value =>
        parts.1.length ≤ Limit.arrayLength)
        (Eval.consult fun heap =>
          let items := heap.items array
          let start := relativePosition heap args 0 items.size 0
          spliced items.toList start (spliceCount heap args items.size start) (args.drop 2)) := by
      refine .consult fun _ heap hheap => ?_
      have hsize := hheap array
      simp only [spliced, List.length_take, List.length_drop, Array.length_toList]
      omega
    exact hparts.bind fun (_, _) => replaceUnchecked array _ fun _ => newArray And.right
  case h_8 => exact consult _
  case h_9 => exact consult _
  case h_10 => exact consult _
  case h_11 => exact consultAt _
  case h_12 => exact consultAt _
  case h_13 => exact changed array fun _ items hsize => by rwa [Array.size_reverse]
  case h_14 =>
    refine hitems.bind fun items => ?_
    refine (sortValues hcall _ loc items.toList).weaken.bind fun sorted => changed array ?_
    rintro ⟨⟨-, hsize⟩, hsorted⟩ _ -
    rwa [List.size_toArray, hsorted, Array.length_toList]
  case h_15 => exact absurd rfl hconcat
  case h_16 => exact consult _
  case h_17 => exact reduce hcall array args loc
  case h_18 =>
    split
    · exact searchRun hcall _ array args loc
    · exact .raise _ _

omit hcall in
theorem makeArray (args : List Value) (loc : Location) :
    KeepsLimit (Builtin.makeArray args loc) := by
  unfold Builtin.makeArray
  split
  case h_1 x =>
    split
    · exact .raise _ _
    · have hallowed : arrayUpkeep.Keeps True (fun _ => Number.toCount x ≤ Limit.arrayLength)
          (Eval.allow loc (Limit.checkArray (Number.toCount x))) :=
        .allow fun _ _ h => Limit.le_of_checkArray h
      refine hallowed.bind fun _ => newArray fun ⟨_, hsize⟩ => ?_
      rwa [Array.size_replicate]
  case h_2 => exact newUnchecked _

omit hcall in
theorem mapFrom {apply : Value → Nat → Eval Value}
    (h : ∀ item index, KeepsLimit (apply item index)) (index : Nat) (results : Array Value)
    (items : List Value) :
    arrayUpkeep.Keeps True (fun mapped => mapped.size = results.size + items.length)
      (Builtin.mapFrom apply index results items) := by
  induction items generalizing index results with
  | nil => exact .pure fun _ => rfl
  | cons item rest ih =>
      refine (h item index).seq fun result => (ih _ _).mono id fun mapped _ hmapped => ?_
      rw [hmapped, Array.size_push, List.length_cons]
      omega

theorem mapped (mapper : Option Value) (loc : Location) (items : Array Value) :
    arrayUpkeep.Keeps True (fun mapped => mapped.size = items.size)
      (Builtin.mapped call mapper loc items) := by
  cases mapper with
  | none => exact .pure fun _ => rfl
  | some mapper =>
      refine (mapFrom (fun _ _ => hcall _ _ _ loc) 0 #[] items.toList).mono id ?_
      rintro mapped - hmapped
      simpa using hmapped

omit hcall in
/-- Only a string stands for more elements than an array may have. -/
theorem size_sourceElements {heap : Heap} (hheap : heap.Limited) {source : Value}
    (hsource : ∀ s, source ≠ .string s) {items : Array Value}
    (h : sourceElements heap source = .ok items) : items.size ≤ Limit.arrayLength := by
  unfold sourceElements at h
  split at h
  case h_1 place =>
    cases h
    exact hheap place
  case h_2 s => exact absurd rfl (hsource s)
  case h_3 place =>
    rw [statedLength_eq] at h
    split at h
    case isTrue hlength =>
      cases h
      rw [Array.size_replicate]
      exact hlength.1
    case isFalse => cases h
  case h_4 =>
    cases h
    exact Nat.zero_le _

theorem arrayFrom (args : List Value) (loc : Location) :
    KeepsLimit (Builtin.arrayFrom call args loc) := by
  have hsource : arrayUpkeep.Keeps True (fun items => (∀ s, argument args 0 ≠ .string s) →
      items.size ≤ Limit.arrayLength)
      (Eval.consultAt loc fun heap => sourceElements heap (argument args 0)) :=
    .consultAt fun _ heap hheap items h hsource => size_sourceElements hheap hsource h
  refine hsource.bind fun items => (mapped hcall _ loc items).weaken.bind fun elements => ?_
  split
  case h_1 => exact newUnchecked _
  case h_2 hstring =>
    refine newArray ?_
    rintro ⟨⟨-, hitems⟩, hsize⟩
    rw [hsize]
    exact hitems hstring

omit hcall in
theorem listFrom (what : Listing) (shown : Array Value) (fields : List (String × Value)) :
    KeepsLimit (Builtin.listFrom what shown fields) := by
  induction fields generalizing shown with
  | nil => exact pure shown
  | cons field rest ih =>
      refine Upkeep.Keeps.seq ?_ fun entry => ih _
      cases what
      case keys => exact untested _
      case values => exact pure _
      case entries =>
        exact (untested _).seq fun _ => newArray fun _ => show 2 ≤ Limit.arrayLength by decide

omit hcall in
theorem listing (what : Listing) (value : Value) : KeepsLimit (Builtin.listing what value) :=
  (consult _).seq fun _ => (listFrom what #[] _).seq fun shown => newUnchecked shown

omit hcall in
theorem makeError (args : List Value) : KeepsLimit (Builtin.makeError args) :=
  (consult _).seq fun _ => (untested _).seq fun _ => newObject _

theorem nativeCall (f : Native) (args : List Value) (loc : Location) :
    KeepsLimit (f.call call args loc) := by
  cases f with
  | console f => exact pure _
  | math f => exact consult _
  | stringify => exact (consultAt _).seq untested
  | listing what => exact listing what _
  | array => exact makeArray args loc
  | arrayFrom => exact arrayFrom hcall args loc
  | isArray => exact pure _
  | number => exact consult _
  | isInteger => exact pure _
  | numberIsNaN => exact pure _
  | isNaN => exact consult _
  | string => exact (consult _).seq untested
  | bigint => exact consultAt _
  | error => exact makeError args
  | parseInt => exact consult _
  | parseFloat => exact consult _

theorem callMethod (receiver : Value) (method : String) (args : List Value) (loc : Location) :
    KeepsLimit (receiver.callMethod call method args loc) := by
  have hmember (value : Value) :
      KeepsLimit (Eval.consultAt loc (fun heap => value.member heap method) >>= fun f =>
        call f args method loc) := (consultAt _).seq fun f => hcall f args method loc
  cases receiver with
  | array place => exact arrayMethod hcall place method args loc
  | string s =>
      unfold Value.callMethod
      dsimp only
      split
      · exact (consult _).seq fun _ => newUnchecked _
      · refine (consultAt _).seq fun answer => ?_
        split
        · exact untested answer
        · exact pure answer
  | number x => exact (consultAt _).seq untested
  | bigint n =>
      unfold Value.callMethod
      dsimp only
      split
      · exact untested _
      · exact hcall _ args method loc
  | undefined => exact hmember _
  | null => exact hmember _
  | bool b => exact hmember _
  | object place => exact hmember _
  | function place => exact hmember _
  | native f => exact hmember _

end Callbacks

end KeepsLimit

end StepTrace
