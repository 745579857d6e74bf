import StepTrace.Proofs.StringLimit
import StepTrace.Proofs.StringLiterals
import StepTrace.Proofs.Upkeep

/-!
# Operations on strings and their limit

In a state in which all values are short, every operation that the language provides ends with a
short value and leaves all values short, as long as those are that are made without a check. The
arguments of a call have to be short, and so is what a callback is called with.

* `stringUpkeep`: the limit as something that a run keeps up.
* `KeepsShort.arrayMethod`, `KeepsShort.nativeCall`, `KeepsShort.callMethod`: what calls keep up.
-/

namespace StepTrace

open Syntax (Location)

/-- The texts are short as strings. -/
def ShortTexts (texts : List String) : Prop :=
  ∀ text ∈ texts, (Value.string text).Short

theorem ShortTexts.append_iff {texts texts' : List String} :
    ShortTexts (texts ++ texts') ↔ ShortTexts texts ∧ ShortTexts texts' :=
  List.forall_mem_append

/-- The value that the event tells of is short. -/
def Event.Short : Event → Prop
  | .returned value | .untested value => value.Short
  | _ => True

/-- If a value was made without a check, it is short. -/
def Moment.Tested (moment : Moment) : Prop :=
  ∀ value, moment.event = .untested value → value.Short

/-- All values and all literals are short, as long as those are that were not checked. -/
def stringUpkeep : Upkeep where
  OfEnv := (·.Stores Value.Short)
  OfHeap := (·.Stores Value.Short)
  OfEvent := Event.Short
  OfClosure closure := ShortTexts (Syntax.functionTexts closure.function)
  Fits := Moment.Tested
  changed := trivial

/-- The computation ends with a short value and leaves all values short. -/
abbrev KeepsShort (known : Prop) (m : Eval Value) : Prop :=
  stringUpkeep.Keeps known Value.Short m

/-- Calls with short arguments end with short values. -/
def ShortCalls (call : Caller) : Prop :=
  ∀ f args callee loc, KeepsShort (∀ arg ∈ args, arg.Short) (call f args callee loc)

namespace KeepsShort

variable {known : Prop} {loc : Location}

/-- Nothing is known of the state. -/
theorem look {α : Type} (question : Heap → α) :
    stringUpkeep.Keeps known (fun _ => True) (Eval.consult question) :=
  .consult fun _ _ _ => trivial

/-- Nothing is known of the state, nor of what is admitted. -/
theorem lookAt {α : Type} (question : Heap → Except Cause α) :
    stringUpkeep.Keeps known (fun _ => True) (Eval.consultAt loc question) :=
  .consultAt fun _ _ _ _ _ => trivial

theorem allowing {α : Type} (admitted : Except Cause α) :
    stringUpkeep.Keeps known (fun _ => True) (Eval.allow loc admitted) :=
  .allow fun _ _ _ => trivial

/-- A value that is made without a check is short if it is so on record. -/
theorem untested (value : Value) : KeepsShort known (Eval.untested value) :=
  fun s _ => .record (.untested value) (by simp [State.record]) id fun _ hs hfits =>
    ⟨hs.env, hs.heap, hfits value rfl, hfits value rfl⟩

theorem newArray {items : Array Value} (h : known → ∀ item ∈ items, item.Short) :
    KeepsShort known (Eval.newArray items) :=
  Upkeep.Keeps.newArray (fun hknown _ hheap => Heap.Stores.addArray hheap (h hknown))
    fun _ => trivial

theorem newUnchecked {items : Array Value} (h : known → ∀ item ∈ items, item.Short) :
    KeepsShort known (Eval.newUnchecked items) := by
  refine (look _).bind fun place => ?_
  refine (Upkeep.Keeps.changeHeap fun hknown _ hheap => ?_).bind fun _ => ?_
  · exact Heap.Stores.addArray hheap (h hknown.1)
  · have hrecord : stringUpkeep.Keeps ((known ∧ True) ∧ True) (fun _ => True)
        (Eval.unchecked place) := .record (fun _ => trivial) fun _ => trivial
    exact hrecord.bind fun _ => .pure fun _ => trivial

theorem newObject {fields : Fields}
    (h : known → ∀ (name : String) value, fields[name]? = some value → value.Short) :
    KeepsShort known (Eval.newObject fields) :=
  Upkeep.Keeps.newObject (fun hknown _ hheap => Heap.Stores.addObject hheap (h hknown))
    fun _ => trivial

theorem changed (array : Nat) {change : Array Value → Array Value}
    (h : known → ∀ items, (∀ item ∈ items, item.Short) → ∀ item ∈ change items, item.Short) :
    KeepsShort known (Builtin.changed array change) :=
  Upkeep.Keeps.changed array
    (fun hknown _ hheap => Heap.Stores.onArray hheap (h hknown _ (hheap.items array))) trivial

theorem changeArray (array : Nat) {change : Array Value → Array Value}
    (h : known → ∀ items, (∀ item ∈ items, item.Short) → ∀ item ∈ change items, item.Short) :
    stringUpkeep.Keeps known (fun _ => True) (Eval.changeHeap (·.onArray array change)) :=
  .changeHeap fun hknown _ hheap => Heap.Stores.onArray hheap (h hknown _ (hheap.items array))

theorem lengthened (array extra : Nat) {change : Array Value → Array Value}
    (h : known → ∀ items, (∀ item ∈ items, item.Short) → ∀ item ∈ change items, item.Short) :
    KeepsShort known (Builtin.lengthened array extra loc change) := by
  refine (look _).bind fun length => (allowing _).bind fun _ => ?_
  refine (changeArray array fun hknown => h hknown.1.1).bind fun _ => .pure fun _ => trivial

end KeepsShort

/-! ## Methods of arrays -/

namespace Builtin

theorem short_argument {args : List Value} (h : ∀ arg ∈ args, arg.Short) (k : Nat) :
    (argument args k).Short := by
  unfold argument
  cases hfound : args[k]? with
  | none => trivial
  | some value => exact h value (List.mem_of_getElem? hfound)

theorem short_spreadValue {heap : Heap} (h : heap.Stores Value.Short) {value : Value}
    (hvalue : value.Short) : ∀ item ∈ spreadValue heap value, item.Short := by
  unfold spreadValue
  split
  · exact h.items _
  · intro item hitem
    obtain rfl := Array.mem_singleton.mp hitem
    exact hvalue

theorem short_appended {heap : Heap} (h : heap.Stores Value.Short) {items : Array Value}
    (hitems : ∀ item ∈ items, item.Short) {values : List Value}
    (hvalues : ∀ value ∈ values, value.Short) :
    ∀ item ∈ values.foldl (fun items value => items ++ spreadValue heap value) items,
      item.Short := by
  induction values generalizing items with
  | nil => exact hitems
  | cons value rest ih =>
      obtain ⟨hvalue, hrest⟩ := List.forall_mem_cons.mp hvalues
      refine ih (fun item hitem => ?_) hrest
      exact (Array.mem_append.mp hitem).elim (hitems item) (short_spreadValue h hvalue item)

theorem short_filled {items : Array Value} (h : ∀ item ∈ items, item.Short) {value : Value}
    (hvalue : value.Short) (start stop : Nat) :
    ∀ item ∈ filled items value start stop, item.Short := by
  intro item hitem
  obtain ⟨k, hk, rfl⟩ := Array.mem_mapIdx.mp hitem
  split
  · exact hvalue
  · exact h _ (Array.getElem_mem hk)

theorem short_spliced {items : List Value} (h : ∀ item ∈ items, item.Short) (start count : Nat)
    {inserted : List Value} (hinserted : ∀ item ∈ inserted, item.Short) :
    (∀ item ∈ (spliced items start count inserted).1, item.Short) ∧
      ∀ item ∈ (spliced items start count inserted).2, item.Short := by
  refine ⟨fun item hitem => ?_, fun item hitem => ?_⟩
  · exact h item (List.mem_of_mem_drop (List.mem_of_mem_take hitem))
  · rcases List.mem_append.mp hitem with hitem | hitem
    · rcases List.mem_append.mp hitem with hitem | hitem
      · exact h item (List.mem_of_mem_take hitem)
      · exact hinserted item hitem
    · exact h item (List.mem_of_mem_drop (List.mem_of_mem_drop hitem))

/-- The answer of a search before its end is an element or no string. -/
theorem Search.short_answer {method : Search} {index : Nat} {item result answer : Value}
    (hitem : item.Short) (h : method.answer? index item result = Option.some answer) :
    answer.Short := by
  unfold answer? at h
  split at h
  all_goals first
    | (split at h <;> cases h <;> first | exact hitem | trivial)
    | cases h

theorem Search.short_keep {method : Search} {item result : Value} (hitem : item.Short)
    (hresult : result.Short) : ∀ kept ∈ method.keep item result, kept.Short := by
  intro kept hkept
  unfold keep at hkept
  split at hkept
  · obtain rfl := List.mem_singleton.mp hkept
    exact hresult
  · split at hkept
    · obtain rfl := List.mem_singleton.mp hkept
      exact hitem
    · cases hkept
  · cases hkept

end Builtin

namespace KeepsShort

open Builtin

variable {known : Prop} {loc : Location}

/-- The elements of an array that is looked at are short. -/
theorem items (array : Nat) :
    stringUpkeep.Keeps known (fun items => ∀ item ∈ items, item.Short)
      (Eval.consult (·.items array)) :=
  .consult fun _ _ hheap => hheap.items array

section Callbacks

variable {call : Caller} (hcall : ShortCalls call)
include hcall

omit hcall in
theorem searchContinue {apply : Value → Nat → Eval Value}
    (h : ∀ item index, KeepsShort item.Short (apply item index)) (method : Search) (index : Nat)
    (kept : Array Value) (items : List Value) :
    KeepsShort ((∀ value ∈ kept, value.Short) ∧ ∀ item ∈ items, item.Short)
      (method.continue apply index kept items) := by
  induction items generalizing index kept with
  | nil =>
      cases method
      case map | filter => exact newArray And.left
      all_goals exact .pure fun _ => trivial
  | cons item rest ih =>
      have hresult := (h item index).under
        fun hknown : (∀ value ∈ kept, value.Short) ∧ ∀ value ∈ item :: rest, value.Short =>
          hknown.2 item List.mem_cons_self
      refine hresult.bind fun result => ?_
      split
      case h_1 answer hanswer =>
        exact .pure fun hknown => Search.short_answer (hknown.1.2 item List.mem_cons_self) hanswer
      case h_2 =>
        refine (ih (index + 1) _).under fun hknown => ?_
        obtain ⟨⟨hkept, hitems⟩, hresult⟩ := hknown
        obtain ⟨hitem, hrest⟩ := List.forall_mem_cons.mp hitems
        refine ⟨fun value hvalue => ?_, hrest⟩
        rw [← Array.mem_toList_iff, Array.toList_appendList] at hvalue
        rcases List.mem_append.mp hvalue with hvalue | hvalue
        · exact hkept value (Array.mem_toList_iff.mp hvalue)
        · exact Search.short_keep hitem hresult value hvalue

theorem searchRun (method : Search) (array : Nat) (args : List Value) :
    KeepsShort known (method.run call array args loc) := by
  unfold Search.run
  dsimp only
  split
  · exact (look _).bind fun _ => .raise _ _
  · refine (items array).bind fun items => ?_
    have happly (item : Value) (index : Nat) : KeepsShort item.Short
        (call (argument args 0) [item, .ofCount index, .array array] method.name loc) :=
      (hcall _ _ _ loc).under (by simp)
    have hsearch := searchContinue happly method 0 #[] items.toList
    refine hsearch.under fun hknown => ⟨by simp, ?_⟩
    exact fun item hitem => hknown.2 item (Array.mem_toList_iff.mp hitem)

omit hcall in
theorem reduceFrom {apply : Value → Value → Nat → Eval Value}
    (h : ∀ value item index, KeepsShort (value.Short ∧ item.Short) (apply value item index))
    (index : Nat) (value : Value) (items : List Value) :
    KeepsShort (value.Short ∧ ∀ item ∈ items, item.Short)
      (Builtin.reduceFrom apply index value items) := by
  induction items generalizing index value with
  | nil => exact .pure And.left
  | cons item rest ih =>
      have hnext := (h value item index).under
        fun hknown : value.Short ∧ ∀ other ∈ item :: rest, other.Short =>
          ⟨hknown.1, hknown.2 item List.mem_cons_self⟩
      refine hnext.bind fun next => (ih (index + 1) next).under fun hknown => ?_
      exact ⟨hknown.2, (List.forall_mem_cons.mp hknown.1.2).2⟩

theorem reduce (array : Nat) (args : List Value) :
    KeepsShort (∀ arg ∈ args, arg.Short) (Builtin.reduce call array args loc) := by
  have happly (value item : Value) (index : Nat) : KeepsShort (value.Short ∧ item.Short)
      (call (argument args 0) [value, item, .ofCount index, .array array] "reduce callback" loc) :=
    (hcall _ _ _ loc).under (by simp)
  refine (items array).bind fun items => ?_
  split
  case h_1 start hstart =>
    refine (reduceFrom happly 0 start items.toList).under fun hknown => ⟨?_, ?_⟩
    · exact hknown.1 start (List.mem_of_getElem? hstart)
    · exact fun item hitem => hknown.2 item (Array.mem_toList_iff.mp hitem)
  case h_2 first rest hnone hitems =>
    refine (reduceFrom happly 1 first rest).under fun hknown => ?_
    refine List.forall_mem_cons.mp fun item hitem => hknown.2 item (Array.mem_toList_iff.mp ?_)
    rwa [hitems]
  case h_3 => exact .raise _ _

theorem arrayMethod (array : Nat) (method : String) (args : List Value) :
    KeepsShort (∀ arg ∈ args, arg.Short) (Builtin.arrayMethod call array method args loc) := by
  unfold Builtin.arrayMethod
  split
  case h_1 =>
    refine lengthened array _ fun hargs items hitems item hitem => ?_
    rw [← Array.mem_toList_iff, Array.toList_appendList] at hitem
    exact (List.mem_append.mp hitem).elim
      (fun hitem => hitems item (Array.mem_toList_iff.mp hitem)) (hargs item)
  case h_2 =>
    refine lengthened array _ fun hargs items hitems item hitem => ?_
    exact (Array.mem_append.mp hitem).elim
      (fun hitem => hargs item (List.mem_toArray.mp hitem)) (hitems item)
  case h_3 =>
    have hlast : stringUpkeep.Keeps (∀ arg ∈ args, arg.Short) Value.Short
        (Eval.consult fun heap => (heap.items array).back?.getD .undefined) := by
      refine .consult fun _ heap hheap => ?_
      cases hfound : (heap.items array).back? with
      | none => trivial
      | some last => exact hheap.items array last (Array.mem_of_back? hfound)
    refine hlast.bind fun last => (changeArray array fun _ items hitems item hitem => ?_).bind
      fun _ => .pure fun hknown => hknown.1.2
    rw [← Array.mem_toList_iff, Array.toList_pop] at hitem
    exact hitems item (Array.mem_toList_iff.mp ((List.dropLast_sublist _).subset hitem))
  case h_4 =>
    have hfirst : stringUpkeep.Keeps (∀ arg ∈ args, arg.Short) Value.Short
        (Eval.consult fun heap => (heap.items array)[0]?.getD .undefined) :=
      .consult fun _ heap hheap => Value.short_item hheap array 0
    refine hfirst.bind fun first => (changeArray array fun _ items hitems item hitem => ?_).bind
      fun _ => .pure fun hknown => hknown.1.2
    unfold Array.eraseIdxIfInBounds at hitem
    split at hitem
    · exact hitems item (Array.mem_of_mem_eraseIdx hitem)
    · exact hitems item hitem
  case h_5 =>
    refine (look _).bind fun (start, stop) => changed array fun hknown items hitems => ?_
    exact short_filled hitems (short_argument hknown.1 0) start stop
  case h_6 =>
    have hpart : stringUpkeep.Keeps (∀ arg ∈ args, arg.Short)
        (fun part => ∀ item ∈ part, item.Short)
        (Eval.consult fun heap =>
          let items := heap.items array
          items.extract (relativePosition heap args 0 items.size 0)
            (relativePosition heap args 1 items.size items.size)) :=
      .consult fun _ heap hheap item hitem => hheap.items array item (mem_of_mem_extract hitem)
    exact hpart.bind fun part => newArray And.right
  case h_7 =>
    have hparts : stringUpkeep.Keeps (∀ arg ∈ args, arg.Short)
        (fun parts : List Value × List Value => (∀ item ∈ parts.1, item.Short) ∧
          ∀ item ∈ parts.2, item.Short)
        (Eval.consult fun heap =>
          let items := heap.items array
          let start := relativePosition heap args 0 items.size 0
          spliced items.toList start (spliceCount heap args items.size start) (args.drop 2)) := by
      refine .consult fun hargs heap hheap => ?_
      refine short_spliced (fun item hitem => ?_) _ _ fun arg harg => ?_
      · exact hheap.items array item (Array.mem_toList_iff.mp hitem)
      · exact hargs arg (List.mem_of_mem_drop harg)
    refine hparts.bind fun (removed, left) => ?_
    refine (changeArray array fun hknown _ _ item hitem => ?_).bind fun _ => ?_
    · exact hknown.2.2 item (List.mem_toArray.mp hitem)
    · have hrecord : stringUpkeep.Keeps True (fun _ => True) (Eval.unchecked array) :=
        .record (fun _ => trivial) fun _ => trivial
      refine hrecord.seq fun _ => newArray fun hknown item hitem => ?_
      exact hknown.1.2.1 item (List.mem_toArray.mp hitem)
  case h_8 | h_9 => exact .consult fun _ _ _ => short_foundAt _
  case h_10 => exact .consult fun _ _ _ => trivial
  case h_11 | h_12 =>
    refine .consultAt fun _ heap _ value h => ?_
    rw [joined_eq] at h
    exact Value.short_of_admitted h
  case h_13 =>
    exact changed array fun _ items hitems item hitem => hitems item (Array.mem_reverse.mp hitem)
  case h_14 =>
    refine (items array).bind fun items => ?_
    have hcompare (f a b : Value) (callee : String) :
        stringUpkeep.Keeps (a.Short ∧ b.Short) (fun _ => True) (call f [a, b] callee loc) :=
      (hcall f [a, b] callee loc).mono (by simp) fun _ _ _ => trivial
    have hsort := Upkeep.keeps_sortValues hcompare (given? args 0) items.toList
    refine (hsort.under (fun hknown item hitem => ?_)).bind fun sorted =>
      changed array fun hknown _ _ item hitem => ?_
    · exact hknown.2 item (Array.mem_toList_iff.mp hitem)
    · have hitem' := hknown.2.mem_iff.mp (List.mem_toArray.mp hitem)
      exact hknown.1.2 item (Array.mem_toList_iff.mp hitem')
  case h_15 =>
    refine (look _).seq fun length => (allowing _).seq fun _ => ?_
    have hitems : stringUpkeep.Keeps (∀ arg ∈ args, arg.Short)
        (fun items => ∀ item ∈ items, item.Short)
        (Eval.consult fun heap =>
          args.foldl (fun items value => items ++ spreadValue heap value) (heap.items array)) :=
      .consult fun hargs heap hheap => short_appended hheap (hheap.items array) hargs
    exact hitems.bind fun items => newArray And.right
  case h_16 =>
    refine .consult fun _ heap hheap => ?_
    dsimp only
    cases positionFromEnd? (numberArgument heap args 0) (heap.items array).size with
    | none => trivial
    | some k => exact Value.short_item hheap array k
  case h_17 => exact reduce hcall array args
  case h_18 =>
    split
    · exact searchRun hcall _ array args
    · exact .raise _ _

/-! ## Provided functions and methods -/

omit hcall in
theorem makeArray (args : List Value) :
    KeepsShort (∀ arg ∈ args, arg.Short) (Builtin.makeArray args loc) := by
  unfold Builtin.makeArray
  split
  case h_1 x =>
    split
    · exact .raise _ _
    · refine (allowing _).seq fun _ => newArray fun _ item hitem => ?_
      obtain rfl := (Array.mem_replicate.mp hitem).2
      trivial
  case h_2 => exact newUnchecked fun hargs item hitem => hargs item (List.mem_toArray.mp hitem)

omit hcall in
theorem short_sourceElements {heap : Heap} (hheap : heap.Stores Value.Short) {source : Value}
    {items : Array Value} (h : sourceElements heap source = .ok items) :
    ∀ item ∈ items, item.Short := by
  unfold sourceElements at h
  split at h
  case h_1 => exact Value.short_elements hheap h
  case h_2 => exact Value.short_elements hheap h
  case h_3 place =>
    cases hlength : statedLength heap (heap.fields place) with
    | error cause =>
        rw [hlength] at h
        cases h
    | ok length =>
        rw [hlength] at h
        cases h
        intro item hitem
        obtain rfl := (Array.mem_replicate.mp hitem).2
        trivial
  case h_4 =>
    cases h
    simp

omit hcall in
theorem mapFrom {apply : Value → Nat → Eval Value}
    (h : ∀ item index, KeepsShort item.Short (apply item index)) (index : Nat)
    (results : Array Value) (items : List Value) :
    stringUpkeep.Keeps ((∀ value ∈ results, value.Short) ∧ ∀ item ∈ items, item.Short)
      (fun mapped => ∀ value ∈ mapped, value.Short)
      (Builtin.mapFrom apply index results items) := by
  induction items generalizing index results with
  | nil => exact .pure And.left
  | cons item rest ih =>
      have hresult := (h item index).under
        fun hknown : (∀ value ∈ results, value.Short) ∧ ∀ value ∈ item :: rest, value.Short =>
          hknown.2 item List.mem_cons_self
      refine hresult.bind fun result => (ih _ _).under fun hknown => ⟨fun value hvalue => ?_, ?_⟩
      · rcases Array.mem_push.mp hvalue with hvalue | rfl
        · exact hknown.1.1 value hvalue
        · exact hknown.2
      · exact (List.forall_mem_cons.mp hknown.1.2).2

theorem mapped (mapper : Option Value) (items : Array Value) :
    stringUpkeep.Keeps (∀ item ∈ items, item.Short) (fun mapped => ∀ value ∈ mapped, value.Short)
      (Builtin.mapped call mapper loc items) := by
  cases mapper with
  | none => exact .pure id
  | some mapper =>
      have happly (item : Value) (index : Nat) : KeepsShort item.Short
          (call mapper [item, .ofCount index] "Array.from mapper" loc) :=
        (hcall _ _ _ loc).under (by simp)
      refine (mapFrom happly 0 #[] items.toList).under
        fun hitems => ⟨by simp, fun item hitem => ?_⟩
      exact hitems item (Array.mem_toList_iff.mp hitem)

theorem arrayFrom (args : List Value) : KeepsShort known (Builtin.arrayFrom call args loc) := by
  have hsource : stringUpkeep.Keeps known (fun items => ∀ item ∈ items, item.Short)
      (Eval.consultAt loc fun heap => sourceElements heap (argument args 0)) :=
    .consultAt fun _ _ hheap _ h => short_sourceElements hheap h
  refine hsource.bind fun items => ?_
  refine ((mapped hcall _ items).under And.right).bind fun elements => ?_
  split
  · exact newUnchecked And.right
  · exact newArray And.right

omit hcall in
theorem listFrom (what : Listing) (shown : Array Value) (fields : List (String × Value)) :
    stringUpkeep.Keeps ((∀ value ∈ shown, value.Short) ∧ ∀ field ∈ fields, field.2.Short)
      (fun shown => ∀ value ∈ shown, value.Short) (Builtin.listFrom what shown fields) := by
  induction fields generalizing shown with
  | nil => exact .pure And.left
  | cons field rest ih =>
      have hentry : KeepsShort ((∀ value ∈ shown, value.Short) ∧
          ∀ other ∈ field :: rest, other.2.Short) (listed what field.1 field.2) := by
        cases what with
        | keys => exact untested _
        | values => exact .pure fun hknown => hknown.2 field List.mem_cons_self
        | entries =>
            refine (untested _).bind fun name => newArray fun hknown => ?_
            obtain ⟨⟨-, hfields⟩, hname⟩ := hknown
            simpa using ⟨hname, hfields field List.mem_cons_self⟩
      refine hentry.bind fun entry => (ih _).under fun hknown => ⟨fun value hvalue => ?_, ?_⟩
      · rcases Array.mem_push.mp hvalue with hvalue | rfl
        · exact hknown.1.1 value hvalue
        · exact hknown.2
      · exact (List.forall_mem_cons.mp hknown.1.2).2

omit hcall in
theorem listing (what : Listing) (value : Value) :
    KeepsShort known (Builtin.listing what value) := by
  refine Upkeep.Keeps.bind (?_ : stringUpkeep.Keeps known
    (fun fields : List (String × Value) => ∀ field ∈ fields, field.2.Short) _) fun fields => ?_
  · refine .consult fun _ heap hheap field hfield => ?_
    split at hfield
    · exact hheap.fields _ field.1 field.2 (Std.TreeMap.mem_toList_iff_getElem?_eq_some.mp hfield)
    · cases hfield
  · refine ((listFrom what #[] fields).under (fun hknown => ⟨by simp, hknown.2⟩)).bind
      fun shown => newUnchecked And.right

omit hcall in
theorem makeError (args : List Value) : KeepsShort known (Builtin.makeError args) := by
  refine (look _).bind fun message => (untested message).bind fun message => newObject ?_
  rintro ⟨-, hmessage⟩
  refine forall_ofList fun entry hentry => ?_
  rcases List.mem_cons.mp hentry with rfl | hentry
  · exact show "Error".utf8ByteSize ≤ Limit.stringLength by decide
  · obtain rfl := List.mem_singleton.mp hentry
    exact hmessage

theorem nativeCall (f : Native) (args : List Value) :
    KeepsShort (∀ arg ∈ args, arg.Short) (f.call call args loc) := by
  have hbigint (heap : Heap) (value result : Value)
      (h : Value.bigint <$> toBigint heap value = .ok result) : result.Short := by
    cases hread : toBigint heap value with
    | error cause =>
        rw [hread] at h
        cases h
    | ok n =>
        rw [hread] at h
        cases h
        trivial
  cases f with
  | console f => exact .pure fun _ => trivial
  | math f => exact .consult fun _ _ _ => trivial
  | stringify => exact (lookAt _).bind untested
  | listing what => exact listing what _
  | array => exact makeArray args
  | arrayFrom => exact arrayFrom hcall args
  | isArray => exact .pure fun _ => trivial
  | number => exact .consult fun _ _ _ => trivial
  | isInteger => exact .pure fun _ => trivial
  | numberIsNaN => exact .pure fun _ => trivial
  | isNaN => exact .consult fun _ _ _ => trivial
  | string => exact (look _).bind untested
  | bigint => exact .consultAt fun _ heap _ _ h => hbigint heap _ _ h
  | error => exact makeError args
  | parseInt => exact .consult fun _ _ _ => trivial
  | parseFloat => exact .consult fun _ _ _ => trivial

theorem callMethod (receiver : Value) (method : String) (args : List Value) :
    KeepsShort (receiver.Short ∧ ∀ arg ∈ args, arg.Short)
      (receiver.callMethod call method args loc) := by
  have hmember (value : Value) : KeepsShort (receiver.Short ∧ ∀ arg ∈ args, arg.Short)
      (Eval.consultAt loc (fun heap => value.member heap method) >>= fun f =>
        call f args method loc) :=
    (lookAt _).seq fun f => (hcall f args method loc).under And.right
  cases receiver with
  | array place => exact (arrayMethod hcall place method args).under And.right
  | string s =>
      unfold Value.callMethod
      dsimp only
      split
      · have hpieces : stringUpkeep.Keeps ((Value.string s).Short ∧ ∀ arg ∈ args, arg.Short)
            (fun pieces => ∀ piece ∈ pieces, piece.Short)
            (Eval.consult fun heap => splitText heap s args) :=
          .consult fun hknown _ _ => short_splitText hknown.1 args
        exact hpieces.bind fun pieces => newUnchecked fun hknown piece hpiece =>
          hknown.2 piece (List.mem_toArray.mp hpiece)
      · have hanswer : stringUpkeep.Keeps ((Value.string s).Short ∧ ∀ arg ∈ args, arg.Short)
            (fun answer => changesCase method = false → answer.Short)
            (Eval.consultAt loc fun heap => stringMethod heap s method args) :=
          .consultAt fun hknown _ _ _ h hmethod => short_stringMethod hknown.1 hmethod h
        refine hanswer.bind fun answer => ?_
        split
        case isTrue => exact untested answer
        case isFalse hmethod =>
          exact .pure fun hknown => hknown.2 (Bool.eq_false_iff.mpr hmethod)
  | number x => exact (lookAt _).bind untested
  | bigint n =>
      unfold Value.callMethod
      dsimp only
      split
      · exact untested _
      · exact (hcall _ args method loc).under And.right
  | undefined => exact hmember _
  | null => exact hmember _
  | bool b => exact hmember _
  | object place => exact hmember _
  | function place => exact hmember _
  | native f => exact hmember _

end Callbacks

end KeepsShort

end StepTrace
