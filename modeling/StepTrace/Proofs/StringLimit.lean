import StepTrace.Eval.Program
import StepTrace.Proofs.StoredValues

/-!
# The limit on the length of strings

A string is as long as its text has bytes. Most of what answers with a string answers with one
that it has read, with a piece of one, or with a single character, and these are no longer than
what they come from. What puts texts together mostly asks for the length first; then the answer is
within the limit, whatever the operands are.

* `Value.Short`: a value that is no string beyond the limit.
* `Limit.checkString_eq`, `Value.add_eq`, `Builtin.joined_eq`, `Builtin.repeatText_eq` and
  `Builtin.concatTexts_eq`: what the operations that ask decide.
-/

namespace StepTrace

open Syntax (StrictOp)

/-! ## Sizes of texts -/

theorem utf8ByteSize_ofList_cons (c : Char) (cs : List Char) :
    (String.ofList (c :: cs)).utf8ByteSize = c.utf8Size + (String.ofList cs).utf8ByteSize := by
  rw [String.ofList_cons, String.utf8ByteSize_append, String.utf8ByteSize_singleton]

theorem utf8ByteSize_ofList_le {cs ds : List Char} (h : cs.Sublist ds) :
    (String.ofList cs).utf8ByteSize ≤ (String.ofList ds).utf8ByteSize := by
  induction h with
  | slnil => exact Nat.le_refl _
  | cons c _ ih =>
      rw [utf8ByteSize_ofList_cons]
      exact Nat.le_add_left_of_le ih
  | cons_cons c _ ih =>
      rw [utf8ByteSize_ofList_cons, utf8ByteSize_ofList_cons]
      exact Nat.add_le_add_left ih _

theorem utf8ByteSize_intercalate (separator : String) (parts : List String) :
    (separator.intercalate parts).utf8ByteSize =
      (parts.map String.utf8ByteSize).foldr (· + ·) 0
        + separator.utf8ByteSize * (parts.length - 1) := by
  induction parts with
  | nil => simp
  | cons part rest ih =>
      cases rest with
      | nil => simp
      | cons next rest =>
          rw [String.intercalate_cons_cons, String.utf8ByteSize_append,
            String.utf8ByteSize_append, ih]
          simp only [List.map_cons, List.foldr_cons, List.length_cons, Nat.add_sub_cancel,
            Nat.mul_succ]
          omega

theorem utf8ByteSize_join_replicate (count : Nat) (s : String) :
    (String.join (List.replicate count s)).utf8ByteSize = count * s.utf8ByteSize := by
  induction count with
  | zero => simp
  | succ count ih =>
      rw [List.replicate_succ, String.join_cons, String.utf8ByteSize_append, ih, Nat.succ_mul]
      omega

/-! ## Short values -/

/-- The value is no string that is longer than allowed. -/
def Value.Short : Value → Prop
  | .string text => text.utf8ByteSize ≤ Limit.stringLength
  | _ => True

theorem Limit.checkString_eq (bytes : Nat) :
    checkString bytes = if bytes ≤ stringLength then .ok () else .error .stringLength := by
  unfold checkString
  by_cases hbytes : bytes ≤ stringLength
  · rw [if_pos hbytes, if_neg (Nat.not_lt.mpr hbytes)]
  · rw [if_neg hbytes, if_pos (Nat.not_le.mp hbytes)]

namespace Value

@[simp]
theorem short_array (place : Nat) : (array place).Short := trivial

@[simp]
theorem short_ofCount (n : Nat) : (ofCount n).Short := trivial

theorem short_ofChar (c : Char) : (ofChar c).Short := by
  have hsize := c.utf8Size_le_four
  change c.toString.utf8ByteSize ≤ _
  rw [Char.toString_eq_singleton, String.utf8ByteSize_singleton]
  exact Nat.le_trans hsize (by decide)

theorem short_typeName (value : Value) : (Value.string value.typeName).Short := by
  have hsize : value.typeName.utf8ByteSize ≤ 9 := by
    cases value <;> exact Nat.le_of_ble_eq_true rfl
  exact Nat.le_trans hsize (by decide)

/-- A piece of a short string is short. -/
theorem Short.piece {s : String} (h : (Value.string s).Short) {cs : List Char}
    (hcs : cs.Sublist s.toList) : (Value.string (String.ofList cs)).Short := by
  have hsize := utf8ByteSize_ofList_le hcs
  rw [String.ofList_toList] at hsize
  exact Nat.le_trans hsize h

end Value

/-! ## Properties -/

theorem Native.short_member (f : Native) (name : String) : (f.member name).Short := by
  unfold member
  split <;> trivial

namespace Value

variable {heap : Heap}

theorem short_item (h : heap.Stores Short) (array position : Nat) :
    (item heap array position).Short := by
  unfold item
  cases hfound : (heap.items array)[position]? with
  | none => trivial
  | some value => exact h.items array value (Array.mem_of_getElem? hfound)

theorem short_member (h : heap.Stores Short) {container value : Value} {name : String}
    (hmember : member heap container name = .ok value) : value.Short := by
  unfold member at hmember
  split at hmember
  case h_1 array =>
    split at hmember
    · cases hmember
      trivial
    · cases hmember
      cases Number.readCount? 10 name.toList with
      | none => trivial
      | some n => exact short_item h array n
  case h_2 s =>
    cases hmember
    split
    · trivial
    · trivial
  case h_3 object =>
    cases hmember
    cases hfound : (heap.fields object)[name]? with
    | none => trivial
    | some value => exact h.fields object name value hfound
  case h_4 f =>
    cases hmember
    exact f.short_member name
  case h_5 => cases hmember
  case h_6 => cases hmember
  case h_7 =>
    cases hmember
    trivial

theorem short_indexed (h : heap.Stores Short) {container key value : Value}
    (hindexed : indexed heap container key = .ok value) : value.Short := by
  unfold indexed at hindexed
  split at hindexed
  case h_1 array =>
    split at hindexed
    · cases hindexed
      exact short_item h array _
    · exact short_member h hindexed
  case h_2 s =>
    split at hindexed
    case h_1 n _ =>
      cases hindexed
      cases s.toList[n]? with
      | none => trivial
      | some c => exact short_ofChar c
    case h_2 => exact short_member h hindexed
  case h_3 => exact short_member h hindexed

theorem short_elements (h : heap.Stores Short) {value : Value} {items : Array Value}
    (helements : elements heap value = .ok items) : ∀ item ∈ items, item.Short := by
  unfold elements at helements
  split at helements
  case h_1 array =>
    cases helements
    exact h.items array
  case h_2 s =>
    cases helements
    intro item hitem
    obtain ⟨c, -, rfl⟩ := List.mem_map.mp (List.mem_toArray.mp hitem)
    exact short_ofChar c
  case h_3 => cases helements

theorem short_firstElements (h : heap.Stores Short) {value : Value} {count : Nat}
    {items : List Value} (hfirst : firstElements heap value count = .ok items) :
    ∀ item ∈ items, item.Short := by
  unfold firstElements at hfirst
  cases helements : elements heap value with
  | error cause =>
      rw [helements] at hfirst
      cases hfirst
  | ok all =>
      rw [helements] at hfirst
      cases hfirst
      intro item hitem
      have hall := short_elements h helements
      exact Heap.Stores.forall_resize hall trivial count item (Array.mem_toList_iff.mp hitem)

theorem stores_setItem {array position : Nat} {value : Value} (hvalue : value.Short) {write : Write}
    (h : setItem heap array position value = .ok write) : write.Stores Short := by
  unfold setItem at h
  split at h
  · cases hcheck : Limit.checkArray (position + 1) with
    | error cause =>
        rw [hcheck] at h
        cases h
    | ok u =>
        rw [hcheck] at h
        cases h
        exact hvalue
  · cases h
    exact hvalue

theorem stores_setLength {array : Nat} {value : Value} {write : Write}
    (h : setLength heap array value = .ok write) : write.Stores Short := by
  unfold setLength at h
  dsimp only at h
  split at h
  · cases h
  · cases hcheck : Limit.checkArray (Number.toCount (value.toNumber heap)) with
    | error cause =>
        rw [hcheck] at h
        cases h
    | ok u =>
        rw [hcheck] at h
        cases h
        trivial

theorem stores_setMember {container value : Value} (hvalue : value.Short) {name : String}
    {write : Write} (h : setMember heap container name value = .ok write) :
    write.Stores Short := by
  unfold setMember at h
  split at h
  · split at h
    · exact stores_setLength h
    · split at h
      · exact stores_setItem hvalue h
      · cases h
        trivial
  · cases h
    exact hvalue
  · cases h
  · cases h
  · cases h
    trivial

theorem stores_setIndexed {container key value : Value} (hvalue : value.Short) {write : Write}
    (h : setIndexed heap container key value = .ok write) : write.Stores Short := by
  unfold setIndexed at h
  split at h
  · split at h
    · exact stores_setItem hvalue h
    · exact stores_setMember hvalue h
    · cases h
      trivial
  · exact stores_setMember hvalue h

/-! ## Operators -/

/-- A text that is admitted is within the limit. -/
theorem short_of_admitted {text : String} {cause : Cause} {value : Value}
    (h : (if text.utf8ByteSize ≤ Limit.stringLength then .ok (.string text) else .error cause) =
      (.ok value : Except Cause Value)) : value.Short := by
  split at h
  · cases h
    assumption
  · cases h

theorem add_eq (heap : Heap) {a b : Value} (h : a.isTextual || b.isTextual) :
    add heap a b =
      if (a.text heap ++ b.text heap).utf8ByteSize ≤ Limit.stringLength then
        .ok (.string (a.text heap ++ b.text heap))
      else .error .stringLength := by
  unfold add
  rw [if_pos h]
  dsimp only
  rw [Limit.checkString_eq, String.utf8ByteSize_append]
  split
  · rfl
  · rfl

theorem short_arithmetic {op : StrictOp} {a b value : Value}
    (h : arithmetic heap op a b = .ok value) : value.Short := by
  unfold arithmetic at h
  split at h
  case h_1 m n =>
    cases hresult : bigintArithmetic op m n with
    | error cause =>
        rw [hresult] at h
        cases h
    | ok k =>
        rw [hresult] at h
        cases h
        trivial
  case h_2 => cases h
  case h_3 => cases h
  case h_4 =>
    cases h
    trivial

theorem short_bitwise {op : StrictOp} {a b value : Value}
    (h : bitwise heap op a b = .ok value) : value.Short := by
  unfold bitwise at h
  split at h
  case h_1 m n =>
    cases hresult : bigintBitwise op m n with
    | error cause =>
        rw [hresult] at h
        cases h
    | ok k =>
        rw [hresult] at h
        cases h
        trivial
  case h_2 => cases h
  case h_3 => cases h
  case h_4 =>
    cases h
    trivial

theorem short_add {a b value : Value} (h : add heap a b = .ok value) : value.Short := by
  by_cases htextual : a.isTextual || b.isTextual
  · rw [add_eq heap htextual] at h
    exact short_of_admitted h
  · unfold add at h
    rw [if_neg htextual] at h
    exact short_arithmetic h

/-- What an operator answers is short, whatever the operands are. -/
theorem short_binary {op : StrictOp} {a b value : Value} (h : binary heap op a b = .ok value) :
    value.Short := by
  cases op
  case add => exact short_add h
  case sub | mul | div | mod | pow => exact short_arithmetic h
  case bitAnd | bitOr | bitXor | shiftLeft | shiftRight => exact short_bitwise h
  all_goals
    cases h
    trivial

theorem short_negate (heap : Heap) (value : Value) : (value.negate heap).Short := by
  unfold negate
  split <;> trivial

theorem short_plus {value result : Value} (h : value.plus heap = .ok result) : result.Short := by
  unfold plus at h
  split at h
  · cases h
  · cases h
    trivial

theorem short_bitNot (heap : Heap) (value : Value) : (value.bitNot heap).Short := by
  unfold bitNot
  split <;> trivial

end Value

/-- An update leaves a number of either kind. -/
theorem short_updated (op : Syntax.UpdateOp) (heap : Heap) (value : Value) :
    (updated op heap value).1.Short ∧ (updated op heap value).2.Short := by
  have hstepped (up : Bool) (value : Value) : (value.stepped heap up).Short := by
    unfold Value.stepped
    split <;> trivial
  have hnumeric : (value.toNumeric heap).Short := by
    unfold Value.toNumeric
    split <;> trivial
  cases op
  case incrementBefore | decrementBefore => exact ⟨hstepped _ _, hstepped _ _⟩
  case incrementAfter | decrementAfter => exact ⟨hstepped _ _, hnumeric⟩

/-! ## Methods of strings -/

namespace Builtin

variable {heap : Heap} {s : String}

theorem short_foundAt (found : Option Nat) : (foundAt found).Short := by
  cases found <;> trivial

/-- The pieces of a short string are short. -/
theorem short_splitText (hs : (Value.string s).Short) (args : List Value) :
    ∀ piece ∈ splitText heap s args, piece.Short := by
  intro piece hpiece
  unfold splitText at hpiece
  split at hpiece
  · obtain rfl := List.mem_singleton.mp hpiece
    exact hs
  · dsimp only at hpiece
    split at hpiece
    · obtain ⟨c, -, rfl⟩ := List.mem_map.mp hpiece
      exact Value.short_ofChar c
    · obtain ⟨cs, hcs, rfl⟩ := List.mem_map.mp hpiece
      exact hs.piece (Text.infix_of_mem_cut hcs).sublist

theorem repeatText_eq {count : Float} {n : Int} (hcount : Number.toInt? count = some n)
    (hn : 0 ≤ n) :
    repeatText s count =
      if (String.join (List.replicate n.toNat s)).utf8ByteSize ≤ Limit.stringLength then
        .ok (String.join (List.replicate n.toNat s))
      else .error .stringLength := by
  unfold repeatText
  rw [hcount]
  dsimp only
  rw [if_neg (Int.not_lt.mpr hn), utf8ByteSize_join_replicate]
  by_cases hempty : s.isEmpty
  · obtain rfl := String.isEmpty_iff.mp hempty
    have hnone : String.join (List.replicate n.toNat "") = "" := by
      rw [← String.utf8ByteSize_eq_zero_iff, utf8ByteSize_join_replicate, String.utf8ByteSize_empty,
        Nat.mul_zero]
    rw [if_pos hempty, hnone, String.utf8ByteSize_empty, Nat.mul_zero, if_pos (Nat.zero_le _)]
    rfl
  · rw [if_neg hempty, Limit.checkString_eq]
    split
    · rfl
    · rfl

theorem repeatText_le {count : Float} {text : String} (h : repeatText s count = .ok text) :
    text.utf8ByteSize ≤ Limit.stringLength := by
  cases hcount : Number.toInt? count with
  | none =>
      unfold repeatText at h
      rw [hcount] at h
      dsimp only at h
      split at h
      · cases h
        exact Nat.zero_le _
      · cases h
  | some n =>
      by_cases hn : 0 ≤ n
      · rw [repeatText_eq hcount hn] at h
        split at h
        · cases h
          assumption
        · cases h
      · unfold repeatText at h
        rw [hcount] at h
        dsimp only at h
        rw [if_pos (Int.not_le.mp hn)] at h
        cases h

/-- What is put together from a text and further ones is admitted if all of it is. -/
theorem concatTexts_eq (hs : s.utf8ByteSize ≤ Limit.stringLength) (texts : List String) :
    concatTexts s texts =
      if (s ++ String.join texts).utf8ByteSize ≤ Limit.stringLength then
        .ok (s ++ String.join texts)
      else .error .stringLength := by
  induction texts generalizing s with
  | nil =>
      rw [concatTexts, String.join_nil, String.append_empty, if_pos hs]
      rfl
  | cons text rest ih =>
      rw [concatTexts, Limit.checkString_eq, String.join_cons, ← String.append_assoc]
      by_cases hjoined : (s ++ text).utf8ByteSize ≤ Limit.stringLength
      · rw [if_pos hjoined]
        exact ih hjoined
      · rw [if_neg hjoined, if_neg]
        · rfl
        · rw [String.utf8ByteSize_append]
          omega

/-- What a method of a string answers is short unless it changes letters. -/
theorem short_stringMethod (hs : (Value.string s).Short) {method : String} {args : List Value}
    {value : Value} (hmethod : changesCase method = false)
    (h : stringMethod heap s method args = .ok value) : value.Short := by
  unfold stringMethod at h
  dsimp only at h
  split at h
  case h_1 =>
    cases h
    cases plainPosition? (numberArgument heap args 0) with
    | none => exact Nat.zero_le _
    | some k =>
        rw [Option.bind_some]
        cases s.toList[k]? with
        | none => exact Nat.zero_le _
        | some c => exact Value.short_ofChar c
  case h_2 =>
    cases h
    trivial
  case h_3 =>
    cases h
    cases positionFromEnd? (numberArgument heap args 0) s.toList.length with
    | none => trivial
    | some k =>
        rw [Option.bind_some]
        cases s.toList[k]? with
        | none => trivial
        | some c => exact Value.short_ofChar c
  case h_4 =>
    cases h
    exact short_foundAt _
  case h_5 | h_6 | h_7 =>
    cases h
    trivial
  case h_8 | h_9 => cases hmethod
  case h_10 =>
    cases h
    exact hs.piece (Text.infix_trim _).sublist
  case h_11 | h_12 =>
    cases h
    exact hs.piece ((List.drop_sublist _ _).trans (List.take_sublist _ _))
  case h_13 =>
    cases hrepeated : repeatText s (numberArgument heap args 0) with
    | error cause =>
        rw [hrepeated] at h
        cases h
    | ok text =>
        rw [hrepeated] at h
        cases h
        exact repeatText_le hrepeated
  case h_14 =>
    rw [concatTexts_eq hs] at h
    split at h
    · cases h
      assumption
    · cases h
  case h_15 =>
    cases h
    exact hs
  case h_16 => cases h

/-- The texts of the elements with the separator between them; empty values have none. -/
def joinedText (heap : Heap) (items : Array Value) (separator : String) : String :=
  separator.intercalate
    (items.toList.map fun item => if item.isNullish then "" else item.text heap)

theorem joined_eq (heap : Heap) (items : Array Value) (separator : String) :
    joined heap items separator =
      if (joinedText heap items separator).utf8ByteSize ≤ Limit.stringLength then
        .ok (.string (joinedText heap items separator))
      else .error .stringLength := by
  unfold joined
  dsimp only
  rw [Limit.checkString_eq, ← utf8ByteSize_intercalate]
  unfold joinedText
  split
  · rfl
  · rfl

end Builtin

end StepTrace
