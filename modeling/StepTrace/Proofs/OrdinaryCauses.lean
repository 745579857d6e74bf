import StepTrace.Builtin.NativeCall

/-!
# Ordinary causes

Reading and changing containers, operators, methods and conversions refuse what a program asks
for in many ways. In no way do they find a literal of the program wrong or the stack of calls
full: the causes that they give are ordinary.

* `Cause.Ordinary`: the causes that a question can be refused for.
* `Refuses`: an answer that is refused for an ordinary cause only.
-/

namespace StepTrace

/-- Neither a literal that writes no integer nor too many calls. -/
def Cause.Ordinary : Cause → Prop
  | .integerLiteral _ | .callDepth => False
  | _ => True

/-- If the answer is refused, the cause is an ordinary one. -/
def Refuses {α : Type} (answer : Except Cause α) : Prop :=
  ∀ cause, answer = .error cause → cause.Ordinary

namespace Refuses

variable {α β : Type} {m : Except Cause α} {f : α → Except Cause β} {a : α} {cause : Cause}

theorem ok : Refuses (.ok a : Except Cause α) := by
  rintro cause ⟨⟩

theorem pure : Refuses (pure a : Except Cause α) :=
  ok

theorem error (h : cause.Ordinary) : Refuses (.error cause : Except Cause α) := by
  rintro _ ⟨⟩
  exact h

theorem bind (hm : Refuses m) (hf : ∀ a, Refuses (f a)) : Refuses (m >>= f) := by
  cases m with
  | error cause => exact error (hm cause rfl)
  | ok a => exact hf a

theorem map {g : α → β} (hm : Refuses m) : Refuses (g <$> m) := by
  cases m with
  | error cause => exact error (hm cause rfl)
  | ok a => exact ok

theorem ite {c : Prop} [Decidable c] {m' : Except Cause α} (hm : Refuses m) (hm' : Refuses m') :
    Refuses (if c then m else m') := by
  split
  · exact hm
  · exact hm'

end Refuses

/-! ## Limits -/

theorem Limit.refuses_checkArray (length : Nat) : Refuses (checkArray length) :=
  .ite (.error trivial) .ok

theorem Limit.refuses_checkString (bytes : Nat) : Refuses (checkString bytes) :=
  .ite (.error trivial) .ok

theorem Limit.refuses_checkBits (bits : Nat) : Refuses (checkBits bits) :=
  .ite (.error trivial) .ok

namespace Value

/-! ## Operators -/

theorem refuses_bigintPower (base exponent : Int) : Refuses (bigintPower base exponent) := by
  refine .ite (.error trivial) (.ite (.error trivial) (.ite ?_ (.ite .pure .pure)))
  exact .bind (Limit.refuses_checkBits _) fun _ => .pure

theorem refuses_shiftAmount (n : Int) : Refuses (shiftAmount n) :=
  .ite (.error trivial) .ok

theorem refuses_bigintArithmetic (op : Syntax.StrictOp) (a b : Int) :
    Refuses (bigintArithmetic op a b) := by
  unfold bigintArithmetic
  split
  · exact .pure
  · exact .pure
  · exact .bind (Limit.refuses_checkBits _) fun _ => .pure
  · exact .ite (.error trivial) .pure
  · exact .ite (.error trivial) .pure
  · exact refuses_bigintPower a b

theorem refuses_arithmetic (heap : Heap) (op : Syntax.StrictOp) (a b : Value) :
    Refuses (arithmetic heap op a b) := by
  unfold arithmetic
  split
  · exact .map (refuses_bigintArithmetic _ _ _)
  · exact .error trivial
  · exact .error trivial
  · exact .ok

theorem refuses_add (heap : Heap) (a b : Value) : Refuses (add heap a b) :=
  .ite (.bind (Limit.refuses_checkString _) fun _ => .pure) (refuses_arithmetic heap .add a b)

theorem refuses_bigintBitwise (op : Syntax.StrictOp) (a b : Int) :
    Refuses (bigintBitwise op a b) := by
  unfold bigintBitwise
  split
  · exact .pure
  · exact .pure
  · exact .pure
  · refine .bind (refuses_shiftAmount b) fun amount => ?_
    exact .bind (Limit.refuses_checkBits _) fun _ => .pure
  · exact .bind (refuses_shiftAmount b) fun amount => .pure

theorem refuses_bitwise (heap : Heap) (op : Syntax.StrictOp) (a b : Value) :
    Refuses (bitwise heap op a b) := by
  unfold bitwise
  split
  · exact .map (refuses_bigintBitwise _ _ _)
  · exact .error trivial
  · exact .error trivial
  · exact .ok

theorem refuses_binary (heap : Heap) (op : Syntax.StrictOp) (a b : Value) :
    Refuses (binary heap op a b) := by
  cases op
  case add => exact refuses_add heap a b
  case sub => exact refuses_arithmetic heap _ a b
  case mul => exact refuses_arithmetic heap _ a b
  case div => exact refuses_arithmetic heap _ a b
  case mod => exact refuses_arithmetic heap _ a b
  case pow => exact refuses_arithmetic heap _ a b
  case bitAnd => exact refuses_bitwise heap _ a b
  case bitOr => exact refuses_bitwise heap _ a b
  case bitXor => exact refuses_bitwise heap _ a b
  case shiftLeft => exact refuses_bitwise heap _ a b
  case shiftRight => exact refuses_bitwise heap _ a b
  all_goals exact .ok

theorem refuses_plus (heap : Heap) (value : Value) : Refuses (plus heap value) := by
  cases value with
  | bigint n => exact .error trivial
  | _ => exact .ok

/-! ## Properties -/

theorem refuses_member (heap : Heap) (container : Value) (name : String) :
    Refuses (member heap container name) := by
  cases container with
  | array place => exact .ite .ok .ok
  | undefined => exact .error trivial
  | null => exact .error trivial
  | _ => exact .ok

theorem refuses_indexed (heap : Heap) (container key : Value) :
    Refuses (indexed heap container key) := by
  unfold indexed
  split
  · split
    · exact .ok
    · exact refuses_member _ _ _
  · split
    · exact .ok
    · exact refuses_member _ _ _
  · exact refuses_member _ _ _

theorem refuses_setItem (heap : Heap) (array position : Nat) (value : Value) :
    Refuses (setItem heap array position value) :=
  .ite (.bind (Limit.refuses_checkArray _) fun _ => .pure) .pure

theorem refuses_setLength (heap : Heap) (array : Nat) (value : Value) :
    Refuses (setLength heap array value) := by
  have hrest : Refuses (do
      Limit.checkArray (Number.toCount (value.toNumber heap))
      pure (Write.length array (Number.toCount (value.toNumber heap)))) :=
    .bind (Limit.refuses_checkArray _) fun _ => .pure
  refine .ite (.bind ?_ fun _ => hrest) hrest
  exact .error trivial

theorem refuses_setMember (heap : Heap) (container : Value) (name : String) (value : Value) :
    Refuses (setMember heap container name value) := by
  cases container with
  | array place =>
      refine .ite (refuses_setLength heap place value) ?_
      split
      · exact refuses_setItem _ _ _ _
      · exact .ok
  | undefined => exact .error trivial
  | null => exact .error trivial
  | _ => exact .ok

theorem refuses_setIndexed (heap : Heap) (container key value : Value) :
    Refuses (setIndexed heap container key value) := by
  unfold setIndexed
  split
  · split
    · exact refuses_setItem _ _ _ _
    · exact refuses_setMember _ _ _ _
    · exact .ok
  · exact refuses_setMember _ _ _ _

theorem refuses_elements (heap : Heap) (value : Value) : Refuses (elements heap value) := by
  cases value with
  | array place => exact .ok
  | string s => exact .ok
  | _ => exact .error trivial

theorem refuses_firstElements (heap : Heap) (value : Value) (count : Nat) :
    Refuses (firstElements heap value count) :=
  .bind (refuses_elements heap value) fun _ => .pure

end Value

namespace Builtin

/-! ## Methods and provided functions -/

theorem refuses_joined (heap : Heap) (items : Array Value) (separator : String) :
    Refuses (joined heap items separator) :=
  .bind (Limit.refuses_checkString _) fun _ => .pure

theorem refuses_repeatText (s : String) (count : Float) : Refuses (repeatText s count) := by
  unfold repeatText
  split
  · rename_i n _
    have hrest : Refuses (do
        if s.isEmpty then return ""
        Limit.checkString (n.toNat * s.utf8ByteSize)
        return String.join (List.replicate n.toNat s)) :=
      .ite .pure (.bind (Limit.refuses_checkString _) fun _ => .pure)
    refine .ite (.bind ?_ fun _ => hrest) hrest
    exact .error trivial
  · refine .ite .pure ?_
    exact .error trivial

theorem refuses_concatTexts (s : String) (texts : List String) :
    Refuses (concatTexts s texts) := by
  induction texts generalizing s with
  | nil => exact .pure
  | cons t rest ih => exact .bind (Limit.refuses_checkString _) fun _ => ih _

theorem refuses_stringMethod (heap : Heap) (s method : String) (args : List Value) :
    Refuses (stringMethod heap s method args) := by
  unfold stringMethod
  dsimp only
  split
  case h_13 => exact .map (refuses_repeatText s _)
  case h_14 => exact .map (refuses_concatTexts s _)
  case h_16 => exact .error trivial
  all_goals exact .ok

theorem refuses_fixedNumber (x : Float) (places : Option Int) :
    Refuses (fixedNumber x places) := by
  unfold fixedNumber
  split
  · exact .error trivial
  · refine .ite (.error trivial) ?_
    split
    · exact .ok
    · exact .ok

theorem refuses_numberMethod (heap : Heap) (x : Float) (method : String) (args : List Value) :
    Refuses (numberMethod heap x method args) := by
  unfold numberMethod
  split
  · exact .map (refuses_fixedNumber x _)
  · exact .ite (.error trivial) .ok
  · exact .error trivial

theorem refuses_statedLength (heap : Heap) (fields : Fields) :
    Refuses (statedLength heap fields) := by
  refine .ite (.bind ?_ fun _ => ?_) ?_
  · exact .error trivial
  · exact .bind (Limit.refuses_checkArray _) fun _ => .pure
  · exact .bind (Limit.refuses_checkArray _) fun _ => .pure

theorem refuses_sourceElements (heap : Heap) (source : Value) :
    Refuses (sourceElements heap source) := by
  unfold sourceElements
  split
  · exact Value.refuses_elements heap _
  · exact Value.refuses_elements heap _
  · exact .bind (refuses_statedLength heap _) fun _ => .pure
  · exact .ok

theorem refuses_stringify (heap : Heap) (value : Value) : Refuses (stringify heap value) := by
  refine .ite .ok ?_
  split
  · exact .ok
  · exact .error trivial

theorem refuses_toBigint (heap : Heap) (value : Value) : Refuses (toBigint heap value) := by
  unfold toBigint
  split
  · exact .ok
  · exact .ok
  · split
    · exact .ite .ok (.error trivial)
    · exact .error trivial
  · split
    · exact .ok
    · split
      · exact .ok
      · exact .error trivial
  · exact .error trivial

end Builtin

end StepTrace
