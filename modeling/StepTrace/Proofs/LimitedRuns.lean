import StepTrace.Proofs.Evaluation

/-!
# Arrays of a run stay within the limit

In no state of a run an array is longer than allowed, exactly if this is so of the arrays that
the run made or replaced without asking for the length (`array_limit`). The operations that ask
refuse a length that is not allowed and leave everything as it was (`Growth.decided_run`).

The other operations do go beyond the limit: `quadrupling` is a program in which a list literal
does (`not_limited_quadrupling`).
-/

namespace StepTrace

open Syntax Capture

variable {α β : Type}

/-! ## Programs -/

theorem KeepsLimit.newClosure (f : Function) : KeepsLimit (Eval.newClosure f) :=
  Upkeep.Keeps.newClosure (fun _ => trivial) (fun _ hheap => hheap) fun _ => trivial

theorem KeepsLimit.assign (loc : Location) (name : String) (value : Value) :
    KeepsLimit (Eval.assign loc name value) := by
  refine (KeepsLimit.ask _).seq fun assignee => ?_
  split
  · exact KeepsLimit.changeEnv _
  · exact .raise _ _
  · exact .raise _ _

/-- What a program makes of the limit. -/
def ProgramConcord.limits : ProgramConcord #[] where
  Rel _ m := KeepsLimit m
  Marked _ := True
  Named _ := True
  Spelled _ := True
  Sited _ := True
  Looks _ := True
  pure := .pure
  bind hm hf := hm.seq hf
  fault _ _ := .stop _
  misspelled _ _ _ := .raise _ _
  asking _ hf := fun s hs => hf s.env s.heap s hs
  slotWrite {loc} _ value slot := by
    cases slot with
    | «variable» name => exact .assign loc name value
    | index container key => exact .write loc Value.limited_setIndexed
    | member container name => exact .write loc Value.limited_setMember
  newUnchecked := .newUnchecked
  newObject := .newObject
  newClosure _ _ := .newClosure _
  callMethod hcall receiver method args loc _ :=
    .callMethod (fun f args callee loc => hcall f args callee loc trivial) receiver method args loc
  nativeCall hcall f args loc _ :=
    .nativeCall (fun f args callee loc => hcall f args callee loc trivial) f args loc
  block h := (KeepsLimit.changeEnv _).seq fun _ => KeepsLimit.leaving _ h
  frame _ _ _ _ h := (KeepsLimit.changeEnv _).seq fun _ => KeepsLimit.leaving _ h
  exhausted := .stop _
  changeEnv _ _ := .changeEnv _
  calling _ h := by
    refine Upkeep.Keeps.seq (fun s _ => .recorded s fun _ => trivial) fun depth => ?_
    split
    · exact .raise _ _
    · exact h
  leaveWith value := .record (.returned value) (Completion.return value)
  withClosure place k k' hnone hsome := by
    refine Upkeep.Keeps.closureAt hnone fun closure _ => ?_
    have hplaced := hsome #[] closure (Or.inl rfl)
      (Confined.within ⟨fun _ _ => trivial, fun _ _ => trivial⟩ _ _)
    rwa [Closure.place, placeFunction_empty] at hplaced
  capture _ _ := .capture _ _ fun _ => trivial
  complete _ _ := .complete _ _ fun _ _ => trivial
  completeCaptured names _ _ _ _ _ _ hexec := by simp [isExecutable] at hexec

/-- A program leaves all arrays within the limit, as long as those are that it does not check. -/
theorem KeepsLimit.program (names : List String) (bound : Nat) (program : Program) :
    KeepsLimit (execProgram names bound program) := by
  have hprogram := ProgramConcord.limits.program
    (ProgramConcord.limits.settings names trivial bound) program
    (Confined.within ⟨fun _ _ => trivial, fun _ _ => trivial⟩ _ _)
  rwa [placeStmts_empty] at hprogram

theorem Native.limited_heap : Native.heap.Limited :=
  fun _ => Nat.zero_le _

/-- In no state of a run an array is longer than allowed, exactly if this is so of the arrays that
were not checked. -/
theorem Capture.Instrumented.limited_iff (program : Capture.Instrumented) (bound : Nat)
    (allowance : Option Nat) :
    let past := (program.runWithin bound allowance).final.past.get
    (∀ moment ∈ past, moment.heap.Limited) ↔ ∀ moment ∈ past, moment.Fits := by
  intro past
  refine ⟨fun hlimited moment hmoment array _ => hlimited moment hmoment array, fun hfits => ?_⟩
  have hinitial : arrayUpkeep.Holds .initial :=
    ⟨trivial, Native.limited_heap, by simp [State.initial]⟩
  have hprogram := KeepsLimit.program program.candidates bound program.program
  exact fun moment hmoment =>
    ((hprogram.run (fun _ _ => trivial) hinitial allowance #[] hfits).past moment hmoment).heap

/-! ## Operations that ask for the length -/

/-- An operation that makes an array, or lets one grow, and asks for the length first. -/
inductive Growth where
  | push (array : Nat) (values : List Value)
  | unshift (array : Nat) (values : List Value)
  | concat (array : Nat) (values : List Value)
  /-- An assignment to the element at a position, which the key names. -/
  | element (array position : Nat) (key value : Value) (names : key.position? = some position)
  /-- An assignment to the length. -/
  | length (array : Nat) (value : Value)
  /-- A new array of a length. -/
  | ofLength (x : Float)
  /-- A new array of the length that an object states. -/
  | ofObject (object : Nat)

namespace Growth

/-- The operation itself. -/
def run (call : Caller) (loc : Location) : Growth → Eval Value
  | push array values => (Value.array array).callMethod call "push" values loc
  | unshift array values => (Value.array array).callMethod call "unshift" values loc
  | concat array values => (Value.array array).callMethod call "concat" values loc
  | element array _ key value _ => do
    (Slot.index (.array array) key).write loc value
    pure value
  | length array value => do
    (Slot.member (.array array) "length").write loc value
    pure value
  | ofLength x => Native.array.call call [.number x] loc
  | ofObject object => Native.arrayFrom.call call [.object object] loc

/-- The number of the array that is made or changed. -/
def array (heap : Heap) : Growth → Nat
  | push array _ | unshift array _ | element array .. | length array _ => array
  | concat _ _ | ofLength _ | ofObject _ => heap.arrays.size

/-- The length that the array is to have. -/
def size (heap : Heap) : Growth → Nat
  | push array values | unshift array values => (heap.items array).size + values.length
  | concat array values => (Builtin.appended heap (heap.items array) values).size
  | element array position _ _ _ => max (heap.items array).size (position + 1)
  | length _ value => Number.toCount (value.toNumber heap)
  | ofLength x => Number.toCount x
  | ofObject object => Number.toCount (Builtin.statedNumber heap (heap.fields object))

/-- The array that the operation is to change is there. -/
def Present (heap : Heap) : Growth → Prop
  | push array _ | unshift array _ | element array .. | length array _ => array < heap.arrays.size
  | concat _ _ | ofLength _ | ofObject _ => True

/-- The length is allowed, and a number that is given for it is a number of elements. -/
def Admitted (heap : Heap) (growth : Growth) : Prop :=
  growth.size heap ≤ Limit.arrayLength ∧
    match growth with
    | length _ value => Counts (value.toNumber heap)
    | ofLength x => Counts x
    | ofObject object => Builtin.StatesEnd heap (heap.fields object)
    | _ => True

/-- The growth happens if it is admitted, and is refused otherwise. A refusal changes nothing. -/
def Decided (growth : Growth) (loc : Location) (s : State) (p : Process Value) : Prop :=
  (growth.Admitted s.heap → ∃ value s', p = .done value s' ∧
    (s'.heap.items (growth.array s.heap)).size = growth.size s.heap) ∧
  (¬ growth.Admitted s.heap → p = .stopped (.fault ⟨.arrayLength, loc⟩) s)

theorem decided_of_ite {growth : Growth} {loc : Location} {s s' : State} {value : Value}
    {p : Process Value} {admitted : Prop} [Decidable admitted]
    (h : p = if admitted then .done value s' else .stopped (.fault ⟨.arrayLength, loc⟩) s)
    (hadmitted : growth.Admitted s.heap ↔ admitted)
    (hsize : (s'.heap.items (growth.array s.heap)).size = growth.size s.heap) :
    growth.Decided loc s p := by
  subst h
  refine ⟨fun hyes => ?_, fun hno => ?_⟩
  · rw [if_pos (hadmitted.mp hyes)]
    exact ⟨value, s', rfl, hsize⟩
  · rw [if_neg fun h => hno (hadmitted.mpr h)]

/-- A write that is decided with a look at a length. -/
theorem write_apply {loc : Location} {decide : Heap → Except Cause Write} {s : State}
    {admitted : Prop} [Decidable admitted] {change : Write} (value : Value)
    (h : decide s.heap = if admitted then .ok change else .error .arrayLength) :
    (do
      Eval.write loc decide
      pure value) s =
      if admitted then .done value (s.changeHeap (·.perform change))
      else .stopped (.fault ⟨.arrayLength, loc⟩) s := by
  rw [Eval.bind_apply, Eval.write_of_ite h]
  by_cases hadmitted : admitted
  · rw [if_pos hadmitted, if_pos hadmitted]
    rfl
  · rw [if_neg hadmitted, if_neg hadmitted]
    rfl

theorem makeArray_apply (x : Float) (loc : Location) (s : State) :
    Builtin.makeArray [.number x] loc s =
      if Number.toCount x ≤ Limit.arrayLength ∧ Counts x then
        .done (.array s.heap.arrays.size)
          (s.changeHeap (·.addArray (.replicate (Number.toCount x) .undefined)))
      else .stopped (.fault ⟨.arrayLength, loc⟩) s := by
  unfold Builtin.makeArray
  dsimp only
  by_cases hcounts : Counts x
  · rw [if_neg fun h => (not_counts_iff x).mp h hcounts]
    simp only [hcounts, and_true]
    exact Eval.allow_checkArray_apply loc _ _ s
  · rw [if_pos ((not_counts_iff x).mpr hcounts), if_neg fun h => hcounts h.2]
    rfl

theorem arrayFrom_apply (call : Caller) (object : Nat) (loc : Location) (s : State) :
    let length := Number.toCount (Builtin.statedNumber s.heap (s.heap.fields object))
    Builtin.arrayFrom call [.object object] loc s =
      if length ≤ Limit.arrayLength ∧ Builtin.StatesEnd s.heap (s.heap.fields object) then
        .done (.array s.heap.arrays.size)
          (s.changeHeap (·.addArray (.replicate length .undefined)))
      else .stopped (.fault ⟨.arrayLength, loc⟩) s := by
  intro length
  have hsource : Builtin.sourceElements s.heap (Builtin.argument [.object object] 0) = (do
      let length ← Builtin.statedLength s.heap (s.heap.fields object)
      pure (.replicate length .undefined)) := rfl
  rw [Builtin.statedLength_eq] at hsource
  unfold Builtin.arrayFrom
  rw [Eval.bind_apply, Eval.consultAt_apply, hsource]
  by_cases hadmitted : length ≤ Limit.arrayLength ∧
      Builtin.StatesEnd s.heap (s.heap.fields object)
  · rw [if_pos hadmitted, if_pos hadmitted]
    rfl
  · rw [if_neg hadmitted, if_neg hadmitted]
    rfl

/-- In a state in which no array is longer than allowed, an operation that asks for the length does
what it is meant to do or refuses, depending on the length. -/
theorem decided_run (growth : Growth) (call : Caller) (loc : Location) (s : State)
    (hs : s.heap.Limited) (h : growth.Present s.heap) :
    growth.Decided loc s (growth.run call loc s) := by
  cases growth with
  | push array values =>
      refine decided_of_ite (Builtin.lengthened_apply array values.length loc _ s)
        (and_iff_left trivial) ?_
      exact (congrArg Array.size (Heap.items_onArray h _)).trans (size_appendList _ values)
  | unshift array values =>
      refine decided_of_ite (Builtin.lengthened_apply array values.length loc _ s)
        (and_iff_left trivial) ?_
      refine (congrArg Array.size (Heap.items_onArray h _)).trans ?_
      rw [Array.size_append, List.size_toArray, Nat.add_comm]
      rfl
  | concat array values =>
      refine decided_of_ite (Builtin.concat_apply call array values loc s)
        (and_iff_left trivial) ?_
      exact congrArg Array.size (Heap.items_addArray s.heap _)
  | element array position key value hkey =>
      have hdecide : Value.setIndexed s.heap (.array array) key value =
          Value.setItem s.heap array position value := by
        unfold Value.setIndexed
        rw [hkey]
      have hcheck := hdecide.trans (Value.setItem_eq hs array position value)
      refine decided_of_ite (write_apply value hcheck) (and_iff_left trivial) ?_
      refine (congrArg Array.size (Heap.items_onArray h _)).trans ?_
      change _ = max (s.heap.items array).size (position + 1)
      split
      · rw [Array.size_setIfInBounds, Nat.max_eq_left (by omega)]
      · rw [Array.size_push, size_resize, Nat.max_eq_right (by omega)]
  | length array value =>
      refine decided_of_ite (write_apply value (Value.setLength_eq s.heap array value)) Iff.rfl ?_
      exact (congrArg Array.size (Heap.items_onArray h _)).trans (size_resize _ _)
  | ofLength x =>
      refine decided_of_ite (makeArray_apply x loc s) Iff.rfl ?_
      exact (congrArg Array.size (Heap.items_addArray s.heap _)).trans Array.size_replicate
  | ofObject object =>
      refine decided_of_ite (arrayFrom_apply call object loc s) Iff.rfl ?_
      exact (congrArg Array.size (Heap.items_addArray s.heap _)).trans Array.size_replicate

end Growth

/-- **Arrays within the limit.** In no state of a run an array is longer than allowed, exactly if
this is so of the arrays that the run made or replaced without asking for the length. In a state
in which no array is longer than allowed, an operation that asks makes the array or lets it grow
if the length is allowed, and otherwise stops with a fault and leaves the state as it was. -/
theorem array_limit (program : Capture.Instrumented) (bound : Nat) (allowance : Option Nat) :
    let past := (program.runWithin bound allowance).final.past.get
    ((∀ moment ∈ past, moment.heap.Limited) ↔ ∀ moment ∈ past, moment.Fits) ∧
      (∀ (growth : Growth) (call : Caller) (loc : Location) (s : State), s.heap.Limited →
        growth.Present s.heap →
        (growth.Admitted s.heap → ∃ value s', growth.run call loc s = .done value s' ∧
          (s'.heap.items (growth.array s.heap)).size = growth.size s.heap) ∧
        (¬ growth.Admitted s.heap →
          growth.run call loc s = .stopped (.fault ⟨.arrayLength, loc⟩) s)) ∧
      ∀ loc, Fault.message ⟨.arrayLength, loc⟩ = "RangeError: Invalid array length" :=
  ⟨program.limited_iff bound allowance, Growth.decided_run, fun _ => rfl⟩

/-- One element more for an array that has as many as are allowed. -/
theorem array_limit_push :
    let heap := Native.heap.addArray (.replicate Limit.arrayLength .null)
    let full : State := { State.initial with heap }
    heap.Limited ∧ (Growth.push 0 [.null]).Present heap ∧
      (Growth.push 0 [.null]).run (callWithin [] 1) ⟨1, 1⟩ full =
        .stopped (.fault ⟨.arrayLength, ⟨1, 1⟩⟩) full := by
  have hitems : (Array.replicate Limit.arrayLength Value.null).size = Limit.arrayLength :=
    Array.size_replicate
  generalize Array.replicate Limit.arrayLength Value.null = items at hitems
  intro heap full
  have hheap : heap.Limited := Native.limited_heap.addArray (Nat.le_of_eq hitems)
  have hpresent : (Growth.push 0 [.null]).Present heap := by
    change 0 < (Native.heap.arrays.push items).size
    rw [Array.size_push]
    exact Nat.succ_pos _
  have hrefused : ¬ (Growth.push 0 [.null]).Admitted heap := by
    rintro ⟨hsize, -⟩
    change ((Native.heap.addArray items).items Native.heap.arrays.size).size + 1 ≤ _ at hsize
    rw [Heap.items_addArray, hitems] at hsize
    exact Nat.not_succ_le_self _ hsize
  obtain ⟨-, hgrowth, -⟩ := array_limit ⟨"", [], []⟩ 1 none
  have hpush := hgrowth (.push 0 [.null]) (callWithin [] 1) ⟨1, 1⟩ full hheap hpresent
  exact ⟨hheap, hpresent, hpush.2 hrefused⟩

/-! ## An array beyond the limit -/

/-- An array spread several times. -/
theorem evalElements_spreads (on : Setting) {name : String} {array : Nat} {s : State}
    (h : s.env.lookup? name = some (.array array)) (locs : List (Location × Location)) :
    evalElements on (locs.map fun (outer, inner) => .spread (.variable name inner) outer) s =
      .done (List.replicate locs.length (s.heap.items array).toList).flatten s := by
  induction locs with
  | nil =>
      rw [List.map_nil, evalElements]
      rfl
  | cons loc rest ih =>
      have hname : evalExpr on (.variable name loc.2) s = .done (.array array) s := by
        rw [evalExpr]
        exact Eval.lookup_eq_done.mpr ⟨rfl, h⟩
      have hitems : Eval.consultAt loc.1 (fun heap => (Value.array array).elements heap) s =
          .done (s.heap.items array) s :=
        Eval.consultAt_eq_done.mpr ⟨rfl, rfl⟩
      rw [List.map_cons, evalElements, Eval.bind_of_done hname, Eval.bind_of_done hitems,
        Eval.bind_of_done ih]
      rfl

/-- A function that makes of an array one that is four times as long. -/
def quadruple : Function :=
  .mk none ["a"] [.return (some (.array [.spread (.variable "a" ⟨1, 49⟩) ⟨1, 46⟩,
    .spread (.variable "a" ⟨1, 55⟩) ⟨1, 52⟩, .spread (.variable "a" ⟨1, 61⟩) ⟨1, 58⟩,
    .spread (.variable "a" ⟨1, 67⟩) ⟨1, 64⟩] ⟨1, 45⟩)) ⟨1, 45⟩] false true none

/-- A reduction of twelve elements with `quadruple` from one element on. -/
def reduction : Expr :=
  .call (.member (.array [.spread (.string "abcdefghijkl" ⟨1, 17⟩) ⟨1, 14⟩] ⟨1, 13⟩) "reduce"
    ⟨1, 32⟩) [.item (.function quadruple ⟨1, 40⟩), .item (.array [.item (.null ⟨1, 72⟩)] ⟨1, 71⟩)]
    ⟨1, 39⟩

theorem call_quadruple {names : List String} {bound place scope array : Nat} {s : State}
    (h : Callable quadruple place scope s) (rest : List Value) (callee : String) (loc : Location) :
    ∃ longer s', callWithin names (bound + 1) (.function place) (.array array :: rest) callee loc
        s = .done (.array longer) s' ∧ Callable quadruple place scope s' ∧
      (s'.heap.items longer).size = 4 * (s.heap.items array).size := by
  let on : Setting := ⟨callWithin names bound, bound, names⟩
  let entered := s.entering quadruple scope (.array array :: rest)
  let longer := s.heap.arrays.size
  let made := ((entered.changeHeap (·.addArray
    (List.replicate 4 (s.heap.items array).toList).flatten.toArray)).record
      (.unchecked longer)).record (.returned (.array longer))
  have hlookup : entered.env.lookup? "a" = some (.array array) :=
    State.lookup?_entering rfl scope (.array array) rest s
  have helements := evalElements_spreads on hlookup [(⟨1, 46⟩, ⟨1, 49⟩), (⟨1, 52⟩, ⟨1, 55⟩),
    (⟨1, 58⟩, ⟨1, 61⟩), (⟨1, 64⟩, ⟨1, 67⟩)]
  have hbody : execStmts on quadruple.body entered = .done (.return (.array longer)) made := by
    simp only [List.map] at helements
    simp only [execStmts, quadruple, Function.body, hoist, pure_bind, execEach, execStmt, evalExpr]
    simp only [Eval.bind_apply, helements]
    rfl
  refine ⟨longer, made.changeEnv Environment.leaveCall, h.call hbody callee loc,
    ⟨h.closure, h.room⟩, ?_⟩
  change ((s.heap.addArray _).items s.heap.arrays.size).size = _
  rw [Heap.items_addArray, List.size_toArray, List.length_flatten, List.map_replicate,
    List.sum_replicate_nat, Array.length_toList]

theorem eval_reduction (bound : Nat) (s : State) (h : s.env.depth < Limit.callDepth) :
    ∃ array s', evalExpr ⟨callWithin [] (bound + 1), bound + 1, []⟩ reduction s =
        .done (.array array) s' ∧ (s'.heap.items array).size = Limit.arrayLength := by
  let on : Setting := ⟨callWithin [] (bound + 1), bound + 1, []⟩
  let items := ("abcdefghijkl".toList.map Value.ofChar).toArray
  let receiver := s.heap.arrays.size
  let received := (s.changeHeap (·.addArray items)).record (.unchecked receiver)
  let callee := s.closures.size
  let made := received.addClosure quadruple
  let array := made.heap.arrays.size
  let ready := (made.changeHeap (·.addArray #[.null])).record (.unchecked array)
  have hargs : evalElements on [.item (.function quadruple ⟨1, 40⟩),
      .item (.array [.item (.null ⟨1, 72⟩)] ⟨1, 71⟩)] received =
        .done [.function callee, .array array] ready := by
    rfl
  have hitems : ready.heap.items receiver = items := by
    refine (Heap.items_addArray_of_lt ?_ #[.null]).trans (Heap.items_addArray s.heap items)
    change s.heap.arrays.size < (s.heap.arrays.push items).size
    rw [Array.size_push]
    exact Nat.lt_succ_self _
  -- `n` further calls make the array as long as is allowed
  let Ready (n : Nat) (value : Value) (s' : State) : Prop :=
    Callable quadruple callee s.env.current s' ∧ ∃ array, value = .array array ∧
      4 ^ n * (s'.heap.items array).size = Limit.arrayLength
  have hstart : Ready items.toList.length (.array array) ready := by
    refine ⟨⟨Array.getElem?_push_size, h⟩, array, rfl, ?_⟩
    have hfirst : (ready.heap.items array).size = 1 :=
      congrArg Array.size (Heap.items_addArray made.heap #[.null])
    have hcount : items.toList.length = 12 := rfl
    rw [hfirst, hcount]
    decide
  have hstep (n : Nat) (value item : Value) (index : Nat) (s : State)
      (hready : Ready (n + 1) value s) :
      ∃ value' s', on.call (.function callee) [value, item, .ofCount index, .array receiver]
        "reduce callback" ⟨1, 39⟩ s = .done value' s' ∧ Ready n value' s' := by
    obtain ⟨hcallable, array, rfl, hsize⟩ := hready
    obtain ⟨longer, s', hcall, hcallable', hlonger⟩ := call_quadruple hcallable
      [item, .ofCount index, .array receiver] "reduce callback" ⟨1, 39⟩
    refine ⟨.array longer, s', hcall, hcallable', longer, rfl, ?_⟩
    rw [hlonger, ← hsize, Nat.pow_succ, Nat.mul_assoc]
  obtain ⟨value, s', hreduce, -, longer, rfl, hsize⟩ :=
    Builtin.exists_reduceFrom Ready hstep items.toList 0 hstart
  refine ⟨longer, s', ?_, (Nat.one_mul _).symm.trans hsize⟩
  rw [reduction, evalExpr_reduce (evalExpr_characters on _ _ _ _ s) hargs, hitems]
  exact hreduce

def quadrupling : String :=
  "let n = [...[...\"abcdefghijkl\"].reduce(a => [...a, ...a, ...a, ...a], [null]), null].length;\n"

/-- The program of `quadrupling`. -/
def quadruplingProgram : Program :=
  [.declare .letDecl [.mk (.name "n") (some (.member (.array [.spread reduction ⟨1, 10⟩,
    .item (.null ⟨1, 80⟩)] ⟨1, 9⟩) "length" ⟨1, 85⟩))] ⟨1, 1⟩]

set_option maxRecDepth 8192 in
theorem parse_quadrupling : parse quadrupling = .ok quadruplingProgram := by
  have htokens : tokenize quadrupling = .ok [⟨.keyword .letKw, ⟨1, 1⟩⟩, ⟨.name "n", ⟨1, 5⟩⟩,
      ⟨.symbol .assign, ⟨1, 7⟩⟩, ⟨.symbol .leftBracket, ⟨1, 9⟩⟩, ⟨.symbol .ellipsis, ⟨1, 10⟩⟩,
      ⟨.symbol .leftBracket, ⟨1, 13⟩⟩, ⟨.symbol .ellipsis, ⟨1, 14⟩⟩,
      ⟨.string "abcdefghijkl", ⟨1, 17⟩⟩, ⟨.symbol .rightBracket, ⟨1, 31⟩⟩, ⟨.symbol .dot, ⟨1, 32⟩⟩,
      ⟨.name "reduce", ⟨1, 33⟩⟩, ⟨.symbol .leftParen, ⟨1, 39⟩⟩, ⟨.name "a", ⟨1, 40⟩⟩,
      ⟨.symbol .arrow, ⟨1, 42⟩⟩, ⟨.symbol .leftBracket, ⟨1, 45⟩⟩, ⟨.symbol .ellipsis, ⟨1, 46⟩⟩,
      ⟨.name "a", ⟨1, 49⟩⟩, ⟨.symbol .comma, ⟨1, 50⟩⟩, ⟨.symbol .ellipsis, ⟨1, 52⟩⟩,
      ⟨.name "a", ⟨1, 55⟩⟩, ⟨.symbol .comma, ⟨1, 56⟩⟩, ⟨.symbol .ellipsis, ⟨1, 58⟩⟩,
      ⟨.name "a", ⟨1, 61⟩⟩, ⟨.symbol .comma, ⟨1, 62⟩⟩, ⟨.symbol .ellipsis, ⟨1, 64⟩⟩,
      ⟨.name "a", ⟨1, 67⟩⟩, ⟨.symbol .rightBracket, ⟨1, 68⟩⟩, ⟨.symbol .comma, ⟨1, 69⟩⟩,
      ⟨.symbol .leftBracket, ⟨1, 71⟩⟩, ⟨.keyword .nullKw, ⟨1, 72⟩⟩,
      ⟨.symbol .rightBracket, ⟨1, 76⟩⟩, ⟨.symbol .rightParen, ⟨1, 77⟩⟩,
      ⟨.symbol .comma, ⟨1, 78⟩⟩, ⟨.keyword .nullKw, ⟨1, 80⟩⟩,
      ⟨.symbol .rightBracket, ⟨1, 84⟩⟩, ⟨.symbol .dot, ⟨1, 85⟩⟩, ⟨.name "length", ⟨1, 86⟩⟩,
      ⟨.symbol .semicolon, ⟨1, 92⟩⟩, ⟨.endOfInput, ⟨2, 1⟩⟩] := by
    rfl
  unfold parse
  rw [htokens]
  rfl

/-- A run of a program in which an array outgrows the limit and nothing is refused. -/
theorem not_limited_quadrupling :
    ∃ program, parse quadrupling = .ok program ∧
      let run := Capture.Instrumented.run ⟨quadrupling, program, []⟩ none
      run.outcome = .completed ∧
      ¬ ∀ moment ∈ run.final.past.get, moment.heap.Limited := by
  have hlong (n : Nat) : ∃ value made, evalExpr ⟨callWithin [] (n + 1), n + 1, []⟩
      (.member (.array [.spread reduction ⟨1, 10⟩, .item (.null ⟨1, 80⟩)] ⟨1, 9⟩) "length" ⟨1, 85⟩)
        .started = .done value made ∧ ∃ moment ∈ made.past.get, ¬ moment.heap.Limited := by
    let on : Setting := ⟨callWithin [] (n + 1), n + 1, []⟩
    obtain ⟨array, reduced, hreduced, hsize⟩ := eval_reduction n .started State.depth_started
    let items := (reduced.heap.items array).toList ++ [Value.null]
    let place := reduced.heap.arrays.size
    let made := (reduced.changeHeap (·.addArray items.toArray)).record (.unchecked place)
    have hliteral : evalExpr on (.array [.spread reduction ⟨1, 10⟩, .item (.null ⟨1, 80⟩)] ⟨1, 9⟩)
        .started = .done (.array place) made := by
      rw [evalExpr, evalElements, Eval.bind_apply, Eval.bind_apply, hreduced]
      rfl
    refine ⟨.ofCount (made.heap.items place).size, made, ?_,
      ⟨.unchecked place, made.env, made.heap⟩, by simp [made, State.record], fun hlimited => ?_⟩
    · rw [evalExpr, Eval.bind_of_done hliteral]
      rfl
    · have hplace := hlimited place
      change ((reduced.heap.addArray items.toArray).items reduced.heap.arrays.size).size ≤ _
        at hplace
      rw [Heap.items_addArray, List.size_toArray, List.length_append, Array.length_toList, hsize]
        at hplace
      exact Nat.not_succ_le_self _ hplace
  obtain ⟨hcompleted, moment, hmoment, hmore⟩ :=
    Capture.Instrumented.run_declare hlong quadrupling "n" ⟨1, 1⟩
  exact ⟨_, parse_quadrupling, hcompleted, fun hlimited => hmore (hlimited moment hmoment)⟩

end StepTrace
