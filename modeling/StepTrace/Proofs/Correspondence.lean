import StepTrace.Proofs.Concord

/-!
# Corresponding computations

Most relations respect every change of the heap, and of the environment, that binds no other
names, whatever the change is. For them less has to be known than a concord asks for: the
methods and functions that the language provides do nothing but ask and change (`Accord`), and
blocks and calls are changes of the environment before and after something (`Correspondence`).
Where no captures are added not even the closures differ: see `Congruence`.

The heaps on both sides answer every question alike, since a heap does not hold the code of
functions.
-/

namespace StepTrace

open Syntax (Location Stmt Function)
open Capture

/-! ## Arrays are not taken away -/

namespace Heap

/-- The change takes no array away. -/
def KeepsArrays (change : Heap → Heap) : Prop :=
  ∀ heap, heap.arrays.size ≤ (change heap).arrays.size

namespace KeepsArrays

theorem addArray (items : Array Value) : KeepsArrays (·.addArray items) := by
  intro heap
  simp [Heap.addArray]

theorem addObject (fields : Fields) : KeepsArrays (·.addObject fields) :=
  fun _ => Nat.le_refl _

theorem onArray (array : Nat) (change : Array Value → Array Value) :
    KeepsArrays (·.onArray array change) := by
  intro heap
  simp [Heap.onArray]

theorem perform (write : Write) : KeepsArrays (·.perform write) := by
  cases write with
  | nothing => exact fun _ => Nat.le_refl _
  | item array index value => exact onArray array _
  | length array length => exact onArray array _
  | field object name value => exact fun _ => Nat.le_refl _

end KeepsArrays

end Heap

/-- A concord that holds whatever is done to the heap, as long as no array is taken away. -/
structure Accord (map : Array LineKind) extends Concord map where
  /-- An assignment binds no name anew, whether or not the name is in `Named`. -/
  assign : ∀ {loc : Location}, Sited loc → ∀ (name : String) (value : Value),
    Rel (Eval.assign loc name value) (Eval.assign loc name value)
  changeHeap : ∀ change : Heap → Heap, Heap.KeepsArrays change →
    Rel (Eval.changeHeap change) (Eval.changeHeap change)
  unchecked : ∀ array : Nat, Rel (Eval.unchecked array) (Eval.unchecked array)
  untested : ∀ value : Value, Rel (Eval.untested value) (Eval.untested value)
  newClosure : ∀ {placing : Array LineKind} {f : Function}, PlacedBy map placing →
    Within.Of Marked Named Spelled Sited f →
    Rel (Eval.newClosure f) (Eval.newClosure (placeFunction placing f))

namespace Accord

variable {map : Array LineKind} (C : Accord map)

section Changes

variable {loc : Location} (hloc : C.Sited loc)

theorem newArray (items : Array Value) : C.Rel (Eval.newArray items) (Eval.newArray items) :=
  C.bind (C.consult _) fun _ => C.bind (C.changeHeap _ (.addArray items)) fun _ => C.pure _

theorem newUnchecked (items : Array Value) :
    C.Rel (Eval.newUnchecked items) (Eval.newUnchecked items) :=
  C.bind (C.consult _) fun _ => C.bind (C.changeHeap _ (.addArray items)) fun _ =>
    C.bind (C.unchecked _) fun _ => C.pure _

theorem newObject (fields : Fields) : C.Rel (Eval.newObject fields) (Eval.newObject fields) :=
  C.bind (C.consult _) fun _ => C.bind (C.changeHeap _ (.addObject fields)) fun _ => C.pure _

include hloc

theorem write {decide : Heap → Except Cause Write} (h : ∀ heap, Refuses (decide heap)) :
    C.Rel (Eval.write loc decide) (Eval.write loc decide) :=
  C.bind (C.consultAt hloc h) fun write => C.changeHeap _ (.perform write)

theorem slotWrite (value : Value) (slot : Slot) :
    C.Rel (slot.write loc value) (slot.write loc value) := by
  cases slot with
  | «variable» name => exact C.assign hloc name value
  | index container key => exact C.write hloc fun _ => Value.refuses_setIndexed _ _ _ _
  | member container name => exact C.write hloc fun _ => Value.refuses_setMember _ _ _ _

end Changes

/-! ## Sorting -/

section Sorting

open Builtin

variable {after after' : Value → Value → Eval Bool}
  (h : ∀ a b, C.Rel (after a b) (after' a b))
include h

theorem mergeRuns (xs ys : List Value) :
    C.Rel (mergeRuns after xs ys) (mergeRuns after' xs ys) := by
  fun_induction Builtin.mergeRuns after xs ys with
  | case1 ys => rw [Builtin.mergeRuns]; exact C.pure ys
  | case2 xs hxs =>
      rw [Builtin.mergeRuns]
      · exact C.pure xs
      · exact hxs
  | case3 x xs y ys ih1 ih2 =>
      rw [Builtin.mergeRuns]
      refine C.bind (h x y) fun isAfter => ?_
      split
      · exact C.bind ih1 fun _ => C.pure _
      · exact C.bind ih2 fun _ => C.pure _

theorem mergeNeighbours (runs : List (List Value)) :
    C.Rel (mergeNeighbours after runs) (mergeNeighbours after' runs) := by
  fun_induction Builtin.mergeNeighbours after runs with
  | case1 first second rest ih =>
      rw [Builtin.mergeNeighbours]
      exact C.bind (C.mergeRuns h first second) fun _ => C.bind ih fun _ => C.pure _
  | case2 runs hruns =>
      rw [Builtin.mergeNeighbours]
      · exact C.pure runs
      · exact hruns

theorem mergeAll (rounds : Nat) (runs : List (List Value)) :
    C.Rel (mergeAll after rounds runs) (mergeAll after' rounds runs) := by
  fun_induction Builtin.mergeAll after rounds runs with
  | case1 => rw [Builtin.mergeAll]; exact C.pure _
  | case2 => rw [Builtin.mergeAll]; exact C.pure _
  | case3 runs hnil hone =>
      rw [Builtin.mergeAll]
      · exact C.pure _
      · exact hnil
      · exact hone
  | case4 runs rounds hnil hone ih =>
      rw [Builtin.mergeAll]
      · exact C.bind (C.mergeNeighbours h _) ih
      · exact hnil
      · exact hone

theorem mergeSort (items : List Value) :
    C.Rel (mergeSort after items) (mergeSort after' items) :=
  C.mergeAll h _ _

end Sorting

/-! ## Methods and provided functions -/

section Provided

open Builtin

variable {call call' : Caller} (hcall : C.Callers call call')
include hcall

theorem sortsAfter (comparator : Option Value) {loc : Location} (hloc : C.Sited loc) (a b : Value) :
    C.Rel (sortsAfter call comparator loc a b) (sortsAfter call' comparator loc a b) := by
  cases comparator with
  | none => exact C.consult _
  | some compare => exact C.bind (hcall compare _ _ loc hloc) fun _ => C.consult _

theorem sortValues (comparator : Option Value) {loc : Location} (hloc : C.Sited loc)
    (items : List Value) :
    C.Rel (sortValues call comparator loc items) (sortValues call' comparator loc items) :=
  C.bind (C.mergeSort (C.sortsAfter hcall comparator hloc) _) fun _ => C.pure _

omit hcall in
theorem searchContinue {apply apply' : Value → Nat → Eval Value}
    (h : ∀ item index, C.Rel (apply item index) (apply' item index)) (method : Search)
    (index : Nat) (kept : Array Value) (items : List Value) :
    C.Rel (method.continue apply index kept items) (method.continue apply' index kept items) := by
  induction items generalizing index kept with
  | nil =>
      cases method
      all_goals first | exact C.newArray kept | exact C.pure _
  | cons item rest ih =>
      refine C.bind (h item index) fun result => ?_
      split
      · exact C.pure _
      · exact ih _ _

theorem searchRun (method : Search) (array : Nat) (args : List Value) {loc : Location}
    (hloc : C.Sited loc) :
    C.Rel (method.run call array args loc) (method.run call' array args loc) := by
  unfold Search.run
  dsimp only
  split
  · exact C.bind (C.consult _) fun _ => C.raise hloc trivial
  · refine C.bind (C.consult _) fun items => ?_
    exact C.searchContinue (fun item index => hcall _ _ _ loc hloc) method 0 #[] items.toList

omit hcall in
theorem reduceFrom {apply apply' : Value → Value → Nat → Eval Value}
    (h : ∀ value item index, C.Rel (apply value item index) (apply' value item index))
    (index : Nat) (value : Value) (items : List Value) :
    C.Rel (reduceFrom apply index value items) (reduceFrom apply' index value items) := by
  induction items generalizing index value with
  | nil => exact C.pure value
  | cons item rest ih => exact C.bind (h value item index) fun _ => ih _ _

theorem reduce (array : Nat) (args : List Value) {loc : Location} (hloc : C.Sited loc) :
    C.Rel (reduce call array args loc) (reduce call' array args loc) := by
  refine C.bind (C.consult _) fun items => ?_
  split
  · exact C.reduceFrom (fun _ _ _ => hcall _ _ _ loc hloc) 0 _ _
  · exact C.reduceFrom (fun _ _ _ => hcall _ _ _ loc hloc) 1 _ _
  · exact C.raise hloc trivial

omit hcall in
theorem changed (array : Nat) (change : Array Value → Array Value) :
    C.Rel (changed array change) (changed array change) :=
  C.bind (C.changeHeap _ (.onArray array change)) fun _ => C.pure _

omit hcall in
theorem lengthened (array extra : Nat) {loc : Location} (hloc : C.Sited loc)
    (change : Array Value → Array Value) :
    C.Rel (lengthened array extra loc change) (lengthened array extra loc change) :=
  C.bind (C.consult _) fun _ => C.bind (C.allow hloc (Limit.refuses_checkArray _)) fun _ =>
    C.bind (C.changeHeap _ (.onArray array change)) fun _ => C.pure _

theorem arrayMethod (array : Nat) (method : String) (args : List Value) {loc : Location}
    (hloc : C.Sited loc) :
    C.Rel (arrayMethod call array method args loc) (arrayMethod call' array method args loc) := by
  unfold Builtin.arrayMethod
  split
  case h_1 => exact C.lengthened _ _ hloc _
  case h_2 => exact C.lengthened _ _ hloc _
  case h_3 =>
    exact C.bind (C.consult _) fun _ => C.bind (C.changeHeap _ (.onArray _ _)) fun _ => C.pure _
  case h_4 =>
    exact C.bind (C.consult _) fun _ => C.bind (C.changeHeap _ (.onArray _ _)) fun _ => C.pure _
  case h_5 => exact C.bind (C.consult _) fun _ => C.changed _ _
  case h_6 => exact C.bind (C.consult _) fun _ => C.newArray _
  case h_7 =>
    refine C.bind (C.consult _) fun _ => C.bind (C.changeHeap _ (.onArray _ _)) fun _ => ?_
    exact C.bind (C.unchecked _) fun _ => C.newArray _
  case h_8 => exact C.consult _
  case h_9 => exact C.consult _
  case h_10 => exact C.consult _
  case h_11 => exact C.consultAt hloc fun heap => refuses_joined heap _ _
  case h_12 => exact C.consultAt hloc fun heap => refuses_joined heap _ _
  case h_13 => exact C.changed _ _
  case h_14 =>
    refine C.bind (C.consult _) fun items => ?_
    exact C.bind (C.sortValues hcall _ hloc _) fun _ => C.changed _ _
  case h_15 =>
    refine C.bind (C.consult _) fun length => ?_
    refine C.bind (C.allow hloc (Limit.refuses_checkArray _)) fun _ => ?_
    exact C.bind (C.consult _) fun _ => C.newArray _
  case h_16 => exact C.consult _
  case h_17 => exact C.reduce hcall array args hloc
  case h_18 =>
    split
    · exact C.searchRun hcall _ array args hloc
    · exact C.raise hloc trivial

omit hcall in
theorem makeArray (args : List Value) {loc : Location} (hloc : C.Sited loc) :
    C.Rel (makeArray args loc) (makeArray args loc) := by
  unfold Builtin.makeArray
  split
  · split
    · exact C.raise hloc trivial
    · exact C.bind (C.allow hloc (Limit.refuses_checkArray _)) fun _ => C.newArray _
  · exact C.newUnchecked _

omit hcall in
theorem mapFrom {apply apply' : Value → Nat → Eval Value}
    (h : ∀ item index, C.Rel (apply item index) (apply' item index)) (index : Nat)
    (results : Array Value) (items : List Value) :
    C.Rel (mapFrom apply index results items) (mapFrom apply' index results items) := by
  induction items generalizing index results with
  | nil => exact C.pure results
  | cons item rest ih => exact C.bind (h item index) fun _ => ih _ _

theorem mapped (mapper : Option Value) {loc : Location} (hloc : C.Sited loc)
    (items : Array Value) :
    C.Rel (mapped call mapper loc items) (mapped call' mapper loc items) := by
  cases mapper with
  | none => exact C.pure items
  | some mapper => exact C.mapFrom (fun _ _ => hcall _ _ _ loc hloc) 0 #[] items.toList

theorem arrayFrom (args : List Value) {loc : Location} (hloc : C.Sited loc) :
    C.Rel (arrayFrom call args loc) (arrayFrom call' args loc) := by
  refine C.bind (C.consultAt hloc fun heap => refuses_sourceElements heap _) fun items => ?_
  refine C.bind (C.mapped hcall _ hloc items) fun elements => ?_
  split
  · exact C.newUnchecked elements
  · exact C.newArray elements

omit hcall in
theorem listFrom (what : Listing) (shown : Array Value) (fields : List (String × Value)) :
    C.Rel (listFrom what shown fields) (listFrom what shown fields) := by
  induction fields generalizing shown with
  | nil => exact C.pure shown
  | cons field rest ih =>
      refine C.bind ?_ fun entry => ih _
      cases what
      · exact C.untested _
      · exact C.pure _
      · exact C.bind (C.untested _) fun _ => C.newArray _

omit hcall in
theorem listing (what : Listing) (value : Value) :
    C.Rel (listing what value) (listing what value) :=
  C.bind (C.consult _) fun _ => C.bind (C.listFrom what #[] _) fun _ => C.newUnchecked _

omit hcall in
theorem makeError (args : List Value) : C.Rel (makeError args) (makeError args) :=
  C.bind (C.consult _) fun _ => C.bind (C.untested _) fun _ => C.newObject _

theorem nativeCall (f : Native) (args : List Value) {loc : Location} (hloc : C.Sited loc) :
    C.Rel (f.call call args loc) (f.call call' args loc) := by
  cases f with
  | console f => exact C.pure _
  | math f => exact C.consult _
  | stringify => exact C.bind (C.consultAt hloc fun heap => refuses_stringify heap _) C.untested
  | listing what => exact C.listing what _
  | array => exact C.makeArray args hloc
  | arrayFrom => exact C.arrayFrom hcall args hloc
  | isArray => exact C.pure _
  | number => exact C.consult _
  | isInteger => exact C.pure _
  | numberIsNaN => exact C.pure _
  | isNaN => exact C.consult _
  | string => exact C.bind (C.consult _) C.untested
  | bigint => exact C.consultAt hloc fun heap => (refuses_toBigint heap _).map
  | error => exact C.makeError args
  | parseInt => exact C.consult _
  | parseFloat => exact C.consult _

theorem callMethod (receiver : Value) (method : String) (args : List Value) {loc : Location}
    (hloc : C.Sited loc) :
    C.Rel (receiver.callMethod call method args loc)
      (receiver.callMethod call' method args loc) := by
  have hmember (value : Value) :
      C.Rel (Eval.consultAt loc (fun heap => value.member heap method) >>= fun f =>
          call f args method loc)
        (Eval.consultAt loc (fun heap => value.member heap method) >>= fun f =>
          call' f args method loc) :=
    C.bind (C.consultAt hloc fun heap => Value.refuses_member heap _ _) fun f =>
      hcall f args method loc hloc
  cases receiver with
  | array place => exact C.arrayMethod hcall place method args hloc
  | string s =>
      unfold Value.callMethod
      dsimp only
      split
      · exact C.bind (C.consult _) fun _ => C.newUnchecked _
      · refine C.bind (C.consultAt hloc fun heap => refuses_stringMethod heap s method args) ?_
        intro answer
        split
        · exact C.untested answer
        · exact C.pure answer
  | number x =>
      exact C.bind (C.consultAt hloc fun heap => refuses_numberMethod heap x method args) C.untested
  | bigint n =>
      unfold Value.callMethod
      dsimp only
      split
      · exact C.untested _
      · exact hcall _ args method loc hloc
  | undefined => exact hmember _
  | null => exact hmember _
  | bool b => exact hmember _
  | object place => exact hmember _
  | function place => exact hmember _
  | native f => exact hmember _

end Provided

/-- What expressions do to the state is done to the heap, apart from assignments. -/
def exprs : ExprConcord map where
  toConcord := C.toConcord
  slotWrite hloc := C.slotWrite hloc
  newUnchecked := C.newUnchecked
  newObject := C.newObject
  newClosure := C.newClosure
  callMethod hcall receiver method args _ hloc := C.callMethod hcall receiver method args hloc
  nativeCall hcall f args _ hloc := C.nativeCall hcall f args hloc

end Accord

/-- An accord that holds whatever is done to the environment, as long as only names in `Named`
are bound, and however many frames there are. -/
structure Correspondence (map : Array LineKind) extends Accord map where
  Looks : List String → Prop
  leaving : ∀ {α : Type} {leave : Environment → Environment} {m m' : Eval α},
    Environment.BindsOnly Named leave → Rel m m' →
    Rel (Eval.leaving leave m) (Eval.leaving leave m')
  tooDeep : ∀ {α : Type} {loc : Location}, Sited loc →
    Rel (Eval.raise loc .callDepth : Eval α) (Eval.raise loc .callDepth)
  exhausted : ∀ {α : Type}, Rel (Eval.stop .exhausted : Eval α) (Eval.stop .exhausted)
  changeEnv : ∀ {change : Environment → Environment}, Environment.BindsOnly Named change →
    Rel (Eval.changeEnv change) (Eval.changeEnv change)
  calling : Rel Eval.calling Eval.calling
  leaveWith : ∀ value : Value, Rel (Eval.leaveWith value) (Eval.leaveWith value)
  withClosure : ∀ {α : Type} (place : Nat) {k k' : Option Closure → Eval α},
    Rel (k none) (k' none) →
    (∀ placing closure, PlacedBy map placing →
      Within.Of Marked Named Spelled Sited closure.function →
      Rel (k (some closure)) (k' (some (closure.place placing)))) →
    Rel (Eval.closureAt place >>= k) (Eval.closureAt place >>= k')
  capture : ∀ {names : List String} {line : Nat}, Looks names → Marked line →
    Rel (Eval.capture names line) (Eval.capture names line)
  complete : ∀ {placing : Array LineKind} {suspending : Bool} {stmt : Stmt} {rest : List Stmt},
    PlacedBy map placing → (∀ line ∈ captures rest, Marked line) →
    Rel (Eval.complete stmt rest)
      (Eval.complete (placeStmt placing suspending stmt) (placeStmts placing suspending rest))
  completeCaptured : ∀ (names : List String) {suspending : Bool} {stmt : Stmt}
    {rest rest' : List Stmt} {line : Nat}, stmt.simpleLine? = some line →
    isExecutable map line = true → (∀ line ∈ captures rest, Marked line) →
    Rel (Eval.complete stmt rest)
      (Eval.complete (placeStmt map suspending stmt) (.capture line :: rest') >>= fun _ =>
        Eval.capture names line)

/-- Blocks and calls are changes of the environment before and after something. -/
def Correspondence.programs {map : Array LineKind} (C : Correspondence map) :
    ProgramConcord map where
  toExprConcord := C.exprs
  Looks := C.Looks
  block h := C.bind (C.changeEnv .enterBlock) fun _ => C.leaving .leaveBlock h
  frame name parent _ _ h :=
    C.bind (C.changeEnv (.enterCall name parent)) fun _ => C.leaving .leaveCall h
  exhausted := C.exhausted
  changeEnv hbinds _ := C.changeEnv hbinds
  calling {_ loc _ _} hloc h := by
    refine C.bind C.calling fun depth => ?_
    split
    · exact C.tooDeep hloc
    · exact h
  leaveWith := C.leaveWith
  withClosure := C.withClosure
  capture := C.capture
  complete := C.complete
  completeCaptured := C.completeCaptured

/-! ## Programs and themselves -/

/-- A relation that the constructs of the language respect and in which the captures of a
program need no attention, since they are the same on both sides. -/
structure Congruence where
  Rel : {α : Type} → Eval α → Eval α → Prop
  pure : ∀ {α : Type} (a : α), Rel (pure a) (pure a)
  bind : ∀ {α β : Type} {m m' : Eval α} {f f' : α → Eval β},
    Rel m m' → (∀ a, Rel (f a) (f' a)) → Rel (m >>= f) (m' >>= f')
  leaving : ∀ {α : Type} (leave : Environment → Environment) {m m' : Eval α},
    Rel m m' → Rel (Eval.leaving leave m) (Eval.leaving leave m')
  fault : ∀ {α : Type} (fault : Fault),
    Rel (Eval.stop (.fault fault) : Eval α) (Eval.stop (.fault fault))
  exhausted : ∀ {α : Type}, Rel (Eval.stop .exhausted : Eval α) (Eval.stop .exhausted)
  asking : ∀ {α β : Type} {question : Environment → Heap → α} {f f' : α → Eval β},
    (∀ env heap, Rel (f (question env heap)) (f' (question env heap))) →
    Rel (Eval.ask question >>= f) (Eval.ask question >>= f')
  changeEnv : ∀ change : Environment → Environment,
    Rel (Eval.changeEnv change) (Eval.changeEnv change)
  changeHeap : ∀ change : Heap → Heap, Heap.KeepsArrays change →
    Rel (Eval.changeHeap change) (Eval.changeHeap change)
  unchecked : ∀ array : Nat, Rel (Eval.unchecked array) (Eval.unchecked array)
  untested : ∀ value : Value, Rel (Eval.untested value) (Eval.untested value)
  calling : Rel Eval.calling Eval.calling
  leaveWith : ∀ value : Value, Rel (Eval.leaveWith value) (Eval.leaveWith value)
  newClosure : ∀ f : Function, Rel (Eval.newClosure f) (Eval.newClosure f)
  closureAt : ∀ place : Nat, Rel (Eval.closureAt place) (Eval.closureAt place)
  capture : ∀ (names : List String) (line : Nat),
    Rel (Eval.capture names line) (Eval.capture names line)
  complete : ∀ (stmt : Stmt) (rest : List Stmt),
    Rel (Eval.complete stmt rest) (Eval.complete stmt rest)

theorem Congruence.assign (C : Congruence) (loc : Location) (name : String) (value : Value) :
    C.Rel (Eval.assign loc name value) (Eval.assign loc name value) := by
  refine C.asking fun env heap => ?_
  rcases env.assignee name with (_ | _) | scope
  · exact C.fault _
  · exact C.fault _
  · exact C.changeEnv _

/-- The correspondence of programs with themselves, to which no captures are added. -/
def Congruence.correspondence (C : Congruence) : Correspondence #[] where
  Rel := C.Rel
  Marked _ := True
  Named _ := True
  Spelled _ := True
  Sited _ := True
  Looks _ := True
  pure := C.pure
  bind := C.bind
  leaving _ h := C.leaving _ h
  fault _ _ := C.fault _
  misspelled _ _ _ := C.fault _
  tooDeep _ := C.fault _
  exhausted := C.exhausted
  asking _ := C.asking
  changeEnv _ := C.changeEnv _
  calling := C.calling
  leaveWith := C.leaveWith
  assign _ := C.assign _
  changeHeap := C.changeHeap
  unchecked := C.unchecked
  untested := C.untested
  newClosure hp _ := by
    obtain rfl := hp.elim id id
    rw [placeFunction_empty]
    exact C.newClosure _
  withClosure place k k' hnone hsome := by
    refine C.bind (C.closureAt place) fun closure? => ?_
    cases closure? with
    | none => exact hnone
    | some closure =>
        have h := hsome #[] closure (Or.inl rfl)
          (Confined.within ⟨fun _ _ => trivial, fun _ _ => trivial⟩ _ _)
        rwa [Closure.place, placeFunction_empty] at h
  capture _ _ := C.capture _ _
  complete hp _ := by
    obtain rfl := hp.elim id id
    rw [placeStmt_empty, placeStmts_empty]
    exact C.complete _ _
  completeCaptured names _ _ _ _ _ _ hexec := by simp [isExecutable] at hexec

end StepTrace
