import StepTrace.Builtin.NativeCall
import StepTrace.Proofs.Ends

/-!
# Methods that apply a callback

A callback is code of the program: it may change the array whose method applies it, hand over steps
and stop the run. The methods go through the elements that the array had at the call all the same.
Whatever the callback does, it is applied to these elements in order, each time in the state that
the application before has left, until the method has its answer, the elements are at their end or
an application is stopped (`AppliesInTurn`).

* `Applied`: applications one after the other.
* `Search.Visited`, `Search.conclusion`: which elements a method visits, and what it answers.
-/

namespace StepTrace.Builtin

open Syntax (Location)

/-- The callback has been applied to elements one after the other, with nothing in between. Each
application is given an element and the number of those before it; each has a result. -/
inductive Applied (apply : Value → Nat → Eval Value) (s : State) :
    List (Value × Value) → State → Prop
  | none : Applied apply s [] s
  | more {applied : List (Value × Value)} {s₁ s₂ : State} {item result : Value}
    (h : Applied apply s applied s₁) (hend : (apply item applied.length s₁).MayEnd result s₂) :
    Applied apply s (applied ++ [(item, result)]) s₂

namespace Search

/-- Whether the method has its answer when an application has the result. -/
def stops : Search → Value → Bool
  | .some, result | .find, result | .findIndex, result => result.isTruthy
  | .every, result => ! result.isTruthy
  | .map, _ | .forEach, _ | .filter, _ => false

/-- No application has a result at which the method stops. -/
def Unanswered (method : Search) (applied : List (Value × Value)) : Prop :=
  ∀ a ∈ applied, method.stops a.2 = false

/-- The elements were visited from the first one on, up to the first result at which the method
stops, or to the last element. -/
inductive Visited (method : Search) (items : List Value) : List (Value × Value) → Prop
  | all {applied : List (Value × Value)} (hitems : applied.map Prod.fst = items)
    (hresults : method.Unanswered applied) : Visited method items applied
  | early {before : List (Value × Value)} {item result : Value}
    (hitems : before.map Prod.fst ++ [item] <+: items) (hresults : method.Unanswered before)
    (hstops : method.stops result = true) : Visited method items (before ++ [(item, result)])

/-- An application was stopped; the ones before it had no result at which the method stops. -/
def CutShort (method : Search) (apply : Value → Nat → Eval Value) (items : List Value) (s : State)
    (stop : Stop) (s' : State) : Prop :=
  ∃ before item s₁, Applied apply s before s₁ ∧ before.map Prod.fst ++ [item] <+: items ∧
    method.Unanswered before ∧ (apply item before.length s₁).MayStop stop s'

/-- What the method answers after the applications. -/
def conclusion (method : Search) (applied : List (Value × Value)) : Eval Value :=
  match method with
  | .map => Eval.newArray (applied.map Prod.snd).toArray
  | .forEach => pure .undefined
  | .filter => Eval.newArray ((applied.filter (·.2.isTruthy)).map Prod.fst).toArray
  | .some => pure (.bool (applied.any (·.2.isTruthy)))
  | .every => pure (.bool (applied.all (·.2.isTruthy)))
  | .find => pure (((applied.find? (·.2.isTruthy)).map Prod.fst).getD .undefined)
  | .findIndex =>
    pure (((applied.findIdx? (·.2.isTruthy)).map Value.ofCount).getD (.number (-1)))

variable {method : Search} {apply : Value → Nat → Eval Value} {items : List Value}
  {s s₁ : State} {done : List (Value × Value)} {item result answer : Value}

/-- All that the method has kept of the applications. -/
def kept (method : Search) (applied : List (Value × Value)) : Array Value :=
  (applied.flatMap fun a => method.keep a.1 a.2).toArray

theorem unanswered_append : method.Unanswered (done ++ [(item, result)]) ↔
    method.Unanswered done ∧ method.stops result = false := by
  simp [Unanswered, or_imp, forall_and]

/-! ## The answer -/

theorem isSome_answer? (method : Search) (index : Nat) (item result : Value) :
    (method.answer? index item result).isSome = method.stops result := by
  cases method <;> cases h : result.isTruthy <;> simp [answer?, stops, h]

theorem kept_map (applied : List (Value × Value)) :
    Search.map.kept applied = (applied.map Prod.snd).toArray :=
  congrArg List.toArray List.map_eq_flatMap.symm

theorem kept_filter (applied : List (Value × Value)) :
    Search.filter.kept applied = ((applied.filter (·.2.isTruthy)).map Prod.fst).toArray := by
  refine congrArg List.toArray ?_
  induction applied with
  | nil => rfl
  | cons a rest ih =>
      rw [List.flatMap_cons, List.filter_cons, ih]
      simp only [keep]
      split
      · rfl
      · rfl

/-- A method that looks for a truthy result has found none. -/
theorem Unanswered.not_truthy (h : method.Unanswered done)
    (hstops : method.stops = Value.isTruthy) : ∀ a ∈ done, ¬ a.2.isTruthy = true := by
  intro a ha
  rw [← hstops, h a ha]
  exact Bool.false_ne_true

theorem find?_eq_none (h : Search.find.Unanswered done) :
    done.find? (·.2.isTruthy) = none :=
  List.find?_eq_none.mpr (h.not_truthy rfl)

theorem findIdx?_eq_none (h : Search.findIndex.Unanswered done) :
    done.findIdx? (·.2.isTruthy) = none :=
  List.findIdx?_eq_none_iff.mpr h

/-- The answer after the last element. -/
theorem finish_kept (h : method.Unanswered done) :
    method.finish (method.kept done) = method.conclusion done := by
  cases method with
  | map => rw [kept_map]; rfl
  | forEach => rfl
  | filter => rw [kept_filter]; rfl
  | some =>
      have hnone : done.any (·.2.isTruthy) = false :=
        List.any_eq_false.mpr (h.not_truthy rfl)
      rw [conclusion, hnone]
      rfl
  | every =>
      have hall : done.all (·.2.isTruthy) = true :=
        List.all_eq_true.mpr fun a ha => by simpa [stops] using h a ha
      rw [conclusion, hall]
      rfl
  | find =>
      rw [conclusion, find?_eq_none h]
      rfl
  | findIndex =>
      rw [conclusion, findIdx?_eq_none h]
      rfl

/-- The answer at the first result at which the method stops. -/
theorem pure_answer (h : method.Unanswered done)
    (hanswer : method.answer? done.length item result = Option.some answer) :
    pure answer = method.conclusion (done ++ [(item, result)]) := by
  cases method with
  | map => cases hanswer
  | forEach => cases hanswer
  | filter => cases hanswer
  | some =>
      obtain ⟨htruthy, ⟨⟩⟩ := Option.ite_none_right_eq_some.mp hanswer
      rw [conclusion, List.any_append]
      simp [htruthy]
  | every =>
      obtain ⟨htruthy, ⟨⟩⟩ := Option.ite_none_left_eq_some.mp hanswer
      rw [conclusion, List.all_append]
      simp [htruthy]
  | find =>
      obtain ⟨htruthy, ⟨⟩⟩ := Option.ite_none_right_eq_some.mp hanswer
      rw [conclusion, List.find?_append, find?_eq_none h]
      simp [htruthy]
  | findIndex =>
      obtain ⟨htruthy, ⟨⟩⟩ := Option.ite_none_right_eq_some.mp hanswer
      rw [conclusion, List.findIdx?_append, findIdx?_eq_none h]
      simp [htruthy, List.findIdx?_cons]

/-- The answer is given at once, whatever it is. -/
theorem exists_conclusion (method : Search) (applied : List (Value × Value)) (s : State) :
    ∃ answer s', method.conclusion applied s = .done answer s' := by
  cases method <;> exact ⟨_, _, rfl⟩

/-! ## The applications -/

/-- Behind applications that have not given the answer, the method applies the callback to the
elements that are left. -/
theorem continue_ends (rest : List Value) (hdone : Applied apply s done s₁)
    (hresults : method.Unanswered done) (hitems : done.map Prod.fst ++ rest = items) :
    (method.continue apply done.length (method.kept done) rest s₁).Ends
      (fun answer s' => ∃ applied s₂, Applied apply s applied s₂ ∧ method.Visited items applied ∧
        method.conclusion applied s₂ = .done answer s')
      (method.CutShort apply items s) := by
  -- by induction on the elements that are left; the applications so far are carried along, since
  -- what the method has kept and the next index are told from them
  induction rest generalizing done s₁ with
  | nil =>
      obtain ⟨answer, s', hanswer⟩ := method.exists_conclusion done s₁
      rw [Search.continue, finish_kept hresults, hanswer]
      exact ⟨done, s₁, hdone, .all (by simpa using hitems) hresults, hanswer⟩
  | cons item rest ih =>
      have hfront : done.map Prod.fst ++ [item] <+: items := ⟨rest, by simp [← hitems]⟩
      rw [Search.continue]
      have happly : (apply item done.length s₁).Ends (apply item done.length s₁).MayEnd
          (method.CutShort apply items s) :=
        (Process.ends_may _).mono (fun _ _ => id) fun stop s' hstop =>
          ⟨done, item, s₁, hdone, hfront, hresults, hstop⟩
      refine happly.bind fun result s₂ hend => ?_
      have hmore := hdone.more hend
      cases hanswer : method.answer? done.length item result with
      | some answer =>
          have hstops : method.stops result = true := by
            rw [← isSome_answer? method done.length item result, hanswer]
            rfl
          refine ⟨_, s₂, hmore, .early hfront hresults hstops, ?_⟩
          rw [← pure_answer hresults hanswer]
          rfl
      | none =>
          have hstops : method.stops result = false := by
            rw [← isSome_answer? method done.length item result, hanswer]
            rfl
          have hkept : method.kept done ++ method.keep item result =
              method.kept (done ++ [(item, result)]) := by simp [kept]
          have hmoreItems : (done ++ [(item, result)]).map Prod.fst ++ rest = items := by
            simp [← hitems]
          have hrest := ih hmore (unanswered_append.mpr ⟨hresults, hstops⟩) hmoreItems
          rw [List.length_append] at hrest
          rw [hkept]
          exact hrest

end Search

theorem reduceFrom_eq_foldlM (apply : Value → Value → Nat → Eval Value) (index : Nat)
    (value : Value) (items : List Value) :
    reduceFrom apply index value items =
      (items.zipIdx index).foldlM (fun value item => apply value item.1 item.2) value := by
  induction items generalizing index value with
  | nil => rfl
  | cons item rest ih => simp only [reduceFrom, List.zipIdx_cons, List.foldlM_cons, ih]

/-- What the methods that apply a callback do in a state. The elements are those that the array has
in that state, whatever becomes of it. -/
structure AppliesInTurn (call : Caller) (array : Nat) (args : List Value) (loc : Location)
    (s : State) : Prop where
  /-- Elements are visited in order; the answer is that of the applications, which leave the state
  in which it is given, and only an application is stopped. -/
  search (method : Search) (h : (argument args 0).isFunction = true) :
    let items := (s.heap.items array).toList
    let apply := fun item index =>
      call (argument args 0) [item, .ofCount index, .array array] method.name loc
    ((Value.array array).callMethod call method.name args loc s).Ends
      (fun answer s' => ∃ applied s₁, Applied apply s applied s₁ ∧ method.Visited items applied ∧
        method.conclusion applied s₁ = .done answer s')
      (method.CutShort apply items s)
  /-- What is no function is not applied. -/
  refused (method : Search) (h : (argument args 0).isFunction = false) :
    (Value.array array).callMethod call method.name args loc s =
      .stopped (.fault ⟨.notCallback ((argument args 0).text s.heap), loc⟩) s
  /-- A reduction is a fold from the left over the elements, or over those behind the first one. -/
  reduce :
    let apply := fun value (item : Value × Nat) =>
      call (argument args 0) [value, item.1, .ofCount item.2, .array array] "reduce callback" loc
    (Value.array array).callMethod call "reduce" args loc s =
      match args[1]?, (s.heap.items array).toList with
      | some start, items => items.zipIdx.foldlM apply start s
      | none, first :: rest => (rest.zipIdx 1).foldlM apply first s
      | none, [] => .stopped (.fault ⟨.emptyReduction, loc⟩) s

theorem callMethod_name (call : Caller) (method : Search) (array : Nat) (args : List Value)
    (loc : Location) :
    (Value.array array).callMethod call method.name args loc = method.run call array args loc := by
  cases method <;> rfl

/-- **Callbacks run on a copy.** For every caller, that is for all that a callback may do. -/
theorem appliesInTurn (call : Caller) (array : Nat) (args : List Value) (loc : Location)
    (s : State) : AppliesInTurn call array args loc s where
  search := by
    intro method h items apply
    have hrun : method.run call array args loc s = method.continue apply 0 #[] items s := by
      unfold Search.run
      dsimp only
      rw [h]
      rfl
    rw [callMethod_name, hrun]
    exact Search.continue_ends items .none (List.forall_mem_nil _) rfl
  refused := by
    intro method h
    rw [callMethod_name]
    unfold Search.run
    dsimp only
    rw [h]
    rfl
  reduce := by
    intro apply
    change (match args[1]?, (s.heap.items array).toList with
      | some start, items => reduceFrom _ 0 start items
      | none, first :: rest => reduceFrom _ 1 first rest
      | none, [] => Eval.raise loc .emptyReduction : Eval Value) s = _
    generalize args[1]? = start, (s.heap.items array).toList = items
    rcases start with _ | start
    · rcases items with _ | ⟨first, rest⟩
      · rfl
      · exact congrFun (reduceFrom_eq_foldlM _ 1 first rest) s
    · exact congrFun (reduceFrom_eq_foldlM _ 0 start items) s

end StepTrace.Builtin
