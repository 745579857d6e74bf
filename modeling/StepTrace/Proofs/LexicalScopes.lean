import StepTrace.Proofs.ScopeChains

/-!
# Lexical environments

Scopes form one tree that is reached from the frames of calls and from scopes that were saved
for closures, and bindings in it are made, changed and removed through all of them. What a name
stands for is nevertheless decided by the order of the changes alone (`Change.standing?`): it is
the value written last to the binding of the innermost scope around that has the name
(`lexical_scopes`).

A parent that is followed always has a smaller number, so the guards of `nearest?` and
`clearChain` never cut a chain short.
-/

namespace StepTrace

/-- A change of bindings. -/
inductive Change where
  | declared (scope : Nat) (name : String) (value : Value) (isConst : Bool)
  | assigned (scope : Nat) (name : String) (value : Value)
  /-- All bindings of these scopes are removed. -/
  | cleared (chain : List Nat)

/-- The binding of a name that changes, the latest of them first, leave in scope number `i`. -/
def Change.standing? (name : String) (i : Nat) : List Change → Option Binding
  | [] => none
  | .declared j x value isConst :: earlier =>
    if i = j ∧ name = x then some ⟨value, isConst⟩ else standing? name i earlier
  | .assigned j x value :: earlier =>
    if i = j ∧ name = x then (standing? name i earlier).map ({ · with value := value })
    else standing? name i earlier
  | .cleared chain :: earlier => if i ∈ chain then none else standing? name i earlier

namespace Environment

/-- What can be done with an environment. `saved` is the position of a scope that was saved. -/
inductive Operation where
  | declare (name : String) (value : Value) (isConst : Bool)
  | declareVar (name : String) (value : Value)
  | assign (name : String) (value : Value)
  | lookup (name : String)
  | enterBlock
  | leaveBlock
  | enterCall (name : String)
  | enterSaved (name : String) (saved : Nat)
  | leaveCall
  | save
  | clear (saved : Nat)

/-- An environment with the scopes that were saved and the changes of bindings so far, the
latest first. -/
structure Tracked where
  env : Environment
  saved : List Nat
  changes : List Change

namespace Tracked

/-- The root scope alone. -/
def initial : Tracked :=
  ⟨.initial, [], []⟩

/-- Carries out an operation. One that names no saved scope does nothing. -/
def perform (w : Tracked) : Operation → Tracked
  | .declare name value isConst =>
    { w with env := w.env.declare name value isConst
             changes := .declared w.env.current name value isConst :: w.changes }
  | .declareVar name value =>
    let i := w.env.scopes.functionScope w.env.current
    { w with env := w.env.declareVar name value
             changes := .declared i name value false :: w.changes }
  | .assign name value =>
    match w.env.assignee name with
    | .ok i => { w with env := w.env.store i name value
                        changes := .assigned i name value :: w.changes }
    | .error _ => w
  | .lookup _ => w
  | .enterBlock => { w with env := w.env.enterBlock }
  | .leaveBlock => { w with env := w.env.leaveBlock }
  | .enterCall name => { w with env := w.env.enterCall name 0 }
  | .enterSaved name saved =>
    match w.saved[saved]? with
    | some i => { w with env := w.env.enterCall name i }
    | none => w
  | .leaveCall => { w with env := w.env.leaveCall }
  | .save => { w with saved := w.saved ++ [w.env.current] }
  | .clear saved =>
    match w.saved[saved]? with
    | some i => { w with env := { w.env with scopes := w.env.scopes.clearChain i }
                         changes := .cleared (w.env.scopes.outwards i) :: w.changes }
    | none => w

theorem perform_assign_ok {w : Tracked} {name : String} {i : Nat}
    (h : w.env.assignee name = .ok i) (value : Value) :
    w.perform (.assign name value) =
      { w with env := w.env.store i name value
               changes := .assigned i name value :: w.changes } := by
  simp only [perform, h]

theorem perform_assign_error {w : Tracked} {name : String} {refusal : AssignRefusal}
    (h : w.env.assignee name = .error refusal) (value : Value) :
    w.perform (.assign name value) = w := by
  simp only [perform, h]

/-- Carries out operations one after the other. -/
def run (w : Tracked) (operations : List Operation) : Tracked :=
  operations.foldl perform w

/-! ## What every operation preserves -/

/-- The scopes form a tree, frames and saved scopes are in it, and every binding is the one that
the changes leave. -/
structure Valid (w : Tracked) : Prop extends Environment.Valid w.env where
  saved : ∀ i ∈ w.saved, i < w.env.scopes.size
  standing : ∀ name i, w.env.scopes.binding? name i = Change.standing? name i w.changes

theorem valid_initial : initial.Valid := by
  refine ⟨Environment.valid_initial, ?_, fun name i => ?_⟩
  · simp [initial]
  · cases i with
    | zero => simp [initial, Environment.initial, Scopes.root, Scopes.binding?, Scope.blank,
        Change.standing?]
    | succ i => simp [initial, Environment.initial, Scopes.root, Scopes.binding?, Change.standing?]

namespace Valid

variable {w : Tracked}

/-- Changes of bindings in a tree that stays as it is. -/
theorem rebind (h : w.Valid) {scopes : Scopes} {changes : List Change}
    (hplace : ∀ j, scopes.place? j = w.env.scopes.place? j)
    (hstanding : ∀ name i, scopes.binding? name i = Change.standing? name i changes) :
    Valid { w with env := { w.env with scopes }, changes } := by
  refine ⟨h.toValid.of_place? hplace, fun i hi => ?_, hstanding⟩
  rw [← Scopes.isSome_place?, hplace i]
  exact Scopes.isSome_place?.mpr (h.saved i hi)

theorem declareIn (h : w.Valid) {i : Nat} (hi : i < w.env.scopes.size) (name : String)
    (value : Value) (isConst : Bool) :
    Valid { w with env := w.env.declareIn i name value isConst
                   changes := .declared i name value isConst :: w.changes } := by
  refine h.rebind (Scopes.place?_declare _ i name value isConst) ?_
  intro x j
  rw [Scopes.binding?_declare_eq, Change.standing?, h.standing x j]
  simp [hi]

/-- A new scope in one that is there, in which the first of the frames then is. -/
theorem push (h : w.Valid) {parent : Nat} (hparent : parent < w.env.scopes.size)
    (isFunction : Bool) {frame : Frame} {rest : List Frame}
    (hframe : frame.scope = w.env.scopes.size)
    (hrest : ∀ other ∈ rest, other ∈ w.env.frames) :
    Valid { w with env := ⟨w.env.scopes.push (.blank (some parent) isFunction),
      frame :: rest⟩ } := by
  refine ⟨h.toValid.push hparent isFunction hframe hrest, fun i hi => ?_, fun x j => ?_⟩
  · have := h.saved i hi
    rw [Array.size_push]
    omega
  · exact (Scopes.binding?_push _ _ _ x j).trans (h.standing x j)

/-- An assignment goes to a scope that binds the name, and the binding there is not constant. -/
theorem assignee_ok (h : w.Valid) {name : String} {i j : Nat}
    (hassignee : w.env.scopes.assignee name i = .ok j) :
    ∃ binding, Change.standing? name j w.changes = some binding ∧ binding.isConst = false := by
  rw [← h.standing]
  exact (Scopes.holder?_of_assignee hassignee).2

theorem store (h : w.Valid) {name : String} {i j : Nat}
    (hassignee : w.env.scopes.assignee name i = .ok j) (value : Value) :
    Valid { w with env := w.env.store j name value
                   changes := .assigned j name value :: w.changes } := by
  obtain ⟨binding, hstanding, hconst⟩ := h.assignee_ok hassignee
  have hj : j < w.env.scopes.size := Scopes.lt_of_binding? ((h.standing name j).trans hstanding)
  refine h.rebind (Scopes.place?_declare _ j name value false) ?_
  intro x k
  rw [Scopes.binding?_declare_eq, Change.standing?, h.standing x k]
  by_cases hsame : k = j ∧ x = name
  · obtain ⟨rfl, rfl⟩ := hsame
    simp [hj, hstanding, hconst]
  · rw [if_neg hsame, if_neg fun h => hsame ⟨h.1, h.2.1⟩]

theorem enterBlock (h : w.Valid) : Valid { w with env := w.env.enterBlock } := by
  obtain ⟨⟨scopes, _ | ⟨frame, rest⟩⟩, saved, changes⟩ := w
  · exact h
  · exact h.push (h.frames frame List.mem_cons_self) false rfl
      fun _ hother => List.mem_cons_of_mem _ hother

theorem leaveBlock (h : w.Valid) : Valid { w with env := w.env.leaveBlock } := by
  have hscopes : w.env.leaveBlock.scopes = w.env.scopes := Environment.scopes_leaveBlock w.env
  refine ⟨h.toValid.leaveBlock, ?_, ?_⟩
  · rw [hscopes]
    exact h.saved
  · rw [hscopes]
    exact h.standing

theorem save (h : w.Valid) : Valid { w with saved := w.saved ++ [w.env.current] } := by
  refine ⟨h.toValid, fun i hi => ?_, h.standing⟩
  rcases List.mem_append.mp hi with hi | hi
  · exact h.saved i hi
  · obtain rfl := List.mem_singleton.mp hi
    exact h.current_lt

theorem clearChain (h : w.Valid) (i : Nat) :
    Valid { w with env := { w.env with scopes := w.env.scopes.clearChain i }
                   changes := .cleared (w.env.scopes.outwards i) :: w.changes } := by
  refine h.rebind (Scopes.place?_clearChain _ i) ?_
  intro x j
  rw [Scopes.binding?_clearChain, Change.standing?, h.standing x j]

theorem perform (h : w.Valid) (operation : Operation) : (w.perform operation).Valid := by
  cases operation with
  | declare name value isConst => exact h.declareIn h.current_lt name value isConst
  | declareVar name value =>
      exact h.declareIn (h.rooted.functionScope_lt h.current_lt) name value false
  | assign name value =>
      cases hassignee : w.env.assignee name with
      | ok i =>
          rw [perform_assign_ok hassignee]
          exact h.store hassignee value
      | error refusal =>
          rw [perform_assign_error hassignee]
          exact h
  | lookup name => exact h
  | enterBlock => exact h.enterBlock
  | leaveBlock => exact h.leaveBlock
  | enterCall name => exact h.push h.rooted.size_pos true rfl fun _ hother => hother
  | enterSaved name saved =>
      simp only [Tracked.perform]
      split
      · next i hsaved =>
          exact h.push (h.saved i (List.mem_of_getElem? hsaved)) true rfl fun _ hother => hother
      · exact h
  | leaveCall => exact ⟨h.toValid.leaveCall, h.saved, h.standing⟩
  | save => exact h.save
  | clear saved =>
      simp only [Tracked.perform]
      split
      · exact h.clearChain _
      · exact h

theorem run (h : w.Valid) (operations : List Operation) : (w.run operations).Valid := by
  induction operations generalizing w with
  | nil => exact h
  | cons operation rest ih => exact ih (h.perform operation)

end Valid

end Tracked

end Environment

/-! ## What names mean -/

open Environment (Tracked Operation)

/-- What is asked of the scopes from number `i` outwards, where `changes` say which bindings
there are. -/
structure Scopes.LexicalAt (scopes : Scopes) (changes : List Change) (i : Nat) : Prop where
  first : (scopes.outwards i).head? = some i
  linked : (scopes.outwards i).IsChain fun a b => scopes.parent? a = some b
  acyclic : (scopes.outwards i).Nodup
  last : (scopes.outwards i).getLast? = some 0
  lookup : ∀ name, scopes.lookup? name i =
    (innermost? (scopes.outwards i) (Change.standing? name · changes)).map (·.2.value)
  undeclared : ∀ name, scopes.assignee name i = .error .undeclared ↔
    innermost? (scopes.outwards i) (Change.standing? name · changes) = none
  constant : ∀ name, scopes.assignee name i = .error .constant ↔
    ∃ j value, innermost? (scopes.outwards i) (Change.standing? name · changes) =
      some (j, ⟨value, true⟩)
  assignable : ∀ name j, scopes.assignee name i = .ok j ↔
    ∃ value, innermost? (scopes.outwards i) (Change.standing? name · changes) =
      some (j, ⟨value, false⟩)
  functionScope : (scopes.outwards i).find? (fun j => (scopes.place? j).any Prod.snd) =
    some (scopes.functionScope i)

/-- Only the binding of the name in scope number `i` is another one. -/
structure Scopes.Rebound (scopes scopes' : Scopes) (i : Nat) (name : String) (binding : Binding) :
    Prop where
  place : ∀ j, scopes'.place? j = scopes.place? j
  binding : ∀ x j, scopes'.binding? x j =
    if j = i ∧ x = name then some binding else scopes.binding? x j

theorem Environment.Tracked.Valid.lexicalAt {w : Tracked} (h : w.Valid) {i : Nat}
    (hi : i < w.env.scopes.size) : w.env.scopes.LexicalAt w.changes i := by
  have hstanding (name : String) : w.env.scopes.binding? name =
      (Change.standing? name · w.changes) := funext (h.standing name)
  refine ⟨Scopes.head?_outwards _ i, Scopes.isChain_outwards _ i, Scopes.nodup_outwards _ i,
    h.rooted.getLast?_outwards hi, fun name => ?_, fun name => ?_, fun name => ?_,
    fun name j => ?_, h.rooted.find?_functionScope hi⟩
  · rw [Scopes.lookup?_eq, hstanding]
  all_goals
    rw [Scopes.assignee_eq, hstanding]
    rcases Scopes.innermost? (w.env.scopes.outwards i) (Change.standing? name · w.changes) with
      _ | ⟨k, value, _ | _⟩
  all_goals simp

theorem Scopes.rebound_declare {scopes : Scopes} {i : Nat} (hi : i < scopes.size) (name : String)
    (value : Value) (isConst : Bool) :
    scopes.Rebound (scopes.declare i name value isConst) i name ⟨value, isConst⟩ := by
  refine ⟨Scopes.place?_declare scopes i name value isConst, fun x j => ?_⟩
  rw [Scopes.binding?_declare_eq]
  simp [hi]

/-- **Scopes are lexical environments.** Whatever was done with an environment, every chain of
scopes ends at the root and meets no scope twice, and a name means what was written last to the
innermost binding on the chain. An assignment changes that binding and nothing else, or is
refused and changes nothing; `var` binds in the nearest scope of a function. -/
theorem lexical_scopes (operations : List Operation) :
    let w := Tracked.initial.run operations
    w.env.scopes.parent? 0 = none ∧ w.env.current < w.env.scopes.size ∧
    (∀ i < w.env.scopes.size, w.env.scopes.LexicalAt w.changes i) ∧
    (∀ name value refusal, w.env.assignee name = .error refusal →
      w.perform (.assign name value) = w) ∧
    (∀ name value j, w.env.assignee name = .ok j →
      let after := w.perform (.assign name value)
      after.env.frames = w.env.frames ∧ after.saved = w.saved ∧
      ∃ binding, w.env.scopes.binding? name j = some binding ∧
        w.env.scopes.Rebound after.env.scopes j name { binding with value := value }) ∧
    ∀ name value,
      let after := w.perform (.declareVar name value)
      after.env.frames = w.env.frames ∧ after.saved = w.saved ∧
      w.env.scopes.Rebound after.env.scopes (w.env.scopes.functionScope w.env.current) name
        ⟨value, false⟩ := by
  intro w
  have h : w.Valid := Tracked.valid_initial.run operations
  refine ⟨h.rooted.parent?_zero, h.current_lt, fun i hi => h.lexicalAt hi, ?_, ?_, ?_⟩
  · intro name value refusal hrefused
    exact Tracked.perform_assign_error hrefused value
  · intro name value j hassignee
    obtain ⟨⟨old, isConst⟩, hstanding, hconst⟩ := h.assignee_ok hassignee
    have hold := (h.standing name j).trans hstanding
    obtain rfl : isConst = false := hconst
    rw [Tracked.perform_assign_ok hassignee]
    exact ⟨rfl, rfl, _, hold, Scopes.rebound_declare (Scopes.lt_of_binding? hold) name value false⟩
  · intro name value
    exact ⟨rfl, rfl, Scopes.rebound_declare (h.rooted.functionScope_lt h.current_lt) name value
      false⟩

end StepTrace
