import StepTrace.Proofs.CorrespondingPrograms
import StepTrace.Proofs.Passages

/-!
# Disciplines of a frame

A statement is the work of the frame in which it is carried out. Blocks are entered and left in
it, a loop goes on from the block of one round to that of the next, and the calls that are made
have frames of their own. What holds of all such work follows from what holds of its pieces: a
`Discipline` lists what has to be known of them. Expressions are covered by an accord, since all
that they do with frames they do by calls. Statements need an induction of their own, because in
a block, and between the rounds of a loop, the frame is not where it was before. The induction
around both is on the number of nested calls.

* `Station`: where the frame of running code is.
* `Discipline.expr`, `Discipline.stmt`, `Discipline.callers`: expressions, statements and calls
  keep every discipline.
-/

namespace StepTrace

open Syntax

variable {α β : Type}

/-- Where code runs: with exactly these frames, or with the same frames but in a block of the
scope that the first of them has. -/
inductive Station where
  | outer (frames : List Frame)
  | inner (frames : List Frame)

/-- What is known of the pieces that the work of a frame is made of. `own` are the values that
the work has returned, depending on how it ends. -/
structure Discipline where
  Runs : {α : Type} → Station → (α → List Value) → Eval α → Prop
  done : ∀ {α : Type} {station : Station} {own : α → List Value} {a : α}, own a = [] →
    Runs station own (pure a)
  exhausted : ∀ {α : Type} {station : Station} {own : α → List Value},
    Runs station own (Eval.stop .exhausted)
  fault : ∀ {α : Type} {station : Station} {own : α → List Value} {fault : Fault},
    fault.cause ≠ .callDepth → Runs station own (Eval.stop (.fault fault))
  bind : ∀ {α β : Type} {station : Station} {own : β → List Value} {m : Eval α} {f : α → Eval β},
    Runs station silent m → (∀ a, Runs station own (f a)) → Runs station own (m >>= f)
  /-- Behind a statement that may have returned, nothing happens if it has. -/
  unlessReturned : ∀ {station : Station} {m : Eval Completion} {f : Completion → Eval Completion},
    Runs station Completion.returned m → (∀ value, f (.return value) = pure (.return value)) →
    (∀ c, c.returned = [] → Runs station Completion.returned (f c)) →
    Runs station Completion.returned (m >>= f)
  asking : ∀ {α β : Type} {station : Station} {own : β → List Value}
    {question : Environment → Heap → α} {f : α → Eval β},
    (∀ env heap, Runs station own (f (question env heap))) →
    Runs station own (Eval.ask question >>= f)
  assign : ∀ {station : Station} (loc : Location) (name : String) (value : Value),
    Runs station silent (Eval.assign loc name value)
  changeHeap : ∀ {station : Station} (change : Heap → Heap),
    Runs station silent (Eval.changeHeap change)
  unchecked : ∀ {station : Station} (array : Nat), Runs station silent (Eval.unchecked array)
  untested : ∀ {station : Station} (value : Value), Runs station silent (Eval.untested value)
  newClosure : ∀ {station : Station} (f : Function), Runs station silent (Eval.newClosure f)
  capture : ∀ {station : Station} (names : List String) (line : Nat),
    Runs station silent (Eval.capture names line)
  complete : ∀ {station : Station} (stmt : Stmt) (rest : List Stmt),
    Runs station silent (Eval.complete stmt rest)
  leaveWith : ∀ {station : Station} (value : Value),
    Runs station Completion.returned (Eval.leaveWith value)
  bindAll : ∀ {station : Station} (kind : DeclKind) (entries : List (String × Value)),
    Runs station silent (Eval.changeEnv (·.bindAll kind entries))
  /-- A loop goes on in a block of the same scope. -/
  nextRound : ∀ {frames : List Frame} (names : List String),
    Runs (.inner frames) silent (Eval.changeEnv (nextRound names))
  /-- What leads back to the same frames leads back to the same block, too. -/
  inside : ∀ {α : Type} {own : α → List Value} {m : Eval α} (frames : List Frame),
    (∀ frames, Runs (.outer frames) own m) → Runs (.inner frames) own m
  block : ∀ {α : Type} {own : α → List Value} {m : Eval α} {frames : List Frame},
    Runs (.inner frames) own m → Runs (.outer frames) own (Eval.block m)
  /-- A call, if the bodies of functions keep the discipline. -/
  call : ∀ {on : Setting} {frames : List Frame},
    (∀ closure args frames, Runs (.outer frames) Completion.returned (callBody on closure args)) →
    ∀ (place : Nat) (args : List Value) (loc : Location) {k : Option Closure → Eval Value},
    Runs (.outer frames) silent (k none) →
    (∀ closure, k (some closure) = callClosure on closure args loc) →
    Runs (.outer frames) silent (Eval.closureAt place >>= k)

namespace Discipline

variable (D : Discipline) {station : Station}

/-- The discipline as it is kept by expressions, which lead back to the same frames. -/
def accord : Accord #[] where
  Rel _ m := ∀ frames, D.Runs (.outer frames) silent m
  Marked _ := True
  Named _ := True
  Spelled _ := True
  Sited _ := True
  pure _ _ := D.done rfl
  bind hm hf frames := D.bind (hm frames) fun a => hf a frames
  fault hordinary _ _ := D.fault (by rintro h; rw [h] at hordinary; exact hordinary)
  misspelled _ _ _ _ := D.fault nofun
  asking _ hf frames := D.asking fun env heap => hf env heap frames
  assign _ name value _ := D.assign _ name value
  changeHeap change _ _ := D.changeHeap change
  unchecked array _ := D.unchecked array
  untested value _ := D.untested value
  newClosure _ _ _ := D.newClosure _

section Statements

variable {on : Setting} (hcall : D.accord.Callers on.call on.call)

/-! ## Loops -/

/-- What a loop makes of a body that has ended. -/
theorem round {m next : Eval Completion} (h : D.Runs station Completion.returned m)
    (hnext : D.Runs station Completion.returned next) :
    D.Runs station Completion.returned (m >>= fun c =>
      match c.endsLoop? with
      | some completion => pure completion
      | none => next) := by
  refine D.unlessReturned h (fun value => rfl) fun c hc => ?_
  cases c with
  | normal => exact hnext
  | «break» => exact D.done rfl
  | «continue» => exact hnext
  | «return» value => cases hc

theorem rounds {test : Eval Bool} {body : Eval Completion} {next : Eval Unit}
    (htest : D.Runs station silent test) (hbody : D.Runs station Completion.returned body)
    (hnext : D.Runs station silent next) (bound : Nat) :
    D.Runs station Completion.returned (Eval.rounds test body next bound) := by
  induction bound with
  | zero => exact D.exhausted
  | succ bound ih =>
      refine D.bind htest fun goesOn => ?_
      split
      · exact D.round hbody (D.bind hnext fun _ => ih)
      · exact D.done rfl

theorem forEach {body : Value → Eval Completion}
    (h : ∀ item, D.Runs station Completion.returned (body item)) (items : List Value) :
    D.Runs station Completion.returned (Eval.forEach body items) := by
  induction items with
  | nil => exact D.done rfl
  | cons item rest ih => exact D.round (h item) ih

/-! ## Expressions and declarations -/

include hcall in
theorem expr (e : Expr) (frames : List Frame) : D.Runs (.outer frames) silent (evalExpr on e) :=
  D.accord.exprSame hcall e (Confined.within ⟨fun _ _ => trivial, fun _ _ => trivial⟩ _ _) frames

include hcall in
theorem condition (e : Expr) (frames : List Frame) :
    D.Runs (.outer frames) silent (evalCondition on e) :=
  D.bind (D.expr hcall e frames) fun _ => D.done rfl

theorem bindTarget (kind : DeclKind) (target : Binder) (value : Value) (loc : Location)
    (frames : List Frame) :
    D.Runs (.outer frames) silent (StepTrace.bind kind target value loc) := by
  cases target with
  | name name => exact D.bindAll kind [(name, value)]
  | list names =>
      have hloc : D.accord.Sited loc := trivial
      have hitems := D.accord.consultAt hloc fun heap =>
        Value.refuses_firstElements heap value names.length
      exact D.bind (hitems frames) fun items => D.bindAll kind (names.zip items)

include hcall

theorem optional (value : Option Expr) (frames : List Frame) :
    D.Runs (.outer frames) silent (value.elim (pure .undefined) (evalExpr on)) := by
  cases value with
  | none => exact D.done rfl
  | some e => exact D.expr hcall e frames

theorem declarators (kind : DeclKind) (loc : Location) (frames : List Frame)
    (ds : List Declarator) : D.Runs (.outer frames) silent (execDeclarators on kind loc ds) := by
  induction ds with
  | nil =>
      rw [execDeclarators]
      exact D.done rfl
  | cons d rest ih =>
      obtain ⟨target, value⟩ := d
      rw [execDeclarators_cons]
      refine D.bind (D.optional hcall value frames) fun value => ?_
      exact D.bind (D.bindTarget kind target value loc frames) fun _ => ih

theorem start (frames : List Frame) :
    ∀ first : Option ForStart, D.Runs (.outer frames) silent (execStart on first)
  | none => D.done rfl
  | some (.declare kind ds loc) => D.declarators hcall kind loc frames ds
  | some (.expr e _) => D.bind (D.expr hcall e frames) fun _ => D.done rfl

/-- The next round of a loop goes on in another scope, but in the block of the loop. -/
theorem step (names : List String) (next : Option Expr) (frames : List Frame) :
    D.Runs (.inner frames) silent (execStep on names next) := by
  have hround : D.Runs (.inner frames) silent (Eval.changeEnv (StepTrace.nextRound names)) :=
    D.nextRound names
  unfold execStep
  cases next with
  | none =>
      dsimp only
      split
      · exact D.bind hround fun _ => D.done rfl
      · exact D.done rfl
  | some e =>
      have he := D.inside frames (D.expr hcall e)
      dsimp only
      split
      · exact D.bind hround fun _ => D.bind he fun _ => D.done rfl
      · exact D.bind he fun _ => D.done rfl

omit hcall in
theorem hoistAll (frames : List Frame) (stmts : List Stmt) :
    D.Runs (.outer frames) silent (hoist stmts) := by
  induction stmts with
  | nil => exact D.done rfl
  | cons stmt rest ih =>
      by_cases hf : ∃ f l, stmt = .function f l
      · obtain ⟨f, l, rfl⟩ := hf
        rw [hoist]
        cases f.name with
        | none => exact ih
        | some name =>
            refine D.bind (D.newClosure f) fun closure => ?_
            exact D.bind (D.bindAll .letDecl [(name, closure)]) fun _ => ih
      · rw [hoist_skip rest fun f l h => hf ⟨f, l, h⟩]
        exact ih

/-! ## Statements -/

-- the theorems of a mutual block use the fact through each other
set_option linter.unusedSectionVars false

mutual
theorem stmt : ∀ (stmt : Stmt) (frames : List Frame),
    D.Runs (.outer frames) Completion.returned (execStmt on stmt)
  | .function _ _, _ => by
      rw [execStmt]
      exact D.done rfl
  | .declare kind ds loc, frames => by
      rw [execStmt]
      exact D.bind (D.declarators hcall kind loc frames ds) fun _ => D.done rfl
  | .return none _, _ => by
      rw [execStmt]
      exact D.leaveWith _
  | .return (some e) _, frames => by
      rw [execStmt]
      exact D.bind (D.expr hcall e frames) fun value => D.leaveWith value
  | .branch c t none _, frames => by
      rw [execStmt]
      refine D.bind (D.condition hcall c frames) fun holds => ?_
      split
      · exact scope t frames
      · exact D.done rfl
  | .branch c t (some f) _, frames => by
      rw [execStmt]
      refine D.bind (D.condition hcall c frames) fun holds => ?_
      split
      · exact scope t frames
      · exact scope f frames
  | .while c body _, frames => by
      rw [execStmt]
      exact D.rounds (D.condition hcall c frames) (scope body frames) (D.done rfl) _
  | .doWhile body c _, frames => by
      rw [execStmt]
      refine D.round (scope body frames) ?_
      exact D.rounds (D.condition hcall c frames) (scope body frames) (D.done rfl) _
  | .for first c next body _, frames => by
      unfold execStmt
      refine D.block (D.bind (D.inside frames fun frames => D.start hcall frames first) fun _ => ?_)
      have htest : D.Runs (.inner frames) silent (match c with
          | some e => evalCondition on e
          | none => pure true : Eval Bool) := by
        cases c with
        | none => exact D.done rfl
        | some e => exact D.inside frames (D.condition hcall e)
      exact D.rounds htest (D.inside frames (scope body)) (D.step hcall _ next frames) _
  | .forOf kind target e body loc, frames => by
      rw [execStmt]
      refine D.bind (D.expr hcall e frames) fun source => ?_
      have hloc : D.accord.Sited loc := trivial
      have hitems := D.accord.consultAt hloc fun heap => Value.refuses_elements heap source
      refine D.bind (hitems frames) fun items => D.forEach (fun item => D.block ?_) _
      exact D.bind (D.inside frames (D.bindTarget kind target item loc)) fun _ =>
        D.inside frames (scope body)
  | .break _, _ => by
      rw [execStmt]
      exact D.done rfl
  | .continue _, _ => by
      rw [execStmt]
      exact D.done rfl
  | .throw e loc, frames => by
      rw [execStmt]
      refine D.bind (D.expr hcall e frames) fun value => ?_
      exact D.bind (D.accord.consult _ frames) fun text => D.fault nofun
  | .block body _, frames => by
      rw [execStmt]
      exact scope body frames
  | .expr e _, frames => by
      rw [execStmt]
      exact D.bind (D.expr hcall e frames) fun _ => D.done rfl
  | .capture line, _ => by
      rw [execStmt]
      exact D.bind (D.capture _ line) fun _ => D.done rfl

theorem each : ∀ (stmts : List Stmt) (frames : List Frame),
    D.Runs (.outer frames) Completion.returned (execEach on stmts)
  | [], _ => by
      rw [execEach]
      exact D.done rfl
  | first :: rest, frames => by
      rw [execEach]
      refine D.unlessReturned (stmt first frames) (fun value => rfl) fun c hc => ?_
      cases c with
      | normal => exact D.bind (D.complete first rest) fun _ => each rest frames
      | «break» => exact D.done rfl
      | «continue» => exact D.done rfl
      | «return» value => cases hc

theorem scope : ∀ (stmts : List Stmt) (frames : List Frame),
    D.Runs (.outer frames) Completion.returned (execBlock on stmts)
  | stmts, frames => by
      rw [execBlock]
      refine D.block (D.bind (D.inside frames fun frames => D.hoistAll frames stmts) fun _ => ?_)
      exact D.inside frames (each stmts)
end

theorem stmts (body : List Stmt) (frames : List Frame) :
    D.Runs (.outer frames) Completion.returned (execStmts on body) :=
  D.bind (D.hoistAll frames body) fun _ => D.each hcall body frames

/-! ## Calls -/

theorem callBody (closure : Closure) (args : List Value) (frames : List Frame) :
    D.Runs (.outer frames) Completion.returned (StepTrace.callBody on closure args) := by
  rw [callBody_eq]
  exact D.bind (D.bindAll .letDecl _) fun _ => D.stmts hcall closure.function.body frames

end Statements

theorem callers (names : List String) (bound : Nat) :
    D.accord.Callers (callWithin names bound) (callWithin names bound) := by
  induction bound with
  | zero => exact fun _ _ _ _ _ _ => D.exhausted
  | succ bound ih =>
      intro f args callee loc hloc frames
      have hordinary : (Cause.notFunction callee).Ordinary := trivial
      unfold callWithin
      cases f with
      | function place =>
          let on : Setting := ⟨callWithin names bound, bound, names⟩
          have hbody (closure : Closure) (args : List Value) (frames : List Frame) :
              D.Runs (.outer frames) Completion.returned (StepTrace.callBody on closure args) :=
            D.callBody ih closure args frames
          exact D.call hbody place args loc (D.accord.raise hloc hordinary frames) fun _ => rfl
      | native f => exact D.accord.nativeCall ih f args hloc frames
      | _ => exact D.accord.raise hloc hordinary frames

end Discipline

end StepTrace
