import StepTrace.Builtin.NativeCall
import StepTrace.Capture.Placement
import StepTrace.Eval.Loop

/-!
# Running programs

Expressions have a value and statements a completion; both may change the state and may
stop the run. Functions declared by a list of statements are bound before its first
statement runs. A call runs the body of the function in a frame and a scope of its own,
inside the scope in which the function was made. There is one thread of control, so waiting
for a value is having it.

Evaluation follows the syntax tree, except that a call goes on with another tree and a loop
with the same one again. Both are bounded: `callWithin` is given a number of nested calls,
which is at the same time the bound on the rounds of every loop.

* `evalExpr`, `execStmt`.
* `callWithin`: calls of any value.
* `execProgram`: a whole program.
-/

namespace StepTrace

open Syntax

/-- What evaluation depends on besides the state: how values are called, how many rounds a
loop may have, and which names a capture looks at. -/
structure Setting where
  call : Caller
  rounds : Nat
  candidates : List String

/-- A place whose container and key have been evaluated. -/
inductive Slot where
  | variable (name : String)
  | index (container key : Value)
  | member (container : Value) (name : String)

namespace Slot

/-- The value in the slot. -/
def read (loc : Location) : Slot → Eval Value
  | .variable name => Eval.lookup loc name
  | .index container key => Eval.consultAt loc fun heap => container.indexed heap key
  | .member container name => Eval.consultAt loc fun heap => container.member heap name

/-- Puts a value into the slot. -/
def write (loc : Location) (value : Value) : Slot → Eval Unit
  | .variable name => Eval.assign loc name value
  | .index container key => Eval.write loc fun heap => container.setIndexed heap key value
  | .member container name => Eval.write loc fun heap => container.setMember heap name value

end Slot

/-- The text that names a callee in messages. -/
def describe : Expr → String
  | .variable name _ => name
  | .member container name _ => describe container ++ "." ++ name
  | .index container _ _ => describe container ++ "[...]"
  | .call callee _ _ => describe callee ++ "(...)"
  | _ => "expression"

/-- The text of a value that the program raises: the message of an error object with its
name, and any other value as it is. -/
def raisedText (heap : Heap) (value : Value) : String :=
  let described := match value with
    | .object place =>
      let fields := heap.fields place
      match fields["message"]? with
      | some (.string message) =>
        let name := match fields["name"]? with
          | some (.string name) => name
          | _ => "Error"
        some (if message.isEmpty then name else name ++ ": " ++ message)
      | _ => none
    | _ => none
  described.getD ("Uncaught " ++ value.text heap)

/-- Binds the names of a declaration to a value or to its elements. -/
def bind (kind : DeclKind) (target : Binder) (value : Value) (loc : Location) : Eval Unit := do
  let declare (env : Environment) (name : String) (value : Value) : Environment :=
    match kind with
    | .varDecl => env.declareVar name value
    | .letDecl => env.declare name value false
    | .constDecl => env.declare name value true
  match target with
  | .name name => Eval.changeEnv (declare · name value)
  | .list names =>
    let items ← Eval.consultAt loc fun heap => value.firstElements heap names.length
    Eval.changeEnv fun env =>
      (names.zip items).foldl (fun env (name, item) => declare env name item) env

/-- Binds the functions that the statements declare. -/
def hoist : List Stmt → Eval Unit
  | [] => pure ()
  | .function f _ :: rest => do
    match f.name with
    | some name =>
      let closure ← Eval.newClosure f
      Eval.changeEnv (·.declare name closure false)
    | none => pure ()
    hoist rest
  | _ :: rest => hoist rest

/-- The names that a loop binds anew in every round. -/
def ForStart.roundNames : Option ForStart → List String
  | some (.declare .letDecl declarators _) => declarators.flatMap Declarator.names
  | _ => []

/-- Leaves the scope of a round for a new one in which the names have the values that they
had. -/
def nextRound (names : List String) (env : Environment) : Environment :=
  let values := names.map fun name => (name, (env.lookup? name).getD .undefined)
  values.foldl (fun env (name, value) => env.declare name value false) env.leaveBlock.enterBlock

/-- What an update leaves in its place, and its own value. -/
def updated (op : UpdateOp) (heap : Heap) (value : Value) : Value × Value :=
  let old := value.toNumeric heap
  match op with
  | .incrementBefore => (old.stepped heap true, old.stepped heap true)
  | .decrementBefore => (old.stepped heap false, old.stepped heap false)
  | .incrementAfter => (old.stepped heap true, old)
  | .decrementAfter => (old.stepped heap false, old)

/-- Whether the right operand decides, given the left one. -/
def Syntax.LogicalOp.goesOn (op : LogicalOp) (left : Value) : Bool :=
  match op with
  | .and => left.isTruthy
  | .or => ! left.isTruthy
  | .nullish => left.isNullish

mutual
/-- The value of an expression. -/
def evalExpr (on : Setting) : Expr → Eval Value
  | .number x _ => pure (.number x)
  | .bigint digits loc =>
    match Number.readInt? digits.toList with
    | some n => pure (.bigint n)
    | none => Eval.raise loc (.integerLiteral digits)
  | .string s _ => pure (.string s)
  | .bool b _ => pure (.bool b)
  | .null _ => pure .null
  | .variable name loc => Eval.lookup loc name
  | .array elements _ => do
    let items ← evalElements on elements
    Eval.newUnchecked items.toArray
  | .object fields _ => do
    let entries ← evalFields on fields
    Eval.newObject (.ofList entries)
  | .binary (.logical op) left right _ => do
    let value ← evalExpr on left
    if op.goesOn value then evalExpr on right else pure value
  | .binary (.strict op) left right loc => do
    let a ← evalExpr on left
    let b ← evalExpr on right
    Eval.consultAt loc fun heap => a.binary heap op b
  | .unary .negate operand _ => do
    let value ← evalExpr on operand
    Eval.consult fun heap => value.negate heap
  | .unary .plus operand loc => do
    let value ← evalExpr on operand
    Eval.consultAt loc fun heap => value.plus heap
  | .unary .not operand _ => do
    let value ← evalExpr on operand
    pure (.bool (! value.isTruthy))
  | .unary .bitNot operand _ => do
    let value ← evalExpr on operand
    Eval.consult fun heap => value.bitNot heap
  | .unary .typeof (.variable name _) _ => do
    return .string ((← Eval.lookup? name).getD .undefined).typeName
  | .unary .typeof operand _ => do
    let value ← evalExpr on operand
    pure (.string value.typeName)
  | .update op place loc => do
    let slot ← evalPlace on place
    let value ← slot.read loc
    let (stored, answer) ← Eval.consult fun heap => updated op heap value
    slot.write loc stored
    pure answer
  | .conditional condition whenTrue whenFalse _ => do
    if (← evalExpr on condition).isTruthy then evalExpr on whenTrue else evalExpr on whenFalse
  | .assign (.single place) value loc => do
    let slot ← evalPlace on place
    let value ← evalExpr on value
    slot.write loc value
    pure value
  | .assign (.list places _) value loc => do
    let value ← evalExpr on value
    let items ← Eval.consultAt loc fun heap => value.firstElements heap places.length
    assignEach on loc places items
    pure value
  | .compound op place value loc => do
    let slot ← evalPlace on place
    let current ← slot.read loc
    let operand ← evalExpr on value
    let value ← Eval.consultAt loc fun heap => current.binary heap op operand
    slot.write loc value
    pure value
  | .call (.member container name _) args loc => do
    let receiver ← evalExpr on container
    let values ← evalElements on args
    receiver.callMethod on.call name values loc
  | .call callee args loc => do
    let f ← evalExpr on callee
    let values ← evalElements on args
    on.call f values (describe callee) loc
  | .construct callee args loc => do
    let f ← evalExpr on callee
    let values ← evalElements on args
    match f with
    | .native native =>
      if native.isConstructor then native.call on.call values loc
      else Eval.raise loc (.notConstructor (describe callee))
    | _ => Eval.raise loc (.notConstructor (describe callee))
  | .index container key loc => do
    let container ← evalExpr on container
    let key ← evalExpr on key
    Eval.consultAt loc fun heap => container.indexed heap key
  | .member container name loc => do
    let container ← evalExpr on container
    Eval.consultAt loc fun heap => container.member heap name
  | .function f _ => Eval.newClosure f
  | .await operand _ => evalExpr on operand

/-- The slot that a place names. -/
def evalPlace (on : Setting) : Place → Eval Slot
  | .variable name _ => pure (.variable name)
  | .index container key _ => do
    let container ← evalExpr on container
    let key ← evalExpr on key
    pure (.index container key)
  | .member container name _ => do
    let container ← evalExpr on container
    pure (.member container name)

/-- Puts the items into the places, from left to right. -/
def assignEach (on : Setting) (loc : Location) : List Place → List Value → Eval Unit
  | place :: places, item :: items => do
    let slot ← evalPlace on place
    slot.write loc item
    assignEach on loc places items
  | _, _ => pure ()

/-- The values of list elements or arguments; a spread stands for several. -/
def evalElements (on : Setting) : List Element → Eval (List Value)
  | [] => pure []
  | .item e :: rest => do
    let value ← evalExpr on e
    return value :: (← evalElements on rest)
  | .spread e loc :: rest => do
    let value ← evalExpr on e
    let items ← Eval.consultAt loc fun heap => value.elements heap
    return items.toList ++ (← evalElements on rest)

/-- The values of the fields of an object literal. -/
def evalFields (on : Setting) : List (String × Expr) → Eval (List (String × Value))
  | [] => pure []
  | (name, e) :: rest => do
    let value ← evalExpr on e
    return (name, value) :: (← evalFields on rest)
end

/-- The value of an expression as a condition. -/
def evalCondition (on : Setting) (e : Expr) : Eval Bool := do
  return (← evalExpr on e).isTruthy

/-- The bindings of a declaration, from left to right. -/
def execDeclarators (on : Setting) (kind : DeclKind) (loc : Location) :
    List Declarator → Eval Unit
  | [] => pure ()
  | .mk target value :: rest => do
    let value ← match value with
      | some e => evalExpr on e
      | none => pure .undefined
    bind kind target value loc
    execDeclarators on kind loc rest

/-- The first clause of a loop. -/
def execStart (on : Setting) : Option ForStart → Eval Unit
  | none => pure ()
  | some (.declare kind declarators loc) => execDeclarators on kind loc declarators
  | some (.expr e _) => do
    let _ ← evalExpr on e

/-- What prepares the next round of a loop. -/
def execStep (on : Setting) (names : List String) (step : Option Expr) : Eval Unit := do
  if ! names.isEmpty then Eval.changeEnv (nextRound names)
  match step with
  | some e => let _ ← evalExpr on e
  | none => pure ()

mutual
/-- Runs a statement. -/
def execStmt (on : Setting) : Stmt → Eval Completion
  | .function _ _ => pure .normal
  | .declare kind declarators loc => do
    execDeclarators on kind loc declarators
    pure .normal
  | .return none _ => Eval.leaveWith .undefined
  | .return (some e) _ => do
    let value ← evalExpr on e
    Eval.leaveWith value
  | .branch condition whenTrue whenFalse _ => do
    if ← evalCondition on condition then execBlock on whenTrue
    else match whenFalse with
      | some body => execBlock on body
      | none => pure .normal
  | .while condition body _ =>
    Eval.rounds (evalCondition on condition) (execBlock on body) (pure ()) on.rounds
  | .doWhile body condition _ => do
    match (← execBlock on body).endsLoop? with
    | some completion => pure completion
    | none =>
      Eval.rounds (evalCondition on condition) (execBlock on body) (pure ()) on.rounds
  | .for start condition step body _ => Eval.block do
    execStart on start
    let test := match condition with
      | some e => evalCondition on e
      | none => pure true
    Eval.rounds test (execBlock on body) (execStep on (ForStart.roundNames start) step) on.rounds
  | .forOf kind target iterable body loc => do
    let source ← evalExpr on iterable
    let items ← Eval.consultAt loc fun heap => source.elements heap
    let round (item : Value) : Eval Completion := Eval.block do
      bind kind target item loc
      execBlock on body
    Eval.forEach round items.toList
  | .break _ => pure .break
  | .continue _ => pure .continue
  | .throw e loc => do
    let value ← evalExpr on e
    let text ← Eval.consult fun heap => raisedText heap value
    Eval.raise loc (.thrown text)
  | .block body _ => execBlock on body
  | .expr e _ => do
    let _ ← evalExpr on e
    pure .normal
  | .capture line => do
    Eval.capture on.candidates line
    pure .normal

/-- Runs statements one after the other, up to one that does not end normally. -/
def execEach (on : Setting) : List Stmt → Eval Completion
  | [] => pure .normal
  | stmt :: rest => do
    match ← execStmt on stmt with
    | .normal => do
      Eval.complete stmt rest
      execEach on rest
    | completion => pure completion

/-- Runs statements inside a scope of their own. -/
def execBlock (on : Setting) (body : List Stmt) : Eval Completion :=
  Eval.block do
    hoist body
    execEach on body
end

/-- Runs statements, their functions bound first. -/
def execStmts (on : Setting) (body : List Stmt) : Eval Completion := do
  hoist body
  execEach on body

/-- Calls a function that the program defines: its parameters are bound to the arguments,
missing ones to `undefined`. -/
def callClosure (on : Setting) (closure : Closure) (args : List Value) (loc : Location) :
    Eval Value := do
  let depth ← Eval.calling
  if depth ≥ Limit.callDepth then Eval.raise loc .callDepth
  else
    let f := closure.function
    let completion ← Eval.frame (f.name.getD "<anonymous>") closure.scope do
      Eval.changeEnv fun env =>
        (f.params.zipIdx).foldl (fun env (name, k) =>
          env.declare name (args[k]?.getD .undefined) false) env
      execStmts on f.body
    pure completion.result

/-- Calls of any value, with at most so many nested calls and so many rounds of a loop. -/
def callWithin (candidates : List String) : Nat → Caller
  | 0, _, _, _, _ => Eval.stop .exhausted
  | bound + 1, f, args, callee, loc => do
    let on : Setting := ⟨callWithin candidates bound, bound, candidates⟩
    match f with
    | .function place =>
      match ← Eval.closureAt place with
      | some closure => callClosure on closure args loc
      | none => Eval.raise loc (.notFunction callee)
    | .native native => native.call on.call args loc
    | _ => Eval.raise loc (.notFunction callee)

/-- Runs a program from its first statement to its last. -/
def execProgram (candidates : List String) (bound : Nat) (program : Program) : Eval Unit :=
  Eval.frame "<script>" 0 do
    let _ ← execStmts ⟨callWithin candidates bound, bound, candidates⟩ program

end StepTrace
