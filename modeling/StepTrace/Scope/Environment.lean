import StepTrace.Scope.Basic

/-!
# Environments

The environment of running code is the collection of all scopes together with the frames of
the calls that are under way. A frame remembers the innermost scope of its call. Code that
runs outside of any call sees the root scope.

* `Environment.enterBlock`, `leaveBlock`: one scope further inside and back again.
* `Environment.enterCall`, `leaveCall`: a frame for a call and back again.
-/

namespace StepTrace

/-- A call under way: the name of the function and the innermost scope of its code. -/
structure Frame where
  name : String
  scope : Nat
deriving DecidableEq, Repr

/-- All scopes, and the frames of the calls under way with the latest first. -/
structure Environment where
  scopes : Scopes
  frames : List Frame

namespace Environment

/-- The root scope alone and no call. -/
def initial : Environment :=
  ⟨.root, []⟩

/-- The innermost scope of the running code. -/
def current (env : Environment) : Nat :=
  match env.frames with
  | [] => 0
  | frame :: _ => frame.scope

/-- How many calls are under way. -/
def depth (env : Environment) : Nat :=
  env.frames.length

/-- The value of the name for the running code. -/
def lookup? (env : Environment) (name : String) : Option Value :=
  env.scopes.lookup? name env.current

/-- Binds the name in scope number `i`. -/
def declareIn (env : Environment) (i : Nat) (name : String) (value : Value)
    (isConst : Bool) : Environment :=
  { env with scopes := env.scopes.declare i name value isConst }

/-- Binds the name in the innermost scope. -/
def declare (env : Environment) (name : String) (value : Value) (isConst : Bool) :
    Environment :=
  env.declareIn env.current name value isConst

/-- Binds the name in the nearest function scope. -/
def declareVar (env : Environment) (name : String) (value : Value) : Environment :=
  env.declareIn (env.scopes.functionScope env.current) name value false

/-- Where an assignment of the name goes. -/
def assignee (env : Environment) (name : String) : Except AssignRefusal Nat :=
  env.scopes.assignee name env.current

/-- Puts the value into the binding that scope number `i` has for the name. -/
def store (env : Environment) (i : Nat) (name : String) (value : Value) : Environment :=
  env.declareIn i name value false

/-- Moves the latest frame to another scope. -/
def moveTo (env : Environment) (i : Nat) : Environment :=
  match env.frames with
  | [] => env
  | frame :: rest => { env with frames := { frame with scope := i } :: rest }

/-- Goes into a new scope inside the innermost one; outside of any call nothing happens. -/
def enterBlock (env : Environment) : Environment :=
  match env.frames with
  | [] => env
  | frame :: rest =>
    let i := env.scopes.size
    { scopes := env.scopes.push (.blank (some frame.scope) false),
      frames := { frame with scope := i } :: rest }

/-- Goes back to the scope around the innermost one, if there is one. -/
def leaveBlock (env : Environment) : Environment :=
  match env.scopes.parent? env.current with
  | none => env
  | some i => env.moveTo i

/-- Begins a call whose code lies inside scope number `parent`. -/
def enterCall (env : Environment) (name : String) (parent : Nat) : Environment :=
  let i := env.scopes.size
  { scopes := env.scopes.push (.blank (some parent) true), frames := ⟨name, i⟩ :: env.frames }

/-- Ends the latest call. -/
def leaveCall (env : Environment) : Environment :=
  { env with frames := env.frames.tail }

end Environment

end StepTrace
