import StepTrace.Proofs.BoundNames
import StepTrace.Proofs.Computation
import StepTrace.Proofs.LatestFrame
import StepTrace.Proofs.Locations
import StepTrace.Proofs.OrdinaryCauses
import StepTrace.Proofs.Parts
import StepTrace.Proofs.Placement

/-!
# Relations that the language respects

What is proved of whole programs is mostly a relation between computations that every construct
of the language respects. What has to be known of the relation is listed here: how it behaves
where computations are put together, ask and fail (`Concord`), at what expressions do to the
state (`ExprConcord`), and at what statements and calls do (`ProgramConcord`). From such a list
it follows for whole programs (`CorrespondingPrograms`).

The two sides compute equal values. Only closures may differ: on the right their functions may
hold further captures, placed by `map`.
-/

namespace StepTrace

open Syntax (Location Stmt Function)
open Capture

/-- The maps by which the functions of a program can have been given their captures: `map`
itself, and the empty one, for the clauses of a loop in which no captures are placed. -/
def PlacedBy (map placing : Array LineKind) : Prop :=
  placing = map ∨ placing = #[]

/-- The closure with captures placed in its function. -/
def Closure.place (placing : Array LineKind) (closure : Closure) : Closure :=
  { closure with function := placeFunction placing closure.function }

/-- The captures of a tree, the names that it binds, the digits of its large integers and the
places of its nodes have the properties. -/
structure Within (Marked : Nat → Prop) (Named Spelled : String → Prop) (Sited : Location → Prop)
    (lines : List Nat) (names : List String) (parts : List Syntax.Part) (locs : List Location) :
    Prop extends ConfinedAt Marked Named Sited lines names locs where
  spelled : ∀ digits, Syntax.Part.bigint digits ∈ parts → Spelled digits

/-- Where nothing has to be known of the large integers and of the places. -/
theorem Confined.within {Marked : Nat → Prop} {Named : String → Prop} {lines : List Nat}
    {names : List String} (h : Confined Marked Named lines names) (parts : List Syntax.Part)
    (locs : List Location) :
    Within Marked Named (fun _ => True) (fun _ => True) lines names parts locs :=
  ⟨⟨h, fun _ _ => trivial⟩, fun _ _ => trivial⟩

namespace Within

variable {Marked : Nat → Prop} {Named Spelled : String → Prop} {Sited : Location → Prop}
  {lines lines' : List Nat} {names names' : List String} {parts parts' : List Syntax.Part}
  {loc : Location} {locs locs' : List Location}

theorem append_iff :
    Within Marked Named Spelled Sited (lines ++ lines') (names ++ names') (parts ++ parts')
        (locs ++ locs') ↔
      Within Marked Named Spelled Sited lines names parts locs ∧
        Within Marked Named Spelled Sited lines' names' parts' locs' := by
  constructor
  · rintro ⟨h, hspelled⟩
    obtain ⟨hleft, hright⟩ := ConfinedAt.append_iff.mp h
    exact ⟨⟨hleft, fun digits hdigits => hspelled digits (List.mem_append_left _ hdigits)⟩,
      ⟨hright, fun digits hdigits => hspelled digits (List.mem_append_right _ hdigits)⟩⟩
  · rintro ⟨h, h'⟩
    refine ⟨ConfinedAt.append_iff.mpr ⟨h.toConfinedAt, h'.toConfinedAt⟩, fun digits hdigits => ?_⟩
    exact (List.mem_append.mp hdigits).elim (h.spelled digits) (h'.spelled digits)

/-- A tree that binds names of its own besides those of the trees in it. -/
theorem binding_iff : Within Marked Named Spelled Sited lines (names' ++ names) parts locs ↔
    (∀ name ∈ names', Named name) ∧ Within Marked Named Spelled Sited lines names parts locs := by
  constructor
  · rintro ⟨h, hspelled⟩
    obtain ⟨hnames', hnames⟩ := ConfinedAt.binding_iff.mp h
    exact ⟨hnames', hnames, hspelled⟩
  · rintro ⟨hnames', h⟩
    exact ⟨ConfinedAt.binding_iff.mpr ⟨hnames', h.toConfinedAt⟩, h.spelled⟩

/-- A node around other trees. -/
theorem node_iff : Within Marked Named Spelled Sited lines names parts (loc :: locs) ↔
    Sited loc ∧ Within Marked Named Spelled Sited lines names parts locs := by
  constructor
  · rintro ⟨h, hspelled⟩
    obtain ⟨hloc, hlocs⟩ := ConfinedAt.node_iff.mp h
    exact ⟨hloc, hlocs, hspelled⟩
  · rintro ⟨hloc, h⟩
    exact ⟨ConfinedAt.node_iff.mpr ⟨hloc, h.toConfinedAt⟩, h.spelled⟩

end Within

/-- The captures of a function, the names that it binds, the digits of its large integers and the
places of its nodes have the properties. -/
def Within.Of (Marked : Nat → Prop) (Named Spelled : String → Prop) (Sited : Location → Prop)
    (f : Function) : Prop :=
  Within Marked Named Spelled Sited (functionCaptures f) (Syntax.functionNames f)
    (Syntax.functionParts f) (Syntax.functionLocs f)

/-- A relation between computations that respects how computations are put together, what they
ask and how they fail. The programs on the left may hold captures on the lines in `Marked`, bind
the names in `Named`, spell the large integers in `Spelled` and have nodes at the places in
`Sited`; on the right further captures are placed by `map`. -/
structure Concord (map : Array LineKind) where
  Rel : {α : Type} → Eval α → Eval α → Prop
  Marked : Nat → Prop
  Named : String → Prop
  Spelled : String → Prop
  Sited : Location → Prop
  pure : ∀ {α : Type} (a : α), Rel (pure a) (pure a)
  bind : ∀ {α β : Type} {m m' : Eval α} {f f' : α → Eval β},
    Rel m m' → (∀ a, Rel (f a) (f' a)) → Rel (m >>= f) (m' >>= f')
  fault : ∀ {α : Type} {fault : Fault}, fault.cause.Ordinary → Sited fault.loc →
    Rel (Eval.stop (.fault fault) : Eval α) (Eval.stop (.fault fault))
  misspelled : ∀ {α : Type} {loc : Location} {digits : String}, Sited loc → Spelled digits →
    Number.readInt? digits.toList = none →
    Rel (Eval.raise loc (.integerLiteral digits) : Eval α) (Eval.raise loc (.integerLiteral digits))
  /-- What follows a question has to be known for its answers only. -/
  asking : ∀ {α β : Type} {question : Environment → Heap → α} {f f' : α → Eval β},
    Environment.SeesLatest question →
    (∀ env heap, Rel (f (question env heap)) (f' (question env heap))) →
    Rel (Eval.ask question >>= f) (Eval.ask question >>= f')

namespace Concord

variable {map : Array LineKind} (C : Concord map)

/-- The captures, the bound names, the large integers and the places of a tree are among those
that the left side may have. -/
abbrev Fits (lines : List Nat) (names : List String) (parts : List Syntax.Part)
    (locs : List Location) : Prop :=
  Within C.Marked C.Named C.Spelled C.Sited lines names parts locs

/-- Two ways to call values correspond if all calls do. -/
def Callers (call call' : Caller) : Prop :=
  ∀ f args callee loc, C.Sited loc → C.Rel (call f args callee loc) (call' f args callee loc)

section Derived

variable {α β : Type} {loc : Location} (hloc : C.Sited loc)

theorem ask {question : Environment → Heap → α} (h : Environment.SeesLatest question) :
    C.Rel (Eval.ask question) (Eval.ask question) := by
  rw [← bind_pure (Eval.ask question)]
  exact C.asking h fun _ _ => C.pure _

theorem consult (question : Heap → α) : C.Rel (Eval.consult question) (Eval.consult question) :=
  C.ask (Environment.seesLatest_heap question)

include hloc

theorem raise {cause : Cause} (h : cause.Ordinary) :
    C.Rel (Eval.raise loc cause : Eval α) (Eval.raise loc cause) :=
  C.fault h hloc

theorem allow {admitted : Except Cause α} (h : Refuses admitted) :
    C.Rel (Eval.allow loc admitted) (Eval.allow loc admitted) := by
  cases admitted with
  | ok a => exact C.pure a
  | error cause => exact C.raise hloc (h cause rfl)

theorem consultAt {question : Heap → Except Cause α} (h : ∀ heap, Refuses (question heap)) :
    C.Rel (Eval.consultAt loc question) (Eval.consultAt loc question) :=
  C.asking (Environment.seesLatest_heap question) fun _ heap => C.allow hloc (h heap)

theorem lookup (name : String) : C.Rel (Eval.lookup loc name) (Eval.lookup loc name) := by
  refine C.bind (C.ask (Environment.seesLatest_lookup? name)) fun found => ?_
  cases found with
  | none => exact C.raise hloc trivial
  | some value => exact C.pure value

theorem slotRead (slot : Slot) : C.Rel (slot.read loc) (slot.read loc) := by
  cases slot with
  | «variable» name => exact C.lookup hloc name
  | index container key => exact C.consultAt hloc fun _ => Value.refuses_indexed _ _ _
  | member container name => exact C.consultAt hloc fun _ => Value.refuses_member _ _ _

end Derived

end Concord

/-- A relation between computations that the constructs of expressions respect. -/
structure ExprConcord (map : Array LineKind) extends Concord map where
  slotWrite : ∀ {loc : Location}, Sited loc → ∀ (value : Value) (slot : Slot),
    Rel (slot.write loc value) (slot.write loc value)
  newUnchecked : ∀ items : Array Value, Rel (Eval.newUnchecked items) (Eval.newUnchecked items)
  newObject : ∀ fields : Fields, Rel (Eval.newObject fields) (Eval.newObject fields)
  newClosure : ∀ {placing : Array LineKind} {f : Function}, PlacedBy map placing →
    Within.Of Marked Named Spelled Sited f →
    Rel (Eval.newClosure f) (Eval.newClosure (placeFunction placing f))
  callMethod : ∀ {call call' : Caller}, toConcord.Callers call call' →
    ∀ (receiver : Value) (method : String) (args : List Value) {loc : Location}, Sited loc →
    Rel (receiver.callMethod call method args loc) (receiver.callMethod call' method args loc)
  nativeCall : ∀ {call call' : Caller}, toConcord.Callers call call' →
    ∀ (f : Native) (args : List Value) {loc : Location}, Sited loc →
    Rel (f.call call args loc) (f.call call' args loc)

/-- A relation between computations that the constructs of the language respect. Captures may
look at the names in `Looks`. -/
structure ProgramConcord (map : Array LineKind) extends ExprConcord map where
  Looks : List String → Prop
  block : ∀ {α : Type} {m m' : Eval α}, Rel m m' → Rel (Eval.block m) (Eval.block m')
  frame : ∀ {α : Type} (name : String) (parent : Nat) {m m' : Eval α}, Rel m m' →
    Rel (Eval.frame name parent m) (Eval.frame name parent m')
  exhausted : ∀ {α : Type}, Rel (Eval.stop .exhausted : Eval α) (Eval.stop .exhausted)
  changeEnv : ∀ {change : Environment → Environment}, Environment.BindsOnly Named change →
    Environment.ChangesLatest change → Rel (Eval.changeEnv change) (Eval.changeEnv change)
  /-- A call that is made if there is room for a frame. -/
  calling : ∀ {α : Type} {loc : Location} {m m' : Eval α}, Sited loc → Rel m m' →
    Rel (Eval.calling >>= fun depth => if depth ≥ Limit.callDepth then Eval.raise loc .callDepth
        else m)
      (Eval.calling >>= fun depth => if depth ≥ Limit.callDepth then Eval.raise loc .callDepth
        else m')
  leaveWith : ∀ value : Value, Rel (Eval.leaveWith value) (Eval.leaveWith value)
  withClosure : ∀ {α : Type} (place : Nat) {k k' : Option Closure → Eval α},
    Rel (k none) (k' none) →
    (∀ placing closure, PlacedBy map placing →
      Within.Of Marked Named Spelled Sited closure.function →
      Rel (k (some closure)) (k' (some (closure.place placing)))) →
    Rel (Eval.closureAt place >>= k) (Eval.closureAt place >>= k')
  capture : ∀ {names : List String} {line : Nat}, Looks names → Marked line →
    Rel (Eval.capture names line) (Eval.capture names line)
  /-- A statement behind which no capture is placed. -/
  complete : ∀ {placing : Array LineKind} {suspending : Bool} {stmt : Stmt} {rest : List Stmt},
    PlacedBy map placing → (∀ line ∈ captures rest, Marked line) →
    Rel (Eval.complete stmt rest)
      (Eval.complete (placeStmt placing suspending stmt) (placeStmts placing suspending rest))
  /-- A statement behind which a capture is placed. -/
  completeCaptured : ∀ (names : List String) {suspending : Bool} {stmt : Stmt}
    {rest rest' : List Stmt} {line : Nat}, stmt.simpleLine? = some line →
    isExecutable map line = true → (∀ line ∈ captures rest, Marked line) →
    Rel (Eval.complete stmt rest)
      (Eval.complete (placeStmt map suspending stmt) (.capture line :: rest') >>= fun _ =>
        Eval.capture names line)

namespace ProgramConcord

variable {map : Array LineKind} (C : ProgramConcord map)

theorem rounds {test test' : Eval Bool} {body body' : Eval Completion} {next next' : Eval Unit}
    (ht : C.Rel test test') (hb : C.Rel body body') (hn : C.Rel next next') (bound : Nat) :
    C.Rel (Eval.rounds test body next bound) (Eval.rounds test' body' next' bound) := by
  induction bound with
  | zero => exact C.exhausted
  | succ bound ih =>
      refine C.bind ht fun goesOn => ?_
      split
      · refine C.bind hb fun completion => ?_
        split
        · exact C.pure _
        · exact C.bind hn fun _ => ih
      · exact C.pure _

theorem forEach {body body' : Value → Eval Completion}
    (hb : ∀ item, C.Rel (body item) (body' item)) (items : List Value) :
    C.Rel (Eval.forEach body items) (Eval.forEach body' items) := by
  induction items with
  | nil => exact C.pure _
  | cons item rest ih =>
      refine C.bind (hb item) fun completion => ?_
      split
      · exact C.pure _
      · exact ih

end ProgramConcord

end StepTrace
