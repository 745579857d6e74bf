import StepTrace.Proofs.CorrespondingPrograms
import StepTrace.Proofs.Ends

/-!
# Where runs fail

Closures have their functions from the program, so whatever a run carries out is code of the
program: the digits that it comes upon are digits in the program, and a fault is at the place of
a node of the program. Methods and provided functions fail at the place of their call, also if
it is a callback of theirs that is no function.

* `Correspondence.located`: every construct preserves what is known of the functions of closures.
* `faults_of_runWithin`: what follows for the fault that ends a run.
-/

namespace StepTrace

open Syntax (Location Stmt Program)
open Capture

variable {map : Array LineKind} {Spelled : String → Prop} {Sited : Location → Prop} {s : State}

/-- The functions of the closures spell the integers and have the places, and have their captures
placed by the map. -/
def State.HoldsCode (map : Array LineKind) (Spelled : String → Prop) (Sited : Location → Prop)
    (s : State) : Prop :=
  ∀ closure ∈ s.closures, ∃ (placing : Array LineKind) (plain : Closure), PlacedBy map placing ∧
    Within.Of (fun _ => True) (fun _ => True) Spelled Sited plain.function ∧
    closure = plain.place placing

/-- If it is a fault, it is at one of the places and no literal of the program is to blame. -/
def Stop.Located (Sited : Location → Prop) (stop : Stop) : Prop :=
  ∀ fault, stop = .fault fault →
    Sited fault.loc ∧ ∀ digits, fault.cause ≠ .integerLiteral digits

theorem Stop.Located.of_ordinary {fault : Fault} (hcause : fault.cause.Ordinary)
    (hloc : Sited fault.loc) : Stop.Located Sited (.fault fault) := by
  rintro _ ⟨⟩
  refine ⟨hloc, fun digits hdigits => ?_⟩
  rw [hdigits] at hcause
  exact hcause

/-- The computation ends in such a state again, and a fault in it is at one of the places. -/
def Eval.LocatedIn (map : Array LineKind) (Spelled : String → Prop) (Sited : Location → Prop)
    {α : Type} (m : Eval α) : Prop :=
  ∀ s : State, s.HoldsCode map Spelled Sited →
    (m s).Ends (fun _ => State.HoldsCode map Spelled Sited) fun stop _ => stop.Located Sited

namespace Eval.LocatedIn

theorem capture (names : List String) (line : Nat) :
    (Eval.capture names line).LocatedIn map Spelled Sited := by
  intro s h
  rw [Eval.capture_apply]
  intro taken
  cases taken
  · exact nofun
  · exact h

theorem complete (stmt : Stmt) (rest : List Stmt) :
    (Eval.complete stmt rest).LocatedIn map Spelled Sited := by
  intro s h
  unfold Eval.complete
  split
  · exact h
  · exact h

theorem assign {loc : Location} (hloc : Sited loc) (name : String) (value : Value) :
    (Eval.assign loc name value).LocatedIn map Spelled Sited := by
  intro s h
  rw [Eval.assign_apply]
  rcases s.env.assignee name with (_ | _) | scope
  · exact .of_ordinary trivial hloc
  · exact .of_ordinary trivial hloc
  · exact h

end Eval.LocatedIn

/-- As long as the closures hold code of the program, faults are at its places, and no
computation comes upon digits that are no integer. -/
def Correspondence.located (map : Array LineKind) {Spelled : String → Prop}
    (hspelled : ∀ digits, Spelled digits → (Number.readInt? digits.toList).isSome)
    (Sited : Location → Prop) : Correspondence map where
  Rel _ m := m.LocatedIn map Spelled Sited
  Marked _ := True
  Named _ := True
  Spelled := Spelled
  Sited := Sited
  Looks _ := True
  pure _ _ h := h
  bind hm hf s h := (hm s h).bind fun a s h => hf a s h
  leaving _ hm s h := .leaving (hm s h)
  fault hcause hloc _ _ := .of_ordinary hcause hloc
  misspelled _ hdigits hread := absurd (hspelled _ hdigits) (by simp [hread])
  tooDeep hloc _ _ := by
    rintro _ ⟨⟩
    exact ⟨hloc, nofun⟩
  exhausted _ _ := nofun
  asking _ hf s h := by
    rw [Eval.bind_apply]
    exact hf s.env s.heap s h
  changeEnv _ _ h := h
  calling _ h := h
  leaveWith _ _ h := h
  assign hloc name value := .assign hloc name value
  changeHeap _ _ _ h := h
  unchecked _ _ h := h
  untested _ _ h := h
  newClosure {placing f} hp hf s h closure hclosure := by
    rcases Array.mem_push.mp hclosure with hold | rfl
    · exact h closure hold
    · exact ⟨placing, ⟨f, s.env.current⟩, hp, hf, rfl⟩
  withClosure place k k' hnone hsome s h := by
    rw [Eval.bind_apply]
    change (k' s.closures[place]? s).Ends _ _
    cases hclosure : s.closures[place]? with
    | none => exact hnone s h
    | some closure =>
        obtain ⟨placing, plain, hp, hplain, rfl⟩ := h closure (Array.mem_of_getElem? hclosure)
        exact hsome placing plain hp hplain s h
  capture _ _ := .capture _ _
  complete _ _ := .complete _ _
  completeCaptured names _ _ _ _ _ _ _ _ s h :=
    (Eval.LocatedIn.complete _ _ s h).bind fun _ _ h => Eval.LocatedIn.capture names _ _ h

/-- The fault that ends the run of a program with captures is at the place of a node of the
program. -/
theorem Capture.Instrumented.faults_of_runWithin {program : Program}
    (hspelled : ∀ digits, Syntax.Part.bigint digits ∈ Syntax.parts program →
      (Number.readInt? digits.toList).isSome)
    (map : Array LineKind) (source : String) (names : List String) (bound : Nat)
    (allowance : Option Nat) {fault : Fault}
    (hfault : (Instrumented.runWithin ⟨source, placeStmts map true program, names⟩ bound
      allowance).outcome = .stopped (.fault fault)) :
    fault.loc ∈ Syntax.locs program ∧ ∀ digits, fault.cause ≠ .integerLiteral digits := by
  let C := (Correspondence.located map
    (fun digits (h : (Number.readInt? digits.toList).isSome) => h)
    (· ∈ Syntax.locs program)).programs
  have hfits : C.Fits (captures program) (Syntax.boundNames program) (Syntax.parts program)
      (Syntax.locs program) :=
    ⟨⟨⟨fun _ _ => trivial, fun _ _ => trivial⟩, fun _ hloc => hloc⟩, hspelled⟩
  have hsettings := C.settings names trivial bound
  have hprocess := C.program hsettings program hfits .initial
    (by simp [State.HoldsCode, State.initial])
  have hrun := hprocess.run allowance #[]
  rw [Instrumented.runWithin, Instrumented.process] at hfault
  rw [hfault] at hrun
  exact hrun fault rfl

end StepTrace
