import StepTrace.Proofs.ParsedTree
import StepTrace.Proofs.RecordedSteps
import StepTrace.Proofs.Snapshots
import StepTrace.Proofs.Transparency

/-!
# What steps show

A step looks only at the candidates, which are words of the text. It shows nevertheless all
that can be seen (`shown_bindings`): whatever is bound in a run is bound by the program, whose
names are words of the text, or by what the run provides, whose names are reserved.

* `Step.lookup_observe`: the entry of a candidate is the snapshot of its value.
-/

namespace StepTrace

open Syntax (Program parse boundNames)
open Capture

theorem lookup_filterMap {α : Type} (names : List String) (value? : String → Option α)
    (n : String) :
    (names.filterMap fun x => (value? x).map fun a => (x, a)).lookup n =
      if n ∈ names then value? n else none := by
  induction names with
  | nil => rfl
  | cons x rest ih =>
      rw [List.filterMap_cons]
      cases hx : value? x with
      | none =>
          rw [Option.map_none, ih]
          by_cases hn : n = x
          · subst hn
            simp [hx]
          · simp [hn]
      | some a =>
          rw [Option.map_some, List.lookup_cons, ih]
          by_cases hn : n = x
          · subst hn
            simp [hx]
          · have hne : (n == x) = false := beq_eq_false_iff_ne.mpr hn
            simp [hne, hn]

theorem Step.lookup_observe (names : List String) (line : Nat) (env : Environment) (heap : Heap)
    (n : String) :
    Step.entry? (Step.observe names line env heap) n =
      if n ∈ names then (env.lookup? n).bind (·.snapshot? heap) else none := by
  rw [← lookup_filterMap names fun x => (env.lookup? x).bind (·.snapshot? heap)]
  unfold Step.observe Step.entry?
  simp only [Option.map_bind]
  rfl

theorem globals_reserved : ∀ x ∈ Native.globals.map Prod.fst, x ∈ reserved := by
  decide

/-- A name that the program binds is a candidate unless it is reserved. -/
theorem mem_candidates_or_reserved {source : String} {program : Program}
    (h : parse source = .ok program) {x : String} (hx : x ∈ boundNames program) :
    x ∈ candidates source ∨ x ∈ reserved := by
  by_cases hreserved : x ∈ reserved
  · exact Or.inr hreserved
  · exact Or.inl ((mem_candidates source x).mpr ⟨Syntax.written_parse h x hx, hreserved⟩)

/-- Where everything that is bound is a candidate or reserved, a step shows the names that are
not reserved and whose values have a snapshot. -/
theorem Step.lookup_observe_candidates {source : String} {env : Environment}
    (hbound : ∀ x, env.Binds x → x ∈ candidates source ∨ x ∈ reserved) (line : Nat)
    (heap : Heap) (n : String) :
    Step.entry? (Step.observe (candidates source) line env heap) n =
      if n ∈ reserved then none else (env.lookup? n).bind (·.snapshot? heap) := by
  rw [Step.lookup_observe]
  by_cases hreserved : n ∈ reserved
  · have hn : n ∉ candidates source := fun hn => ((mem_candidates source n).mp hn).2 hreserved
    rw [if_neg hn, if_pos hreserved]
  · rw [if_neg hreserved]
    by_cases hn : n ∈ candidates source
    · rw [if_pos hn]
    · rw [if_neg hn]
      cases hvalue : env.lookup? n with
      | none => rfl
      | some value =>
          have hbinds := hbound n (Environment.binds_of_lookup? hvalue)
          exact absurd hbinds (not_or.mpr ⟨hn, hreserved⟩)

/-- **Every step shows exactly the visible bindings of the program.** A name is shown if it is
not reserved, the running code can see it, and its value is no function and reaches no cycle
of containers; what is shown is the snapshot of its value. -/
theorem shown_bindings {source : String} {program : Program} (h : parse source = .ok program) :
    ∃ instrumented, instrument source = .ok instrumented ∧ ∀ bound allowance,
      let run := instrumented.runWithin bound allowance
      run.trace.toList = run.final.past.steps ∧
      ∀ moment ∈ run.final.past.get, ∀ step, moment.event = .taken step →
        (∀ n, step.entry? n ≠ none ↔ n ∉ reserved ∧ ∃ value, moment.env.lookup? n = some value ∧
          value.isFunction = false ∧ ¬ value.ReachesCycle moment.heap) ∧
        (∀ n value, moment.env.lookup? n = some value → step.entry? n ≠ none →
          step.entry? n = value.snapshot? moment.heap) ∧
        ∀ n ∈ Native.globals.map Prod.fst, step.entry? n = none := by
  refine ⟨_, instrumentWith_of_parse h (candidates source), fun bound allowance => ?_⟩
  refine ⟨Instrumented.trace_eq_steps _ bound allowance, fun moment hmoment step hstep => ?_⟩
  have hsound := Instrumented.sound_runWithin
    ⟨source, placeStmts (lineMap source).toArray true program, candidates source⟩
    (fun x hx => Or.inr (globals_reserved x hx))
    (fun x hx => mem_candidates_or_reserved h (by rwa [boundNames_placeStmts] at hx))
    bound allowance
  obtain ⟨-, hmade, hbound⟩ := hsound.past moment hmoment step hstep
  have hentry (n : String) : step.entry? n =
      if n ∈ reserved then none else (moment.env.lookup? n).bind (·.snapshot? moment.heap) := by
    rw [hmade]
    exact Step.lookup_observe_candidates hbound step.line moment.heap n
  refine ⟨fun n => ?_, fun n value hvalue hshown => ?_, fun n hn => ?_⟩
  · rw [hentry n]
    by_cases hreserved : n ∈ reserved
    · simp [hreserved]
    · rw [if_neg hreserved]
      cases hvalue : moment.env.lookup? n with
      | none => simp
      | some value =>
          rw [Option.bind_some, Option.ne_none_iff_isSome, Value.isSome_snapshot?_iff]
          simp [hreserved]
  · rw [hentry n] at hshown ⊢
    by_cases hreserved : n ∈ reserved
    · simp [hreserved] at hshown
    · rw [if_neg hreserved, hvalue, Option.bind_some]
  · rw [hentry n, if_pos (globals_reserved n hn)]

theorem parse_letTrue : parse "let x = true;\n" =
    .ok [.declare .letDecl [.mk (.name "x") (some (.bool true ⟨1, 9⟩))] ⟨1, 1⟩] := by
  have htokens : Syntax.tokenize "let x = true;\n" =
      .ok [⟨.keyword .letKw, ⟨1, 1⟩⟩, ⟨.name "x", ⟨1, 5⟩⟩, ⟨.symbol .assign, ⟨1, 7⟩⟩,
        ⟨.keyword .trueKw, ⟨1, 9⟩⟩, ⟨.symbol .semicolon, ⟨1, 13⟩⟩, ⟨.endOfInput, ⟨2, 1⟩⟩] := by
    rfl
  unfold parse
  rw [htokens]
  rfl

theorem shown_bindings_letTrue :
    ∃ instrumented, instrument "let x = true;\n" = .ok instrumented ∧ ∀ bound allowance,
      ∀ moment ∈ (instrumented.runWithin bound allowance).final.past.get,
        ∀ step, moment.event = .taken step → ∀ value, moment.env.lookup? "x" = some value →
          step.entry? "x" ≠ none → step.entry? "x" = value.snapshot? moment.heap := by
  obtain ⟨instrumented, hinstrumented, hruns⟩ := shown_bindings parse_letTrue
  refine ⟨instrumented, hinstrumented, fun bound allowance moment hmoment step hstep => ?_⟩
  obtain ⟨-, hmoments⟩ := hruns bound allowance
  exact (hmoments moment hmoment step hstep).2.1 "x"

end StepTrace
