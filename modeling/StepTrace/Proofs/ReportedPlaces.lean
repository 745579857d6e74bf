import StepTrace.Proofs.CodeLines
import StepTrace.Proofs.WellShapedRuns

/-!
# Where faults are reported

A fault is raised with the place of the node that is evaluated, also where a function of the
language raises it or a callback that such a function calls. In a parsed program every node is at
a place where a token of the text starts, so the line that a report names is a line of the text
(`fault_of_run`).
-/

namespace StepTrace

open Syntax Capture

/-- A token that is not the end of the text starts on a line of the text. -/
theorem line_of_startsToken {source : String} {tokens : List Token} {l : Location}
    (htokens : tokenize source = .ok tokens) (hl : StartsToken tokens l) :
    1 ≤ l.line ∧ l.line ≤ (Text.lines source.toList).length := by
  obtain ⟨token, htoken, hend, rfl⟩ := hl
  obtain ⟨p, hp, rfl⟩ := exists_piece htokens htoken hend
  obtain ⟨hcut, -⟩ := cut_pieces htokens
  exact ⟨((lines_of_cut hcut).2 p hp).1, line_le_of_cut hcut [] rfl p hp⟩

/-- **Faults point into the program.** The fault with which the run of a parsed program ends, with
captures in it or without, is at the place of a node of the program, where a token of the text
starts, and the report names its line, which is a line of the text. -/
theorem fault_of_run {source : String} {program : Program} (h : parse source = .ok program)
    (names : List String) :
    ∃ tokens instrumented, tokenize source = .ok tokens ∧
      instrumentWith source names = .ok instrumented ∧
      ∀ stmts, stmts = program ∨ stmts = instrumented.program → ∀ bound allowance fault,
        (Instrumented.runWithin ⟨source, stmts, names⟩ bound allowance).outcome =
            .stopped (.fault fault) →
          fault.loc ∈ locs program ∧
            (∃ token ∈ tokens, token.kind ≠ .endOfInput ∧ token.loc = fault.loc) ∧
            1 ≤ fault.loc.line ∧ fault.loc.line ≤ (Text.lines source.toList).length ∧
            fault.report = fault.message ++ " (line " ++ toString fault.loc.line ++ ")" := by
  obtain ⟨tokens, htokens, hplain⟩ := plain_parse h
  refine ⟨tokens, _, htokens, instrumentWith_of_parse h names, ?_⟩
  intro stmts hstmts bound allowance fault hfault
  obtain ⟨map, rfl⟩ : ∃ map, stmts = placeStmts map true program := by
    rcases hstmts with rfl | rfl
    · exact ⟨#[], (placeStmts_empty true stmts).symm⟩
    · exact ⟨_, rfl⟩
  have hspelled (digits : String) (hdigits : Part.bigint digits ∈ parts program) :
      (Number.readInt? digits.toList).isSome := spelled_of_parse h hdigits
  obtain ⟨hloc, -⟩ :=
    Instrumented.faults_of_runWithin hspelled map source names bound allowance hfault
  have hstarts := hplain.sited fault.loc hloc
  obtain ⟨hpos, hle⟩ := line_of_startsToken htokens hstarts
  exact ⟨hloc, hstarts, hpos, hle, if_pos hpos⟩

theorem parse_throwTrue : parse "\nthrow true;" =
    .ok [.throw (.bool true ⟨2, 7⟩) ⟨2, 1⟩] := by
  have htokens : tokenize "\nthrow true;" =
      .ok [⟨.keyword .throwKw, ⟨2, 1⟩⟩, ⟨.keyword .trueKw, ⟨2, 7⟩⟩,
        ⟨.symbol .semicolon, ⟨2, 11⟩⟩, ⟨.endOfInput, ⟨2, 12⟩⟩] := by
    rfl
  unfold parse
  rw [htokens]
  rfl

theorem outcome_throwTrue :
    (Instrumented.runWithin ⟨"\nthrow true;", [.throw (.bool true ⟨2, 7⟩) ⟨2, 1⟩], []⟩ 0
        none).outcome = .stopped (.fault ⟨.thrown "Uncaught true", ⟨2, 1⟩⟩) := by
  have htext (heap : Heap) : raisedText heap (.bool true) = "Uncaught true" := rfl
  simp [Instrumented.runWithin, Instrumented.process, execProgram, execStmts, hoist, execEach,
    execStmt, evalExpr, Eval.frame, Eval.leaving, Eval.changeEnv, Eval.bind_apply, Eval.consult,
    Eval.ask, Eval.raise, Eval.stop, Process.andThen, Process.leaving, Process.run, htext]

theorem fault_of_run_throwTrue :
    ∃ tokens, tokenize "\nthrow true;" = .ok tokens ∧
      (∃ token ∈ tokens, token.kind ≠ .endOfInput ∧ token.loc = ⟨2, 1⟩) ∧
      (2 : Nat) ≤ (Text.lines "\nthrow true;".toList).length ∧
      Fault.report ⟨.thrown "Uncaught true", ⟨2, 1⟩⟩ =
        "Uncaught true" ++ " (line " ++ toString 2 ++ ")" := by
  obtain ⟨tokens, instrumented, htokens, -, hruns⟩ := fault_of_run parse_throwTrue []
  obtain ⟨-, hstarts, -, hle, hreport⟩ := hruns _ (Or.inl rfl) 0 none _ outcome_throwTrue
  exact ⟨tokens, htokens, hstarts, hle, hreport⟩

end StepTrace
