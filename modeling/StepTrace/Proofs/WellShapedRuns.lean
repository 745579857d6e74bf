import StepTrace.Proofs.FaultPlaces
import StepTrace.Proofs.Numerals
import StepTrace.Proofs.ReadBraces
import StepTrace.Proofs.Transparency

/-!
# Runs of well-shaped programs

A parsed program has the shape that evaluation counts on. Nearly all of this is in the types of
the tree: a spread stands only among elements, a statement never in an expression, only places
are assigned to, and the operators that decide on their second operand are apart from the
others. What is left are the digits of large integers, which the tree keeps as a text. The lexer
takes only digits, the parser takes texts only from the lexer, and closures have their functions
from the program; so no run comes upon digits that are no integer.

* `tokenize_ne_invalidNumber`: the lexer finds no numeral that it cannot convert.
* `spelled_of_parse`: the digits in a parsed program are those of integers.
* `shape_of_run`: no message of a run tells of a tree of the wrong shape.
-/

namespace StepTrace

open Syntax Capture

namespace Syntax

/-! ## Numerals -/

theorem lexeme_ne_invalidNumber (c : Char) (rest : List Char) (text : String) :
    lexeme c rest ≠ .error (.invalidNumber text) := by
  unfold lexeme
  split
  · split <;> simp
  · split
    · rename_i hstart
      have hnumeral : StartsNumeral c rest := by simpa [StartsNumeral] using hstart
      exact numberLexeme_ne_invalidNumber hnumeral text
    · split
      · simp
      · split <;> simp

theorem skipGap_error {mode : GapMode} {l : Location} {text : List Char} {e : SyntaxError}
    (h : skipGap mode l text = .error e) : e.fault = .unterminatedComment := by
  fun_induction skipGap mode l text <;> simp_all
  subst h
  rfl

/-- What is wrong with the tokens of a text is wrong with a comment or with one lexeme. -/
theorem fault_of_tokensFrom {left : Nat} {l : Location} {text : List Char} {e : SyntaxError}
    (h : tokensFrom left l text = .error e) :
    e.fault = .unterminatedComment ∨ ∃ c rest, lexeme c rest = .error e.fault := by
  induction left generalizing l text with
  | zero => cases h
  | succ left ih =>
      rw [tokensFrom] at h
      cases hgap : skipGap .open l text with
      | error e' =>
          rw [hgap] at h
          cases h
          exact Or.inl (skipGap_error hgap)
      | ok behind =>
          obtain ⟨l', _ | ⟨c, rest⟩⟩ := behind
          · rw [hgap] at h
            cases h
          rw [hgap] at h
          simp only [Bind.bind, Except.bind] at h
          cases hlexeme : lexeme c rest with
          | error fault =>
              simp only [hlexeme] at h
              cases h
              exact Or.inr ⟨c, rest, hlexeme⟩
          | ok found =>
              simp only [hlexeme] at h
              cases hothers : tokensFrom left (l'.after found.text) found.rest with
              | error e' =>
                  rw [hothers] at h
                  cases h
                  exact ih hothers
              | ok others =>
                  rw [hothers] at h
                  cases h

theorem tokenize_ne_invalidNumber (source written : String) (place : Location) :
    tokenize source ≠ .error ⟨.invalidNumber written, place⟩ := by
  intro h
  rcases fault_of_tokensFrom h with hcomment | ⟨c, rest, hlexeme⟩
  · cases hcomment
  · exact lexeme_ne_invalidNumber c rest written hlexeme

/-! ## Digits of large integers -/

/-- The digits write an integer. -/
def WritesInteger (digits : String) : Prop :=
  (Number.readInt? digits.toList).isSome

theorem readInt?_of_digits {digits : List Char} (hne : digits ≠ [])
    (hdigits : ∀ c ∈ digits, c.isDigit = true) : (Number.readInt? digits).isSome := by
  obtain ⟨c, rest, rfl⟩ := List.exists_cons_of_ne_nil hne
  obtain ⟨hc, hrest⟩ := List.forall_mem_cons.mp hdigits
  have hall : (rest.all fun d => d.isDigit || d == '_') = true :=
    List.all_eq_true.mpr fun d hd => by simp [hrest d hd]
  simp [Number.readInt?, splitSign_of_digit (Or.inl hc), hc, hall]

/-- The digits of a token for a large integer are digits. -/
theorem writesInteger_of_lexeme {c : Char} {rest : List Char} {found : Lexeme} {digits : String}
    (h : lexeme c rest = .ok found) (hkind : found.kind = .bigint digits) :
    WritesInteger digits := by
  unfold lexeme at h
  split at h
  · split at h
    · cases h
      cases hkind
    · cases h
  · split at h
    · rename_i hstart
      have hnumeral : StartsNumeral c rest := by simpa [StartsNumeral] using hstart
      have hform := numberLexeme_form c rest
      generalize numberLexeme c rest = result at hform h
      cases hform with
      | hexadecimal hfirst hrest hmark =>
          unfold hexLexeme at h
          dsimp only at h
          split at h
          · cases h
            cases hkind
          · cases h
      | decimal hfraction hpoint =>
          unfold numberLexeme.finish at h
          dsimp only at h
          split at h
          · cases h
            cases hkind
          · cases h
      | bigint hfirst hmarks =>
          cases h
          cases hkind
          have hdigit : c.isDigit = true := hnumeral.resolve_right fun hpoint => hfirst hpoint.1
          have hline : c ≠ '_' := ne_underscore_of_isDigit hdigit
          rw [WritesInteger, String.toList_ofList, dropUnderscores_cons hline]
          refine readInt?_of_digits (List.cons_ne_nil _ _) ?_
          exact List.forall_mem_cons.mpr ⟨hdigit, dropUnderscores_marks hmarks⟩
    · split at h
      · cases h
        unfold wordLexeme at hkind
        dsimp only at hkind
        split at hkind <;> cases hkind
      · split at h
        · rename_i found' hfound
          cases h
          obtain ⟨m, heq, -⟩ := symbolLexeme?_text hfound
          rw [heq] at hkind
          cases hkind
        · cases h

theorem writesInteger_of_cut {l : Location} {text : List Char} {ps : List Piece}
    (h : Cut l text ps) {p : Piece} (hp : p ∈ ps) {digits : String}
    (hkind : p.token.kind = .bigint digits) : WritesInteger digits := by
  induction h with
  | last => cases hp
  | piece _ hfound _ ih =>
      rcases List.mem_cons.mp hp with rfl | hp
      · exact writesInteger_of_lexeme hfound hkind
      · exact ih hp

/-- The walk over the tokens has its marks of large integers from tokens. -/
theorem bigint_of_run {seen : Location → Bool} {b : Braces} {tokens : List Token}
    {digits : String} (h : .bigint digits ∈ (b.run seen tokens).done) :
    .bigint digits ∈ b.done ∨ ∃ token ∈ tokens, token.kind = .bigint digits := by
  induction tokens generalizing b with
  | nil => exact Or.inl h
  | cons token rest ih =>
      have hstep (opens : Bool) (hmem : .bigint digits ∈ (b.step token opens).done) :
          .bigint digits ∈ b.done ∨ token.kind = .bigint digits := by
        unfold Braces.step at hmem
        split at hmem
        case h_1 =>
          rename_i written hkind
          rcases List.mem_append.mp hmem with hdone | hnew
          · exact Or.inl hdone
          · cases List.mem_singleton.mp hnew
            exact Or.inr hkind
        case h_5 =>
          rw [Braces.close] at hmem
          rcases List.mem_append.mp hmem with hdone | hnew
          · exact Or.inl hdone
          · split at hnew <;> simp at hnew
        all_goals exact Or.inl hmem
      rcases ih h with hbefore | ⟨token', htoken', hkind⟩
      · rcases hstep _ hbefore with hdone | hkind
        · exact Or.inl hdone
        · exact Or.inr ⟨token, List.mem_cons_self, hkind⟩
      · exact Or.inr ⟨token', List.mem_cons_of_mem _ htoken', hkind⟩

theorem spelled_of_parse {source : String} {program : Program} (h : parse source = .ok program)
    {digits : String} (hdigits : .bigint digits ∈ parts program) : WritesInteger digits := by
  obtain ⟨hcut, hrun, -⟩ := marks_of_parse (fun _ => false) h
  have hmark : Mark.bigint digits ∈
      (({} : Braces).run (fun _ => false) ((pieces source).map Piece.token)).done := by
    rw [hrun, Braces.add]
    exact List.mem_append_right _ (List.mem_filterMap.mpr ⟨_, hdigits, rfl⟩)
  obtain ⟨token, htoken, hkind⟩ := (bigint_of_run hmark).resolve_left List.not_mem_nil
  obtain ⟨p, hp, rfl⟩ := List.mem_map.mp htoken
  exact writesInteger_of_cut hcut hp hkind

end Syntax

/-! ## Messages -/

/-- The messages that tell of a tree of the wrong shape. -/
inductive TellsOfShape : String → Prop
  | spread : TellsOfShape "SyntaxError: Unexpected spread outside of a list"
  | statement : TellsOfShape "SyntaxError: Unexpected statement in expression position"
  | target : TellsOfShape "SyntaxError: Invalid left-hand side in assignment"
  | integer (digits : String) :
    TellsOfShape ("SyntaxError: Invalid BigInt literal " ++ digits ++ "n")
  | operator (op : String) : TellsOfShape ("TypeError: '" ++ op ++ "' must be evaluated lazily")


theorem getLast?_append_of {s t : String} {c : Char} (h : t.toList.getLast? = some c) :
    (s ++ t).toList.getLast? = some c := by
  simp [h]

theorem TellsOfShape.letters {message : String} (h : TellsOfShape message) :
    (message.toList.head? = some 'S' ∧ message.toList[13]? ≠ some 'C') ∨
      (message.toList.head? = some 'T' ∧ message.toList.getLast? = some 'y') := by
  cases h with
  | operator op => exact Or.inr ⟨by simp, getLast?_append_of (by simp)⟩
  | _ => exact Or.inl (by simp)

theorem Cause.last_typeError {cause : Cause} (h : cause.kind.heading = "TypeError: ") :
    ∃ c, cause.detail.toList.getLast? = some c ∧ c ≠ 'y' := by
  cases cause with
  | constant name => exact ⟨'\'', getLast?_append_of (by simp), by decide⟩
  | notFunction callee => exact ⟨'n', getLast?_append_of (by simp), by decide⟩
  | notCallback text => exact ⟨'n', getLast?_append_of (by simp), by decide⟩
  | notConstructor callee => exact ⟨'r', getLast?_append_of (by simp), by decide⟩
  | readOfNothing container property => exact ⟨')', getLast?_append_of (by simp), by decide⟩
  | writeOfNothing container property => exact ⟨')', getLast?_append_of (by simp), by decide⟩
  | notIterable text => exact ⟨'e', getLast?_append_of (by simp), by decide⟩
  | notInteger text => exact ⟨'t', getLast?_append_of (by simp), by decide⟩
  | bigintToNumber => exact ⟨'r', by unfold detail; simp, by decide⟩
  | mixedNumbers => exact ⟨'s', by unfold detail; simp, by decide⟩
  | emptyReduction => exact ⟨'e', by unfold detail; simp, by decide⟩
  | circular => exact ⟨'N', by unfold detail; simp, by decide⟩
  | _ => simp [kind, FaultKind.heading] at h

/-- A message is of a family that no such message is of, or it differs from them in one letter. -/
theorem Cause.letters {cause : Cause} (hthrown : cause.kind ≠ .thrown)
    (hliteral : ∀ digits, cause ≠ .integerLiteral digits) :
    cause.message.toList.head? = some 'R' ∨
      (cause.message.toList.head? = some 'S' ∧ cause.message.toList[13]? = some 'C') ∨
      (cause.message.toList.head? = some 'T' ∧ cause.message.toList.getLast? ≠ some 'y') := by
  cases hkind : cause.kind with
  | thrown => exact absurd hkind hthrown
  | undefinedVariable => simp [message, hkind, FaultKind.heading]
  | rangeError => simp [message, hkind, FaultKind.heading]
  | bigintDivisionByZero => simp [message, hkind, FaultKind.heading]
  | callDepthExceeded => simp [message, hkind, FaultKind.heading]
  | syntaxError =>
      cases cause with
      | integerLiteral digits => exact absurd rfl (hliteral digits)
      | integerText text =>
          unfold message detail
          simp [kind, FaultKind.heading]
      | _ => cases hkind
  | _ =>
      have hheading : cause.kind.heading = "TypeError: " := by
        rw [hkind]
        rfl
      obtain ⟨c, hlast, hc⟩ := last_typeError hheading
      refine Or.inr (Or.inr ⟨by simp [message, hkind, FaultKind.heading], ?_⟩)
      rw [message, getLast?_append_of hlast]
      simpa using hc

theorem Cause.not_tellsOfShape {cause : Cause} (hthrown : cause.kind ≠ .thrown)
    (hliteral : ∀ digits, cause ≠ .integerLiteral digits) : ¬ TellsOfShape cause.message := by
  intro h
  have hshape := h.letters
  have hcause := letters hthrown hliteral
  grind

/-! ## Runs -/

theorem Capture.Instrumented.spelled_runWithin {source : String} {program : Program}
    (h : parse source = .ok program) (map : Array LineKind) (names : List String) (bound : Nat)
    (allowance : Option Nat) (fault : Fault)
    (hfault : (Instrumented.runWithin ⟨source, placeStmts map true program, names⟩ bound
      allowance).outcome = .stopped (.fault fault)) (digits : String) :
    fault.cause ≠ .integerLiteral digits :=
  (Instrumented.faults_of_runWithin (fun _ hdigits => spelled_of_parse h hdigits) map source names
    bound allowance hfault).2 digits

theorem parse_bigint : parse "1_0n;\n" = .ok [.expr (.bigint "10" ⟨1, 1⟩) ⟨1, 1⟩] := by
  have htokens : tokenize "1_0n;\n" =
      .ok [⟨.bigint "10", ⟨1, 1⟩⟩, ⟨.symbol .semicolon, ⟨1, 5⟩⟩, ⟨.endOfInput, ⟨2, 1⟩⟩] := by
    rfl
  unfold parse
  rw [htokens]
  rfl

end StepTrace
