import StepTrace.Proofs.ReadBraces
import StepTrace.Proofs.ScannedBodies

/-!
# Lines of bodies

The scan finds the bodies of the functions that cannot be suspended without a parser. Against
the tree, its line map is right about every body whose brace it can see: a line of code counts
as one of a body exactly if such a body, with braces on different lines, is around it
(`nonSuspending_iff`). The brace of a body behind an arrow is seen only if it is on the line of
the arrow with blanks between them. So the map agrees with the tree exactly where no line of
code lies in none but unseen bodies (`body_lines_iff`); the last text shows one that does.

* `PlainBodyOn`: the line is one of a body that cannot be suspended.
* `BodyInSight`: the scan can see that the body begins.
* `AgreesOnBodies`: the line map agrees with the tree about bodies.
-/

namespace StepTrace.Capture

open Syntax

variable {source : String} {program : Program} {n : Nat}

/-- A token starts on the line. -/
def CarriesToken (source : String) (n : Nat) : Prop :=
  ∃ tokens, tokenize source = .ok tokens ∧
    ∃ token ∈ tokens, token.kind ≠ .endOfInput ∧ token.loc.line = n

/-- The function is not declared with `async`, and its body is a block with braces on different
lines, between which the line lies or on one of which it is. -/
def PlainBodyOn (f : Function) (n : Nat) : Prop :=
  f.isAsync = false ∧ ∃ first final, f.braces = some (first, final) ∧
    first.line ≠ final.line ∧ first.line ≤ n ∧ n ≤ final.line

/-- Behind an arrow, only blanks of the line stand before the opening brace. -/
def BodyInSight (source : String) (f : Function) : Prop :=
  f.isArrow = true → ∀ first final, f.braces = some (first, final) →
    inSight (pieces source) first = true

/-- A line on which a token starts counts as one of a body that cannot be suspended if it is one,
and as executable if it is not. -/
def AgreesOnBodies (source : String) (program : Program) : Prop :=
  ∀ n, CarriesToken source n →
    ((∃ f ∈ functions program, PlainBodyOn f n) →
      (lineMap source)[n - 1]? = some .nonSuspendingBody) ∧
    ((¬ ∃ f ∈ functions program, PlainBodyOn f n) →
      (lineMap source)[n - 1]? = some .executable)

/-- The marks of a program are those of its large integers and of the bodies that cannot be
suspended and are in sight. -/
theorem body_mem_marks {o c : Location} :
    .body o c ∈ (({} : Braces).add (inSight (pieces source)) (parts program)).done ↔
      ∃ f ∈ functions program, f.isAsync = false ∧ f.braces = some (o, c) ∧
        BodyInSight source f := by
  rw [Braces.add, List.nil_append, List.mem_filterMap]
  constructor
  · rintro ⟨part, hpart, hmark⟩
    unfold Part.mark? at hmark
    split at hmark
    · rename_i x params body isAsync isArrow first final
      split at hmark
      · rename_i hseen
        cases hmark
        simp only [Bool.and_eq_true, Bool.not_eq_true', Bool.or_eq_true] at hseen
        refine ⟨_, mem_functions.mpr hpart, hseen.1, rfl, ?_⟩
        rintro harrow _ _ ⟨⟩
        change isArrow = true at harrow
        simpa [harrow] using hseen.2
      · cases hmark
    · cases hmark
    · cases hmark
  · rintro ⟨⟨x, params, body, isAsync, isArrow, braces⟩, hf, hasync, hbraces, hsight⟩
    obtain rfl : isAsync = false := hasync
    obtain rfl : braces = some (o, c) := hbraces
    refine ⟨_, mem_functions.mp hf, ?_⟩
    cases isArrow with
    | false => rfl
    | true => simp [Part.mark?, hsight rfl o c rfl]

theorem marked_iff :
    Marked (({} : Braces).add (inSight (pieces source)) (parts program)).done n ↔
      ∃ f ∈ functions program, PlainBodyOn f n ∧ BodyInSight source f := by
  simp only [Marked, body_mem_marks]
  constructor
  · rintro ⟨o, c, ⟨f, hf, hasync, hbraces, hsight⟩, hlines⟩
    exact ⟨f, hf, ⟨hasync, o, c, hbraces, hlines⟩, hsight⟩
  · rintro ⟨f, hf, ⟨hasync, o, c, hbraces, hlines⟩, hsight⟩
    exact ⟨o, c, ⟨f, hf, hasync, hbraces, hsight⟩, hlines⟩

/-- A line of code counts as one of a body that cannot be suspended exactly if such a body, with
braces on different lines, is around it and in sight. -/
theorem nonSuspending_iff (h : parse source = .ok program) (hstay : LiteralsStayOnLine source)
    {i : Nat} {kind : LineKind} (hi : (lineMap source)[i]? = some kind) (hcode : kind.HoldsCode) :
    kind = .nonSuspendingBody ↔
      ∃ f ∈ functions program, PlainBodyOn f (i + 1) ∧ BodyInSight source f := by
  obtain ⟨hcut, hrun, l, hapart⟩ := marks_of_parse (inSight (pieces source)) h
  obtain ⟨hordered, hlines⟩ := lines_of_cut hcut
  have hclosed : (({} : Braces).run (inSight (pieces source))
      ((pieces source).map Piece.token)).opened = [] := by
    rw [hrun]
    rfl
  have hstart := BodySeen.start hclosed hapart hordered fun p hp => (hlines p hp).1
  rw [hrun] at hstart
  have hword : WordOver ⟨.endOfInput, l⟩ ⟨1, 1⟩ source.toList {} := by
    intro hinside
    cases hinside
  have hkinds := (bodySeen_follows _ (places_of_cut hcut).1).eachLine hcut hstay (Or.inl rfl) hword
    ⟨_, hstart⟩
  obtain ⟨more, hmore⟩ := lineMap_prefix source
  have hi' : (kindsAhead {} {} source.toList)[i]? = some kind := by
    rw [← hmore, List.getElem?_append_left (List.getElem?_eq_some_iff.mp hi).1]
    exact hi
  rw [hkinds.get hi' hcode, marked_iff, Nat.add_comm 1 i]

/-- Where no text literal goes on over the end of its line, the line map agrees with the tree about
bodies exactly if no line of code lies in none but bodies out of sight. -/
theorem body_lines_iff (h : parse source = .ok program) (hstay : LiteralsStayOnLine source) :
    AgreesOnBodies source program ↔ ∀ n, CarriesToken source n →
      (∃ f ∈ functions program, PlainBodyOn f n) →
        ∃ f ∈ functions program, PlainBodyOn f n ∧ BodyInSight source f := by
  -- the map has a kind for the line, and it counts as code
  have hkind : ∀ n, CarriesToken source n → ∃ kind, (lineMap source)[n - 1]? = some kind ∧
      kind.HoldsCode ∧ n - 1 + 1 = n := by
    rintro n ⟨tokens, htokens, token, htoken, hend, rfl⟩
    obtain ⟨p, hp, rfl⟩ := exists_piece htokens htoken hend
    have hpos : 1 ≤ p.token.loc.line := ((lines_of_cut (cut_pieces htokens).1).2 p hp).1
    rcases (code_lines htokens hstay).1 p.token htoken hend with hcode | hcode
    · exact ⟨_, hcode, Or.inl rfl, Nat.sub_add_cancel hpos⟩
    · exact ⟨_, hcode, Or.inr rfl, Nat.sub_add_cancel hpos⟩
  constructor
  · intro hagrees n hn hbody
    obtain ⟨kind, hget, hcode, hline⟩ := hkind n hn
    have hiff := nonSuspending_iff h hstay hget hcode
    rw [hline] at hiff
    refine hiff.mp ?_
    exact Option.some.inj (hget.symm.trans ((hagrees n hn).1 hbody))
  · intro hsight n hn
    obtain ⟨kind, hget, hcode, hline⟩ := hkind n hn
    have hiff := nonSuspending_iff h hstay hget hcode
    rw [hline] at hiff
    refine ⟨fun hbody => ?_, fun hnone => ?_⟩
    · rw [hget, hiff.mpr (hsight n hn hbody)]
    · have hne : kind ≠ .nonSuspendingBody := by
        intro heq
        obtain ⟨f, hf, hbody, -⟩ := hiff.mp heq
        exact hnone ⟨f, hf, hbody⟩
      rw [hget, hcode.resolve_right hne]

/-- A function on two lines. -/
def plainBody : String :=
  "function f() \x7b\n\x7d\n"

set_option maxRecDepth 8192 in
theorem body_lines_iff_plainBody :
    ∃ program, parse plainBody = .ok program ∧ LiteralsStayOnLine plainBody ∧
      AgreesOnBodies plainBody program := by
  have htokens : tokenize plainBody = .ok [⟨.keyword .functionKw, ⟨1, 1⟩⟩, ⟨.name "f", ⟨1, 10⟩⟩,
      ⟨.symbol .leftParen, ⟨1, 11⟩⟩, ⟨.symbol .rightParen, ⟨1, 12⟩⟩, ⟨.symbol .leftBrace, ⟨1, 14⟩⟩,
      ⟨.symbol .rightBrace, ⟨2, 1⟩⟩, ⟨.endOfInput, ⟨3, 1⟩⟩] := by
    rfl
  have hparse : parse plainBody = .ok
      [.function (.mk (some "f") [] [] false false (some (⟨1, 14⟩, ⟨2, 1⟩))) ⟨1, 1⟩] := by
    unfold parse
    rw [htokens]
    rfl
  have hstay : LiteralsStayOnLine plainBody := by decide +kernel
  refine ⟨_, hparse, hstay, (body_lines_iff hparse hstay).mpr ?_⟩
  rintro n - ⟨f, hf, hbody⟩
  refine ⟨f, hf, hbody, fun harrow => ?_⟩
  obtain rfl : f = _ := List.mem_singleton.mp hf
  cases harrow

/-- The body of an arrow that begins on the line behind the arrow. -/
def blockBelow : String :=
  "let f = x =>\n\x7b\n  x;\n\x7d;\n"

set_option maxRecDepth 8192 in
/-- In `blockBelow` the scan takes the lines of the body for lines of the program. -/
theorem not_agreesOnBodies_blockBelow :
    ∃ program, parse blockBelow = .ok program ∧ ¬ AgreesOnBodies blockBelow program := by
  have htokens : tokenize blockBelow = .ok [⟨.keyword .letKw, ⟨1, 1⟩⟩, ⟨.name "f", ⟨1, 5⟩⟩,
      ⟨.symbol .assign, ⟨1, 7⟩⟩, ⟨.name "x", ⟨1, 9⟩⟩, ⟨.symbol .arrow, ⟨1, 11⟩⟩,
      ⟨.symbol .leftBrace, ⟨2, 1⟩⟩, ⟨.name "x", ⟨3, 3⟩⟩, ⟨.symbol .semicolon, ⟨3, 4⟩⟩,
      ⟨.symbol .rightBrace, ⟨4, 1⟩⟩, ⟨.symbol .semicolon, ⟨4, 2⟩⟩, ⟨.endOfInput, ⟨5, 1⟩⟩] := by
    rfl
  have hparse : parse blockBelow = .ok [.declare .letDecl [.mk (.name "f")
      (some (.function (.mk none ["x"] [.expr (.variable "x" ⟨3, 3⟩) ⟨3, 3⟩] false true
        (some (⟨2, 1⟩, ⟨4, 1⟩))) ⟨1, 9⟩))] ⟨1, 1⟩] := by
    unfold parse
    rw [htokens]
    rfl
  refine ⟨_, hparse, fun hagrees => ?_⟩
  have hcarries : CarriesToken blockBelow 3 :=
    ⟨_, htokens, ⟨.name "x", ⟨3, 3⟩⟩, by simp, nofun, rfl⟩
  have hmarked := (hagrees 3 hcarries).1
    ⟨_, List.mem_singleton_self _, rfl, _, _, rfl, by decide, by decide, by decide⟩
  have hkind : (lineMap blockBelow)[2]? = some .executable := by rfl
  cases hkind.symm.trans hmarked

end StepTrace.Capture
