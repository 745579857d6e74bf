import StepTrace.Proofs.Edits
import StepTrace.Proofs.ReadCalls
import StepTrace.Proofs.TokenTexts

/-!
# Calls of the entry function

Behind a program that declares the entry function and mentions it nowhere else stands a call of it,
and whatever the program is, that call is in the tree of the host program: no text literal and no
comment goes on into the line of the call, and no statement of the program does without it
(`mem_calls_of_parse`). Mentions are looked for in the text, though. A comment with the name and a
parenthesis is one, so a program with such a comment gets no call, and its entry function does not
run.

* `calls_entry_iff`: the host programs that call the entry function.
  `not_calls_commentedEntry` is a program that declares it and does not call it.
-/

namespace StepTrace.Syntax

open Capture Text

/-! ## The line of a call -/

/-- The line of a call of the function. -/
def callLine (name : String) : List Char :=
  "await ".toList ++ (name.toList ++ "();\n".toList)

example : callLine "main" = "await main();\n".toList := by decide

variable {name : String} {text : List Char}

theorem callLine_eq (name : String) : callLine name =
    ['a', 'w', 'a', 'i', 't', ' '] ++ (name.toList ++ ['(', ')', ';', '\n']) :=
  rfl

/-- The characters that the line may have besides parts of names. -/
def callMarks : List Char :=
  [' ', '(', ')', ';', '\n']

theorem mem_callLine (h : IsIdentifier name.toList) {c : Char} (hc : c ∈ callLine name) :
    isNamePart c = true ∨ c ∈ callMarks := by
  rw [callLine_eq] at hc
  simp only [List.mem_append, List.mem_cons, List.not_mem_nil, or_false] at hc
  rcases hc with (rfl | rfl | rfl | rfl | rfl | rfl) | hname | rfl | rfl | rfl | rfl
  case inr.inl => exact Or.inl (h.part c hname)
  all_goals decide

/-- Nothing in the line ends a text literal or a comment. -/
theorem standsAlone_callLine (h : IsIdentifier name.toList) : StandsAlone (callLine name) := by
  have hmark : ∀ c ∈ callMarks, c ≠ '"' ∧ c ≠ '\'' ∧ c ≠ '*' := forall_of_all rfl
  have hplain : ∀ c ∈ callLine name, c ≠ '"' ∧ c ≠ '\'' ∧ c ≠ '*' := by
    intro c hc
    rcases mem_callLine h hc with hpart | hmem
    · refine ⟨?_, ?_, ?_⟩
      all_goals
        rintro rfl
        exact absurd hpart (by decide)
    · exact hmark c hmem
  constructor
  · intro l
    exact skipGap_none (c := 'a') (by decide) (fun heq => absurd heq (by decide))
  · intro c hc hquote
    exact hquote.elim (hplain c hc).1 (hplain c hc).2.1
  · intro hc
    exact (hplain _ hc).2.2 rfl

/-- The tokens of the line. -/
theorem tokens_callLine (h : IsIdentifier name.toList) {left : Nat} {l : Location}
    {tokens : List Token} (htokens : tokensFrom (left + 7) l (callLine name) = .ok tokens) :
    tokens.map Token.kind = .keyword .awaitKw :: callKinds name := by
  let behind : List Char := name.toList ++ "();\n".toList
  have hend (left : Nat) (l : Location) : ∃ l₁ l₂ l₃ l₄, tokensFrom (left + 4) l "();\n".toList =
      .ok [⟨.symbol .leftParen, l₁⟩, ⟨.symbol .rightParen, l₂⟩, ⟨.symbol .semicolon, l₃⟩,
        ⟨.endOfInput, l₄⟩] := ⟨_, _, _, _, rfl⟩
  obtain ⟨l₁, l₂, l₃, l₄, hparens⟩ :=
    hend (left + 1) (((l.after ['a', 'w', 'a', 'i', 't']).next ' ').after name.toList)
  have hname := tokensFrom_identifier h (by decide) hparens
  rw [← tokensFrom_blank (by decide : isBlank ' ' = true)] at hname
  have hline : callLine name = 'a' :: (['w', 'a', 'i', 't'] ++ ' ' :: behind) := rfl
  have hgap : skipGap .open l (callLine name) = .ok (l, callLine name) :=
    (standsAlone_callLine h).start l
  have hawait : lexeme 'a' (['w', 'a', 'i', 't'] ++ ' ' :: behind) =
      .ok ⟨.keyword .awaitKw, ['a', 'w', 'a', 'i', 't'], ' ' :: behind⟩ := rfl
  rw [hline] at hgap htokens
  cases (tokensFrom_cons hgap hawait hname).symm.trans htokens
  simp [callKinds]

/-- Behind any program text, the line of a call is a call of the tree. -/
theorem mem_calls_of_parse (h : IsIdentifier name.toList) {program : Program}
    (hparse : parse (String.ofList (text ++ '\n' :: callLine name)) = .ok program) :
    name ∈ calls program := by
  unfold parse tokenize at hparse
  rw [String.toList_ofList] at hparse
  cases htokens : tokensFrom ((text ++ '\n' :: callLine name).length + 1) ⟨1, 1⟩
      (text ++ '\n' :: callLine name) with
  | error e =>
      rw [htokens] at hparse
      cases hparse
  | ok tokens =>
      rw [htokens] at hparse
      obtain ⟨before, behind, left, l, rfl, hends, hlength, hbehind⟩ :=
        exists_tokens_line (standsAlone_callLine h) (by simp [callLine_eq]) htokens
          (Nat.lt_succ_self _)
      obtain ⟨more, rfl⟩ : ∃ more, left = more + 7 := by
        refine ⟨left - 7, ?_⟩
        have hseven : 7 ≤ (callLine name).length := by simp [callLine_eq]
        omega
      have hkinds := tokens_callLine h hbehind
      have hend : Kind.endOfInput ∉ before.map Token.kind := by
        intro hmem
        obtain ⟨token, htoken, hkind⟩ := List.mem_map.mp hmem
        exact hends token htoken hkind
      have hall : (before ++ behind).map Token.kind =
          before.map Token.kind ++ .keyword .awaitKw :: callKinds name := by
        rw [List.map_append, hkinds]
      exact mem_calls_of_parseTokens hend hall hparse

end StepTrace.Syntax

namespace StepTrace.Lowering

open Syntax Pattern Text

/-! ## Calls of the entry function -/

/-- The text declares the function and mentions it in no other place. -/
structure Announces (name : String) (text : List Char) : Prop where
  declared : (declares name).occursIn text = true
  once : ((mentions name).findAll text).length ≤ 1

instance (name : String) (text : List Char) : Decidable (Announces name text) :=
  decidable_of_iff ((declares name).occursIn text = true ∧
      ((mentions name).findAll text).length ≤ 1)
    ⟨fun h => ⟨h.1, h.2⟩, fun h => ⟨h.declared, h.once⟩⟩

theorem callEntry_announces {name : String} {text : List Char} (h : Announces name text) :
    callEntry name text = trimEnd text ++ '\n' :: callLine name := by
  have hnewline : "\nawait ".toList = '\n' :: "await ".toList := by decide
  unfold callEntry
  rw [if_neg (by simp [h.declared, h.once]), hnewline, List.append_assoc, List.append_assoc]
  rfl

theorem callEntry_not_announces {name : String} {text : List Char} (h : ¬ Announces name text) :
    callEntry name text = text := by
  refine if_pos ?_
  by_cases hdeclared : (declares name).occursIn text = true
  · have hmany : ¬ ((mentions name).findAll text).length ≤ 1 := fun honce => h ⟨hdeclared, honce⟩
    simp only [hdeclared, Bool.not_true, Bool.false_or, decide_eq_true_eq]
    omega
  · simp [hdeclared]

theorem toHost_source {language : Language} {rules : Ruleset}
    (hrules : ruleset? language = some rules) (source : String) :
    (toHost source language).source =
      String.ofList (callEntry "main" (rules.lowered source.toList)) := by
  have hentry : rules.entryFunction = some "main" := by
    cases language <;> cases hrules <;> rfl
  unfold toHost
  rw [hrules]
  simp only [rules.run_eq, hentry]

/-- The host programs that call the entry function: those of which the lowered text announces it,
and those of which the lowered text is a program with a call of its own. -/
theorem calls_entry_iff {language : Language} {rules : Ruleset}
    (hrules : ruleset? language = some rules) {source : String} {program : Program}
    (hparse : parse (toHost source language).source = .ok program) :
    "main" ∈ calls program ↔ Announces "main" (rules.lowered source.toList) ∨
      ∃ own, parse (String.ofList (rules.lowered source.toList)) = .ok own ∧
        "main" ∈ calls own := by
  rw [toHost_source hrules] at hparse
  by_cases hannounces : Announces "main" (rules.lowered source.toList)
  · rw [callEntry_announces hannounces] at hparse
    exact iff_of_true (mem_calls_of_parse (by decide) hparse) (Or.inl hannounces)
  · rw [callEntry_not_announces hannounces] at hparse
    constructor
    · intro hcalls
      exact Or.inr ⟨program, hparse, hcalls⟩
    · rintro (h | ⟨own, hown, hcalls⟩)
      · exact absurd h hannounces
      · cases hown.symm.trans hparse
        exact hcalls

/-- A program whose entry function does nothing. -/
def idleEntry : String :=
  "void main() \x7b\n\x7d\n"

set_option maxRecDepth 100000 in
theorem calls_entry_iff_idleEntry :
    ∃ program, parse (toHost idleEntry .java).source = .ok program ∧
      ("main" ∈ calls program ↔ Announces "main" (java.lowered idleEntry.toList) ∨
        ∃ own, parse (String.ofList (java.lowered idleEntry.toList)) = .ok own ∧
          "main" ∈ calls own) := by
  have hhost : (toHost idleEntry .java).source =
      "async function main() \x7b\n\x7d\nawait main();\n" := by decide +kernel
  have htokens : tokenize "async function main() \x7b\n\x7d\nawait main();\n" =
      .ok [⟨.keyword .asyncKw, ⟨1, 1⟩⟩, ⟨.keyword .functionKw, ⟨1, 7⟩⟩, ⟨.name "main", ⟨1, 16⟩⟩,
        ⟨.symbol .leftParen, ⟨1, 20⟩⟩, ⟨.symbol .rightParen, ⟨1, 21⟩⟩,
        ⟨.symbol .leftBrace, ⟨1, 23⟩⟩, ⟨.symbol .rightBrace, ⟨2, 1⟩⟩,
        ⟨.keyword .awaitKw, ⟨3, 1⟩⟩, ⟨.name "main", ⟨3, 7⟩⟩, ⟨.symbol .leftParen, ⟨3, 11⟩⟩,
        ⟨.symbol .rightParen, ⟨3, 12⟩⟩, ⟨.symbol .semicolon, ⟨3, 13⟩⟩, ⟨.endOfInput, ⟨4, 1⟩⟩] :=
    rfl
  let main : Function := .mk (some "main") [] [] true false (some (⟨1, 23⟩, ⟨2, 1⟩))
  let call : Expr := .await (.call (.variable "main" ⟨3, 7⟩) [] ⟨3, 11⟩) ⟨3, 1⟩
  have hparse : parse (toHost idleEntry .java).source =
      .ok [.function main ⟨1, 1⟩, .expr call ⟨3, 1⟩] := by
    unfold parse
    rw [hhost, htokens]
    rfl
  exact ⟨_, hparse, calls_entry_iff rfl hparse⟩

/-- The same program with a comment behind it that mentions the function. -/
def commentedEntry : String :=
  "void main() \x7b\n\x7d\n// main()\n"

set_option maxRecDepth 100000 in
/-- The program declares the entry function, and its host program does not call it. -/
theorem not_calls_commentedEntry :
    ∃ program, parse (toHost commentedEntry .java).source = .ok program ∧
      (∃ f l, .function f l ∈ program ∧ f.name = some "main") ∧ "main" ∉ calls program := by
  have hhost : (toHost commentedEntry .java).source =
      "async function main() \x7b\n\x7d\n// main()\n" := by decide +kernel
  have htokens : tokenize "async function main() \x7b\n\x7d\n// main()\n" =
      .ok [⟨.keyword .asyncKw, ⟨1, 1⟩⟩, ⟨.keyword .functionKw, ⟨1, 7⟩⟩, ⟨.name "main", ⟨1, 16⟩⟩,
        ⟨.symbol .leftParen, ⟨1, 20⟩⟩, ⟨.symbol .rightParen, ⟨1, 21⟩⟩,
        ⟨.symbol .leftBrace, ⟨1, 23⟩⟩, ⟨.symbol .rightBrace, ⟨2, 1⟩⟩, ⟨.endOfInput, ⟨4, 1⟩⟩] :=
    rfl
  let main : Function := .mk (some "main") [] [] true false (some (⟨1, 23⟩, ⟨2, 1⟩))
  have hparse : parse (toHost commentedEntry .java).source = .ok [.function main ⟨1, 1⟩] := by
    unfold parse
    rw [hhost, htokens]
    rfl
  have hcalls : "main" ∉ calls [.function main ⟨1, 1⟩] := List.not_mem_nil
  exact ⟨_, hparse, ⟨main, ⟨1, 1⟩, List.mem_singleton_self _, rfl⟩, hcalls⟩

end StepTrace.Lowering
