import StepTrace.Proofs.ArrayTokens
import StepTrace.Proofs.LoopLevels
import StepTrace.Proofs.ReadCalls

/-!
# Nesting in joined programs

Where one program stands behind another on lines of its own, its loops are counted from the level
that the first one leaves open. So the nesting of both is never less than that of either, and it
is the larger of the two, whatever stands behind, exactly if the first program closes all levels
that its lines open (`maxNesting_joined_iff`). A loop that stands on one line with its braces is
never closed: two of them, one behind the other, count as nested (`not_joins_onLines`).
-/

namespace StepTrace.Syntax

open Lowering Text

/-! ## Loops without a body -/

/-- Loops without clauses and body, each behind a newline. -/
def idleLoops : Nat → List Char
  | 0 => []
  | n + 1 => '\n' :: 'f' :: 'o' :: 'r' :: '(' :: ';' :: ';' :: ')' :: ';' :: idleLoops n

/-- The tokens of a loop without clauses and body. -/
def idleKinds : List Kind :=
  [.keyword .forKw, .symbol .leftParen, .symbol .semicolon, .symbol .semicolon,
    .symbol .rightParen, .symbol .semicolon]

/-- The tokens of so many loops. -/
def idleTokens : Nat → List Kind
  | 0 => []
  | n + 1 => idleKinds ++ idleTokens n

theorem lexesAs_idleLoops (n : Nat) : LexesAs (idleLoops n) (idleTokens n) := by
  induction n with
  | zero => exact .nil
  | succ n ih =>
      have hsemicolon : (';', Symbol.semicolon) ∈ marks := by decide
      have hclosed := (ih.behind_mark hsemicolon).behind_lexeme ')' [] (.symbol .rightParen)
        (fun _ _ => rfl) (fun _ => rfl)
      have hclauses := (hclosed.behind_mark hsemicolon).behind_mark hsemicolon
      have hopened := hclauses.behind_lexeme '(' [] (.symbol .leftParen)
        (fun _ _ => rfl) (fun _ => rfl)
      have hloop := hopened.behind_lexeme 'f' ['o', 'r'] (.keyword .forKw)
        (fun _ _ => rfl) (fun _ => rfl)
      have hnewline : ∀ c ∈ ['\n'], isLayoutChar c = true := List.forall_mem_singleton.mpr rfl
      exact hloop.behind_layout hnewline

theorem statement_idleLoop (depth : Nat) (previous l₁ l₂ l₃ l₄ l₅ l₆ : Location)
    (others : List Token) :
    statement (depth + 6) ⟨previous, ⟨.keyword .forKw, l₁⟩ :: ⟨.symbol .leftParen, l₂⟩ ::
      ⟨.symbol .semicolon, l₃⟩ :: ⟨.symbol .semicolon, l₄⟩ :: ⟨.symbol .rightParen, l₅⟩ ::
        ⟨.symbol .semicolon, l₆⟩ :: others⟩ =
      .ok (.for none none none [.block [] l₆] l₁, ⟨l₆, others⟩) :=
  rfl

theorem exists_programStatements_idle {n depth left : Nat} (hdepth : 6 ≤ depth) (hleft : n < left)
    {tokens : List Token} (hkinds : tokens.map Token.kind = idleTokens n)
    (previous l : Location) : ∃ tree rest,
      programStatements depth left ⟨previous, tokens ++ [⟨.endOfInput, l⟩]⟩ = .ok (tree, rest) := by
  obtain ⟨depth, rfl⟩ := Nat.exists_eq_add_of_le' hdepth
  induction n generalizing left tokens previous with
  | zero =>
      obtain ⟨left, rfl⟩ := Nat.exists_eq_add_of_lt hleft
      obtain rfl := List.map_eq_nil_iff.mp hkinds
      exact ⟨_, _, rfl⟩
  | succ n ih =>
      obtain ⟨left, rfl⟩ : ∃ k, left = k + 1 := ⟨left - 1, by omega⟩
      obtain ⟨l₁, behind₁, rfl, h₁⟩ := exists_token hkinds
      obtain ⟨l₂, behind₂, rfl, h₂⟩ := exists_token h₁
      obtain ⟨l₃, behind₃, rfl, h₃⟩ := exists_token h₂
      obtain ⟨l₄, behind₄, rfl, h₄⟩ := exists_token h₃
      obtain ⟨l₅, behind₅, rfl, h₅⟩ := exists_token h₄
      obtain ⟨l₆, behind₆, rfl, h₆⟩ := exists_token h₅
      obtain ⟨tree, rest, hrest⟩ := ih (Nat.lt_of_succ_lt_succ hleft) h₆ l₆
      have hstatement := statement_idleLoop depth previous l₁ l₂ l₃ l₄ l₅ l₆
        (behind₆ ++ [⟨.endOfInput, l⟩])
      refine ⟨.for none none none [.block [] l₆] l₁ :: tree, rest, ?_⟩
      simp only [List.cons_append]
      rw [programStatements, Reader.bind_of_ok rfl, if_neg (by exact Bool.false_ne_true),
        Reader.bind_of_ok hstatement, Reader.bind_of_ok hrest]
      rfl

theorem length_idleTokens (n : Nat) : n ≤ (idleTokens n).length := by
  induction n with
  | zero => exact Nat.le_refl 0
  | succ n ih =>
      have hloop : (idleTokens (n + 1)).length = 6 + (idleTokens n).length := List.length_append
      omega

/-- Loops without clauses and body are a program. -/
theorem exists_parse_idleLoops (n : Nat) :
    ∃ tree, parse (String.ofList (idleLoops n)) = .ok tree := by
  let left := (idleLoops n).length - (idleTokens n).length
  have hfits := (lexesAs_idleLoops n).fits
  have hleft : left + 1 + (idleTokens n).length = (idleLoops n).length + 1 := by omega
  have hnone : EndsNumeral [] := fun _ hc => by cases hc
  obtain ⟨tokens, hkinds, htokens⟩ := (lexesAs_idleLoops n).cut left ⟨1, 1⟩ [] _ hnone rfl
  rw [List.append_nil, hleft] at htokens
  obtain ⟨l, htokens⟩ : ∃ l, tokensFrom ((idleLoops n).length + 1) ⟨1, 1⟩ (idleLoops n) =
      .ok (tokens ++ [⟨.endOfInput, l⟩]) := ⟨_, htokens⟩
  let all := tokens ++ [⟨.endOfInput, l⟩]
  let start := (all.head?.map (·.loc)).getD ⟨1, 1⟩
  have hlength : all.length = (idleTokens n).length + 1 := by
    rw [← hkinds, List.length_map, List.length_append, List.length_singleton]
  have hmany : n < all.length + 1 := by
    have hloops := length_idleTokens n
    omega
  have hdepth : 6 ≤ stepsPerToken * (all.length + 1) := by
    rw [stepsPerToken]
    omega
  obtain ⟨tree, rest, hread⟩ := exists_programStatements_idle hdepth hmany hkinds start l
  refine ⟨tree, (parse_of_tokensFrom htokens).trans ?_⟩
  change (programStatements (stepsPerToken * (all.length + 1)) (all.length + 1) ⟨start, all⟩).map
    (·.1) = _
  rw [hread]
  rfl

theorem parse_emptyLoop : parse "for (;;) \x7b\x7d" =
    .ok [.for none none none [] ⟨1, 1⟩] := by
  have htokens : tokenize "for (;;) \x7b\x7d" =
      .ok [⟨.keyword .forKw, ⟨1, 1⟩⟩, ⟨.symbol .leftParen, ⟨1, 5⟩⟩,
        ⟨.symbol .semicolon, ⟨1, 6⟩⟩, ⟨.symbol .semicolon, ⟨1, 7⟩⟩, ⟨.symbol .rightParen, ⟨1, 8⟩⟩,
        ⟨.symbol .leftBrace, ⟨1, 10⟩⟩, ⟨.symbol .rightBrace, ⟨1, 11⟩⟩, ⟨.endOfInput, ⟨1, 12⟩⟩] := by
    rfl
  unfold parse
  rw [htokens]
  rfl
end StepTrace.Syntax

namespace StepTrace.Structure

open Lowering Syntax Text

/-! ## Joined programs -/

/-- Among the lines of the text from any one to the end, as many at least end a level as open one. -/
def ClosesItsLevels (source : String) : Prop :=
  ∀ tail, tail <:+ splitLines source.toList → tail.countP opensLevel ≤ tail.countP endsLevel

theorem closesItsLevels_iff {source : String} :
    ClosesItsLevels source ↔ levelAfter 0 (splitLines source.toList) = 0 := by
  rw [← Nat.le_zero, levelAfter_le_iff, ClosesItsLevels]
  simp only [Nat.add_zero, Nat.zero_add]
  exact ⟨fun h => ⟨h, h _ List.suffix_rfl⟩, And.left⟩

/-- The loops of the second text are counted from the level that the first one leaves open. -/
theorem maxNesting_joined (first second : String) :
    (analyze (first ++ "\n" ++ second)).maxNesting = max (analyze first).maxNesting
      (peak (levelAfter 0 (splitLines first.toList)) (splitLines second.toList)) := by
  have hjoined : (first ++ "\n" ++ second).toList = first.toList ++ '\n' :: second.toList := by
    simp
  rw [(analyze_eq _).1, (analyze_eq _).1, hjoined, splitLines_append, peak_append]

theorem splitLines_idleLoops (n : Nat) : splitLines (idleLoops n) =
    [] :: List.replicate n ['f', 'o', 'r', '(', ';', ';', ')', ';'] := by
  induction n with
  | zero => rfl
  | succ n ih => simp [idleLoops, splitLines, ih, List.replicate_succ]

theorem opensLevel_idleLoop : opensLevel ['f', 'o', 'r', '(', ';', ';', ')', ';'] = true := by
  decide +kernel

theorem peak_replicate {line : List Char} (h : opensLevel line = true) (level n : Nat) :
    peak level (List.replicate n line) = if n = 0 then 0 else level + n := by
  induction n generalizing level with
  | zero => rfl
  | succ n ih =>
      rw [List.replicate_succ, peak, levelBehind, if_pos h, if_pos h, ih]
      split <;> simp <;> omega

theorem peak_idleLoops (level n : Nat) :
    peak level (splitLines (idleLoops n)) = if n = 0 then 0 else level + n := by
  have hempty : opensLevel [] = false := by decide +kernel
  rw [splitLines_idleLoops, peak, levelBehind, hempty, ← peak_replicate opensLevel_idleLoop level n]
  simp [endsLevel]

/-- **Joined programs.** Where a program stands behind another on lines of its own, the nesting is
not less than that of either. It is the larger of the two, whatever program stands behind, if and
only if the first one closes its levels. -/
theorem maxNesting_joined_iff (first : String) :
    (∀ second tree, parse second = .ok tree →
      max (analyze first).maxNesting (analyze second).maxNesting ≤
        (analyze (first ++ "\n" ++ second)).maxNesting) ∧
    ((∀ second tree, parse second = .ok tree →
      (analyze (first ++ "\n" ++ second)).maxNesting =
        max (analyze first).maxNesting (analyze second).maxNesting) ↔ ClosesItsLevels first) := by
  have hbehind (second : String) : (analyze second).maxNesting = peak 0 (splitLines second.toList) :=
    (analyze_eq second).1
  refine ⟨fun second tree _ => ?_, fun h => ?_, fun h second tree _ => ?_⟩
  · rw [maxNesting_joined, hbehind second]
    have hraised := peak_mono (Nat.zero_le (levelAfter 0 (splitLines first.toList)))
      (splitLines second.toList)
    omega
  · let n := (analyze first).maxNesting + 1
    obtain ⟨tree, hparse⟩ := exists_parse_idleLoops n
    have hnesting := h _ tree hparse
    rw [maxNesting_joined, hbehind (String.ofList _), String.toList_ofList, peak_idleLoops,
      peak_idleLoops] at hnesting
    rw [closesItsLevels_iff]
    simp only [n, Nat.add_one_ne_zero, if_false] at hnesting
    omega
  · rw [maxNesting_joined, closesItsLevels_iff.mp h, hbehind second]

/-- A loop that is closed on a line of its own, in front of one that stands on one line. -/
theorem maxNesting_joined_closedLoop : ClosesItsLevels "for (;;) \x7b\n\x7d" ∧
    (analyze ("for (;;) \x7b\n\x7d" ++ "\n" ++ "for (;;) \x7b\x7d")).maxNesting = 1 := by
  have hone : peak 0 (splitLines "for (;;) \x7b\n\x7d".toList) = 1 := by decide +kernel
  have hone' : peak 0 (splitLines "for (;;) \x7b\x7d".toList) = 1 := by decide +kernel
  have hcloses : ClosesItsLevels "for (;;) \x7b\n\x7d" :=
    closesItsLevels_iff.mpr (by decide +kernel)
  refine ⟨hcloses, ?_⟩
  rw [(maxNesting_joined_iff _).2.mpr hcloses _ _ parse_emptyLoop, (analyze_eq _).1, (analyze_eq _).1,
    hone, hone']
  rfl

/-- A loop that stands on one line with its braces is not closed behind it. -/
theorem not_joins_onLines :
    (∃ tree, parse "for (;;) \x7b\x7d" = .ok tree) ∧
      (analyze "for (;;) \x7b\x7d").maxNesting = 1 ∧
      (analyze ("for (;;) \x7b\x7d" ++ "\n" ++ "for (;;) \x7b\x7d")).maxNesting ≠
        max (analyze "for (;;) \x7b\x7d").maxNesting (analyze "for (;;) \x7b\x7d").maxNesting := by
  have hone : peak 0 (splitLines "for (;;) \x7b\x7d".toList) = 1 := by decide +kernel
  have hopen : levelAfter 0 (splitLines "for (;;) \x7b\x7d".toList) = 1 := by decide +kernel
  have htwo : peak 1 (splitLines "for (;;) \x7b\x7d".toList) = 2 := by decide +kernel
  refine ⟨⟨_, parse_emptyLoop⟩, ?_, ?_⟩
  · rw [(analyze_eq _).1, hone]
  · rw [maxNesting_joined, (analyze_eq _).1, hone, hopen, htwo]
    decide

end StepTrace.Structure
