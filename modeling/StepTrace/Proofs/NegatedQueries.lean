import StepTrace.Eval.Program
import StepTrace.Proofs.Computation
import StepTrace.Proofs.ScopeChains
import StepTrace.Proofs.TokenTexts
import StepTrace.Proofs.UntouchedText
import StepTrace.Syntax.Parser

/-!
# Negated queries

Three queries of the surface languages become comparisons: `q.isEmpty()` and `q.empty()` become
`q.length === 0`, and `a.equals(b)` becomes `a === (b)`. A negation in front of a query stays where
it is, and in the host language it belongs to the left operand only. So a negated query does not
have the negated value: a comparison of a boolean with zero fails whatever the length is, and a
loop that is to run while a container has elements never starts.

* `Query.host_source`: the host program of a query that no other rule rewrites.
* `negated_query`: the value of the negated query, and when it is the negation of the query's.
  `not_negated_equals` are two texts for which it is not.
-/

namespace StepTrace.Lowering

open Syntax Pattern

/-! ## Queries -/

/-- A query whose operands are names. -/
inductive Query where
  | isEmpty (q : List Char)
  | equals (a b : List Char)
  | empty (q : List Char)

namespace Query

/-- The surface language of the query. -/
def language : Query → Language
  | .isEmpty _ | .equals _ _ => .java
  | .empty _ => .cpp

/-- The rules for that language. -/
def ruleset : Query → Ruleset
  | .isEmpty _ | .equals _ _ => java
  | .empty _ => cpp

/-- The names in the query. -/
def names : Query → List (List Char)
  | .isEmpty q | .empty q => [q]
  | .equals a b => [a, b]

/-- The name on which the query is called. -/
def subject : Query → List Char
  | .isEmpty q | .empty q => q
  | .equals a _ => a

/-- The call up to its argument, if there is one. -/
def call : Query → String
  | .isEmpty _ => ".isEmpty()"
  | .equals _ _ => ".equals("
  | .empty _ => ".empty()"

/-- What is written in place of that. -/
def test : Query → String
  | .isEmpty _ | .empty _ => ".length === 0"
  | .equals _ _ => " === ("

/-- The argument and the parenthesis behind it. -/
def ending : Query → List Char
  | .isEmpty _ | .empty _ => []
  | .equals _ b => b ++ [')']

/-- The query as it is written. -/
def text (query : Query) : List Char :=
  query.subject ++ (query.call.toList ++ query.ending)

/-- The comparison that it becomes. -/
def comparison (query : Query) : List Char :=
  query.subject ++ (query.test.toList ++ query.ending)

example : text (.equals ['a'] ['b']) = "a.equals(b)".toList := by decide

example : comparison (.equals ['a'] ['b']) = "a === (b)".toList := by decide

/-- The name of the rule for the query. -/
def ruleName : Query → String
  | .isEmpty _ => "is-empty"
  | .equals _ _ => "equals"
  | .empty _ => "empty"

/-- The rule that rewrites the query. -/
def rule (query : Query) : Rule :=
  .template query.ruleName (literal query.call) [.text query.test]

/-- No other rule rewrites the query behind the given text. -/
def OnlyRewrites (query : Query) (front : List Char) : Prop :=
  ∀ application ∈ query.ruleset.applications (front ++ query.text),
    application.1.name ≠ query.ruleName → LeavesAlone application

instance (query : Query) (front : List Char) : Decidable (query.OnlyRewrites front) :=
  inferInstanceAs (Decidable (∀ application ∈ query.ruleset.applications (front ++ query.text),
    application.1.name ≠ query.ruleName → application.1.apply application.2 = application.2))

/-- The host program of the query behind the given text. -/
def host (query : Query) (front : List Char) : HostProgram :=
  toHost (String.ofList (front ++ query.text)) query.language

/-! ## Host programs of queries -/

variable {query : Query} {front : List Char}

/-- The rule of the query is the only one of its name. -/
theorem rewritten_text (h : query.OnlyRewrites front) :
    query.ruleset.rewritten (front ++ query.text) = query.rule.apply (front ++ query.text) := by
  cases query with
  | isEmpty q =>
      have hpasses : java.passes = java.passes.take 7 ++
          ⟨.calls, javaCalls.take 5 ++ (isEmpty q).rule :: javaCalls.drop 6, false⟩ ::
            java.passes.drop 8 := rfl
      have hbefore : ∀ pass ∈ java.passes.take 7, ∀ other ∈ pass.rules,
          other.name ≠ "is-empty" := by
        decide
      have hafter : ∀ pass ∈ java.passes.drop 8, ∀ other ∈ pass.rules, other.name ≠ "is-empty" := by
        decide
      have hothers : ∀ other ∈ javaCalls.take 5 ++ javaCalls.drop 6, other.name ≠ "is-empty" := by
        decide
      exact rewritten_eq_apply hpasses hbefore hafter hothers h
  | equals a b =>
      have hpasses : java.passes = java.passes.take 7 ++
          ⟨.calls, javaCalls.take 10 ++ (equals a b).rule :: javaCalls.drop 11, false⟩ ::
            java.passes.drop 8 := rfl
      have hbefore : ∀ pass ∈ java.passes.take 7, ∀ other ∈ pass.rules, other.name ≠ "equals" := by
        decide
      have hafter : ∀ pass ∈ java.passes.drop 8, ∀ other ∈ pass.rules, other.name ≠ "equals" := by
        decide
      have hothers : ∀ other ∈ javaCalls.take 10 ++ javaCalls.drop 11, other.name ≠ "equals" := by
        decide
      exact rewritten_eq_apply hpasses hbefore hafter hothers h
  | empty q =>
      have hpasses : cpp.passes = cpp.passes.take 7 ++
          ⟨.calls, cppCalls.take 8 ++ (empty q).rule :: cppCalls.drop 9, false⟩ ::
            cpp.passes.drop 8 := rfl
      have hbefore : ∀ pass ∈ cpp.passes.take 7, ∀ other ∈ pass.rules, other.name ≠ "empty" := by
        decide
      have hafter : ∀ pass ∈ cpp.passes.drop 8, ∀ other ∈ pass.rules, other.name ≠ "empty" := by
        decide
      have hothers : ∀ other ∈ cppCalls.take 8 ++ cppCalls.drop 9, other.name ≠ "empty" := by
        decide
      exact rewritten_eq_apply hpasses hbefore hafter hothers h

theorem not_mem_ending (hnames : ∀ name ∈ query.names, IsIdentifier name) {c : Char}
    (hc : isNamePart c = false) (hparen : c ≠ ')') : c ∉ query.ending := by
  cases query with
  | isEmpty | empty => exact List.not_mem_nil
  | equals a b =>
      have hb := (hnames b (by simp [names])).not_mem hc
      simp [ending, hb, hparen]

theorem subject_isIdentifier (hnames : ∀ name ∈ query.names, IsIdentifier name) :
    IsIdentifier query.subject := by
  cases query with
  | isEmpty | equals | empty => exact hnames _ List.mem_cons_self

theorem apply_rule (hnames : ∀ name ∈ query.names, IsIdentifier name) (hfront : '.' ∉ front) :
    query.rule.apply (front ++ query.text) = front ++ query.comparison := by
  obtain ⟨call, hcall⟩ : ∃ call, query.call.toList = '.' :: call := by
    cases query with
    | isEmpty q =>
        exact ⟨"isEmpty()".toList, show ".isEmpty()".toList = '.' :: "isEmpty()".toList by decide⟩
    | equals a b =>
        exact ⟨"equals(".toList, show ".equals(".toList = '.' :: "equals(".toList by decide⟩
    | empty q =>
        exact ⟨"empty()".toList, show ".empty()".toList = '.' :: "empty()".toList by decide⟩
  have hbefore : '.' ∉ front ++ query.subject := by
    rw [List.mem_append, not_or]
    exact ⟨hfront, (subject_isIdentifier hnames).not_mem (by decide)⟩
  have hbehind := not_mem_ending hnames (show isNamePart '.' = false by decide) (by decide)
  have hfill (m : Match) : fill [.text query.test] m = query.test.toList := by
    simp [fill]
  change (literal query.call).replaceAll (fill [.text query.test]) _ = _
  rw [text, comparison, literal_eq_exactly, hcall, ← List.append_assoc,
    replaceAll_exactly hbefore hbehind, hfill, List.append_assoc]

theorem test_toList (query : Query) :
    query.test.toList = ['.', 'l', 'e', 'n', 'g', 't', 'h', ' ', '=', '=', '=', ' ', '0'] ∨
      query.test.toList = [' ', '=', '=', '=', ' ', '('] := by
  cases query with
  | isEmpty | empty =>
      exact Or.inl (show ".length === 0".toList = _ by decide)
  | equals =>
      exact Or.inr (show " === (".toList = _ by decide)

/-- A comparison has no braces and no blank in front of the name of the entry function, so the
steps behind the passes do nothing to it. -/
theorem host_source (hnames : ∀ name ∈ query.names, IsIdentifier name)
    (hfront : front = [] ∨ front = ['!']) (h : query.OnlyRewrites front) :
    (query.host front).source = String.ofList (front ++ query.comparison) := by
  have hpoint : '.' ∉ front := by rcases hfront with rfl | rfl <;> decide
  have hrewritten : query.ruleset.rewritten (front ++ query.text) = front ++ query.comparison :=
    (rewritten_text h).trans (apply_rule hnames hpoint)
  have hbrace : '}' ∉ front ++ query.comparison := by
    have hsubject := (subject_isIdentifier hnames).not_mem (show isNamePart '}' = false by decide)
    have hending := not_mem_ending hnames (show isNamePart '}' = false by decide) (by decide)
    have htest : '}' ∉ query.test.toList := by
      rcases test_toList query with htest | htest <;> rw [htest] <;> decide
    have hnone : '}' ∉ front := by rcases hfront with rfl | rfl <;> decide
    simp [comparison, hsubject, hending, htest, hnone]
  have hlowered : query.ruleset.lowered (front ++ query.text) = front ++ query.comparison := by
    unfold Ruleset.lowered
    rw [hrewritten, unwrapClass_eq_self hbrace]
    exact ite_self _
  have hblank (blank : Char) (hblank : blank = ' ' ∨ blank = '\t') :
      ¬ [blank, 'm'] <:+: front ++ query.comparison := by
    have hpart : isNamePart blank = false := by rcases hblank with rfl | rfl <;> decide
    have hnone : blank ∉ front := by
      rcases hfront with rfl | rfl <;> rcases hblank with rfl | rfl <;> decide
    have hending : ¬ [blank, 'm'] <:+: query.ending := by
      have hnone := not_mem_ending hnames hpart (by rcases hblank with rfl | rfl <;> decide)
      exact fun hpair => hnone (hpair.subset List.mem_cons_self)
    refine not_pair_append hnone (not_pair_append ((subject_isIdentifier hnames).not_mem hpart) ?_)
    have hlast : blank ≠ '0' ∧ blank ≠ '(' := by rcases hblank with rfl | rfl <;> decide
    rcases test_toList query with htest | htest
    · rw [htest]
      simpa [List.infix_cons_iff, List.cons_prefix_cons, hlast.1] using hending
    · rw [htest]
      simpa [List.infix_cons_iff, List.cons_prefix_cons, hlast.2] using hending
  have hrun : query.ruleset.run (front ++ query.text) = front ++ query.comparison := by
    have hentry : query.ruleset.entryFunction = some "main" := by cases query <;> rfl
    rw [query.ruleset.run_eq, hentry, hlowered]
    exact callEntry_eq_self (show "main".toList = 'm' :: "ain".toList by decide) hblank
  have hhost : query.host front =
      ⟨query.language, String.ofList (query.ruleset.run (front ++ query.text))⟩ := by
    unfold host toHost
    cases query <;> simp [language, ruleset, ruleset?]
  rw [hhost, hrun]

end Query

end StepTrace.Lowering

namespace StepTrace.Lowering.Query

open Syntax

/-! ## Reading comparisons -/

/-- The trees of the operands of the comparison, at some places. -/
def Operands (query : Query) (left right : Expr) : Prop :=
  match query with
  | .isEmpty q | .empty q =>
    (∃ l l', left = .member (.variable (String.ofList q) l) "length" l') ∧
      ∃ zero l, right = .number zero l
  | .equals a b =>
    (∃ l, left = .variable (String.ofList a) l) ∧ ∃ l, right = .variable (String.ofList b) l

theorem tokens_length (left column : Nat) :
    ∃ zero, tokensFrom (left + 5) ⟨1, column⟩ (".length === 0".toList ++ []) =
      .ok [⟨.symbol .dot, ⟨1, column⟩⟩, ⟨.name "length", ⟨1, column + 1⟩⟩,
        ⟨.symbol .strictEqual, ⟨1, column + 8⟩⟩, ⟨.number zero, ⟨1, column + 12⟩⟩,
        ⟨.endOfInput, ⟨1, column + 13⟩⟩] :=
  ⟨_, rfl⟩

theorem tokens_equals {b : List Char} (hb : IsIdentifier b) (left column : Nat) :
    ∃ behind, tokensFrom (left + 5) ⟨1, column⟩ (" === (".toList ++ (b ++ [')'])) =
      .ok [⟨.symbol .strictEqual, ⟨1, column + 1⟩⟩, ⟨.symbol .leftParen, ⟨1, column + 5⟩⟩,
        ⟨.name (String.ofList b), ⟨1, column + 6⟩⟩, ⟨.symbol .rightParen, ⟨1, behind⟩⟩,
        ⟨.endOfInput, ⟨1, behind + 1⟩⟩] := by
  obtain ⟨behind, hbehind⟩ := exists_column_after hb (column + 6)
  have hparen : tokensFrom (left + 2) ⟨1, behind⟩ [')'] =
      .ok [⟨.symbol .rightParen, ⟨1, behind⟩⟩, ⟨.endOfInput, ⟨1, behind + 1⟩⟩] := rfl
  rw [← hbehind] at hparen
  have hname := tokensFrom_identifier hb (by decide) hparen
  have hopen : lexeme '(' (b ++ [')']) = .ok ⟨.symbol .leftParen, ['('], b ++ [')']⟩ := rfl
  have hequal : lexeme '=' ("== (".toList ++ (b ++ [')'])) =
      .ok ⟨.symbol .strictEqual, ['=', '=', '='], ' ' :: '(' :: (b ++ [')'])⟩ := rfl
  rw [hbehind] at hname
  exact ⟨behind, tokensFrom_cons rfl hequal (tokensFrom_cons rfl hopen hname)⟩

theorem lexeme_bang {word : List Char} (h : IsIdentifier word) (rest : List Char) :
    lexeme '!' (word ++ rest) = .ok ⟨.symbol .bang, ['!'], word ++ rest⟩ := by
  obtain ⟨c, more, rfl, hc⟩ := h.start
  have hne : ('=' == c) = false := by
    refine beq_eq_false_iff_ne.mpr ?_
    rintro rfl
    exact absurd hc (by decide)
  have hfind : Symbol.longestFirst.find?
      (fun s => s.text.toList.isPrefixOf ('!' :: c :: (more ++ rest))) = some .bang := by
    simp [Symbol.longestFirst, Symbol.text, List.isPrefixOf, hne]
  have hsymbol : symbolLexeme? ('!' :: c :: (more ++ rest)) =
      some ⟨.symbol .bang, ['!'], c :: (more ++ rest)⟩ := by
    unfold symbolLexeme?
    rw [hfind]
    rfl
  have hmark : isNameStart '!' = false := by decide
  simp [lexeme, hmark, hsymbol]

/-- The tokens are read as the comparison, and behind a negation as the comparison whose left
operand is negated. -/
structure ReadsAs (query : Query) (tokens : List Token) : Prop where
  alone : ∃ left right l l', query.Operands left right ∧
    parseTokens tokens = .ok [.expr (.binary (.strict .strictEqual) left right l) l']
  negated : ∀ column, ∃ left right l l', query.Operands left right ∧
    parseTokens (⟨.symbol .bang, ⟨1, column⟩⟩ :: tokens) =
      .ok [.expr (.binary (.strict .strictEqual) (.unary .not left l') right l) l']

theorem tokens_comparison (query : Query) (hnames : ∀ name ∈ query.names, IsIdentifier name)
    (left column : Nat) :
    ∃ tokens, tokensFrom (left + 6) ⟨1, column⟩ query.comparison = .ok tokens ∧
      query.ReadsAs tokens := by
  cases query with
  | isEmpty q | empty q =>
      have hq := hnames q List.mem_cons_self
      obtain ⟨behind, hbehind⟩ := exists_column_after hq column
      obtain ⟨zero, htokens⟩ := tokens_length left behind
      rw [← hbehind] at htokens
      have htokens := tokensFrom_identifier hq (by decide) htokens
      rw [hbehind] at htokens
      refine ⟨_, htokens, ⟨_, _, _, _, ⟨⟨_, _, rfl⟩, _, _, rfl⟩, rfl⟩, fun column => ?_⟩
      exact ⟨_, _, _, _, ⟨⟨_, _, rfl⟩, _, _, rfl⟩, rfl⟩
  | equals a b =>
      have ha := hnames a (by simp [names])
      have hb := hnames b (by simp [names])
      obtain ⟨behind, hbehind⟩ := exists_column_after ha column
      obtain ⟨last, htokens⟩ := tokens_equals hb left behind
      rw [← hbehind] at htokens
      have htokens := tokensFrom_identifier ha rfl htokens
      refine ⟨_, htokens, ⟨_, _, _, _, ⟨⟨_, rfl⟩, _, rfl⟩, rfl⟩, fun column => ?_⟩
      exact ⟨_, _, _, _, ⟨⟨_, rfl⟩, _, rfl⟩, rfl⟩

theorem length_comparison (query : Query) :
    5 ≤ query.comparison.length := by
  have htest : 5 ≤ query.test.toList.length := by
    rcases test_toList query with htest | htest
    · simp [htest]
    · simp [htest]
  unfold comparison
  simp only [List.length_append]
  omega

/-- The comparison as it is read. -/
theorem parse_comparison (query : Query) (hnames : ∀ name ∈ query.names, IsIdentifier name) :
    ∃ left right l l', query.Operands left right ∧
      parse (String.ofList query.comparison) =
        .ok [.expr (.binary (.strict .strictEqual) left right l) l'] := by
  obtain ⟨tokens, htokens, hreads⟩ :=
    tokens_comparison query hnames (query.comparison.length - 5) 1
  have hleft : query.comparison.length - 5 + 6 = query.comparison.length + 1 := by
    have := query.length_comparison
    omega
  rw [hleft] at htokens
  rw [parse_of_tokensFrom htokens]
  exact hreads.alone

/-- A negation in front of the comparison belongs to its left operand. -/
theorem parse_negated (query : Query) (hnames : ∀ name ∈ query.names, IsIdentifier name) :
    ∃ left right l l', query.Operands left right ∧
      parse (String.ofList ('!' :: query.comparison)) =
        .ok [.expr (.binary (.strict .strictEqual) (.unary .not left l') right l) l'] := by
  obtain ⟨tokens, htokens, hreads⟩ :=
    tokens_comparison query hnames (query.comparison.length - 5) 2
  have hleft : query.comparison.length - 5 + 6 = query.comparison.length + 1 := by
    have := query.length_comparison
    omega
  rw [hleft] at htokens
  have hbang := lexeme_bang (subject_isIdentifier hnames) (query.test.toList ++ query.ending)
  have hgap : skipGap .open ⟨1, 1⟩ ('!' :: query.comparison) =
      .ok (⟨1, 1⟩, '!' :: query.comparison) := rfl
  rw [parse_of_tokensFrom (tokensFrom_cons hgap hbang htokens)]
  exact hreads.negated 1

/-! ## Values of comparisons -/

section

variable {on : Setting} {s s' : State} {left right : Expr}

-- an operand is evaluated by the equation of its node
attribute [local simp] evalExpr

theorem evalExpr_strictEqual {l : Location} {v : Value} :
    evalExpr on (.binary (.strict .strictEqual) left right l) s = .done v s' ↔
      ∃ a middle b, evalExpr on left s = .done a middle ∧ evalExpr on right middle = .done b s' ∧
        v = .bool (a.strictEq b) := by
  rw [evalExpr]
  constructor
  · intro h
    obtain ⟨a, middle, ha, h⟩ := Eval.exists_of_bind_done h
    obtain ⟨b, last, hb, h⟩ := Eval.exists_of_bind_done h
    cases h
    exact ⟨a, middle, b, ha, hb, rfl⟩
  · rintro ⟨a, middle, b, ha, hb, rfl⟩
    rw [Eval.bind_of_done ha, Eval.bind_of_done hb]
    rfl

theorem evalExpr_not {l : Location} {a : Value} (h : evalExpr on left s = .done a s') :
    evalExpr on (.unary .not left l) s = .done (.bool (! a.isTruthy)) s' := by
  rw [evalExpr, Eval.bind_of_done h]
  rfl

/-- The value of the left operand, if it has one. -/
def leftValue? (query : Query) (s : State) : Option Value :=
  match query with
  | .isEmpty q | .empty q =>
    (s.env.lookup? (String.ofList q)).bind fun value => (value.member s.heap "length").toOption
  | .equals a _ => s.env.lookup? (String.ofList a)

/-- The right operand has the value. -/
def RightValue (query : Query) (s : State) (value : Value) : Prop :=
  match query with
  | .isEmpty _ | .empty _ => ∃ zero, value = .number zero
  | .equals _ b => s.env.lookup? (String.ofList b) = some value

theorem eval_left {query : Query} (h : query.Operands left right) {a : Value} :
    evalExpr on left s = .done a s' ↔ s' = s ∧ query.leftValue? s = some a := by
  cases query with
  | isEmpty q | empty q =>
      obtain ⟨⟨l, l', rfl⟩, -⟩ := h
      rw [evalExpr]
      constructor
      · intro h
        obtain ⟨value, middle, hvalue, hdone⟩ := Eval.exists_of_bind_done h
        rw [evalExpr, Eval.lookup_eq_done] at hvalue
        obtain ⟨rfl, hvalue⟩ := hvalue
        obtain ⟨rfl, hmember⟩ := Eval.consultAt_eq_done.mp hdone
        refine ⟨rfl, ?_⟩
        simp only [leftValue?, hvalue, Option.bind_some, hmember]
        rfl
      · rintro ⟨rfl, h⟩
        obtain ⟨value, hvalue, h⟩ := Option.bind_eq_some_iff.mp h
        have hvariable : evalExpr on (.variable (String.ofList q) l) s' = .done value s' := by
          simpa using Eval.lookup_eq_done.mpr ⟨rfl, hvalue⟩
        rw [Eval.bind_of_done hvariable, Eval.consultAt_eq_done]
        refine ⟨rfl, ?_⟩
        cases hmember : value.member s'.heap "length" with
        | error cause =>
            rw [hmember] at h
            cases h
        | ok length =>
            rw [hmember] at h
            cases h
            rfl
  | equals a b =>
      obtain ⟨⟨l, rfl⟩, -⟩ := h
      simpa [leftValue?] using Eval.lookup_eq_done

theorem eval_right {query : Query} (h : query.Operands left right) {b : Value}
    (hb : evalExpr on right s = .done b s') : s' = s ∧ query.RightValue s b := by
  cases query with
  | isEmpty q | empty q =>
      obtain ⟨-, zero, l, rfl⟩ := h
      rw [evalExpr] at hb
      cases hb
      exact ⟨rfl, zero, rfl⟩
  | equals a b =>
      obtain ⟨-, l, rfl⟩ := h
      exact Eval.lookup_eq_done.mp (by simpa using hb)

theorem exists_eval_right (on : Setting) {query : Query} (h : query.Operands left right) {b : Value}
    (hb : query.RightValue s b) :
    ∃ b', evalExpr on right s = .done b' s ∧ query.RightValue s b' := by
  cases query with
  | isEmpty q | empty q =>
      obtain ⟨-, zero, l, rfl⟩ := h
      exact ⟨.number zero, by rw [evalExpr]; rfl, zero, rfl⟩
  | equals a b =>
      obtain ⟨-, l, rfl⟩ := h
      refine ⟨_, ?_, hb⟩
      simpa using Eval.lookup_eq_done.mpr ⟨rfl, hb⟩

end

/-! ## Negated queries -/

/-- The second name of the query has the value that negating the first one gives. -/
def MeetsNegation (query : Query) (s : State) : Prop :=
  match query with
  | .isEmpty _ | .empty _ => False
  | .equals a b => ∃ value, s.env.lookup? (String.ofList a) = some value ∧
      s.env.lookup? (String.ofList b) = some (.bool (! value.isTruthy))

theorem strictEq_bool {b : Bool} {value : Value} :
    Value.strictEq (.bool b) value = true ↔ value = .bool b := by
  cases value with
  | bool b' =>
      refine ⟨fun h => congrArg Value.bool (beq_iff_eq.mp h).symm, fun h => ?_⟩
      cases h
      exact beq_self_eq_true b
  | _ => simp [Value.strictEq]

/-- A value that is negated is no longer equal to what it was equal to. -/
theorem strictEq_negated {a b : Value} (h : Value.strictEq a b = true) :
    Value.strictEq (.bool (! a.isTruthy)) b = false := by
  refine Bool.eq_false_iff.mpr fun hnegated => ?_
  obtain rfl := strictEq_bool.mp hnegated
  cases a with
  | bool c => cases c <;> simp [Value.strictEq, Value.isTruthy] at h
  | _ => simp [Value.strictEq] at h

/-- What the negated query compares: its value tells whether the second name has the negated
value of the first. -/
theorem strictEq_negated_iff {query : Query} {s : State} {a b : Value}
    (ha : query.leftValue? s = some a) (hb : query.RightValue s b) :
    Value.strictEq (.bool (! a.isTruthy)) b = true ↔ query.MeetsNegation s := by
  cases query with
  | isEmpty q | empty q =>
      obtain ⟨zero, rfl⟩ := hb
      exact iff_of_false Bool.false_ne_true id
  | equals x y =>
      have ha : s.env.lookup? (String.ofList x) = some a := ha
      have hb : s.env.lookup? (String.ofList y) = some b := hb
      rw [strictEq_bool]
      constructor
      · rintro rfl
        exact ⟨a, ha, hb⟩
      · rintro ⟨value, hvalue, hnegated⟩
        cases ha.symm.trans hvalue
        exact Option.some.inj (hb.symm.trans hnegated)

/-- A query that holds does not meet the negation. -/
theorem not_meetsNegation {query : Query} {s : State} {a b : Value}
    (ha : query.leftValue? s = some a) (hb : query.RightValue s b)
    (h : Value.strictEq a b = true) : ¬ query.MeetsNegation s := by
  rw [← strictEq_negated_iff ha hb, strictEq_negated h]
  exact Bool.false_ne_true

/-- A loop whose condition is `false` at the start ends without a round. -/
theorem exec_while_false {on : Setting} {s s' : State} {e : Expr}
    (h : evalExpr on e s = .done (.bool false) s') (hrounds : on.rounds ≠ 0) (body : List Stmt)
    (loc : Location) : execStmt on (.while e body loc) s = .done .normal s' := by
  obtain ⟨rounds, hsucc⟩ := Nat.exists_eq_succ_of_ne_zero hrounds
  have htest : evalCondition on e s = .done false s' := by
    unfold evalCondition
    rw [Eval.bind_of_done h]
    rfl
  rw [execStmt, hsucc, Eval.rounds, Eval.bind_of_done htest]
  rfl

/-- The value of a negated query. Whatever the query's value `v` is, the negated query has a
value too: for `q.isEmpty()` and `q.empty()` it is `false`, so a loop with that condition never
runs its body, and for `a.equals(b)` it says whether `b` is the negation of `a`. It is the
negation of `v` if `v` is `true`, and else only where `b` happens to be that negation. -/
theorem negated_query (query : Query) (hnames : ∀ name ∈ query.names, IsIdentifier name)
    (hplain : query.OnlyRewrites []) (hnegated : query.OnlyRewrites ['!']) :
    ∃ e e' l l', parse (query.host []).source = .ok [.expr e l] ∧
      parse (query.host ['!']).source = .ok [.expr e' l'] ∧
      ∀ (on : Setting) (s s' : State) (v : Bool), evalExpr on e s = .done (.bool v) s' →
        ∃ w, evalExpr on e' s = .done (.bool w) s' ∧
          (w = true ↔ query.MeetsNegation s) ∧
          (w = ! v ↔ v = true ∨ query.MeetsNegation s) ∧
          (w = false → on.rounds ≠ 0 → ∀ body loc,
            execStmt on (.while e' body loc) s = .done .normal s') := by
  obtain ⟨left, right, l, l', hoperands, hparse⟩ := parse_comparison query hnames
  obtain ⟨left', right', m, m', hoperands', hparse'⟩ := parse_negated query hnames
  refine ⟨_, _, _, _, (congrArg parse (host_source hnames (Or.inl rfl) hplain)).trans hparse,
    (congrArg parse (host_source hnames (Or.inr rfl) hnegated)).trans hparse', ?_⟩
  intro on s s' v hv
  obtain ⟨a, middle, b, ha, hb, hvalue⟩ := evalExpr_strictEqual.mp hv
  obtain ⟨rfl, ha⟩ := (eval_left hoperands).mp ha
  obtain ⟨rfl, hb⟩ := eval_right hoperands hb
  obtain rfl : v = a.strictEq b := Value.bool.inj hvalue
  obtain ⟨b', hb', hright⟩ := exists_eval_right on hoperands' hb
  have hleft : evalExpr on left' s' = .done a s' := (eval_left hoperands').mpr ⟨rfl, ha⟩
  have hmeets := strictEq_negated_iff ha hright
  have hw : evalExpr on (.binary (.strict .strictEqual) (.unary .not left' m') right' m) s' =
      .done (.bool (Value.strictEq (.bool (! a.isTruthy)) b')) s' :=
    evalExpr_strictEqual.mpr ⟨_, _, _, evalExpr_not hleft, hb', rfl⟩
  refine ⟨_, hw, hmeets, ?_, fun hfalse hrounds body loc => ?_⟩
  · cases hv : a.strictEq b with
    | true =>
        have hnone := Bool.eq_false_iff.mpr (mt hmeets.mp (not_meetsNegation ha hb hv))
        simp [hnone]
    | false => simpa using hmeets
  · rw [hfalse] at hw
    exact exec_while_false hw hrounds body loc

theorem identifiers_equals : ∀ name ∈ (equals ['a'] ['b']).names, IsIdentifier name := by
  decide

set_option maxRecDepth 100000 in
theorem onlyRewrites_equals :
    (equals ['a'] ['b']).OnlyRewrites [] ∧ (equals ['a'] ['b']).OnlyRewrites ['!'] := by
  decide +kernel

theorem negated_query_equals :
    let query := Query.equals ['a'] ['b']
    ∃ e e' l l', parse (query.host []).source = .ok [.expr e l] ∧
      parse (query.host ['!']).source = .ok [.expr e' l'] ∧
      ∀ (on : Setting) (s s' : State) (v : Bool), evalExpr on e s = .done (.bool v) s' →
        ∃ w, evalExpr on e' s = .done (.bool w) s' ∧
          (w = true ↔ query.MeetsNegation s) ∧
          (w = ! v ↔ v = true ∨ query.MeetsNegation s) ∧
          (w = false → on.rounds ≠ 0 → ∀ body loc,
            execStmt on (.while e' body loc) s = .done .normal s') :=
  negated_query (equals ['a'] ['b']) identifiers_equals onlyRewrites_equals.1 onlyRewrites_equals.2

/-- A state with two names that have different values. -/
def differentNames : State :=
  let env := Environment.initial.declare "a" (.string "x") false
  ⟨env.declare "b" (.string "y") false, Native.heap, #[], .of []⟩

theorem lookup?_differentNames :
    differentNames.env.lookup? "a" = some (.string "x") ∧
      differentNames.env.lookup? "b" = some (.string "y") := by
  let first := Scopes.root.declare 0 "a" (.string "x") false
  have hroot : 0 < Scopes.root.size := by decide
  have hfirst : 0 < first.size := by
    simp only [first, Scopes.declare, Array.size_modify, hroot]
  have hb (x : String) : differentNames.env.lookup? x =
      if x = "b" then some (.string "y") else first.lookup? x 0 :=
    Scopes.lookup?_declare hfirst "b" (.string "y") false x
  have ha : first.lookup? "a" 0 = some (.string "x") :=
    (Scopes.lookup?_declare hroot "a" (.string "x") false "a").trans (if_pos rfl)
  rw [hb, hb, ha]
  exact ⟨rfl, rfl⟩

/-- The query and its negation are both `false` there. -/
theorem not_negated_equals :
    ∃ e e' l l', parse (toHost "a.equals(b)" .java).source = .ok [.expr e l] ∧
      parse (toHost "!a.equals(b)" .java).source = .ok [.expr e' l'] ∧
      ∀ on, evalExpr on e differentNames = .done (.bool false) differentNames ∧
        evalExpr on e' differentNames = .done (.bool false) differentNames := by
  have htext : "a.equals(b)" = String.ofList ([] ++ (equals ['a'] ['b']).text) := by decide
  have htext' : "!a.equals(b)" = String.ofList (['!'] ++ (equals ['a'] ['b']).text) := by decide
  have hhost := host_source identifiers_equals (Or.inl rfl) onlyRewrites_equals.1
  have hhost' := host_source identifiers_equals (Or.inr rfl) onlyRewrites_equals.2
  obtain ⟨left, right, l, l', hoperands, hparse⟩ := parse_comparison _ identifiers_equals
  obtain ⟨left', right', m, m', hoperands', hparse'⟩ := parse_negated _ identifiers_equals
  obtain ⟨ha, hb⟩ := lookup?_differentNames
  have hsource : toHost "a.equals(b)" .java = (equals ['a'] ['b']).host [] :=
    congrArg (toHost · .java) htext
  have hsource' : toHost "!a.equals(b)" .java = (equals ['a'] ['b']).host ['!'] :=
    congrArg (toHost · .java) htext'
  rw [hsource, hsource', hhost, hhost']
  refine ⟨_, _, _, _, hparse, hparse', fun on => ?_⟩
  have hright : (Query.equals ['a'] ['b']).RightValue differentNames (.string "y") := hb
  obtain ⟨value, heval, hvalue⟩ := exists_eval_right on hoperands hright
  obtain ⟨value', heval', hvalue'⟩ := exists_eval_right on hoperands' hright
  obtain rfl : value = .string "y" := Option.some.inj (hvalue.symm.trans hb)
  obtain rfl : value' = .string "y" := Option.some.inj (hvalue'.symm.trans hb)
  have hleft : evalExpr on left differentNames = .done (.string "x") differentNames :=
    (eval_left hoperands).mpr ⟨rfl, ha⟩
  have hleft' : evalExpr on left' differentNames = .done (.string "x") differentNames :=
    (eval_left hoperands').mpr ⟨rfl, ha⟩
  constructor
  · exact evalExpr_strictEqual.mpr ⟨_, _, _, hleft, heval, rfl⟩
  · exact evalExpr_strictEqual.mpr ⟨_, _, _, evalExpr_not hleft', heval', rfl⟩

end StepTrace.Lowering.Query
