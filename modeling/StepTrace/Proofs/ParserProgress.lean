import StepTrace.Proofs.Progress
import StepTrace.Proofs.ReadBraces

/-!
# Progress of the parser

The functions of the parser are ordered by what they may call without having taken a token
(`Progress`), and the order has fewer than `stepsPerToken` places. By induction on the bound of the
descent each of them makes progress at its place. So on tokens that end with the end of input a
level of the descent that succeeds has taken a token, a loop comes to an end, and nothing goes
beyond the end of input; the result is that of every bound from the one on that the parser starts
with, and no parse fails for want of a greater one (`parsing_progresses`).

* `progress`: how many tokens each function takes at least, and which bound is enough for it.
* `startsArrow?`: the lookahead with a depth that cannot fall below zero.
-/

namespace StepTrace.Syntax

open Reader

variable {left left' : Nat}

/-! ## The functions of the parser -/

/-- The reader `m` with the bound `left`, and `m'` with a greater one: at its rank in the order of
descent, it takes so many tokens at least, and `stepsPerToken` steps for each token are enough. -/
abbrev Reader.Descends {α : Type} (least rank left : Nat) (m m' : Reader α) : Prop :=
  Progresses stepsPerToken least rank left m m'

/-- How many tokens the functions of the parser take at least, and their ranks in the order of
descent: a function calls another one of a greater or the same rank behind a token only. -/
structure Progress (left left' : Nat) : Prop where
  expression : Descends 1 19 left (expression left) (expression left')
  arrowFunction : Descends 1 1 left (arrowFunction left) (arrowFunction left')
  conditional : Descends 1 18 left (conditional left) (conditional left')
  binary : ∀ levels, Descends 1 (6 + levels.length) left (binary left levels) (binary left' levels)
  binaryRest : ∀ level tighter first, Descends 0 (1 + tighter.length) left
    (binaryRest left level tighter first) (binaryRest left' level tighter first)
  power : Descends 1 5 left (power left) (power left')
  unary : Descends 1 4 left (unary left) (unary left')
  trailers : ∀ e, Descends 0 1 left (trailers left e) (trailers left' e)
  construction : Descends 1 3 left (construction left) (construction left')
  constructorPath : ∀ e, Descends 0 1 left (constructorPath left e) (constructorPath left' e)
  elements : ∀ close, Descends 0 20 left (elements left close) (elements left' close)
  fields : Descends 0 1 left (fields left) (fields left')
  primary : Descends 1 2 left (primary left) (primary left')
  functionRest : ∀ x isAsync,
    Descends 1 1 left (functionRest left x isAsync) (functionRest left' x isAsync)
  declarators : ∀ kind, Descends 1 1 left (declarators left kind) (declarators left' kind)
  statements : Descends 0 21 left (statements left) (statements left')
  body : Descends 1 21 left (body left) (body left')
  forLoop : ∀ l, Descends 1 1 left (forLoop left l) (forLoop left' l)
  forRest : ∀ l start, Descends 1 1 left (forRest left l start) (forRest left' l start)
  statement : Descends 1 20 left (statement left) (statement left')

namespace Progress

variable (h : Progress left left')

include h

theorem expression_succ :
    Descends 1 19 (left + 1) (Syntax.expression (left + 1)) (Syntax.expression (left' + 1)) := by
  unfold Syntax.expression
  refine .look _ fun tokens => .ite (h.arrowFunction.call rfl rfl) ?_
  refine h.conditional.after rfl fun e => .look _ fun l => .symbol .assign ?_ ?_
  · cases e.target? with
    | none => exact .failAt l (by simp)
    | some target => exact h.expression.after rfl fun value => .pure _
  · refine .taking acceptCompound_takesOne (.pure e) fun op => ?_
    dsimp only
    cases e.place? with
    | none => exact .failAt l (by simp)
    | some place => exact h.expression.after rfl fun value => .pure _

theorem arrowFunction_succ : Descends 1 1 (left + 1) (Syntax.arrowFunction (left + 1))
    (Syntax.arrowFunction (left' + 1)) := by
  unfold Syntax.arrowFunction
  refine .look _ fun l => .passing (.accept _) fun isAsync => .bind (k := 1) ?_ fun params => ?_
  · refine .symbol .leftParen ?_ (.bind .name fun x => .pure _)
    exact .passing .parameters fun params => .bind (.expectSymbol _ _) fun _ => .pure _
  refine .bind (.expectSymbol _ _) fun _ => .look _ fun opening => .symbol .leftBrace ?_ ?_
  · refine h.statements.after rfl fun body => .look _ fun closing => ?_
    exact .bind (.expectSymbol _ _) fun _ => .pure _
  · exact h.expression.after rfl fun value => .pure _

theorem conditional_succ :
    Descends 1 18 (left + 1) (Syntax.conditional (left + 1)) (Syntax.conditional (left' + 1)) := by
  unfold Syntax.conditional
  refine (h.binary levels).after rfl fun condition => .look _ fun l => ?_
  refine .symbol .question ?_ (.pure _)
  refine h.expression.after rfl fun whenTrue => .bind (.expectSymbol _ _) fun _ => ?_
  exact h.expression.after rfl fun whenFalse => .pure _

theorem binary_succ (levels : List (List OperatorOf)) :
    Descends 1 (6 + levels.length) (left + 1) (Syntax.binary (left + 1) levels)
      (Syntax.binary (left' + 1) levels) := by
  unfold Syntax.binary
  cases levels with
  | nil => exact h.power.call rfl rfl
  | cons level tighter =>
      have hlength : (level :: tighter).length = tighter.length + 1 := List.length_cons
      refine (h.binary tighter).after (Nat.ble_eq_true_of_le (by omega)) fun first => ?_
      exact (h.binaryRest level tighter first).call rfl (Nat.ble_eq_true_of_le (by omega))

theorem binaryRest_succ (level : List OperatorOf) (tighter : List (List OperatorOf))
    (first : Expr) : Descends 0 (1 + tighter.length) (left + 1)
      (Syntax.binaryRest (left + 1) level tighter first)
      (Syntax.binaryRest (left' + 1) level tighter first) := by
  unfold Syntax.binaryRest
  refine .look _ fun l => .taking (acceptOperator_takesOne level) (.pure first) fun op => ?_
  dsimp only
  have hcost : stepsPerToken = 32 := rfl
  refine (h.binary tighter).after (Nat.ble_eq_true_of_le (by omega)) fun second => ?_
  exact (h.binaryRest level tighter _).call rfl (Nat.ble_eq_true_of_le (by omega))

theorem power_succ :
    Descends 1 5 (left + 1) (Syntax.power (left + 1)) (Syntax.power (left' + 1)) := by
  unfold Syntax.power
  refine h.unary.after rfl fun base => .look _ fun l => .symbol .starStar ?_ (.pure _)
  exact h.power.after rfl fun exponent => .pure _

theorem unary_succ :
    Descends 1 4 (left + 1) (Syntax.unary (left + 1)) (Syntax.unary (left' + 1)) := by
  unfold Syntax.unary
  refine .look _ fun l => .word .awaitKw (h.unary.after rfl fun operand => .pure _) ?_
  refine .taking acceptFront_takesOne ?_ fun front => ?_
  · dsimp only
    refine .bind (k := 1) (.look _ fun isNew => .ite (h.construction.call rfl rfl)
      (h.primary.call rfl rfl)) fun first => ?_
    exact (h.trailers first).call rfl rfl
  · cases front with
    | pure op => exact h.unary.after rfl fun operand => .pure _
    | update op =>
        refine h.unary.after rfl fun operand => ?_
        cases operand.place? with
        | none => exact .failAt l (by simp)
        | some place => exact .pure _

theorem trailers_succ (e : Expr) :
    Descends 0 1 (left + 1) (Syntax.trailers (left + 1) e) (Syntax.trailers (left' + 1) e) := by
  unfold Syntax.trailers
  refine .look _ fun l => .taking acceptBehind_takesOne ?_ fun op => ?_
  · refine .symbol .leftBracket ?_ (.symbol .dot ?_ (.symbol .leftParen ?_ (.pure e)))
    · refine h.expression.after rfl fun key => .bind (.expectSymbol _ _) fun _ => ?_
      exact (h.trailers _).call rfl rfl
    · exact .bind .name fun x => (h.trailers _).call rfl rfl
    · refine (h.elements _).after rfl fun args => .bind (.expectSymbol _ _) fun _ => ?_
      exact (h.trailers _).call rfl rfl
  · dsimp only
    cases e.place? with
    | none => exact .failAt l (by simp)
    | some place => exact (h.trailers _).call rfl rfl

theorem construction_succ : Descends 1 3 (left + 1) (Syntax.construction (left + 1))
    (Syntax.construction (left' + 1)) := by
  unfold Syntax.construction
  refine .look _ fun l => .passing .skip fun _ => h.primary.after rfl fun first => ?_
  refine (h.constructorPath first).after rfl fun callee => .symbol .leftParen ?_ (.pure _)
  exact (h.elements _).after rfl fun args => .bind (.expectSymbol _ _) fun _ => .pure _

theorem constructorPath_succ (e : Expr) : Descends 0 1 (left + 1)
    (Syntax.constructorPath (left + 1) e) (Syntax.constructorPath (left' + 1) e) := by
  unfold Syntax.constructorPath
  refine .look _ fun l => .symbol .dot ?_ (.pure e)
  exact .bind .name fun x => (h.constructorPath _).call rfl rfl

theorem elements_succ (close : Symbol) : Descends 0 20 (left + 1)
    (Syntax.elements (left + 1) close) (Syntax.elements (left' + 1) close) := by
  unfold Syntax.elements
  refine .look _ fun isClosed => .look _ fun isEnd => .ite (.pure _) (.look _ fun l => ?_)
  refine .bind (k := 1) ?_ fun element => .symbol .comma ?_ (.pure _)
  · refine .symbol .ellipsis ?_ (h.expression.after rfl fun e => .pure _)
    exact h.expression.after rfl fun e => .pure _
  · exact (h.elements close).after rfl fun others => .pure _

theorem fields_succ :
    Descends 0 1 (left + 1) (Syntax.fields (left + 1)) (Syntax.fields (left' + 1)) := by
  unfold Syntax.fields
  refine .look _ fun isClosed => .look _ fun isEnd => .ite (.pure _) (.look _ fun l => ?_)
  refine .bind .fieldName fun key => .bind (k := 0) ?_ fun value => .symbol .comma ?_ (.pure _)
  · exact .symbol .colon (h.expression.call rfl rfl) (.pure _)
  · exact h.fields.after rfl fun others => .pure _

theorem primary_succ :
    Descends 1 2 (left + 1) (Syntax.primary (left + 1)) (Syntax.primary (left' + 1)) := by
  unfold Syntax.primary
  refine .look _ fun l => .taking acceptAtom_takesOne ?_ fun e => .pure e
  refine .look _ fun tokens => .ite ?_ ?_
  · refine .passing (.accept _) fun isAsync => .passing .skip fun _ => ?_
    refine .passing .acceptName fun x => ?_
    exact (h.functionRest x isAsync).after rfl fun f => .pure _
  refine .symbol .leftBracket ?_ (.symbol .leftBrace ?_ (.symbol .leftParen ?_ ?_))
  · exact (h.elements _).after rfl fun items => .bind (.expectSymbol _ _) fun _ => .pure _
  · exact h.fields.after rfl fun items => .bind (.expectSymbol _ _) fun _ => .pure _
  · exact h.expression.after rfl fun e => .bind (.expectSymbol _ _) fun _ => .pure _
  · exact .look _ fun found => .failAt l (by simp)

theorem functionRest_succ (x : Option String) (isAsync : Bool) : Descends 1 1 (left + 1)
    (Syntax.functionRest (left + 1) x isAsync) (Syntax.functionRest (left' + 1) x isAsync) := by
  unfold Syntax.functionRest
  refine .bind (.expectSymbol _ _) fun _ => .passing .parameters fun params => ?_
  refine .bind (.expectSymbol _ _) fun _ => .look _ fun opening => ?_
  refine .bind (.expectSymbol _ _) fun _ => ?_
  refine h.statements.after rfl fun body => .look _ fun closing => ?_
  exact .bind (.expectSymbol _ _) fun _ => .pure _

theorem declarators_succ (kind : DeclKind) : Descends 1 1 (left + 1)
    (Syntax.declarators (left + 1) kind) (Syntax.declarators (left' + 1) kind) := by
  unfold Syntax.declarators
  refine .bind .binder fun target => .bind (k := 0) ?_ fun value => ?_
  · exact .symbol .assign (h.expression.after rfl fun e => .pure _) (.pure _)
  refine .ite (.look _ fun l => .bind (k := 0) (.failAt l (by simp)) fun _ => ?_) ?_
  all_goals exact .symbol .comma ((h.declarators kind).after rfl fun others => .pure _) (.pure _)

theorem statements_succ : Descends 0 21 (left + 1) (Syntax.statements (left + 1))
    (Syntax.statements (left' + 1)) := by
  unfold Syntax.statements
  refine .look _ fun isClosed => .look _ fun isEnd => .ite (.pure _) ?_
  exact h.statement.after rfl fun first => h.statements.after rfl fun others => .pure _

theorem body_succ :
    Descends 1 21 (left + 1) (Syntax.body (left + 1)) (Syntax.body (left' + 1)) := by
  unfold Syntax.body
  refine .symbol .leftBrace ?_ (h.statement.after rfl fun stmt => .pure _)
  exact h.statements.after rfl fun list => .bind (.expectSymbol _ _) fun _ => .pure _

theorem forLoop_succ (l : Location) : Descends 1 1 (left + 1) (Syntax.forLoop (left + 1) l)
    (Syntax.forLoop (left' + 1) l) := by
  unfold Syntax.forLoop
  refine .bind (.expectSymbol _ _) fun _ => .look _ fun startLoc => ?_
  refine .taking acceptDeclKind_takesOne ?_ fun kind => ?_
  · refine .look _ fun isEmpty => .ite ((h.forRest l none).call rfl rfl) ?_
    exact h.expression.after rfl fun e => (h.forRest l _).call rfl rfl
  · refine .retrying (Progresses.binder.weaken (Nat.zero_le 1)) (fun target => ?_) ?_
    · refine h.expression.after rfl fun iterable => .bind (.expectSymbol _ _) fun _ => ?_
      exact h.body.after rfl fun body => .pure _
    · exact (h.declarators kind).after rfl fun list => (h.forRest l _).call rfl rfl

theorem forRest_succ (l : Location) (start : Option ForStart) : Descends 1 1 (left + 1)
    (Syntax.forRest (left + 1) l start) (Syntax.forRest (left' + 1) l start) := by
  unfold Syntax.forRest
  refine .bind (.expectSymbol _ _) fun _ => .bind (k := 0) ?_ fun condition => ?_
  · exact .look _ fun isEmpty => .ite (.pure _) (h.expression.after rfl fun e => .pure _)
  refine .bind (.expectSymbol _ _) fun _ => .bind (k := 0) ?_ fun step => ?_
  · exact .look _ fun isEmpty => .ite (.pure _) (h.expression.after rfl fun e => .pure _)
  exact .bind (.expectSymbol _ _) fun _ => h.body.after rfl fun body => .pure _

theorem statement_succ : Descends 1 20 (left + 1) (Syntax.statement (left + 1))
    (Syntax.statement (left' + 1)) := by
  unfold Syntax.statement
  refine .look _ fun l => .symbol .semicolon (.pure _) (.look _ fun tokens => .ite ?_ ?_)
  · refine .passing (.accept _) fun isAsync => .passing .skip fun _ => .bind .name fun x => ?_
    exact (h.functionRest (some x) isAsync).after rfl fun f => .pure _
  refine .taking acceptDeclKind_takesOne ?_ fun kind => ?_
  · refine .word .returnKw ?_ (.word .ifKw ?_ (.word .whileKw ?_ (.word .doKw ?_ ?_)))
    · refine .look _ fun next => .bind (k := 0) ?_ fun value => ?_
      · exact .ite (.pure _) (h.expression.after rfl fun e => .pure _)
      · exact .passing (.endStatement _) fun _ => .pure _
    · refine .bind (.expectSymbol _ _) fun _ => h.expression.after rfl fun condition => ?_
      refine .bind (.expectSymbol _ _) fun _ => h.body.after rfl fun whenTrue => ?_
      exact .word .elseKw (h.body.after rfl fun whenFalse => .pure _) (.pure _)
    · refine .bind (.expectSymbol _ _) fun _ => h.expression.after rfl fun condition => ?_
      exact .bind (.expectSymbol _ _) fun _ => h.body.after rfl fun body => .pure _
    · refine h.body.after rfl fun list => .bind (.expect (by simp) _) fun _ => ?_
      refine .bind (.expectSymbol _ _) fun _ => h.expression.after rfl fun condition => ?_
      exact .bind (.expectSymbol _ _) fun _ => .passing (.accept _) fun _ => .pure _
    refine .word .forKw ((h.forLoop l).call rfl rfl) (.word .breakKw ?_ (.word .continueKw ?_ ?_))
    · exact .passing (.endStatement _) fun _ => .pure _
    · exact .passing (.endStatement _) fun _ => .pure _
    refine .word .throwKw ?_ (.symbol .leftBrace ?_ ?_)
    · exact h.expression.after rfl fun value => .passing (.endStatement _) fun _ => .pure _
    · exact h.statements.after rfl fun list => .bind (.expectSymbol _ _) fun _ => .pure _
    · exact h.expression.after rfl fun e => .passing (.endStatement _) fun _ => .pure _
  · exact (h.declarators kind).after rfl fun list => .passing (.endStatement _) fun _ => .pure _

end Progress

/-- With every bound the parser makes progress, and a greater bound changes nothing where there is
enough of the first one. -/
theorem progress (hle : left ≤ left') : Progress left left' := by
  induction left generalizing left' with
  | zero =>
      constructor
      all_goals
        intros
        exact .of_none (fun input a rest h => by cases h) (by omega)
  | succ left ih =>
      obtain ⟨left', rfl⟩ :=
        Nat.exists_eq_add_of_le' (Nat.lt_of_lt_of_le (Nat.zero_lt_succ left) hle)
      have h := ih (Nat.le_of_succ_le_succ hle)
      exact {
        expression := h.expression_succ
        arrowFunction := h.arrowFunction_succ
        conditional := h.conditional_succ
        binary := h.binary_succ
        binaryRest := h.binaryRest_succ
        power := h.power_succ
        unary := h.unary_succ
        trailers := h.trailers_succ
        construction := h.construction_succ
        constructorPath := h.constructorPath_succ
        elements := h.elements_succ
        fields := h.fields_succ
        primary := h.primary_succ
        functionRest := h.functionRest_succ
        declarators := h.declarators_succ
        statements := h.statements_succ
        body := h.body_succ
        forLoop := h.forLoop_succ
        forRest := h.forRest_succ
        statement := h.statement_succ }

/-- The program is read up to the end of input, with one step for each token. -/
theorem programStatements_progresses {depth depth' : Nat} (hdepth : depth ≤ depth')
    (hle : left ≤ left') (input : Input) :
    ProgressesAt 0 (stepsPerToken * input.tokens.length + 20 ≤ depth ∧ input.tokens.length < left)
      (programStatements depth left) (programStatements depth' left') input := by
  induction left generalizing left' input with
  | zero =>
      have hnever (enough : Prop) (h : enough ∧ input.tokens.length < 0) : False := by omega
      exact ⟨fun a rest h => (by cases h), fun h => (hnever _ h).elim, fun h => (hnever _ h).elim⟩
  | succ left ih =>
      obtain ⟨left', rfl⟩ :=
        Nat.exists_eq_add_of_le' (Nat.lt_of_lt_of_le (Nat.zero_lt_succ left) hle)
      have hstatement := (progress hdepth).statement input
      unfold programStatements
      refine .look _ ?_
      split
      · exact .pure []
      · refine .bind (k := 1) (hstatement.mono And.left) fun first rest hconsumed => ?_
        have hlength := hconsumed.length_le
        have hothers := ih (Nat.le_of_succ_le_succ hle) rest
        rw [stepsPerToken] at hothers ⊢
        exact .bind (hothers.mono fun h => (by omega)) fun others last _ => .pure _

/-! ## Tokens that end with the end of input -/

/-- The list ends with the end of input, and that stands nowhere else in it. -/
def EndsOnce (tokens : List Token) : Prop :=
  ∃ front l, tokens = front ++ [⟨.endOfInput, l⟩] ∧ ∀ token ∈ front, token.kind ≠ .endOfInput

theorem EndsOnce.of_consumed {input rest : Input} {n : Nat} (h : EndsOnce input.tokens)
    (hconsumed : input.Consumed n rest) : EndsOnce rest.tokens := by
  obtain ⟨front, l, hends, hfront⟩ := h
  obtain ⟨taken, htokens, -, htaken⟩ := hconsumed
  rw [hends] at htokens
  rcases List.append_eq_append_iff.mp htokens with ⟨more, hmore, hrest⟩ | ⟨more, hmore, hrest⟩
  · -- what is taken does not reach beyond the tokens in front of the end
    obtain ⟨rfl, hlast⟩ | ⟨rfl, -⟩ := List.singleton_eq_append_iff.mp hrest
    · exact ⟨[], l, hlast, List.forall_mem_nil _⟩
    · exact absurd rfl (htaken _ (hmore ▸ List.mem_append_right _ List.mem_cons_self))
  · exact ⟨more, l, hrest, fun token hmem => hfront token (hmore ▸ List.mem_append_right _ hmem)⟩

/-- At the end of input nothing is left but that. -/
theorem EndsOnce.eq_of_atEnd {rest : Input} (h : EndsOnce rest.tokens)
    (hpeek : rest.peek.kind = .endOfInput) : ∃ l, rest.tokens = [⟨.endOfInput, l⟩] := by
  obtain ⟨previous, tokens⟩ := rest
  obtain ⟨front, l, rfl, hfront⟩ := h
  cases front with
  | nil => exact ⟨l, rfl⟩
  | cons token front => exact absurd hpeek (hfront token List.mem_cons_self)

/-! ## The lookahead -/

/-- Whether the parenthesis that closes `depth` open ones is followed by an arrow; nothing if a
parenthesis is closed where none is open. -/
def arrowAfterClosing? : Nat → List Token → Option Bool
  | _, [] => some false
  | depth, token :: rest =>
    match token.kind with
    | .symbol .leftParen => arrowAfterClosing? (depth + 1) rest
    | .symbol .rightParen =>
      match depth with
      | 0 => none
      | 1 => some (rest.head?.any fun next => next.kind = .symbol .arrow)
      | depth + 2 => arrowAfterClosing? (depth + 1) rest
    | .endOfInput => some false
    | _ => arrowAfterClosing? depth rest

/-- Whether an arrow function starts here, the word `async` aside; nothing if the lookahead closes a
parenthesis where none is open. -/
def arrowFrom? : List Token → Option Bool
  | [] => some false
  | token :: rest =>
    match token.kind with
    | .name _ => some (rest.head?.any fun next => next.kind = .symbol .arrow)
    | .symbol .leftParen => arrowAfterClosing? 0 (token :: rest)
    | _ => some false

/-- Whether an arrow function starts here, like `startsArrow`, with a depth that must not fall below
zero. -/
def startsArrow? : List Token → Option Bool
  | [] => arrowFrom? []
  | token :: rest => arrowFrom? (if token.kind = .keyword .asyncKw then rest else token :: rest)

theorem arrowAfterClosing?_succ (depth : Nat) (tokens : List Token) :
    arrowAfterClosing? (depth + 1) tokens = some (arrowAfterClosing (depth + 1) tokens) := by
  induction tokens generalizing depth with
  | nil => rfl
  | cons token rest ih =>
      obtain ⟨kind, l⟩ := token
      cases kind with
      | symbol s =>
          cases s
          case leftParen => exact ih (depth + 1)
          case rightParen =>
            cases depth with
            | zero => rfl
            | succ depth => exact ih depth
          all_goals exact ih depth
      | endOfInput => rfl
      | _ => exact ih depth

/-- The lookahead never closes a parenthesis where none is open. -/
theorem startsArrow?_eq (tokens : List Token) :
    startsArrow? tokens = some (startsArrow tokens) := by
  cases tokens with
  | nil => rfl
  | cons first others =>
      unfold startsArrow? startsArrow
      dsimp only
      generalize (if first.kind = .keyword .asyncKw then others else first :: others) = start
      cases start with
      | nil => rfl
      | cons token rest =>
          obtain ⟨kind, l⟩ := token
          cases kind with
          | symbol s =>
              cases s
              -- the parenthesis itself is the first that is open
              case leftParen => exact arrowAfterClosing?_succ 0 rest
              all_goals rfl
          | _ => rfl

/-! ## The parser -/

/-- An operand with the operators behind it. -/
def operand (depth : Nat) : Reader Expr := do
  let first ← (do if ← sees (.keyword .newKw) then construction depth else primary depth)
  trailers depth first

/-- The levels of the descent and their parts that take a token wherever they succeed. -/
inductive Level : {α : Type} → (Nat → Reader α) → Prop
  | statement : Level statement
  | expression : Level expression
  | arrowFunction : Level arrowFunction
  | conditional : Level conditional
  | binary (tighter : List (List OperatorOf)) (h : tighter <:+ levels) :
    Level fun depth => binary depth tighter
  | power : Level power
  | unary : Level unary
  | operand : Level operand
  | construction : Level construction
  | primary : Level primary
  | functionRest (x : Option String) (isAsync : Bool) :
    Level fun depth => functionRest depth x isAsync
  | body : Level body
  | forLoop (l : Location) : Level fun depth => forLoop depth l
  | forRest (l : Location) (start : Option ForStart) : Level fun depth => forRest depth l start
  | declarators (kind : DeclKind) : Level fun depth => declarators depth kind
  | binder : Level fun _ => binder

/-- The loops that may succeed without taking a token. -/
inductive Loop : {α : Type} → (Nat → Reader α) → Prop
  | statements : Loop statements
  | elements (close : Symbol) : Loop fun depth => elements depth close
  | fields : Loop fields
  | parameters : Loop fun _ => parameters
  | trailers (e : Expr) : Loop fun depth => trailers depth e
  | constructorPath (e : Expr) : Loop fun depth => constructorPath depth e
  | binaryRest (level : List OperatorOf) (tighter : List (List OperatorOf)) (first : Expr)
    (h : level :: tighter <:+ levels) : Loop fun depth => binaryRest depth level tighter first

theorem length_le_of_levels {tighter : List (List OperatorOf)} (h : tighter <:+ levels) :
    tighter.length ≤ 11 :=
  h.length_le

theorem Level.descends {α : Type} {m : Nat → Reader α} (h : Level m) (hle : left ≤ left') :
    Descends 1 stepsPerToken left (m left) (m left') := by
  have hprogress := progress hle
  cases h with
  | statement => exact hprogress.statement.raise rfl
  | expression => exact hprogress.expression.raise rfl
  | arrowFunction => exact hprogress.arrowFunction.raise rfl
  | conditional => exact hprogress.conditional.raise rfl
  | binary tighter h =>
      have hlength := length_le_of_levels h
      have hrank : 6 + tighter.length ≤ stepsPerToken := by
        rw [stepsPerToken]
        omega
      exact (hprogress.binary tighter).raise (Nat.ble_eq_true_of_le hrank)
  | power => exact hprogress.power.raise rfl
  | unary => exact hprogress.unary.raise rfl
  | operand =>
      refine .bind (k := 1) ?_ fun first => (hprogress.trailers first).raise rfl
      exact .look _ fun isNew =>
        .ite (hprogress.construction.raise rfl) (hprogress.primary.raise rfl)
  | construction => exact hprogress.construction.raise rfl
  | primary => exact hprogress.primary.raise rfl
  | functionRest x isAsync => exact (hprogress.functionRest x isAsync).raise rfl
  | body => exact hprogress.body.raise rfl
  | forLoop l => exact (hprogress.forLoop l).raise rfl
  | forRest l start => exact (hprogress.forRest l start).raise rfl
  | declarators kind => exact (hprogress.declarators kind).raise rfl
  | binder => exact .binder

theorem Loop.descends {α : Type} {m : Nat → Reader α} (h : Loop m) (hle : left ≤ left') :
    Descends 0 stepsPerToken left (m left) (m left') := by
  have hprogress := progress hle
  cases h with
  | statements => exact hprogress.statements.raise rfl
  | elements close => exact (hprogress.elements close).raise rfl
  | fields => exact hprogress.fields.raise rfl
  | parameters => exact .parameters
  | trailers e => exact (hprogress.trailers e).raise rfl
  | constructorPath e => exact (hprogress.constructorPath e).raise rfl
  | binaryRest level tighter first h =>
      have hlength := length_le_of_levels h
      rw [List.length_cons] at hlength
      have hrank : 1 + tighter.length ≤ stepsPerToken := by
        rw [stepsPerToken]
        omega
      exact (hprogress.binaryRest level tighter first).raise (Nat.ble_eq_true_of_le hrank)

/-- With every bound from `enough` on, the result is the same, and it is no failure for want of a
greater one. -/
def Terminates {α : Type} (enough : Nat) (m : Nat → Reader α) (input : Input) : Prop :=
  ∃ result, (∀ depth, enough ≤ depth → m depth input = result) ∧
    ∀ e, result = .error e → e.fault ≠ .tooDeep

theorem terminates_of_descends {α : Type} {m : Nat → Reader α} {least : Nat}
    (h : ∀ {left left'}, left ≤ left' → Descends least stepsPerToken left (m left) (m left'))
    (input : Input) : Terminates (stepsPerToken * (input.tokens.length + 1)) m input := by
  have hends := (h (Nat.le_refl (stepsPerToken * (input.tokens.length + 1))) input).ends
  refine ⟨m (stepsPerToken * (input.tokens.length + 1)) input, fun depth hle => ?_, hends ?_⟩
  · exact (h hle input).stays (Nat.le_of_eq (Nat.mul_succ _ _).symm)
  · exact Nat.le_of_eq (Nat.mul_succ _ _).symm

/-- **Progress of the parser.** On tokens that end with the end of input, and have it nowhere else, a
level of the descent has taken a token wherever it succeeds, and neither levels nor loops go beyond
the end of input. All of them terminate, whatever the tokens are, and so does the program, whose
success leaves nothing but the end of input. The lookahead for an arrow never closes a parenthesis
that was not opened. -/
theorem parsing_progresses {tokens : List Token} (h : EndsOnce tokens) (previous : Location) :
    let input : Input := ⟨previous, tokens⟩
    let enough := stepsPerToken * (tokens.length + 1)
    (∀ {α : Type} {m : Nat → Reader α}, Level m → Terminates enough m input ∧
      ∀ depth a rest, m depth input = .ok (a, rest) →
        input.Consumed 1 rest ∧ EndsOnce rest.tokens) ∧
    (∀ {α : Type} {m : Nat → Reader α}, Loop m → Terminates enough m input ∧
      ∀ depth a rest, m depth input = .ok (a, rest) →
        input.Consumed 0 rest ∧ EndsOnce rest.tokens) ∧
    startsArrow? tokens = some (startsArrow tokens) ∧
    (∃ result, (∀ depth left, enough ≤ depth → tokens.length < left →
        programStatements depth left input = result) ∧
      ∀ e, result = .error e → e.fault ≠ .tooDeep) ∧
    (∀ depth left program rest, programStatements depth left input = .ok (program, rest) →
      ∃ l, rest.tokens = [⟨.endOfInput, l⟩]) ∧
    ∀ e, parseTokens tokens = .error e → e.fault ≠ .tooDeep := by
  intro input enough
  have hprogram (start : Location) : ∃ result, (∀ depth left, enough ≤ depth →
      tokens.length < left → programStatements depth left ⟨start, tokens⟩ = result) ∧
        ∀ e, result = .error e → e.fault ≠ .tooDeep := by
    have hroom : stepsPerToken * tokens.length + 20 ≤ enough ∧
        tokens.length < tokens.length + 1 := by
      simp only [enough, stepsPerToken]
      omega
    have hends := (programStatements_progresses (Nat.le_refl enough)
      (Nat.le_refl (tokens.length + 1)) ⟨start, tokens⟩).ends
    refine ⟨_, fun depth left hdepth hleft => ?_, hends hroom⟩
    exact (programStatements_progresses hdepth hleft ⟨start, tokens⟩).stays hroom
  refine ⟨fun hm => ⟨terminates_of_descends hm.descends input, ?_⟩,
    fun hm => ⟨terminates_of_descends hm.descends input, ?_⟩, startsArrow?_eq tokens,
    hprogram previous, ?_, ?_⟩
  · intro depth a rest hread
    have hconsumed := (hm.descends (Nat.le_refl depth) input).consumed a rest hread
    exact ⟨hconsumed, h.of_consumed hconsumed⟩
  · intro depth a rest hread
    have hconsumed := (hm.descends (Nat.le_refl depth) input).consumed a rest hread
    exact ⟨hconsumed, h.of_consumed hconsumed⟩
  · intro depth left program rest hread
    have hprogresses :=
      programStatements_progresses (Nat.le_refl depth) (Nat.le_refl left) input
    have hends : EndsOnce rest.tokens := h.of_consumed (hprogresses.consumed program rest hread)
    exact hends.eq_of_atEnd (atEnd_of_programStatements hread)
  · intro e hparse
    obtain ⟨result, hresult, hends⟩ := hprogram ((tokens.head?.map (·.loc)).getD ⟨1, 1⟩)
    have hparsed : parseTokens tokens = result.map Prod.fst :=
      congrArg (Except.map Prod.fst)
        (hresult enough (tokens.length + 1) (Nat.le_refl enough) (Nat.lt_succ_self _))
    cases result with
    | ok read =>
        rw [hparsed] at hparse
        cases hparse
    | error e' =>
        rw [hparsed] at hparse
        cases hparse
        exact hends _ rfl

theorem parsing_progresses_name :
    let tokens : List Token :=
      [⟨.name "x", ⟨1, 1⟩⟩, ⟨.symbol .semicolon, ⟨1, 2⟩⟩, ⟨.endOfInput, ⟨1, 3⟩⟩]
    EndsOnce tokens ∧ ∃ rest, expression 20 ⟨⟨1, 1⟩, tokens⟩ = .ok (.variable "x" ⟨1, 1⟩, rest) ∧
      Input.Consumed 1 ⟨⟨1, 1⟩, tokens⟩ rest ∧ EndsOnce rest.tokens := by
  intro tokens
  have hends : EndsOnce tokens := by
    refine ⟨[⟨.name "x", ⟨1, 1⟩⟩, ⟨.symbol .semicolon, ⟨1, 2⟩⟩], ⟨1, 3⟩, rfl, ?_⟩
    exact List.forall_mem_cons.mpr ⟨by simp, List.forall_mem_singleton.mpr (by simp)⟩
  obtain ⟨hlevel, -⟩ := parsing_progresses hends ⟨1, 1⟩
  have hread : expression 20 ⟨⟨1, 1⟩, tokens⟩ =
      .ok (.variable "x" ⟨1, 1⟩, ⟨⟨1, 1⟩, tokens.tail⟩) := rfl
  exact ⟨hends, _, hread, (hlevel .expression).2 20 _ _ hread⟩

end StepTrace.Syntax
