import StepTrace.Proofs.CalledNames
import StepTrace.Proofs.ReadBraces

/-!
# A call at the end of the text

Behind whatever tokens `await name();` stands at the end of a text, the tree that the parser reads
of the whole text calls the name. No function of the parser but the one for operators before an
operand takes the word `await` (`Passes`), and that one reads a call behind it. So a reader
either stops before the call, or it stops behind the call and has the name among the names that
are called by what it read (`Reader.Finds`); the induction is on the bound of the descent.

* `ReadsCalls`: what the functions of the parser find.
* `mem_calls_of_parseTokens`: the tree of a text with a call at its end.
-/

namespace StepTrace.Syntax

open Reader

variable {entry : String} {called : List String} {input rest : Input}

/-! ## Before the call and behind it -/

/-- The tokens of a call, of the semicolon behind it and of the end of input. -/
def callKinds (entry : String) : List Kind :=
  [.name entry, .symbol .leftParen, .symbol .rightParen, .symbol .semicolon, .endOfInput]

/-- The call, behind the word `await`, is still to be read. -/
def Input.Ahead (entry : String) (input : Input) : Prop :=
  ∃ front, .endOfInput ∉ front ∧
    input.tokens.map Token.kind = front ++ .keyword .awaitKw :: callKinds entry

/-- The call has been read. -/
def Input.Behind (input : Input) : Prop :=
  input.tokens.map Token.kind = [.symbol .semicolon, .endOfInput] ∨
    input.tokens.map Token.kind = [.endOfInput]

/-- The call is still to be read, or the name is among those that are called. -/
def Input.Finding (entry : String) (called : List String) (input : Input) : Prop :=
  input.Ahead entry ∨ (input.Behind ∧ entry ∈ called)

/-- A list of tokens by the kinds of its tokens. -/
theorem exists_token {tokens : List Token} {kind : Kind} {kinds : List Kind}
    (h : tokens.map Token.kind = kind :: kinds) :
    ∃ l others, tokens = ⟨kind, l⟩ :: others ∧ others.map Token.kind = kinds := by
  obtain ⟨token, others, rfl, rfl, hothers⟩ := List.map_eq_cons_iff.mp h
  exact ⟨token.loc, others, rfl, hothers⟩

theorem Input.advance_of_tokens {token : Token} {others : List Token}
    (htokens : input.tokens = token :: others) (hend : token.kind ≠ .endOfInput) :
    input.peek = token ∧ input.advance = ⟨token.loc, others⟩ := by
  obtain ⟨previous, tokens⟩ := input
  obtain rfl : tokens = token :: others := htokens
  exact ⟨rfl, if_neg hend⟩

theorem Input.Ahead.advance (h : input.Ahead entry) (hpeek : input.peek.kind ≠ .keyword .awaitKw) :
    input.advance.Ahead entry := by
  obtain ⟨front, hend, hkinds⟩ := h
  cases front with
  | nil =>
      obtain ⟨l, others, htokens, -⟩ := exists_token hkinds
      rw [(advance_of_tokens htokens (by simp)).1] at hpeek
      exact absurd rfl hpeek
  | cons kind front =>
      rw [List.mem_cons, not_or] at hend
      obtain ⟨l, others, htokens, hothers⟩ := exists_token hkinds
      rw [(advance_of_tokens htokens (Ne.symm hend.1)).2]
      exact ⟨front, hend.2, hothers⟩

theorem Input.Behind.advance (h : input.Behind) : input.advance.Behind := by
  obtain ⟨previous, tokens⟩ := input
  rcases h with hkinds | hkinds
  · obtain ⟨l, others, rfl, hothers⟩ := exists_token hkinds
    exact Or.inr hothers
  · obtain ⟨l, others, rfl, -⟩ := exists_token hkinds
    exact Or.inr hkinds

theorem Input.Behind.peek_ne (h : input.Behind) : input.peek.kind ≠ .keyword .awaitKw := by
  obtain ⟨previous, tokens⟩ := input
  rcases h with hkinds | hkinds
  all_goals
    obtain ⟨l, others, rfl, -⟩ := exists_token hkinds
    simp [peek]

namespace Input.Finding

theorem advance (h : input.Finding entry called) (hpeek : input.peek.kind ≠ .keyword .awaitKw) :
    input.advance.Finding entry called :=
  h.imp (·.advance hpeek) fun hbehind => ⟨hbehind.1.advance, hbehind.2⟩

theorem mono {called' : List String} (h : input.Finding entry called) (hle : called ⊆ called') :
    input.Finding entry called' :=
  h.imp_right fun hbehind => ⟨hbehind.1, hle hbehind.2⟩

/-- At the end of input the call has been read. -/
theorem mem_of_end (h : input.Finding entry called) (hpeek : input.peek.kind = .endOfInput) :
    entry ∈ called := by
  rcases h with ⟨front, hend, hkinds⟩ | hbehind
  · obtain ⟨previous, tokens⟩ := input
    cases front with
    | nil =>
        obtain ⟨l, others, rfl, -⟩ := exists_token hkinds
        cases hpeek
    | cons kind front =>
        obtain ⟨l, others, rfl, -⟩ := exists_token hkinds
        exact absurd (hpeek ▸ List.mem_cons_self) hend
  · exact hbehind.2

end Input.Finding

/-! ## Readers that do not take the word -/

/-- The input behind some tokens none of which is the word `await`. -/
inductive Input.Passed : Input → Input → Prop
  | refl (input : Input) : Passed input input
  | step {input rest : Input} (hpeek : input.peek.kind ≠ .keyword .awaitKw)
    (hpassed : Passed input.advance rest) : Passed input rest

theorem Input.Passed.trans {behind : Input} (h : input.Passed rest) (h' : rest.Passed behind) :
    input.Passed behind := by
  induction h with
  | refl => exact h'
  | step hpeek _ ih => exact .step hpeek (ih h')

theorem Input.Finding.passed (h : input.Finding entry called) (hpassed : input.Passed rest) :
    rest.Finding entry called := by
  induction hpassed with
  | refl => exact h
  | step hpeek _ ih => exact ih (h.advance hpeek)

/-- Whatever the reader takes, it is not the word `await`. -/
def Reader.Passes {α : Type} (m : Reader α) : Prop :=
  ∀ input a rest, m input = .ok (a, rest) → input.Passed rest

namespace Reader.Passes

variable {α β : Type} {m : Reader α} {f : α → Reader β}

/-- A reader that takes a single token at most. -/
theorem of_one (h : ∀ input a rest, m input = .ok (a, rest) →
    rest = input ∨ (input.peek.kind ≠ .keyword .awaitKw ∧ rest = input.advance)) : m.Passes := by
  intro input a rest hread
  rcases h input a rest hread with rfl | ⟨hpeek, rfl⟩
  · exact .refl _
  · exact .step hpeek (.refl _)

theorem pure (a : α) : (pure a : Reader α).Passes := by
  rintro input _ _ ⟨⟩
  exact .refl input

theorem failAt (l : Location) (fault : Fault) : (failAt l fault : Reader α).Passes := by
  rintro input a rest ⟨⟩

theorem bind (hm : m.Passes) (hf : ∀ a, (f a).Passes) : (m >>= f).Passes := by
  intro input b rest h
  obtain ⟨a, middle, hread, hgoes⟩ := Reader.bind_ok h
  exact (hm input a middle hread).trans (hf a middle b rest hgoes)

/-- Where nothing is taken. -/
theorem look (g : Input → α) :
    Reader.Passes (fun input => .ok (g input, input) : Reader α) := by
  rintro input _ _ ⟨⟩
  exact .refl input

theorem ite {p : Prop} [Decidable p] {q q' : Reader α} (hq : q.Passes) (hq' : q'.Passes) :
    (if p then q else q').Passes := by
  split
  · exact hq
  · exact hq'

theorem accept {kind : Kind} (hkind : kind ≠ .keyword .awaitKw) : (accept kind).Passes := by
  refine of_one fun input a rest h => ?_
  unfold Reader.accept at h
  split at h
  · rename_i hpeek
    cases h
    exact Or.inr ⟨hpeek ▸ hkind, rfl⟩
  · cases h
    exact Or.inl rfl

theorem symbol (s : Symbol) : (acceptSymbol s).Passes :=
  accept (by simp)

theorem word {k : Keyword} (hk : k ≠ .awaitKw) : (acceptWord k).Passes :=
  accept (by simp [hk])

theorem expect {kind : Kind} (hkind : kind ≠ .keyword .awaitKw) (what : String) :
    (expect kind what).Passes := by
  refine of_one fun input a rest h => ?_
  unfold Reader.expect at h
  split at h
  · rename_i hpeek
    cases h
    exact Or.inr ⟨hpeek ▸ hkind, rfl⟩
  · cases h

theorem expectSymbol (s : Symbol) (what : String) : (Reader.expect (.symbol s) what).Passes :=
  expect (by simp) what

theorem endStatement (context : String) : (endStatement context).Passes := by
  refine of_one fun input a rest h => ?_
  unfold Reader.endStatement at h
  split at h
  · rename_i hpeek
    cases h
    exact Or.inr ⟨by simp [hpeek], rfl⟩
  · split at h
    · cases h
      exact Or.inl rfl
    · cases h

theorem name : Reader.name.Passes := by
  refine of_one fun input a rest h => ?_
  unfold Reader.name at h
  split at h
  · rename_i hpeek
    cases h
    exact Or.inr ⟨by simp [hpeek], rfl⟩
  · cases h

theorem acceptName : Reader.acceptName.Passes := by
  refine of_one fun input a rest h => ?_
  unfold Reader.acceptName at h
  split at h
  all_goals
    cases h
    simp_all

/-- A reader that takes one token of some kinds, none of which is the word. -/
theorem takes {m : Reader (Option α)} {kinds : List Kind} (hm : m.Takes kinds)
    (hkinds : .keyword .awaitKw ∉ kinds) : m.Passes := by
  refine of_one fun input a rest h => ?_
  rcases hm input a rest h with ⟨-, rfl⟩ | ⟨-, hkind, rfl⟩
  · exact Or.inl rfl
  · refine Or.inr ⟨?_, rfl⟩
    intro hawait
    rw [hawait] at hkind
    exact hkinds hkind

theorem operator (level : List OperatorOf) : (acceptOperator level).Passes :=
  takes (acceptOperator_takes level) (by simp [levelKinds])

theorem acceptAtom : acceptAtom.Passes := by
  refine of_one fun input a rest h => ?_
  unfold Syntax.acceptAtom at h
  dsimp only at h
  split at h
  all_goals
    cases h
    simp_all

theorem fieldName : fieldName.Passes := by
  refine of_one fun input a rest h => ?_
  unfold Syntax.fieldName at h
  split at h
  case h_4 => cases h
  all_goals
    cases h
    simp_all

theorem nameList (left : Nat) : (nameList left).Passes := by
  induction left with
  | zero => exact (look _).bind fun l => failAt l _
  | succ left ih =>
      unfold Syntax.nameList
      refine name.bind fun x => (symbol .comma).bind fun more => ite ?_ (pure _)
      exact ih.bind fun others => pure _

theorem parameters : parameters.Passes := by
  unfold Syntax.parameters
  refine (look _).bind fun isClosed => ite (pure _) ?_
  exact (look _).bind fun tokens => nameList _

theorem binderNames (left : Nat) : (binderNames left).Passes := by
  induction left with
  | zero => exact (look _).bind fun l => failAt l _
  | succ left ih =>
      unfold Syntax.binderNames
      refine (look _).bind fun isClosed => ite (pure _) ?_
      refine name.bind fun x => (symbol .comma).bind fun more => ite ?_ (pure _)
      exact ih.bind fun others => pure _

theorem binder : binder.Passes := by
  unfold Syntax.binder
  refine (symbol .leftBracket).bind fun isList => ite ?_ (name.bind fun x => pure _)
  refine (look _).bind fun tokens => (binderNames _).bind fun names => ?_
  exact (expectSymbol .rightBracket _).bind fun _ => pure _

end Reader.Passes

/-! ## Readers that find the call -/

/-- From an input in which the call is to be read or `called` has the name, the reader goes to one
in which it is to be read or what belongs to the result has the name. -/
def Reader.Finds (entry : String) (called : List String) {α : Type} (m : Reader α)
    (called' : α → List String) : Prop :=
  ∀ input a rest, input.Finding entry called → m input = .ok (a, rest) →
    rest.Finding entry (called' a)

namespace Reader.Finds

variable {α β : Type} {m : Reader α} {f : α → Reader β} {middle : α → List String}
  {called' : β → List String}

theorem pure {b : β} (h : called ⊆ called' b) : Finds entry called (pure b) called' := by
  rintro input _ _ hfinding ⟨⟩
  exact hfinding.mono h

theorem failAt (l : Location) (fault : Fault) :
    Finds entry called (failAt l fault : Reader β) called' := by
  rintro input b rest - ⟨⟩

theorem bind (hm : Finds entry called m middle)
    (hf : ∀ a, Finds entry (middle a) (f a) called') :
    Finds entry called (m >>= f) called' := by
  intro input b rest hfinding h
  obtain ⟨a, input', hread, hgoes⟩ := Reader.bind_ok h
  exact hf a input' b rest (hm input a input' hfinding hread) hgoes

/-- Where the word `await` is not taken. -/
theorem passing (hm : m.Passes) (hf : ∀ a, Finds entry called (f a) called') :
    Finds entry called (m >>= f) called' := by
  intro input b rest hfinding h
  obtain ⟨a, input', hread, hgoes⟩ := Reader.bind_ok h
  exact hf a input' b rest (hfinding.passed (hm input a input' hread)) hgoes

/-- Where nothing is taken. -/
theorem look (g : Input → α) (hf : ∀ a, Finds entry called (f a) called') :
    Finds entry called ((fun input => .ok (g input, input) : Reader α) >>= f) called' :=
  passing (Passes.look g) hf

/-- Where a symbol is taken if it is next. -/
theorem symbol (s : Symbol) {q q' : Reader β} (hq : Finds entry called q called')
    (hq' : Finds entry called q' called') :
    Finds entry called (acceptSymbol s >>= fun holds => if holds then q else q') called' := by
  refine passing (Passes.symbol s) fun holds => ?_
  split
  · exact hq
  · exact hq'

/-- Where a word other than `await` is taken if it is next. -/
theorem word {k : Keyword} (hk : k ≠ .awaitKw) {q q' : Reader β}
    (hq : Finds entry called q called') (hq' : Finds entry called q' called') :
    Finds entry called (acceptWord k >>= fun holds => if holds then q else q') called' := by
  refine passing (Passes.word hk) fun holds => ?_
  split
  · exact hq
  · exact hq'

/-- Where the words that start a function are taken if they are next. -/
theorem function {f : Bool → Reader β} {other : Reader β}
    (hf : ∀ isAsync, Finds entry called (f isAsync) called')
    (hother : Finds entry called other called') :
    Finds entry called (do
      if Syntax.startsFunction (← upcoming) then
        let isAsync ← acceptWord .asyncKw
        Reader.skip
        f isAsync
      else other) called' := by
  -- the word `function`, behind the word `async` or without it
  have hskip (isAsync : Bool) : ∀ input b rest, input.Finding entry called →
      input.peek.kind = .keyword .functionKw →
        (Reader.skip >>= fun _ => f isAsync) input = .ok (b, rest) →
          rest.Finding entry (called' b) := by
    intro input b rest hfinding hpeek h
    exact hf isAsync input.advance b rest (hfinding.advance (by simp [hpeek])) h
  intro input b rest hfinding h
  change (if Syntax.startsFunction input.tokens then
    (Reader.accept (.keyword .asyncKw) >>= fun isAsync => Reader.skip >>= fun _ => f isAsync)
    else other) input = .ok (b, rest) at h
  split at h
  · rename_i hstarts
    change (Reader.accept (.keyword .asyncKw) input >>= fun read =>
      (Reader.skip >>= fun _ => f read.1) read.2) = .ok (b, rest) at h
    unfold Reader.accept at h
    rcases peek_of_startsFunction hstarts with hpeek | ⟨hasync, hpeek⟩
    · rw [if_neg (by simp [hpeek])] at h
      exact hskip false input b rest hfinding hpeek h
    · rw [if_pos hasync] at h
      exact hskip true input.advance b rest (hfinding.advance (by simp [hasync])) hpeek h
  · exact hother input b rest hfinding h

/-- Where the word `await` is taken if it is next, and the call may be read behind it. -/
theorem awaiting {q q' : Reader β} (hq : Finds entry called q called')
    (hcall : ∀ input b rest, input.tokens.map Token.kind = callKinds entry →
      q input = .ok (b, rest) → rest.Finding entry (called' b))
    (hq' : Finds entry called q' called') :
    Finds entry called (acceptWord .awaitKw >>= fun holds => if holds then q else q') called' := by
  intro input b rest hfinding h
  change (Reader.accept (.keyword .awaitKw) input >>= fun read =>
    (if read.1 then q else q') read.2) = .ok (b, rest) at h
  unfold Reader.accept at h
  split at h
  · rename_i hpeek
    rcases hfinding with ⟨front, hend, hkinds⟩ | ⟨hbehind, -⟩
    · cases front with
      | nil =>
          obtain ⟨l, others, htokens, hothers⟩ := exists_token hkinds
          refine hcall input.advance b rest ?_ h
          rw [(Input.advance_of_tokens htokens (by simp)).2]
          exact hothers
      | cons kind front =>
          rw [List.mem_cons, not_or] at hend
          obtain ⟨l, others, htokens, hothers⟩ := exists_token hkinds
          refine hq input.advance b rest (Or.inl ?_) h
          rw [(Input.advance_of_tokens htokens (Ne.symm hend.1)).2]
          exact ⟨front, hend.2, hothers⟩
    · exact absurd hpeek hbehind.peek_ne
  · exact hq' input b rest hfinding h

/-- Where the reading goes back to an input that is remembered. -/
theorem remembering {f : Input → Reader β}
    (hf : ∀ saved : Input, saved.Finding entry called → Finds entry called (f saved) called') :
    Finds entry called (get >>= f) called' :=
  fun input b rest hfinding h => hf input hfinding input b rest hfinding h

theorem goingBack {saved : Input} (hsaved : saved.Finding entry called) {f : PUnit → Reader β}
    (hf : Finds entry called (f ⟨⟩) called') {other : List String} :
    Finds entry other (set saved >>= f) called' :=
  fun _ b rest _ h => hf saved b rest hsaved h

theorem weaken {other : List String} (h : Finds entry other m middle) (hle : called ⊆ other) :
    Finds entry called m middle :=
  fun input a rest hfinding hread => h input a rest (hfinding.mono hle) hread

end Reader.Finds

/-! ## The functions of the parser -/

/-- The names that the first clause of a loop calls, if it has one. -/
def firstCalls : Option ForStart → List String
  | none => []
  | some start => startCalls start

/-- With this bound, the functions of the parser find the call. -/
structure ReadsCalls (entry : String) (left : Nat) : Prop where
  expression : ∀ called, Finds entry called (expression left) (fun e => called ++ exprCalls e)
  arrowFunction : ∀ called,
    Finds entry called (arrowFunction left) (fun e => called ++ exprCalls e)
  conditional : ∀ called, Finds entry called (conditional left) (fun e => called ++ exprCalls e)
  binary : ∀ called levels,
    Finds entry called (binary left levels) (fun e => called ++ exprCalls e)
  binaryRest : ∀ called level tighter first,
    Finds entry (called ++ exprCalls first) (binaryRest left level tighter first)
      (fun e => called ++ exprCalls e)
  power : ∀ called, Finds entry called (power left) (fun e => called ++ exprCalls e)
  unary : ∀ called, Finds entry called (unary left) (fun e => called ++ exprCalls e)
  trailers : ∀ called e,
    Finds entry (called ++ exprCalls e) (trailers left e) (fun e => called ++ exprCalls e)
  operand : ∀ called, Finds entry called (do
      if ← sees (.keyword .newKw) then construction left else primary left)
    (fun e => called ++ exprCalls e)
  constructorPath : ∀ called e,
    Finds entry (called ++ exprCalls e) (constructorPath left e)
      (fun e => called ++ exprCalls e)
  elements : ∀ called close,
    Finds entry called (elements left close) (fun es => called ++ elementCalls es)
  fields : ∀ called, Finds entry called (fields left) (fun fs => called ++ fieldCalls fs)
  primary : ∀ called, Finds entry called (primary left) (fun e => called ++ exprCalls e)
  functionRest : ∀ called x isAsync,
    Finds entry called (functionRest left x isAsync) (fun f => called ++ functionCalls f)
  declarators : ∀ called kind,
    Finds entry called (declarators left kind) (fun ds => called ++ declaratorCalls ds)
  statements : ∀ called, Finds entry called (statements left) (fun stmts => called ++ calls stmts)
  body : ∀ called, Finds entry called (body left) (fun stmts => called ++ calls stmts)
  forLoop : ∀ called l, Finds entry called (forLoop left l) (fun stmt => called ++ stmtCalls stmt)
  forRest : ∀ called l start,
    Finds entry (called ++ firstCalls start) (forRest left l start)
      (fun stmt => called ++ stmtCalls stmt)
  statement : ∀ called, Finds entry called (statement left) (fun stmt => called ++ stmtCalls stmt)

/-- The symbols of a call and of the end of a statement are no operators behind an operand. -/
theorem acceptBehind_symbol {s : Symbol} (hs : s = .leftParen ∨ s = .semicolon)
    (hpeek : input.peek.kind = .symbol s) : acceptBehind input = .ok (none, input) := by
  unfold acceptBehind
  rw [hpeek]
  rcases hs with rfl | rfl <;> exact ite_self _

theorem trailers_semicolon {left : Nat} {e e' : Expr} (hpeek : input.peek.kind = .symbol .semicolon)
    (h : trailers left e input = .ok (e', rest)) : e' = e ∧ rest = input := by
  cases left with
  | zero => cases h
  | succ left =>
      have hother (s : Symbol) (hs : s ≠ .semicolon) :
          acceptSymbol s input = .ok (false, input) := by
        unfold acceptSymbol accept
        rw [if_neg (by simp [hpeek, Ne.symm hs])]
      have hhere : here input = .ok (input.peek.loc, input) := rfl
      unfold trailers at h
      rw [bind_of_ok hhere, bind_of_ok (acceptBehind_symbol (Or.inr rfl) hpeek)] at h
      dsimp only at h
      rw [bind_of_ok (hother .leftBracket (by decide))] at h
      simp only [Bool.false_eq_true, if_false] at h
      rw [bind_of_ok (hother .dot (by decide))] at h
      simp only [Bool.false_eq_true, if_false] at h
      rw [bind_of_ok (hother .leftParen (by decide))] at h
      cases h
      exact ⟨rfl, rfl⟩

/-- Behind the word `await`, the call is read as an operand. -/
theorem unary_call {left : Nat} {e : Expr} (hkinds : input.tokens.map Token.kind = callKinds entry)
    (h : unary left input = .ok (e, rest)) : rest.Behind ∧ entry ∈ exprCalls e := by
  obtain ⟨previous, tokens⟩ := input
  have hkinds : tokens.map Token.kind = callKinds entry := hkinds
  obtain ⟨l₁, tokens₁, rfl, hkinds₁⟩ := exists_token hkinds
  obtain ⟨l₂, tokens₂, rfl, hkinds₂⟩ := exists_token hkinds₁
  obtain ⟨l₃, tokens₃, rfl, hkinds₃⟩ := exists_token hkinds₂
  obtain ⟨l₄, tokens₄, rfl, hkinds₄⟩ := exists_token hkinds₃
  let behind : Input := ⟨l₃, ⟨.symbol .semicolon, l₄⟩ :: tokens₄⟩
  let opening : Input :=
    ⟨l₁, ⟨.symbol .leftParen, l₂⟩ :: ⟨.symbol .rightParen, l₃⟩ :: behind.tokens⟩
  -- with a bound that is too small, nothing is read
  rcases left with _ | _ | left
  · cases h
  · cases h
  have hname : unary (left + 2) ⟨previous, ⟨.name entry, l₁⟩ :: opening.tokens⟩ =
      trailers (left + 1) (.variable entry l₁) opening := rfl
  have hhere : here opening = .ok (l₂, opening) := rfl
  have hopening : acceptBehind opening = .ok (none, opening) :=
    acceptBehind_symbol (Or.inl rfl) rfl
  have hcall := hname.symm.trans h
  rw [trailers, bind_of_ok hhere, bind_of_ok hopening] at hcall
  cases left with
  | zero => cases hcall
  | succ left =>
      have hcall : trailers (left + 1) (.call (.variable entry l₁) [] l₂) behind = .ok (e, rest) :=
        hcall
      obtain ⟨rfl, rfl⟩ := trailers_semicolon rfl hcall
      exact ⟨Or.inl hkinds₃, List.mem_singleton.mpr rfl⟩

-- where a tree is made of others, it calls what they call
attribute [local simp] exprCalls elementCalls fieldCalls functionCalls optionalCalls
  declaratorCalls stmtCalls calls

namespace ReadsCalls

variable {left : Nat} (h : ReadsCalls entry left)
include h

theorem expression_succ (called : List String) : Finds entry called (Syntax.expression (left + 1))
    (fun e => called ++ exprCalls e) := by
  unfold Syntax.expression
  refine Finds.look _ fun tokens => ?_
  split
  · exact h.arrowFunction called
  · refine (h.conditional called).bind fun e => Finds.look _ fun l => Finds.symbol _ ?_ ?_
    · split
      · exact Finds.failAt _ _
      · rename_i target htarget
        refine (h.expression _).bind fun value => Finds.pure ?_
        simp [target?_calls htarget]
    · refine Finds.passing (Passes.takes acceptCompound_takes (by decide)) fun op => ?_
      split
      · exact Finds.pure (List.Subset.refl _)
      · split
        · exact Finds.failAt _ _
        · rename_i place hplace
          refine (h.expression _).bind fun value => Finds.pure ?_
          simp [place?_calls hplace]

theorem arrowFunction_succ (called : List String) : Finds entry called
    (Syntax.arrowFunction (left + 1)) (fun e => called ++ exprCalls e) := by
  unfold Syntax.arrowFunction
  have hparams : Passes (do
      if ← acceptSymbol .leftParen then
        let params ← parameters
        expectSymbol .rightParen "after arrow parameters"
        return params
      else return [← Reader.name]) := by
    refine (Passes.symbol _).bind fun isList => Passes.ite ?_ ?_
    · refine Passes.parameters.bind fun params => ?_
      exact (Passes.expectSymbol _ _).bind fun _ => Passes.pure _
    · exact Passes.name.bind fun x => Passes.pure _
  refine Finds.look _ fun l => Finds.passing (Passes.word (by decide)) fun isAsync => ?_
  refine Finds.passing hparams fun params => Finds.passing (Passes.expectSymbol _ _) fun _ => ?_
  refine Finds.look _ fun opening => Finds.symbol _ ?_ ?_
  · refine (h.statements called).bind fun body => Finds.look _ fun closing => ?_
    exact Finds.passing (Passes.expectSymbol _ _) fun _ => Finds.pure (by simp)
  · exact (h.expression called).bind fun value => Finds.pure (by simp)

theorem conditional_succ (called : List String) : Finds entry called
    (Syntax.conditional (left + 1)) (fun e => called ++ exprCalls e) := by
  unfold Syntax.conditional
  refine (h.binary called levels).bind fun condition => Finds.look _ fun l => ?_
  refine Finds.symbol _ ?_ (Finds.pure (List.Subset.refl _))
  refine (h.expression _).bind fun whenTrue => Finds.passing (Passes.expectSymbol _ _) fun _ => ?_
  exact (h.expression _).bind fun whenFalse => Finds.pure (by simp)

theorem binary_succ (called : List String) (levels : List (List OperatorOf)) :
    Finds entry called (Syntax.binary (left + 1) levels) (fun e => called ++ exprCalls e) := by
  unfold Syntax.binary
  cases levels with
  | nil => exact h.power called
  | cons level tighter =>
      exact (h.binary called tighter).bind fun first => h.binaryRest called level tighter first

theorem binaryRest_succ (called : List String) (level : List OperatorOf)
    (tighter : List (List OperatorOf)) (first : Expr) :
    Finds entry (called ++ exprCalls first) (Syntax.binaryRest (left + 1) level tighter first)
      (fun e => called ++ exprCalls e) := by
  unfold Syntax.binaryRest
  refine Finds.look _ fun l => Finds.passing (Passes.operator level) fun op => ?_
  split
  · exact Finds.pure (List.Subset.refl _)
  · refine (h.binary _ tighter).bind fun second => ?_
    exact (h.binaryRest called level tighter (.binary _ first second l)).weaken (by simp)

theorem power_succ (called : List String) : Finds entry called (Syntax.power (left + 1))
    (fun e => called ++ exprCalls e) := by
  unfold Syntax.power
  refine (h.unary called).bind fun base => Finds.look _ fun l => ?_
  refine Finds.symbol _ ?_ (Finds.pure (List.Subset.refl _))
  exact (h.power _).bind fun exponent => Finds.pure (by simp)

theorem unary_succ (called : List String) : Finds entry called (Syntax.unary (left + 1))
    (fun e => called ++ exprCalls e) := by
  unfold Syntax.unary
  refine Finds.look _ fun l => Finds.awaiting ?_ ?_ ?_
  · exact (h.unary called).bind fun operand => Finds.pure (List.Subset.refl _)
  · intro input e rest hkinds hread
    obtain ⟨operand, rest', hoperand, hpure⟩ := Reader.bind_ok hread
    cases hpure
    obtain ⟨hbehind, hcalls⟩ := unary_call hkinds hoperand
    exact Or.inr ⟨hbehind, List.mem_append_right _ hcalls⟩
  · refine Finds.passing (Passes.takes acceptFront_takes (by decide)) fun front => ?_
    split
    · exact (h.unary called).bind fun operand => Finds.pure (List.Subset.refl _)
    · refine (h.unary called).bind fun operand => ?_
      split
      · exact Finds.failAt _ _
      · rename_i place hplace
        exact Finds.pure (by simp [place?_calls hplace])
    · exact (h.operand called).bind fun first => h.trailers called first

theorem trailers_succ (called : List String) (e : Expr) : Finds entry (called ++ exprCalls e)
    (Syntax.trailers (left + 1) e) (fun e => called ++ exprCalls e) := by
  unfold Syntax.trailers
  refine Finds.look _ fun l =>
    Finds.passing (Passes.takes acceptBehind_takes (by decide)) fun op => ?_
  split
  · split
    · exact Finds.failAt _ _
    · rename_i place hplace
      exact (h.trailers called (.update _ place l)).weaken (by simp [place?_calls hplace])
  · refine Finds.symbol _ ?_ (Finds.symbol _ ?_ (Finds.symbol _ ?_ ?_))
    · refine (h.expression _).bind fun key => Finds.passing (Passes.expectSymbol _ _) fun _ => ?_
      exact (h.trailers called (.index e key l)).weaken (by simp)
    · exact Finds.passing Passes.name fun x => h.trailers called (.member e x l)
    · refine (h.elements _ _).bind fun args => Finds.passing (Passes.expectSymbol _ _) fun _ => ?_
      refine (h.trailers called (.call e args l)).weaken ?_
      simp only [exprCalls, ← List.append_assoc]
      exact List.subset_append_left _ _
    · exact Finds.pure (List.Subset.refl _)

theorem constructorPath_succ (called : List String) (e : Expr) :
    Finds entry (called ++ exprCalls e) (Syntax.constructorPath (left + 1) e)
      (fun e => called ++ exprCalls e) := by
  unfold Syntax.constructorPath
  refine Finds.look _ fun l => Finds.symbol _ ?_ (Finds.pure (List.Subset.refl _))
  exact Finds.passing Passes.name fun x => h.constructorPath called (.member e x l)

theorem elements_succ (called : List String) (close : Symbol) : Finds entry called
    (Syntax.elements (left + 1) close) (fun es => called ++ elementCalls es) := by
  unfold Syntax.elements
  refine Finds.look _ fun isClosed => Finds.look _ fun isEnd => ?_
  split
  · exact Finds.pure (List.subset_append_left _ _)
  · refine Finds.look _ fun l => ?_
    have helement : Finds entry called (do
          if ← acceptSymbol .ellipsis then return Element.spread (← Syntax.expression left) l
          else return Element.item (← Syntax.expression left))
        (fun element => called ++ elementCalls [element]) := by
      refine Finds.symbol _ ?_ ?_
      · exact (h.expression called).bind fun e => Finds.pure (by simp)
      · exact (h.expression called).bind fun e => Finds.pure (by simp)
    refine helement.bind fun element => Finds.symbol _ ?_ (Finds.pure (List.Subset.refl _))
    refine (h.elements _ close).bind fun others => Finds.pure ?_
    cases element <;> simp

theorem fields_succ (called : List String) : Finds entry called (Syntax.fields (left + 1))
    (fun fs => called ++ fieldCalls fs) := by
  unfold Syntax.fields
  refine Finds.look _ fun isClosed => Finds.look _ fun isEnd => ?_
  split
  · exact Finds.pure (List.subset_append_left _ _)
  · refine Finds.look _ fun l => Finds.passing Passes.fieldName fun key => ?_
    have hvalue : Finds entry called (do
          if ← acceptSymbol .colon then Syntax.expression left
          else return Expr.variable key l) (fun e => called ++ exprCalls e) :=
      Finds.symbol _ (h.expression called) (Finds.pure (List.subset_append_left _ _))
    refine hvalue.bind fun value => Finds.symbol _ ?_ (Finds.pure (by simp))
    exact (h.fields _).bind fun others => Finds.pure (by simp)

theorem primary_succ (called : List String) : Finds entry called (Syntax.primary (left + 1))
    (fun e => called ++ exprCalls e) := by
  unfold Syntax.primary
  refine Finds.look _ fun l => Finds.passing Passes.acceptAtom fun atom => ?_
  split
  · exact Finds.pure (List.subset_append_left _ _)
  refine Finds.function (fun isAsync => ?_) ?_
  · refine Finds.passing Passes.acceptName fun x => ?_
    exact (h.functionRest called x isAsync).bind fun f => Finds.pure (List.Subset.refl _)
  refine Finds.symbol _ ?_ (Finds.symbol _ ?_ (Finds.symbol _ ?_ ?_))
  · refine (h.elements called _).bind fun items => ?_
    exact Finds.passing (Passes.expectSymbol _ _) fun _ => Finds.pure (List.Subset.refl _)
  · refine (h.fields called).bind fun items => ?_
    exact Finds.passing (Passes.expectSymbol _ _) fun _ => Finds.pure (List.Subset.refl _)
  · refine (h.expression called).bind fun e => ?_
    exact Finds.passing (Passes.expectSymbol _ _) fun _ => Finds.pure (List.Subset.refl _)
  · exact Finds.look _ fun found => Finds.failAt _ _

theorem operand_succ (called : List String) : Finds entry called (do
      if ← sees (.keyword .newKw) then Syntax.construction (left + 1)
      else Syntax.primary (left + 1))
    (fun e => called ++ exprCalls e) := by
  have hpath (l : Location) : Finds entry called (do
      let callee ← Syntax.constructorPath left (← Syntax.primary left)
      if ← acceptSymbol .leftParen then
        let args ← Syntax.elements left .rightParen
        expectSymbol .rightParen "after constructor arguments"
        return .construct callee args l
      else return .construct callee [] l) (fun e => called ++ exprCalls e) := by
    refine (h.primary called).bind fun first => ?_
    refine (h.constructorPath called first).bind fun callee => ?_
    refine Finds.symbol _ ?_ (Finds.pure (by simp))
    refine (h.elements _ _).bind fun args => Finds.passing (Passes.expectSymbol _ _) fun _ => ?_
    exact Finds.pure (by simp)
  intro input e rest hfinding hread
  change (if decide (input.peek.kind = .keyword .newKw) = true then Syntax.construction (left + 1)
    else Syntax.primary (left + 1)) input = .ok (e, rest) at hread
  split at hread
  · rename_i hnew
    have hpeek : input.peek.kind ≠ .keyword .awaitKw := by simp [of_decide_eq_true hnew]
    unfold Syntax.construction at hread
    exact hpath input.peek.loc input.advance e rest (hfinding.advance hpeek) hread
  · exact h.primary_succ called input e rest hfinding hread

theorem functionRest_succ (called : List String) (x : Option String) (isAsync : Bool) :
    Finds entry called (Syntax.functionRest (left + 1) x isAsync)
      (fun f => called ++ functionCalls f) := by
  unfold Syntax.functionRest
  refine Finds.passing (Passes.expectSymbol _ _) fun _ => ?_
  refine Finds.passing Passes.parameters fun params => ?_
  refine Finds.passing (Passes.expectSymbol _ _) fun _ => Finds.look _ fun opening => ?_
  refine Finds.passing (Passes.expectSymbol _ _) fun _ => (h.statements called).bind fun body => ?_
  refine Finds.look _ fun closing => Finds.passing (Passes.expectSymbol _ _) fun _ => ?_
  exact Finds.pure (List.Subset.refl _)

theorem declarators_succ (called : List String) (kind : DeclKind) : Finds entry called
    (Syntax.declarators (left + 1) kind) (fun ds => called ++ declaratorCalls ds) := by
  unfold Syntax.declarators
  have hvalue : Finds entry called (do
        if ← acceptSymbol .assign then return some (← Syntax.expression left)
        else return none) (fun value => called ++ optionalCalls value) := by
    refine Finds.symbol _ ?_ (Finds.pure (List.subset_append_left _ _))
    exact (h.expression called).bind fun e => Finds.pure (List.Subset.refl _)
  refine Finds.passing Passes.binder fun target => hvalue.bind fun value => ?_
  have hrest : Finds entry (called ++ optionalCalls value) (do
        if ← acceptSymbol .comma then
          return .mk target value :: (← Syntax.declarators left kind)
        else return [.mk target value]) (fun ds => called ++ declaratorCalls ds) := by
    refine Finds.symbol _ ?_ (Finds.pure ?_)
    · refine (h.declarators _ kind).bind fun others => Finds.pure ?_
      cases value <;> simp
    · cases value <;> simp
  refine iteInduction (motive := fun m => Finds entry _ m _) (fun _ => ?_) fun _ => hrest
  refine Finds.look _ fun l => Finds.passing ?_ fun _ => hrest
  exact Passes.failAt _ _

theorem statements_succ (called : List String) : Finds entry called
    (Syntax.statements (left + 1)) (fun stmts => called ++ calls stmts) := by
  unfold Syntax.statements
  refine Finds.look _ fun isClosed => Finds.look _ fun isEnd => ?_
  split
  · exact Finds.pure (List.subset_append_left _ _)
  · refine (h.statement called).bind fun first => (h.statements _).bind fun others => ?_
    exact Finds.pure (by simp)

theorem body_succ (called : List String) : Finds entry called (Syntax.body (left + 1))
    (fun stmts => called ++ calls stmts) := by
  unfold Syntax.body
  refine Finds.symbol _ ?_ ?_
  · refine (h.statements called).bind fun list => ?_
    exact Finds.passing (Passes.expectSymbol _ _) fun _ => Finds.pure (List.Subset.refl _)
  · exact (h.statement called).bind fun stmt => Finds.pure (by simp)

theorem forLoop_succ (called : List String) (l : Location) : Finds entry called
    (Syntax.forLoop (left + 1) l) (fun stmt => called ++ stmtCalls stmt) := by
  unfold Syntax.forLoop
  have hnone (called : List String) := h.forRest called l none
  simp only [firstCalls, List.append_nil] at hnone
  refine Finds.passing (Passes.expectSymbol _ _) fun _ => Finds.look _ fun startLoc => ?_
  refine Finds.passing (Passes.takes acceptDeclKind_takes (by decide)) fun declKind => ?_
  split
  · refine Finds.remembering fun saved hsaved => Finds.passing Passes.binder fun target => ?_
    refine Finds.passing (Passes.accept (by simp)) fun isOf => ?_
    split
    · refine (h.expression called).bind fun iterable => ?_
      refine Finds.passing (Passes.expectSymbol _ _) fun _ => ?_
      exact (h.body _).bind fun body => Finds.pure (by simp)
    · refine Finds.goingBack hsaved ((h.declarators called _).bind fun list => ?_)
      exact h.forRest called l (some (.declare _ list startLoc))
  · refine Finds.look _ fun isEmpty => ?_
    split
    · exact hnone called
    · exact (h.expression called).bind fun e => h.forRest called l (some (.expr e startLoc))

theorem forRest_succ (called : List String) (l : Location) (start : Option ForStart) :
    Finds entry (called ++ firstCalls start) (Syntax.forRest (left + 1) l start)
      (fun stmt => called ++ stmtCalls stmt) := by
  unfold Syntax.forRest
  have hclause (called : List String) (close : Symbol) : Finds entry called (do
        if ← seesSymbol close then return none
        else return some (← Syntax.expression left))
      (fun clause => called ++ optionalCalls clause) := by
    refine Finds.look _ fun isEmpty => ?_
    split
    · exact Finds.pure (List.subset_append_left _ _)
    · exact (h.expression called).bind fun e => Finds.pure (List.Subset.refl _)
  refine Finds.passing (Passes.expectSymbol _ _) fun _ => (hclause _ _).bind fun condition => ?_
  refine Finds.passing (Passes.expectSymbol _ _) fun _ => (hclause _ _).bind fun step => ?_
  refine Finds.passing (Passes.expectSymbol _ _) fun _ => (h.body _).bind fun body => ?_
  refine Finds.pure ?_
  cases start <;> simp [firstCalls]

theorem statement_succ (called : List String) : Finds entry called
    (Syntax.statement (left + 1)) (fun stmt => called ++ stmtCalls stmt) := by
  unfold Syntax.statement
  have hnothing (context : String) (stmt : Stmt) : Finds entry called (do
      endStatement context
      return stmt) (fun stmt => called ++ stmtCalls stmt) :=
    Finds.passing (Passes.endStatement context) fun _ =>
      Finds.pure (List.subset_append_left _ _)
  refine Finds.look _ fun l => Finds.symbol _ (Finds.pure (List.subset_append_left _ _)) ?_
  refine Finds.function (fun isAsync => Finds.passing Passes.name fun x => ?_) ?_
  · exact (h.functionRest called (some x) isAsync).bind fun f => Finds.pure (List.Subset.refl _)
  refine Finds.passing (Passes.takes acceptDeclKind_takes (by decide)) fun declKind => ?_
  split
  · refine (h.declarators called _).bind fun list => ?_
    exact Finds.passing (Passes.endStatement _) fun _ => Finds.pure (List.Subset.refl _)
  refine Finds.word (by decide) ?_ ?_
  · refine Finds.look _ fun next => ?_
    have hvalue (isMissing : Bool) : Finds entry called (do
          if isMissing then return none else return some (← Syntax.expression left))
        (fun value => called ++ optionalCalls value) := by
      split
      · exact Finds.pure (List.subset_append_left _ _)
      · exact (h.expression called).bind fun e => Finds.pure (List.Subset.refl _)
    refine (hvalue _).bind fun value => ?_
    exact Finds.passing (Passes.endStatement _) fun _ => Finds.pure (List.Subset.refl _)
  refine Finds.word (by decide) ?_ ?_
  · refine Finds.passing (Passes.expectSymbol _ _) fun _ => ?_
    refine (h.expression called).bind fun condition => ?_
    refine Finds.passing (Passes.expectSymbol _ _) fun _ => (h.body _).bind fun whenTrue => ?_
    refine Finds.word (by decide) ?_ (Finds.pure (by simp))
    exact (h.body _).bind fun whenFalse => Finds.pure (by simp)
  refine Finds.word (by decide) ?_ ?_
  · refine Finds.passing (Passes.expectSymbol _ _) fun _ => ?_
    refine (h.expression called).bind fun condition => ?_
    refine Finds.passing (Passes.expectSymbol _ _) fun _ => (h.body _).bind fun body => ?_
    exact Finds.pure (by simp)
  refine Finds.word (by decide) ?_ ?_
  · refine (h.body called).bind fun body => Finds.passing (Passes.expect (by simp) _) fun _ => ?_
    refine Finds.passing (Passes.expectSymbol _ _) fun _ => ?_
    refine (h.expression _).bind fun condition => ?_
    refine Finds.passing (Passes.expectSymbol _ _) fun _ => ?_
    exact Finds.passing (Passes.symbol _) fun _ => Finds.pure (by simp)
  refine Finds.word (by decide) (h.forLoop called l) ?_
  refine Finds.word (by decide) (hnothing _ _) (Finds.word (by decide) (hnothing _ _) ?_)
  refine Finds.word (by decide) ?_ ?_
  · refine (h.expression called).bind fun value => ?_
    exact Finds.passing (Passes.endStatement _) fun _ => Finds.pure (List.Subset.refl _)
  refine Finds.symbol _ ?_ ?_
  · refine (h.statements called).bind fun list => ?_
    exact Finds.passing (Passes.expectSymbol _ _) fun _ => Finds.pure (List.Subset.refl _)
  · refine (h.expression called).bind fun e => ?_
    exact Finds.passing (Passes.endStatement _) fun _ => Finds.pure (List.Subset.refl _)

end ReadsCalls

/-- Whatever the bound, the parser finds the call. -/
theorem readsCalls (entry : String) (left : Nat) : ReadsCalls entry left := by
  induction left with
  | zero =>
      constructor
      case operand =>
        intro called input e rest _ hread
        change (if decide (input.peek.kind = .keyword .newKw) = true then construction 0
          else primary 0) input = .ok (e, rest) at hread
        split at hread <;> cases hread
      all_goals
        intros
        exact Finds.look _ fun l => Finds.failAt l _
  | succ left h =>
      exact {
        expression := h.expression_succ
        arrowFunction := h.arrowFunction_succ
        conditional := h.conditional_succ
        binary := h.binary_succ
        binaryRest := h.binaryRest_succ
        power := h.power_succ
        unary := h.unary_succ
        trailers := h.trailers_succ
        operand := h.operand_succ
        constructorPath := h.constructorPath_succ
        elements := h.elements_succ
        fields := h.fields_succ
        primary := h.primary_succ
        functionRest := h.functionRest_succ
        declarators := h.declarators_succ
        statements := h.statements_succ
        body := h.body_succ
        forLoop := h.forLoop_succ
        forRest := h.forRest_succ
        statement := h.statement_succ }

theorem programStatements_finds (depth left : Nat) (called : List String) :
    Finds entry called (programStatements depth left) (fun program => called ++ calls program) := by
  induction left generalizing called with
  | zero => exact Finds.look _ fun l => Finds.failAt l _
  | succ left ih =>
      unfold programStatements
      refine Finds.look _ fun isEnd => ?_
      split
      · exact Finds.pure (List.subset_append_left _ _)
      · refine ((readsCalls entry depth).statement called).bind fun first => ?_
        exact (ih _).bind fun others => Finds.pure (by simp)

/-- Whatever tokens stand before it, a call at the end of the text is in the tree. -/
theorem mem_calls_of_parseTokens {tokens : List Token} {program : Program} {front : List Kind}
    (hend : .endOfInput ∉ front)
    (htokens : tokens.map Token.kind = front ++ .keyword .awaitKw :: callKinds entry)
    (h : parseTokens tokens = .ok program) : entry ∈ calls program := by
  obtain ⟨depth, left, start, rest, hread⟩ := read_of_parseTokens h
  have hfinding : Input.Finding entry [] ⟨start, tokens⟩ := Or.inl ⟨front, hend, htokens⟩
  have hfound := programStatements_finds depth left [] _ program rest hfinding hread
  exact hfound.mem_of_end (atEnd_of_programStatements hread)

end StepTrace.Syntax
