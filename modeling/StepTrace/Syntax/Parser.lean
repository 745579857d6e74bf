import StepTrace.Syntax.Reader
import StepTrace.Syntax.Lexer

/-!
# From tokens to trees

Trees are read by recursive descent. From the loosest to the tightest the levels are:
assignment, conditional, the operators of `levels`, power, operators before an operand,
operators behind it. Operators of one level group to the left, powers to the right.

Every function has a bound on the depth of its recursion. No step descends more than
`stepsPerToken` times without taking a token, so the bound that `parseTokens` starts from
is never reached.

* `parse` reads a program text.
-/

namespace StepTrace.Syntax

open Reader

/-! ## Looking ahead -/

/-- Whether the parenthesis that closes `depth` open ones is followed by an arrow. -/
def arrowAfterClosing : Nat → List Token → Bool
  | _, [] => false
  | depth, token :: rest =>
    match token.kind with
    | .symbol .leftParen => arrowAfterClosing (depth + 1) rest
    | .symbol .rightParen =>
      if depth ≤ 1 then rest.head?.any fun next => next.kind = .symbol .arrow
      else arrowAfterClosing (depth - 1) rest
    | .endOfInput => false
    | _ => arrowAfterClosing depth rest

/-- Whether an arrow function starts here. -/
def startsArrow (tokens : List Token) : Bool :=
  let start : List Token := match tokens with
    | [] => []
    | token :: rest => if token.kind = .keyword .asyncKw then rest else tokens
  match start with
  | [] => false
  | token :: rest =>
    match token.kind with
    | .name _ => rest.head?.any fun next => next.kind = .symbol .arrow
    | .symbol .leftParen => arrowAfterClosing 0 start
    | _ => false

/-- Whether a function with the word `function` starts here. -/
def startsFunction : List Token → Bool
  | token :: rest =>
    token.kind = .keyword .functionKw ||
      (token.kind = .keyword .asyncKw && rest.head?.any fun next => next.kind = .keyword .functionKw)
  | [] => false

/-! ## Names -/

/-- One or more names with commas between them; `left` bounds their number. -/
def nameList : Nat → Reader (List String)
  | 0 => do failAt (← here) .tooDeep
  | left + 1 => do
    let x ← name
    if ← acceptSymbol .comma then return x :: (← nameList left) else return [x]

/-- The names of parameters between parentheses. -/
def parameters : Reader (List String) := do
  if ← seesSymbol .rightParen then return []
  else nameList ((← upcoming).length + 1)

/-- The names of a list binder up to its closing bracket; a comma may end the list. -/
def binderNames : Nat → Reader (List String)
  | 0 => do failAt (← here) .tooDeep
  | left + 1 => do
    if ← seesSymbol .rightBracket then return []
    let x ← name
    if ← acceptSymbol .comma then return x :: (← binderNames left) else return [x]

/-- What a declaration binds. -/
def binder : Reader Binder := do
  if ← acceptSymbol .leftBracket then
    let names ← binderNames ((← upcoming).length + 1)
    expect (.symbol .rightBracket) "']' after destructuring pattern"
    return .list names
  else return .name (← name)

/-! ## Operators -/

/-- An operator of a level. -/
abbrev OperatorOf := Symbol × BinaryOp

/-- The levels of operators that group to the left, the loosest first. -/
def levels : List (List OperatorOf) :=
  [[(.questionQuestion, .logical .nullish)],
    [(.orOr, .logical .or)],
    [(.andAnd, .logical .and)],
    [(.pipe, .strict .bitOr)],
    [(.caret, .strict .bitXor)],
    [(.ampersand, .strict .bitAnd)],
    [(.strictEqual, .strict .strictEqual), (.strictNotEqual, .strict .strictNotEqual),
      (.equal, .strict .equal), (.notEqual, .strict .notEqual)],
    [(.less, .strict .less), (.lessEqual, .strict .lessEqual),
      (.greater, .strict .greater), (.greaterEqual, .strict .greaterEqual)],
    [(.shiftLeft, .strict .shiftLeft), (.shiftRight, .strict .shiftRight)],
    [(.plus, .strict .add), (.minus, .strict .sub)],
    [(.star, .strict .mul), (.slash, .strict .div), (.percent, .strict .mod)]]

/-- Takes an operator of the level if one is next. -/
def acceptOperator (level : List OperatorOf) : Reader (Option BinaryOp) :=
  fun input =>
    match input.peek.kind with
    | .symbol s =>
      match level.lookup s with
      | some op => .ok (some op, input.advance)
      | none => .ok (none, input)
    | _ => .ok (none, input)

/-- Takes the operator of a compound assignment if one is next. -/
def acceptCompound : Reader (Option StrictOp) :=
  fun input =>
    match input.peek.kind with
    | .symbol .plusAssign => .ok (some .add, input.advance)
    | .symbol .minusAssign => .ok (some .sub, input.advance)
    | .symbol .starAssign => .ok (some .mul, input.advance)
    | .symbol .slashAssign => .ok (some .div, input.advance)
    | .symbol .percentAssign => .ok (some .mod, input.advance)
    | _ => .ok (none, input)

/-- An operator before its operand. -/
inductive FrontOp where
  | pure (op : UnaryOp)
  | update (op : UpdateOp)

/-- Takes an operator before its operand if one is next. -/
def acceptFront : Reader (Option FrontOp) :=
  fun input =>
    match input.peek.kind with
    | .symbol .bang => .ok (some (.pure .not), input.advance)
    | .symbol .tilde => .ok (some (.pure .bitNot), input.advance)
    | .symbol .minus => .ok (some (.pure .negate), input.advance)
    | .symbol .plus => .ok (some (.pure .plus), input.advance)
    | .keyword .typeofKw => .ok (some (.pure .typeof), input.advance)
    | .symbol .plusPlus => .ok (some (.update .incrementBefore), input.advance)
    | .symbol .minusMinus => .ok (some (.update .decrementBefore), input.advance)
    | _ => .ok (none, input)

/-- Takes an operator behind its operand if one is next and stands on the same line as the
token before it. -/
def acceptBehind : Reader (Option UpdateOp) :=
  fun input =>
    if input.peek.loc.line = input.previous.line then
      match input.peek.kind with
      | .symbol .plusPlus => .ok (some .incrementAfter, input.advance)
      | .symbol .minusMinus => .ok (some .decrementAfter, input.advance)
      | _ => .ok (none, input)
    else .ok (none, input)

/-! ## Expressions and statements -/

/-- The literal or name that is a whole expression, if one is next. -/
def acceptAtom : Reader (Option Expr) :=
  fun input =>
    let l := input.peek.loc
    match input.peek.kind with
    | .number x => .ok (some (.number x l), input.advance)
    | .bigint digits => .ok (some (.bigint digits l), input.advance)
    | .string text => .ok (some (.string text l), input.advance)
    | .name x => .ok (some (.variable x l), input.advance)
    | .keyword .trueKw => .ok (some (.bool true l), input.advance)
    | .keyword .falseKw => .ok (some (.bool false l), input.advance)
    | .keyword .nullKw => .ok (some (.null l), input.advance)
    | _ => .ok (none, input)

/-- Takes the name of a field, which must be next. -/
def fieldName : Reader String :=
  fun input =>
    match input.peek.kind with
    | .name text => .ok (text, input.advance)
    | .string text => .ok (text, input.advance)
    | .number x => .ok (Number.scriptText x, input.advance)
    | found => .error ⟨.unexpectedInObject found, input.peek.loc⟩

mutual
/-- An expression. -/
def expression : Nat → Reader Expr
  | 0 => do failAt (← here) .tooDeep
  | left + 1 => do
    if startsArrow (← upcoming) then arrowFunction left
    else
      let e ← conditional left
      let l ← here
      if ← acceptSymbol .assign then
        match e.target? with
        | none => failAt l .invalidTarget
        | some target => return .assign target (← expression left) l
      else
        match ← acceptCompound with
        | none => return e
        | some op =>
          match e.place? with
          | none => failAt l .invalidTarget
          | some place => return .compound op place (← expression left) l

/-- A function with an arrow. -/
def arrowFunction : Nat → Reader Expr
  | 0 => do failAt (← here) .tooDeep
  | left + 1 => do
    let l ← here
    let isAsync ← acceptWord .asyncKw
    let params ← (do
      if ← acceptSymbol .leftParen then
        let params ← parameters
        expectSymbol .rightParen "after arrow parameters"
        return params
      else return [← name])
    expect (.symbol .arrow) "'=>' after arrow parameters"
    let opening ← here
    if ← acceptSymbol .leftBrace then
      let body ← statements left
      let closing ← here
      expectSymbol .rightBrace "after arrow body"
      return .function (.mk none params body isAsync true (some (opening, closing))) l
    else
      let value ← expression left
      return .function (.mk none params [.return (some value) opening] isAsync true none) l

/-- A conditional expression. -/
def conditional : Nat → Reader Expr
  | 0 => do failAt (← here) .tooDeep
  | left + 1 => do
    let condition ← binary left levels
    let l ← here
    if ← acceptSymbol .question then
      let whenTrue ← expression left
      expect (.symbol .colon) "':' in ternary expression"
      let whenFalse ← expression left
      return .conditional condition whenTrue whenFalse l
    else return condition

/-- An expression with operators of the first level and tighter ones. -/
def binary : Nat → List (List OperatorOf) → Reader Expr
  | 0, _ => do failAt (← here) .tooDeep
  | left + 1, [] => power left
  | left + 1, level :: tighter => do
    let first ← binary left tighter
    binaryRest left level tighter first

/-- More operators of the level, their operands grouped to the left. -/
def binaryRest : Nat → List OperatorOf → List (List OperatorOf) → Expr → Reader Expr
  | 0, _, _, _ => do failAt (← here) .tooDeep
  | left + 1, level, tighter, first => do
    let l ← here
    match ← acceptOperator level with
    | none => return first
    | some op =>
      let second ← binary left tighter
      binaryRest left level tighter (.binary op first second l)

/-- A power. -/
def power : Nat → Reader Expr
  | 0 => do failAt (← here) .tooDeep
  | left + 1 => do
    let base ← unary left
    let l ← here
    if ← acceptSymbol .starStar then
      let exponent ← power left
      return .binary (.strict .pow) base exponent l
    else return base

/-- An operand with the operators before it. -/
def unary : Nat → Reader Expr
  | 0 => do failAt (← here) .tooDeep
  | left + 1 => do
    let l ← here
    if ← acceptWord .awaitKw then return .await (← unary left) l
    else
      match ← acceptFront with
      | some (.pure op) => return .unary op (← unary left) l
      | some (.update op) =>
        let operand ← unary left
        match operand.place? with
        | none => failAt l .invalidTargetBefore
        | some place => return .update op place l
      | none =>
        let first ← (do
          if ← sees (.keyword .newKw) then construction left else primary left)
        trailers left first

/-- The operators behind an operand. -/
def trailers : Nat → Expr → Reader Expr
  | 0, _ => do failAt (← here) .tooDeep
  | left + 1, e => do
    let l ← here
    match ← acceptBehind with
    | some op =>
      match e.place? with
      | none => failAt l .invalidTargetAfter
      | some place => trailers left (.update op place l)
    | none =>
      if ← acceptSymbol .leftBracket then
        let key ← expression left
        expect (.symbol .rightBracket) "']' after index"
        trailers left (.index e key l)
      else if ← acceptSymbol .dot then
        let x ← name
        trailers left (.member e x l)
      else if ← acceptSymbol .leftParen then
        let args ← elements left .rightParen
        expectSymbol .rightParen "after function arguments"
        trailers left (.call e args l)
      else return e

/-- The construction of an object with `new`; the arguments may be missing. -/
def construction : Nat → Reader Expr
  | 0 => do failAt (← here) .tooDeep
  | left + 1 => do
    let l ← here
    skip
    let callee ← constructorPath left (← primary left)
    if ← acceptSymbol .leftParen then
      let args ← elements left .rightParen
      expectSymbol .rightParen "after constructor arguments"
      return .construct callee args l
    else return .construct callee [] l

/-- The members named behind the callee of `new`. -/
def constructorPath : Nat → Expr → Reader Expr
  | 0, _ => do failAt (← here) .tooDeep
  | left + 1, e => do
    let l ← here
    if ← acceptSymbol .dot then
      let x ← name
      constructorPath left (.member e x l)
    else return e

/-- Elements with commas between them up to the closing symbol, which is not taken; a comma
may end the list. -/
def elements : Nat → Symbol → Reader (List Element)
  | 0, _ => do failAt (← here) .tooDeep
  | left + 1, close => do
    if (← seesSymbol close) || (← atEnd) then return []
    let l ← here
    let element ← (do
      if ← acceptSymbol .ellipsis then return Element.spread (← expression left) l
      else return Element.item (← expression left))
    if ← acceptSymbol .comma then return element :: (← elements left close)
    else return [element]

/-- The fields of an object up to the closing brace, which is not taken. -/
def fields : Nat → Reader (List (String × Expr))
  | 0 => do failAt (← here) .tooDeep
  | left + 1 => do
    if (← seesSymbol .rightBrace) || (← atEnd) then return []
    let l ← here
    let key ← fieldName
    let value ← (do
      if ← acceptSymbol .colon then expression left else return Expr.variable key l)
    if ← acceptSymbol .comma then return (key, value) :: (← fields left)
    else return [(key, value)]

/-- An expression without operators around it. -/
def primary : Nat → Reader Expr
  | 0 => do failAt (← here) .tooDeep
  | left + 1 => do
    let l ← here
    match ← acceptAtom with
    | some e => return e
    | none =>
      if startsFunction (← upcoming) then
        let isAsync ← acceptWord .asyncKw
        skip
        let x ← acceptName
        return .function (← functionRest left x isAsync) l
      else if ← acceptSymbol .leftBracket then
        let items ← elements left .rightBracket
        expect (.symbol .rightBracket) "']' after array elements"
        return .array items l
      else if ← acceptSymbol .leftBrace then
        let items ← fields left
        expectSymbol .rightBrace "after object literal"
        return .object items l
      else if ← acceptSymbol .leftParen then
        let e ← expression left
        expectSymbol .rightParen "after expression"
        return e
      else failAt l (.unexpected (← peek).kind)

/-- The parameters and the body of a function. -/
def functionRest : Nat → Option String → Bool → Reader Function
  | 0, _, _ => do failAt (← here) .tooDeep
  | left + 1, x, isAsync => do
    expectSymbol .leftParen "before parameters"
    let params ← parameters
    expectSymbol .rightParen "after parameters"
    let opening ← here
    expectSymbol .leftBrace "before function body"
    let body ← statements left
    let closing ← here
    expectSymbol .rightBrace "after function body"
    return .mk x params body isAsync false (some (opening, closing))

/-- The bindings of a declaration. -/
def declarators : Nat → DeclKind → Reader (List Declarator)
  | 0, _ => do failAt (← here) .tooDeep
  | left + 1, kind => do
    let target ← binder
    let value ← (do
      if ← acceptSymbol .assign then return some (← expression left) else return none)
    let needsValue := match kind, target with
      | .constDecl, _ => true
      | _, .list _ => true
      | _, _ => false
    if value.isNone && needsValue then failAt (← here) .missingInitializer
    if ← acceptSymbol .comma then return .mk target value :: (← declarators left kind)
    else return [.mk target value]

/-- Statements up to a closing brace, which is not taken, or the end of input. -/
def statements : Nat → Reader (List Stmt)
  | 0 => do failAt (← here) .tooDeep
  | left + 1 => do
    if (← seesSymbol .rightBrace) || (← atEnd) then return []
    let first ← statement left
    return first :: (← statements left)

/-- The statements of a block, or one statement alone. -/
def body : Nat → Reader (List Stmt)
  | 0 => do failAt (← here) .tooDeep
  | left + 1 => do
    if ← acceptSymbol .leftBrace then
      let list ← statements left
      expectSymbol .rightBrace "after block"
      return list
    else return [← statement left]

/-- The loop behind the word `for`, which stood at the place. -/
def forLoop : Nat → Location → Reader Stmt
  | 0, _ => do failAt (← here) .tooDeep
  | left + 1, l => do
    expectSymbol .leftParen "after 'for'"
    let startLoc ← here
    match ← acceptDeclKind with
    | some kind =>
      let saved ← get
      let target ← binder
      if ← accept (.name "of") then
        let iterable ← expression left
        expectSymbol .rightParen "after for-of iterable"
        return .forOf kind target iterable (← body left) l
      else
        set saved
        let list ← declarators left kind
        forRest left l (some (.declare kind list startLoc))
    | none =>
      if ← seesSymbol .semicolon then forRest left l none
      else forRest left l (some (.expr (← expression left) startLoc))

/-- The clauses of a `for` loop behind the first one, and its body. -/
def forRest : Nat → Location → Option ForStart → Reader Stmt
  | 0, _, _ => do failAt (← here) .tooDeep
  | left + 1, l, start => do
    expect (.symbol .semicolon) "';' after for initializer"
    let condition ← (do
      if ← seesSymbol .semicolon then return none else return some (← expression left))
    expect (.symbol .semicolon) "';' after for condition"
    let step ← (do
      if ← seesSymbol .rightParen then return none else return some (← expression left))
    expectSymbol .rightParen "after for clauses"
    return .for start condition step (← body left) l

/-- A statement. -/
def statement : Nat → Reader Stmt
  | 0 => do failAt (← here) .tooDeep
  | left + 1 => do
    let l ← here
    if ← acceptSymbol .semicolon then return .block [] l
    else if startsFunction (← upcoming) then
      let isAsync ← acceptWord .asyncKw
      skip
      let x ← name
      return .function (← functionRest left (some x) isAsync) l
    else
      match ← acceptDeclKind with
      | some kind =>
        let list ← declarators left kind
        endStatement "after declaration"
        return .declare kind list l
      | none =>
        if ← acceptWord .returnKw then
          let next ← peek
          let value ← (do
            if next.kind = .symbol .semicolon || next.kind = .symbol .rightBrace ||
                next.kind = .endOfInput || next.loc.line > l.line then return none
            else return some (← expression left))
          endStatement "after return"
          return .return value l
        else if ← acceptWord .ifKw then
          expectSymbol .leftParen "after 'if'"
          let condition ← expression left
          expectSymbol .rightParen "after if condition"
          let whenTrue ← body left
          if ← acceptWord .elseKw then
            return .branch condition whenTrue (some (← body left)) l
          else return .branch condition whenTrue none l
        else if ← acceptWord .whileKw then
          expectSymbol .leftParen "after 'while'"
          let condition ← expression left
          expectSymbol .rightParen "after while condition"
          return .while condition (← body left) l
        else if ← acceptWord .doKw then
          let list ← body left
          expect (.keyword .whileKw) "'while' after do body"
          expectSymbol .leftParen "after 'while'"
          let condition ← expression left
          expectSymbol .rightParen "after do-while condition"
          let _ ← acceptSymbol .semicolon
          return .doWhile list condition l
        else if ← acceptWord .forKw then forLoop left l
        else if ← acceptWord .breakKw then
          endStatement "after 'break'"
          return .break l
        else if ← acceptWord .continueKw then
          endStatement "after 'continue'"
          return .continue l
        else if ← acceptWord .throwKw then
          let value ← expression left
          endStatement "after 'throw'"
          return .throw value l
        else if ← acceptSymbol .leftBrace then
          let list ← statements left
          expectSymbol .rightBrace "after block"
          return .block list l
        else
          let e ← expression left
          endStatement "after expression"
          return .expr e l
end

/-- The statements up to the end of input. -/
def programStatements (depth : Nat) : Nat → Reader Program
  | 0 => do failAt (← here) .tooDeep
  | left + 1 => do
    if ← atEnd then return []
    let first ← statement depth
    return first :: (← programStatements depth left)

/-- How many steps of the descent may follow one another without taking a token. -/
def stepsPerToken : Nat := 32

/-- The program with the tokens, which end with the end of input. -/
def parseTokens (tokens : List Token) : Except SyntaxError Program :=
  let depth := stepsPerToken * (tokens.length + 1)
  let start := (tokens.head?.map (·.loc)).getD ⟨1, 1⟩
  (programStatements depth (tokens.length + 1) ⟨start, tokens⟩).map (·.1)

/-- The program that the text stands for. -/
def parse (source : String) : Except SyntaxError Program := do
  parseTokens (← tokenize source)

end StepTrace.Syntax
