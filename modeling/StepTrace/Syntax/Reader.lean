import StepTrace.Syntax.Tree

/-!
# Reading tokens

A reader takes tokens from the front of a list that ends with the end of input, and may
fail with a fault at a place. The end of input is never taken, so there is always a token
to look at.

* `Input.peek`: the token to be read next.
* `accept`, `expect`: take a token if it is there; fail if it is not.
-/

namespace StepTrace.Syntax

/-- The tokens still to be read and the place of the last one taken. -/
structure Input where
  previous : Location
  tokens : List Token

/-- The token to be read next. -/
def Input.peek (input : Input) : Token :=
  input.tokens.head?.getD ⟨.endOfInput, input.previous⟩

/-- The input behind the next token; the end of input stays. -/
def Input.advance (input : Input) : Input :=
  match input.tokens with
  | [] => input
  | token :: rest => if token.kind = .endOfInput then input else ⟨token.loc, rest⟩

/-- A computation that reads tokens. -/
abbrev Reader := StateT Input (Except SyntaxError)

namespace Reader

/-- Fails with the fault at the place. -/
def failAt {α : Type} (loc : Location) (fault : Fault) : Reader α :=
  fun _ => .error ⟨fault, loc⟩

/-- The token to be read next. -/
def peek : Reader Token :=
  fun input => .ok (input.peek, input)

/-- The place of the token to be read next. -/
def here : Reader Location :=
  fun input => .ok (input.peek.loc, input)

/-- The place of the token taken last. -/
def before : Reader Location :=
  fun input => .ok (input.previous, input)

/-- The tokens to be read. -/
def upcoming : Reader (List Token) :=
  fun input => .ok (input.tokens, input)

/-- Takes the next token. -/
def skip : Reader Unit :=
  fun input => .ok ((), input.advance)

/-- Whether the next token is of the kind. -/
def sees (kind : Kind) : Reader Bool :=
  fun input => .ok (input.peek.kind = kind, input)

/-- Whether the next token is the symbol. -/
def seesSymbol (s : Symbol) : Reader Bool :=
  sees (.symbol s)

/-- Whether everything has been read. -/
def atEnd : Reader Bool :=
  sees .endOfInput

/-- Takes the next token if it is of the kind. -/
def accept (kind : Kind) : Reader Bool :=
  fun input =>
    if input.peek.kind = kind then .ok (true, input.advance) else .ok (false, input)

/-- Takes the symbol if it is next. -/
def acceptSymbol (s : Symbol) : Reader Bool :=
  accept (.symbol s)

/-- Takes the keyword if it is next. -/
def acceptWord (k : Keyword) : Reader Bool :=
  accept (.keyword k)

/-- Fails because something else was expected. -/
def failExpecting {α : Type} (what : String) : Reader α :=
  fun input => .error ⟨.expected what input.peek.kind, input.peek.loc⟩

/-- Takes the token, which must be next; otherwise `what` was expected. -/
def expect (kind : Kind) (what : String) : Reader Unit :=
  fun input =>
    if input.peek.kind = kind then .ok ((), input.advance)
    else .error ⟨.expected what input.peek.kind, input.peek.loc⟩

/-- Takes the symbol, which must be next; `context` says where it was expected. -/
def expectSymbol (s : Symbol) (context : String) : Reader Unit :=
  expect (.symbol s) ("'" ++ s.text ++ "' " ++ context)

/-- Takes the end of a statement. The semicolon may be missing before a closing brace, at
the end of input, and where the next token stands on a new line. -/
def endStatement (context : String) : Reader Unit :=
  fun input =>
    if input.peek.kind = .symbol .semicolon then .ok ((), input.advance)
    else if input.peek.loc.line > input.previous.line || input.peek.kind = .endOfInput ||
        input.peek.kind = .symbol .rightBrace then .ok ((), input)
    else .error ⟨.expected ("';' " ++ context) input.peek.kind, input.peek.loc⟩

/-- Takes a name, which must be next. -/
def name : Reader String :=
  fun input =>
    match input.peek.kind with
    | .name text => .ok (text, input.advance)
    | found => .error ⟨.expected "identifier" found, input.peek.loc⟩

/-- Takes a name if it is next. -/
def acceptName : Reader (Option String) :=
  fun input =>
    match input.peek.kind with
    | .name text => .ok (some text, input.advance)
    | _ => .ok (none, input)

/-- Takes the word of a declaration if it is next. -/
def acceptDeclKind : Reader (Option DeclKind) :=
  fun input =>
    match input.peek.kind with
    | .keyword .letKw => .ok (some .letDecl, input.advance)
    | .keyword .constKw => .ok (some .constDecl, input.advance)
    | .keyword .varKw => .ok (some .varDecl, input.advance)
    | _ => .ok (none, input)

end Reader

end StepTrace.Syntax
