import StepTrace.Number.Text

/-!
# Tokens of the host language

A token is a literal, a name, a keyword, a symbol or the end of the text, together with
the place where it starts. Faults are what can be wrong with the form of a program; each
has one wording.

* `Symbol.longestFirst`: no symbol in the list is a proper start of a later one's rival,
  so the first that fits is the longest that fits.
-/

namespace StepTrace.Syntax

/-- A place in a text: line and column, both counted from one. -/
structure Location where
  line : Nat
  column : Nat
deriving DecidableEq, Repr, Inhabited

/-- The place behind a character that stands here. -/
def Location.next (l : Location) (c : Char) : Location :=
  if c = '\n' then ⟨l.line + 1, 1⟩ else ⟨l.line, l.column + 1⟩

/-- The place behind a piece of text that starts here. -/
def Location.after (l : Location) (text : List Char) : Location :=
  text.foldl Location.next l

theorem Location.after_append (l : Location) (first second : List Char) :
    l.after (first ++ second) = (l.after first).after second := by
  simp [Location.after]

/-- The words of the language that are no names. -/
inductive Keyword where
  | letKw | constKw | varKw | functionKw | asyncKw | awaitKw | returnKw | ifKw | elseKw
  | whileKw | doKw | forKw | breakKw | continueKw | throwKw | newKw | typeofKw | trueKw
  | falseKw | nullKw
deriving DecidableEq, Repr

/-- How the keyword is written. -/
def Keyword.text : Keyword → String
  | .letKw => "let"
  | .constKw => "const"
  | .varKw => "var"
  | .functionKw => "function"
  | .asyncKw => "async"
  | .awaitKw => "await"
  | .returnKw => "return"
  | .ifKw => "if"
  | .elseKw => "else"
  | .whileKw => "while"
  | .doKw => "do"
  | .forKw => "for"
  | .breakKw => "break"
  | .continueKw => "continue"
  | .throwKw => "throw"
  | .newKw => "new"
  | .typeofKw => "typeof"
  | .trueKw => "true"
  | .falseKw => "false"
  | .nullKw => "null"

/-- All keywords. -/
def Keyword.all : List Keyword :=
  [.letKw, .constKw, .varKw, .functionKw, .asyncKw, .awaitKw, .returnKw, .ifKw, .elseKw,
    .whileKw, .doKw, .forKw, .breakKw, .continueKw, .throwKw, .newKw, .typeofKw, .trueKw,
    .falseKw, .nullKw]

/-- The keyword written so. -/
def Keyword.ofText? (text : String) : Option Keyword :=
  Keyword.all.find? (·.text == text)

theorem Keyword.ofText?_text (k : Keyword) : Keyword.ofText? k.text = some k := by
  cases k <;> decide

/-- The operators and punctuation marks. -/
inductive Symbol where
  | strictEqual | strictNotEqual | ellipsis
  | plusPlus | minusMinus | starStar | equal | notEqual | lessEqual | greaterEqual
  | andAnd | orOr | questionQuestion | shiftLeft | shiftRight
  | plusAssign | minusAssign | starAssign | slashAssign | percentAssign | arrow
  | plus | minus | star | slash | percent | less | greater | bang | ampersand | pipe
  | caret | tilde | assign | dot | question | colon | leftParen | rightParen
  | leftBrace | rightBrace | leftBracket | rightBracket | semicolon | comma
deriving DecidableEq, Repr

/-- How the symbol is written. -/
def Symbol.text : Symbol → String
  | .strictEqual => "==="
  | .strictNotEqual => "!=="
  | .ellipsis => "..."
  | .plusPlus => "++"
  | .minusMinus => "--"
  | .starStar => "**"
  | .equal => "=="
  | .notEqual => "!="
  | .lessEqual => "<="
  | .greaterEqual => ">="
  | .andAnd => "&&"
  | .orOr => "||"
  | .questionQuestion => "??"
  | .shiftLeft => "<<"
  | .shiftRight => ">>"
  | .plusAssign => "+="
  | .minusAssign => "-="
  | .starAssign => "*="
  | .slashAssign => "/="
  | .percentAssign => "%="
  | .arrow => "=>"
  | .plus => "+"
  | .minus => "-"
  | .star => "*"
  | .slash => "/"
  | .percent => "%"
  | .less => "<"
  | .greater => ">"
  | .bang => "!"
  | .ampersand => "&"
  | .pipe => "|"
  | .caret => "^"
  | .tilde => "~"
  | .assign => "="
  | .dot => "."
  | .question => "?"
  | .colon => ":"
  | .leftParen => "("
  | .rightParen => ")"
  | .leftBrace => "\x7b"
  | .rightBrace => "\x7d"
  | .leftBracket => "["
  | .rightBracket => "]"
  | .semicolon => ";"
  | .comma => ","

/-- The symbols, longer ones first. -/
def Symbol.longestFirst : List Symbol :=
  [.strictEqual, .strictNotEqual, .ellipsis,
    .plusPlus, .minusMinus, .starStar, .equal, .notEqual, .lessEqual, .greaterEqual,
    .andAnd, .orOr, .questionQuestion, .shiftLeft, .shiftRight,
    .plusAssign, .minusAssign, .starAssign, .slashAssign, .percentAssign, .arrow,
    .plus, .minus, .star, .slash, .percent, .less, .greater, .bang, .ampersand, .pipe,
    .caret, .tilde, .assign, .dot, .question, .colon, .leftParen, .rightParen,
    .leftBrace, .rightBrace, .leftBracket, .rightBracket, .semicolon, .comma]

/-- What a token is. -/
inductive Kind where
  | number (value : Float)
  | bigint (digits : String)
  | string (text : String)
  | name (text : String)
  | keyword (word : Keyword)
  | symbol (mark : Symbol)
  | endOfInput
deriving DecidableEq

/-- How the token is spoken of in messages. -/
def Kind.display : Kind → String
  | .number x => "number " ++ Number.plainText x
  | .bigint digits => "bigint " ++ digits ++ "n"
  | .string text => "string \"" ++ text ++ "\""
  | .name text => "identifier '" ++ text ++ "'"
  | .keyword word => "'" ++ word.text ++ "'"
  | .symbol mark => "'" ++ mark.text ++ "'"
  | .endOfInput => "end of input"

/-- A token and the place where it starts. -/
structure Token where
  kind : Kind
  loc : Location
deriving DecidableEq

/-! ## Faults -/

/-- What is wrong with the form of a program. -/
inductive Fault where
  | unterminatedString
  | unterminatedComment
  | invalidCharacter (c : Char)
  | invalidHexadecimal (digits : String)
  | invalidNumber (text : String)
  | expected (what : String) (found : Kind)
  | unexpected (found : Kind)
  | unexpectedInObject (found : Kind)
  | invalidTarget
  | invalidTargetBefore
  | invalidTargetAfter
  | missingInitializer
  | tooDeep
deriving DecidableEq

/-- What is said about the fault. -/
def Fault.message : Fault → String
  | .unterminatedString => "Unterminated string literal"
  | .unterminatedComment => "Unterminated block comment"
  | .invalidCharacter c => "Invalid or unexpected token '" ++ c.toString ++ "'"
  | .invalidHexadecimal digits => "Invalid hexadecimal literal 0x" ++ digits
  | .invalidNumber text => "Invalid number literal " ++ text
  | .expected what found => "Expected " ++ what ++ ", found " ++ found.display
  | .unexpected found => "Unexpected " ++ found.display
  | .unexpectedInObject found => "Unexpected " ++ found.display ++ " in object literal"
  | .invalidTarget => "Invalid left-hand side in assignment"
  | .invalidTargetBefore => "Invalid left-hand side expression in prefix operation"
  | .invalidTargetAfter => "Invalid left-hand side expression in postfix operation"
  | .missingInitializer => "Missing initializer in declaration"
  | .tooDeep => "Nesting too deep"

/-- A fault and the place where it was noticed. -/
structure SyntaxError where
  fault : Fault
  loc : Location
deriving DecidableEq

/-- The fault with its place. -/
def SyntaxError.message (e : SyntaxError) : String :=
  s!"line {e.loc.line}, column {e.loc.column}: {e.fault.message}"

end StepTrace.Syntax
