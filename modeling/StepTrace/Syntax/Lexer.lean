import StepTrace.Syntax.Token
import StepTrace.Number.Reading

/-!
# From text to tokens

Tokens are taken from the text one after the other; blanks and comments between them are
skipped. A lexeme is the longest piece of text at the front that forms a token.

* `tokenize` gives all tokens of a text; the last one is the end of input.
* `skipGap_suffix`: skipping leaves an end part of the text.
-/

namespace StepTrace.Syntax

/-! ## Gaps -/

/-- Where the skipping of a gap stands: between comments, in a comment that ends with the
line, or in one that ends with its closing mark and started at the place. -/
inductive GapMode where
  | open
  | line
  | block (start : Location)

/-- Skips blanks and comments: the place behind them and the text that follows. -/
def skipGap : GapMode → Location → List Char → Except SyntaxError (Location × List Char)
  | .open, l, '/' :: '/' :: rest => skipGap .line ((l.next '/').next '/') rest
  | .open, l, '/' :: '*' :: rest => skipGap (.block l) ((l.next '/').next '*') rest
  | .open, l, c :: rest =>
    if Text.isBlank c then skipGap .open (l.next c) rest else .ok (l, c :: rest)
  | .line, l, c :: rest =>
    if c = '\n' then skipGap .open (l.next c) rest else skipGap .line (l.next c) rest
  | .block _, l, '*' :: '/' :: rest => skipGap .open ((l.next '*').next '/') rest
  | .block start, l, c :: rest => skipGap (.block start) (l.next c) rest
  | .open, l, [] => .ok (l, [])
  | .line, l, [] => .ok (l, [])
  | .block start, _, [] => .error ⟨.unterminatedComment, start⟩

/-! ## Lexemes -/

/-- A token at the front of a text: what it is, its characters, and the text behind it. -/
structure Lexeme where
  kind : Kind
  text : List Char
  rest : List Char

/-- The character that an escaped character stands for. -/
def unescape (c : Char) : Char :=
  match c with
  | 'n' => '\n'
  | 't' => '\t'
  | 'r' => '\r'
  | '0' => Char.ofNat 0
  | other => other

/-- The text of a string literal behind its opening quote: its value and its characters,
the latest first, and what follows the closing quote. -/
def stringBody (quote : Char) :
    List Char → List Char → List Char → Option (List Char × List Char × List Char)
  | value, taken, '\\' :: c :: rest =>
    stringBody quote (unescape c :: value) (c :: '\\' :: taken) rest
  | value, taken, c :: rest =>
    if c = quote then some (value.reverse, (c :: taken).reverse, rest)
    else if c = '\n' || c = '\\' then none
    else stringBody quote (c :: value) (c :: taken) rest
  | _, _, [] => none

/-- A digit of a hexadecimal literal or an underscore. -/
def isHexMark (c : Char) : Bool :=
  c.isDigit || ('a' ≤ c && c ≤ 'f') || ('A' ≤ c && c ≤ 'F') || c == '_'

/-- The text without underscores. -/
def dropUnderscores (text : List Char) : List Char :=
  text.filter (· ≠ '_')

/-- A hexadecimal literal behind its `0x`. -/
def hexLexeme (mark : List Char) (rest : List Char) : Except Fault Lexeme :=
  let digits := rest.takeWhile isHexMark
  let plain := dropUnderscores digits
  match Number.readCount? 16 plain with
  | some n => .ok ⟨.number (Number.ofNat n), mark ++ digits, rest.dropWhile isHexMark⟩
  | none => .error (.invalidHexadecimal (String.ofList plain))

/-- The point and the digits behind it, unless a second point follows. -/
def fractionPart (rest : List Char) : List Char × List Char :=
  match rest with
  | '.' :: '.' :: _ => ([], rest)
  | '.' :: more =>
    let (digits, after) := Number.splitDigits more
    ('.' :: digits, after)
  | _ => ([], rest)

/-- The exponent with its mark and sign, if it has a digit. -/
def exponentPart (rest : List Char) : List Char × List Char :=
  let marked (front more : List Char) : List Char × List Char :=
    let (digits, after) := Number.splitDigits more
    if digits.isEmpty then ([], rest) else (front ++ digits, after)
  match rest with
  | c :: more =>
    if c = 'e' || c = 'E' then
      match more with
      | '+' :: behind => marked [c, '+'] behind
      | '-' :: behind => marked [c, '-'] behind
      | _ => marked [c] more
    else ([], rest)
  | [] => ([], rest)

/-- The number literal that starts with the given character, a digit or a point. -/
def numberLexeme (first : Char) (rest : List Char) : Except Fault Lexeme :=
  match first, rest with
  | '0', 'x' :: hex => hexLexeme ['0', 'x'] hex
  | '0', 'X' :: hex => hexLexeme ['0', 'X'] hex
  | _, _ =>
    let isMark (c : Char) : Bool := c.isDigit || c == '_'
    let whole := first :: rest.takeWhile isMark
    let behind := rest.dropWhile isMark
    match behind with
    | 'n' :: after =>
      if first = '.' then finish whole [] behind
      else .ok ⟨.bigint (String.ofList (dropUnderscores whole)), whole ++ ['n'], after⟩
    | _ =>
      let (fraction, after) := if first = '.' then ([], behind) else fractionPart behind
      finish whole fraction after
where
  /-- Reads the exponent and converts the numeral. -/
  finish (whole fraction rest : List Char) : Except Fault Lexeme :=
    let (exponent, after) := exponentPart rest
    let text := whole ++ fraction ++ exponent
    match Number.readDecimal? (dropUnderscores text) with
    | some x => .ok ⟨.number x, text, after⟩
    | none => .error (.invalidNumber (String.ofList text))

/-- A character that may start a name. -/
def isNameStart (c : Char) : Bool :=
  c.isAlpha || c == '_' || c == '$'

/-- A character that may go on a name. -/
def isNamePart (c : Char) : Bool :=
  c.isAlphanum || c == '_' || c == '$'

/-- The name or keyword at the front. -/
def wordLexeme (text : List Char) : Lexeme :=
  let word := text.takeWhile isNamePart
  let written := String.ofList word
  ⟨match Keyword.ofText? written with
    | some k => .keyword k
    | none => .name written, word, text.dropWhile isNamePart⟩

/-- The longest symbol at the front. -/
def symbolLexeme? (text : List Char) : Option Lexeme :=
  (Symbol.longestFirst.find? fun s => s.text.toList.isPrefixOf text).map fun s =>
    ⟨.symbol s, s.text.toList, text.drop s.text.toList.length⟩

/-- The lexeme at the front of a text that starts with the given character. -/
def lexeme (c : Char) (rest : List Char) : Except Fault Lexeme :=
  if c = '"' || c = '\'' then
    match stringBody c [] [c] rest with
    | some (value, text, after) => .ok ⟨.string (String.ofList value), text, after⟩
    | none => .error .unterminatedString
  else if c.isDigit || (c = '.' && rest.head?.any Char.isDigit) then numberLexeme c rest
  else if isNameStart c then .ok (wordLexeme (c :: rest))
  else match symbolLexeme? (c :: rest) with
    | some found => .ok found
    | none => .error (.invalidCharacter c)

/-! ## Tokens -/

/-- The tokens of the text that starts at the place. Every token takes at least one
character, so the length of the text bounds their number. -/
def tokensFrom : Nat → Location → List Char → Except SyntaxError (List Token)
  | 0, l, _ => .ok [⟨.endOfInput, l⟩]
  | left + 1, l, text => do
    let (l, text) ← skipGap .open l text
    match text with
    | [] => .ok [⟨.endOfInput, l⟩]
    | c :: rest =>
      match lexeme c rest with
      | .error fault => .error ⟨fault, l⟩
      | .ok found =>
        let others ← tokensFrom left (l.after found.text) found.rest
        .ok (⟨found.kind, l⟩ :: others)

/-- The tokens of a text. -/
def tokenize (source : String) : Except SyntaxError (List Token) :=
  let text := source.toList
  tokensFrom (text.length + 1) ⟨1, 1⟩ text

/-! ## Nothing is lost -/

theorem skipGap_suffix {mode : GapMode} {l l' : Location} {text rest : List Char}
    (h : skipGap mode l text = .ok (l', rest)) : rest <:+ text := by
  fun_induction skipGap mode l text with
  | case1 l rest' ih => exact (ih h).trans ⟨['/', '/'], rfl⟩
  | case2 l rest' ih => exact (ih h).trans ⟨['/', '*'], rfl⟩
  | case3 l c rest' _ _ _ ih => exact (ih h).trans (List.suffix_cons _ _)
  | case4 l c rest' _ _ _ =>
    simp only [Except.ok.injEq, Prod.mk.injEq] at h
    simp [← h.2]
  | case5 l rest' ih => exact (ih h).trans (List.suffix_cons _ _)
  | case6 l c rest' _ ih => exact (ih h).trans (List.suffix_cons _ _)
  | case7 start l rest' ih => exact (ih h).trans ⟨['*', '/'], rfl⟩
  | case8 start l c rest' _ ih => exact (ih h).trans (List.suffix_cons _ _)
  | case9 l => simp_all
  | case10 l => simp_all
  | case11 start l => simp at h

end StepTrace.Syntax
