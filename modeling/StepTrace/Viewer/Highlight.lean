import StepTrace.Text.WordChar
import StepTrace.Viewer.Picture

/-!
# Highlighting a line

A line of a program is cut into pieces by looking at one character after the other, so any
text can be shown, also one that is no program. A comment takes the rest of the line; a
quoted text goes up to its closing quote or to the end of the line.

* `flatten_pieces`: the pieces are the line.
-/

namespace StepTrace.Viewer

/-- What a piece of a line is. -/
inductive PieceKind where
  | word
  | call
  | quoted
  | comment
  | bracket
  | mark
deriving DecidableEq, Repr

/-- A piece of a line. -/
structure Piece where
  kind : PieceKind
  text : List Char
deriving DecidableEq, Repr

/-- Whether the character belongs to a word. -/
def isWordPart (c : Char) : Bool :=
  Text.isLetterOrNumeral c || c == '_' || c == '$'

/-- Whether the character opens a quoted text. -/
def isQuote (c : Char) : Bool :=
  c == '"' || c == '\'' || c == '\x60'

/-- Whether the character is a bracket. -/
def isBracket (c : Char) : Bool :=
  ['\x7b', '\x7d', '(', ')', '[', ']'].contains c

/-- The text up to and with the closing quote, and the rest. A character behind a backslash
does not close. -/
def splitQuoted (quote : Char) : List Char → List Char × List Char
  | [] => ([], [])
  | c :: rest =>
    if c = quote then ([c], rest)
    else if c = '\\' then
      match rest with
      | [] => ([c], [])
      | d :: rest =>
        let (inside, after) := splitQuoted quote rest
        (c :: d :: inside, after)
    else
      let (inside, after) := splitQuoted quote rest
      (c :: inside, after)

theorem splitQuoted_append (quote : Char) (text : List Char) :
    (splitQuoted quote text).1 ++ (splitQuoted quote text).2 = text := by
  fun_induction splitQuoted quote text <;> simp_all

theorem length_splitQuoted (quote : Char) (text : List Char) :
    (splitQuoted quote text).2.length ≤ text.length := by
  have h := congrArg List.length (splitQuoted_append quote text)
  simp only [List.length_append] at h
  omega

/-- The word read so far as a piece, if there is one. -/
def wordPiece (word : List Char) (called : Bool) : List Piece :=
  if word.isEmpty then [] else [⟨if called then .call else .word, word⟩]

/-- The pieces of a line of which `word` has been read. -/
def piecesAfter (word : List Char) : List Char → List Piece
  | [] => wordPiece word false
  | c :: rest =>
    if c = '/' ∧ rest.head? = some '/' then wordPiece word false ++ [⟨.comment, c :: rest⟩]
    else if isQuote c then
      have := length_splitQuoted c rest
      wordPiece word false ++ ⟨.quoted, c :: (splitQuoted c rest).1⟩ ::
        piecesAfter [] (splitQuoted c rest).2
    else if isWordPart c then piecesAfter (word ++ [c]) rest
    else
      wordPiece word (c = '(') ++ ⟨if isBracket c then .bracket else .mark, [c]⟩ ::
        piecesAfter [] rest
termination_by text => text.length

/-- The pieces of a line. -/
def pieces (line : List Char) : List Piece :=
  piecesAfter [] line

theorem flatten_wordPiece (word : List Char) (called : Bool) :
    ((wordPiece word called).map Piece.text).flatten = word := by
  unfold wordPiece
  split <;> simp_all

theorem flatten_piecesAfter (word text : List Char) :
    ((piecesAfter word text).map Piece.text).flatten = word ++ text := by
  fun_induction piecesAfter word text with
  | case1 word => simp [flatten_wordPiece]
  | case2 word c rest h => simp [flatten_wordPiece]
  | case3 word c rest _ _ _ ih => simp [flatten_wordPiece, ih, splitQuoted_append]
  | case4 word c rest _ _ _ ih => simp [ih]
  | case5 word c rest _ _ _ ih => simp [flatten_wordPiece, ih]

theorem flatten_pieces (line : List Char) :
    ((pieces line).map Piece.text).flatten = line :=
  flatten_piecesAfter [] line

/-- The words of the language. -/
def keywords : List String :=
  ["let", "const", "var", "function", "async", "await", "return", "if", "else", "while", "do",
    "for", "of", "break", "continue", "throw", "new", "typeof"]

/-- The words that are values. -/
def literalWords : List String :=
  ["true", "false", "null", "undefined"]

/-- The style of a word. -/
def wordStyle (word : List Char) (called : Bool) : Style :=
  let text := String.ofList word
  if keywords.contains text then (Style.ofColor Palette.primary).strong
  else if literalWords.contains text then .ofColor Palette.literal
  else if word.head?.any Char.isDigit then .ofColor Palette.number
  else if called then .ofColor Palette.function
  else .ofColor Palette.text

/-- The style of a piece. -/
def Piece.style (piece : Piece) : Style :=
  match piece.kind with
  | .word => wordStyle piece.text false
  | .call => wordStyle piece.text true
  | .quoted => .ofColor Palette.string
  | .comment => .ofColor Palette.comment
  | .bracket => .ofColor Palette.primary
  | .mark => .ofColor Palette.text

/-- The spans of a line. -/
def highlight (line : List Char) : List Span :=
  (pieces line).map fun piece => ⟨String.ofList piece.text, piece.style⟩

end StepTrace.Viewer
