import StepTrace.Text.Lines
import StepTrace.Text.WordChar
import StepTrace.Text.Blank

/-!
# The kinds of lines

A capture may stand at top level and in a function declared with `async`; every other
function cannot be suspended. One scan over the text classifies its lines: it follows
texts and comments, counts braces, and remembers which of them open the body of a function
that cannot be suspended.

* `LineKind` is the result for a line and `lineMap` computes it for all lines.
-/

namespace StepTrace.Capture

/-- What a line holds. -/
inductive LineKind where
  | blank
  | comment
  | nonSuspendingBody
  | executable
deriving DecidableEq, Repr

/-- The name of the kind. -/
def LineKind.name : LineKind → String
  | .blank => "blank"
  | .comment => "comment"
  | .nonSuspendingBody => "nonSuspendingBody"
  | .executable => "executable"

/-- What the scan is inside of. -/
inductive Inside where
  | code
  | word
  | text (quote : Char)
  | template
  | comment
  | lineComment
deriving DecidableEq

/-- The state of the scan. The depths are those of the braces that opened bodies which
cannot be suspended, the innermost first; `opened` has those that the current line opened.
A pending header is one whose body has not been opened yet. -/
structure Scan where
  inside : Inside := .code
  depth : Nat := 0
  plainBodies : List Nat := []
  headerPending : Bool := false
  asyncPending : Bool := false
  sawCode : Bool := false
  sawComment : Bool := false
  opened : List Nat := []

/-- A character that may start a word. -/
def isWordStart (c : Char) : Bool :=
  Text.isLetter c || c == '_' || c == '$'

/-- A character that may go on a word. -/
def isWordPart (c : Char) : Bool :=
  Text.isLetterOrNumeral c || c == '_' || c == '$'

/-- The effect of a word. -/
def Scan.word (s : Scan) (word : List Char) : Scan :=
  let s := { s with inside := .word }
  if word = "async".toList then { s with asyncPending := true }
  else if word = "function".toList then
    { s with headerPending := s.headerPending || ! s.asyncPending, asyncPending := false }
  else s

/-- The effect of an opening brace. -/
def Scan.openBrace (s : Scan) : Scan :=
  let depth := s.depth + 1
  if s.headerPending then
    { s with
      depth, headerPending := false, asyncPending := false
      plainBodies := depth :: s.plainBodies
      opened := depth :: s.opened }
  else { s with depth, asyncPending := false }

/-- The effect of a closing brace. -/
def Scan.closeBrace (s : Scan) : Scan :=
  { s with
    depth := s.depth - 1
    asyncPending := false
    plainBodies := if s.plainBodies.head? = some s.depth then s.plainBodies.tail
      else s.plainBodies }

/-- The effect of an arrow in front of the rest of the line. -/
def Scan.arrow (s : Scan) (rest : List Char) : Scan :=
  let opensBlock := (Text.trimStart rest).head? = some '{'
  { s with
    headerPending := s.headerPending || (opensBlock && ! s.asyncPending)
    asyncPending := false }

/-- The effect of a character of code in front of the rest of the line, and how many of
the following characters it takes with it. -/
def Scan.code (s : Scan) (c : Char) (rest : List Char) : Scan × Nat :=
  if c = '/' && rest.head? = some '/' then ({ s with inside := .lineComment, sawComment := true }, 0)
  else if c = '/' && rest.head? = some '*' then
    ({ s with inside := .comment, sawComment := true }, 1)
  else if Text.isBlank c then (s, 0)
  else
    let s := { s with sawCode := true }
    if c = '=' && rest.head? = some '>' then (s.arrow rest.tail, 1)
    else if isWordStart c then (s.word ((c :: rest).takeWhile isWordPart), 0)
    else match c with
      | '"' => ({ s with inside := .text c }, 0)
      | '\'' => ({ s with inside := .text c }, 0)
      | '\x60' => ({ s with inside := .template }, 0)
      | '{' => (s.openBrace, 0)
      | '}' => (s.closeBrace, 0)
      | ';' => ({ s with asyncPending := false }, 0)
      | _ => (s, 0)

/-- The effect of a character in front of the rest of the line, and how many of the
following characters it takes with it. -/
def Scan.char (s : Scan) (c : Char) (rest : List Char) : Scan × Nat :=
  match s.inside with
  | .lineComment => (s, 0)
  | .comment =>
    let s := { s with sawComment := true }
    if c = '*' && rest.head? = some '/' then ({ s with inside := .code }, 1) else (s, 0)
  | .template =>
    let s := { s with sawCode := true }
    if c = '\\' then (s, 1) else if c = '\x60' then ({ s with inside := .code }, 0) else (s, 0)
  | .text quote =>
    if c = '\\' then (s, 1) else if c = quote then ({ s with inside := .code }, 0) else (s, 0)
  | .word => if isWordPart c then (s, 0) else Scan.code { s with inside := .code } c rest
  | .code => s.code c rest

/-- The effect of the characters of a line, the first ones of which were already taken. -/
def Scan.chars (s : Scan) : Nat → List Char → Scan
  | _, [] => s
  | taken + 1, _ :: rest => s.chars taken rest
  | 0, c :: rest =>
    let (next, taken) := s.char c rest
    next.chars taken rest

/-- The state at the start of the next line: a comment between marks and a text between
grave accents go on, everything else ends with the line. -/
def Scan.nextLine (s : Scan) : Scan :=
  { s with
    inside := match s.inside with
      | .comment => .comment
      | .template => .template
      | _ => .code
    sawCode := false, sawComment := false, opened := [] }

/-- The kind of a line from the states before and behind it. -/
def kindOf (before behind : Scan) : LineKind :=
  if behind.sawCode then
    if ! before.plainBodies.isEmpty || behind.opened.any behind.plainBodies.contains then
      .nonSuspendingBody
    else .executable
  else if behind.sawComment then .comment
  else .blank

/-- The kinds of the lines, the scan standing before the first one. -/
def kindsFrom (s : Scan) : List (List Char) → List LineKind
  | [] => []
  | line :: others =>
    let behind := s.chars 0 line
    kindOf s behind :: kindsFrom behind.nextLine others

theorem length_kindsFrom (s : Scan) (lines : List (List Char)) :
    (kindsFrom s lines).length = lines.length := by
  induction lines generalizing s with
  | nil => rfl
  | cons line rest ih =>
    rw [kindsFrom]
    exact congrArg Nat.succ (ih _)

/-- The kinds of all lines of a program text. -/
def lineMap (source : String) : List LineKind :=
  kindsFrom {} (Text.lines source.toList)

/-- Whether the line with the number, counted from one, is executable. -/
def isExecutable (map : Array LineKind) (line : Nat) : Bool :=
  line != 0 && map[line - 1]? = some .executable

end StepTrace.Capture
