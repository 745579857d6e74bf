import StepTrace.Pattern.Search
import StepTrace.Text.Lines
import StepTrace.Json

/-!
# The structure of a program text

One scan over the lines of a program estimates how deeply its loops are nested, guesses
the order of growth from that, and lists the functions it declares. Only the shapes of
lines count: a line that starts with a loop word opens a level, and a line with a closing
brace and no opening one ends a level.

* `Report` is the result and `analyze` computes it.
* `Scan.line` is the effect of one line.
-/

namespace StepTrace.Structure

open Pattern

/-- How the running time grows with the input. -/
inductive Growth where
  | constant
  | logarithmic
  | linear
  | quadratic
  | cubic
deriving DecidableEq, Repr

/-- The growth that a nesting of loops suggests. -/
def Growth.ofNesting : Nat → Growth
  | 0 => .constant
  | 1 => .linear
  | 2 => .quadratic
  | _ => .cubic

/-- The growth in the notation of its class. -/
def Growth.display : Growth → String
  | .constant => "O(1)"
  | .logarithmic => "O(log n)"
  | .linear => "O(n)"
  | .quadratic => "O(n²)"
  | .cubic => "O(n³)"

/-- A declared function and the line of its first declaration. -/
structure Declared where
  name : String
  line : Nat
deriving DecidableEq, Repr

/-- What is said about a program. -/
structure Report where
  growth : Growth
  maxNesting : Nat
  functions : List Declared
deriving DecidableEq, Repr

/-! ## Patterns -/

/-- Any number of blanks. -/
def blanks : Pattern := .run 0 Text.isBlank

/-- At least one blank. -/
def someBlanks : Pattern := .run 1 Text.isBlank

/-- A letter of ASCII. -/
def isLetter (c : Char) : Bool := c.isAlpha

/-- A name of the host language. -/
def scriptName : Pattern :=
  .seq (.char fun c => isLetter c || c == '_' || c == '$')
    (.run 0 fun c => Text.isWordChar c || c == '$')

/-- A name of a typed language. -/
def typedName : Pattern :=
  .seq (.char fun c => isLetter c || c == '_') (.run 0 Text.isWordChar)

/-- A line that opens a loop. -/
def loopHeader : Pattern :=
  chain [.anchor .textStart, words ["for", "while"], edge]

/-- An operator that scales the variable on its left. -/
def scalingOperator : Pattern :=
  words ["*=", "/=", "<<=", ">>="]

/-- An assignment that scales one name to another. -/
def scalingAssignment : Pattern :=
  chain [.group 1 scriptName, blanks, literal "=", blanks, .group 2 scriptName, blanks,
    words ["*", "/", ">>", "<<"], .char (· != '=')]

/-- A declaration with the word `function`. -/
def wordFunction : Pattern :=
  chain [.anchor .textStart, blanks, optional (.seq (literal "export") someBlanks),
    optional (.seq (literal "async") someBlanks), literal "function", blanks,
    optional (literal "*"), blanks, .group 1 scriptName, blanks, literal "("]

/-- A binding of a function to a name. -/
def boundFunction : Pattern :=
  chain [.anchor .textStart, blanks, words ["const", "let", "var"], someBlanks,
    .group 1 scriptName, blanks, literal "=", blanks,
    optional (.seq (literal "async") blanks),
    oneOf [.seq (literal "function") edge,
      chain [literal "(", .run 0 (· != ')'), literal ")", blanks, literal "=>"],
      chain [scriptName, blanks, literal "=>"]]]

/-- A typed signature. -/
def typedFunction : Pattern :=
  chain [.anchor .textStart, blanks,
    oneOrMore (.seq (.run 1 fun c => Text.isWordChar c || oneIn "<>[],:&*" c) someBlanks),
    optional (.char (oneIn "&*")), .group 1 typedName, blanks, literal "(",
    .run 0 (· != ';'), literal ")", blanks, optional (.seq (literal "const") blanks),
    optional (.seq (literal "\x7b") blanks), .anchor .textEnd]

/-- Words that never name a declared function. -/
def controlWords : List String :=
  ["if", "for", "while", "switch", "catch", "return", "new", "else"]

/-- Words that start a statement and are no type. -/
def leadingWords : List String :=
  ["return", "new", "await", "throw", "typeof", "else", "case", "yield", "delete", "void"]

/-! ## The scan -/

/-- Whether a line scales a variable. -/
def hasScalingUpdate (line : List Char) : Bool :=
  scalingOperator.occursIn line ||
    (scalingAssignment.findAll line).any fun m => m.group? 1 == m.group? 2

/-- The function that a typed signature declares. -/
def typedDeclaration? (line : List Char) : Option (List Char) :=
  match Text.firstWord? line with
  | none => none
  | some word =>
    if leadingWords.contains (String.ofList word) then none
    else (typedFunction.find? line).bind (·.group? 1)

/-- The function that a line declares. -/
def declaredFunction? (line : List Char) : Option String :=
  let found := ((wordFunction.find? line).bind (·.group? 1)).or
    (((boundFunction.find? line).bind (·.group? 1)).or (typedDeclaration? line))
  (found.map String.ofList).filter fun name => ! controlWords.contains name

/-- The state of the scan: the level now, the deepest level, whether a loop scales, and
the functions found, the latest first. -/
structure Scan where
  level : Nat := 0
  deepest : Nat := 0
  scaling : Bool := false
  found : List Declared := []

/-- The effect of a line on the level of nesting. -/
def Scan.nest (s : Scan) (line : List Char) : Scan :=
  if loopHeader.occursIn line then
    { s with
      level := s.level + 1
      deepest := max s.deepest (s.level + 1)
      scaling := s.scaling || hasScalingUpdate line }
  else if line.contains '}' && ! line.contains '{' then { s with level := s.level - 1 }
  else s

/-- The effect of a line on the functions found. -/
def Scan.declare (s : Scan) (number : Nat) (line : List Char) : Scan :=
  match declaredFunction? line with
  | none => s
  | some name =>
    if s.found.any (·.name == name) then s
    else { s with found := ⟨name, number⟩ :: s.found }

/-- The effect of the line with the given number. -/
def Scan.line (s : Scan) (numbered : Nat × List Char) : Scan :=
  (s.nest (Text.trim numbered.2)).declare numbered.1 numbered.2

/-- What the scan has found out. -/
def Scan.report (s : Scan) : Report where
  growth := if s.scaling then .logarithmic else .ofNesting s.deepest
  maxNesting := s.deepest
  functions := s.found.reverse

/-- The structure of a program text. -/
def analyze (source : String) : Report :=
  let numbered := (Text.lines source.toList).mapIdx fun k line => (k + 1, line)
  (numbered.foldl Scan.line {}).report

/-- The report as a document. -/
def Report.json (r : Report) : Json :=
  .object [("complexity", .string r.growth.display), ("maxNesting", .count r.maxNesting),
    ("functions", .array (r.functions.map fun f =>
      .object [("name", .string f.name), ("line", .count f.line)]))]

end StepTrace.Structure
