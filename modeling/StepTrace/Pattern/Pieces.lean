import StepTrace.Pattern.Search

/-!
# Pieces of patterns

The pieces that patterns for program text have in common.
-/

namespace StepTrace.Pattern

/-- Any number of blanks and tabs. -/
def gap : Pattern := .run 0 (oneIn " \t")

/-- At least one blank or tab. -/
def space : Pattern := .run 1 (oneIn " \t")

/-- A letter of ASCII or an underscore. -/
def isNameHead (c : Char) : Bool :=
  c.isAlpha || c == '_'

/-- A name of a typed language. -/
def identifier : Pattern :=
  .seq (.char isNameHead) (.run 0 Text.isWordChar)

/-- At least one word character. -/
def word : Pattern := .run 1 Text.isWordChar

/-- A pair of brackets with blanks in front of and between them. -/
def emptyBrackets : Pattern :=
  chain [gap, literal "[", gap, literal "]"]

/-- An opening bracket, a captured text without a closing one, and the closing one. -/
def bracketed (number : Nat) : Pattern :=
  chain [literal "[", .group number (.run 1 (notIn "]\n")), literal "]"]

/-- A whole line. -/
def wholeLine (parts : List Pattern) : Pattern :=
  chain (.anchor .lineStart :: parts ++ [.anchor .lineEnd])

end StepTrace.Pattern
