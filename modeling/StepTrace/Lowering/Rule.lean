import StepTrace.Pattern.Pieces
import StepTrace.Language

/-!
# Lowering rules

A surface language is described by passes in a fixed order, each a list of rules. A rule
replaces every match of its pattern. A pass is applied once, or again and again until the
text stops changing; a pass of the second kind has to shrink the text each time.

* `Rule.apply`, `Pass.once`, `Pass.run`: the effect of a rule and of a pass.
-/

namespace StepTrace.Lowering

/-- A part of a replacement: a fixed text or what a group has captured. -/
inductive Piece where
  | text (text : String)
  | group (number : Nat)

/-- The text of the pieces for a match. -/
def fill (pieces : List Piece) (m : Pattern.Match) : List Char :=
  pieces.flatMap fun
    | .text s => s.toList
    | .group k => m.group k

/-- A pattern and what its matches are replaced by. -/
structure Rule where
  name : String
  pattern : Pattern
  replace : Pattern.Match → List Char

/-- The rule that fills pieces. -/
def Rule.template (name : String) (pattern : Pattern) (pieces : List Piece) : Rule :=
  ⟨name, pattern, fill pieces⟩

/-- The rule that removes its matches. -/
def Rule.erase (name : String) (pattern : Pattern) : Rule :=
  .template name pattern []

/-- The text with every match replaced. -/
def Rule.apply (rule : Rule) (text : List Char) : List Char :=
  rule.pattern.replaceAll rule.replace text

/-- The passes in their order. -/
inductive PassKind where
  | headers
  | modifiers
  | generics
  | initializers
  | allocations
  | signatures
  | declarations
  | calls
  | cleanup
deriving DecidableEq, Repr

/-- The name of the pass. -/
def PassKind.name : PassKind → String
  | .headers => "headers"
  | .modifiers => "modifiers"
  | .generics => "generics"
  | .initializers => "initializers"
  | .allocations => "allocations"
  | .signatures => "signatures"
  | .declarations => "declarations"
  | .calls => "calls"
  | .cleanup => "cleanup"

/-- A list of rules, applied once or until the text is stable. -/
structure Pass where
  kind : PassKind
  rules : List Rule
  untilStable : Bool := false

/-- Each rule once, in order. -/
def Pass.once (pass : Pass) (text : List Char) : List Char :=
  pass.rules.foldl (fun text rule => rule.apply text) text

/-- The rules that change the text when each is applied once, with the text behind them. -/
def Pass.effects (pass : Pass) (text : List Char) : List (String × List Char) :=
  (pass.rules.foldl (fun (found, text) rule =>
    let next := rule.apply text
    (if next = text then found else (rule.name, next) :: found, next))
    (([] : List (String × List Char)), text)).1.reverse

/-- The number of bytes of a text. -/
def byteLength (text : List Char) : Nat :=
  text.foldl (fun n c => n + c.utf8Size) 0

/-- At most so many rounds of a pass. -/
def maxRounds : Nat := 64

/-- The rules again and again, at most `rounds` times, while each round shrinks the text. -/
def Pass.repeat (pass : Pass) : Nat → List Char → List Char
  | 0, text => text
  | rounds + 1, text =>
    let next := pass.once text
    if next = text || byteLength next ≥ byteLength text then next
    else pass.repeat rounds next

/-- The effect of the pass. -/
def Pass.run (pass : Pass) (text : List Char) : List Char :=
  if pass.untilStable then pass.repeat maxRounds text else pass.once text

/-- The passes of a surface language, whether a class around the program is unwrapped, and
the function at which programs start. -/
structure Ruleset where
  language : Language
  passes : List Pass
  unwrapEntryClass : Bool
  entryFunction : Option String

end StepTrace.Lowering
