import StepTrace.Pattern.Positions
import StepTrace.Text.Blank
import StepTrace.Text.WordChar

/-!
# Text patterns

A pattern describes pieces of text: characters of a class, runs of them, sequences,
alternatives, repetitions and captured groups, and conditions on the place where the match
stands. Matching prefers what is written first: the first alternative, and the longest
repetition unless it is marked as reluctant.

`flow` takes places at which a match may have begun, the preferred one first, to the places
where it can end, in the order of preference and each position once. What follows a place
depends on the place alone, so the first way to reach it is the only one that counts: the
lists stay as short as the text, however many places it starts from.
-/

namespace StepTrace

/-- A condition on the place between two characters. -/
inductive Anchor where
  | textStart
  | textEnd
  | lineStart
  | lineEnd
  | wordBoundary
deriving DecidableEq

/-- A description of pieces of text. -/
inductive Pattern where
  | empty
  | char (test : Char → Bool)
  | run (least : Nat) (test : Char → Bool)
  | reluctantRun (least : Nat) (test : Char → Bool)
  | anchor (condition : Anchor)
  | seq (first second : Pattern)
  | alt (first second : Pattern)
  | many (body : Pattern)
  | group (number : Nat) (body : Pattern)

namespace Pattern

/-- A captured piece of a text: the text from where it begins, and how many characters of that
it has. -/
structure Captured where
  source : List Char
  size : Nat

/-- The characters of a captured piece. -/
def Captured.text (captured : Captured) : List Char :=
  captured.source.take captured.size

/-- A place in a text: its position, the character before it, the text that follows, the
groups that have begun, the innermost first, and those captured on the way, the latest
first. -/
structure Place where
  pos : Nat
  previous : Option Char
  rest : List Char
  begun : List (Nat × List Char) := []
  groups : List (Nat × Captured) := []

namespace Place

/-- The place at the start of a text. -/
def start (text : List Char) : Place :=
  ⟨0, none, text, [], []⟩

/-- The place behind the next character. -/
def next? (p : Place) : Option (Char × Place) :=
  match p.rest with
  | [] => none
  | c :: rest => some (c, { p with pos := p.pos + 1, previous := some c, rest := rest })

/-- The place behind the next character, if that is of the class. -/
def step? (test : Char → Bool) (p : Place) : Option Place :=
  match p.next? with
  | some (c, q) => if test c then some q else none
  | none => none

/-- The place behind so many characters of the class. -/
def steps? (test : Char → Bool) : Nat → Place → Option Place
  | 0, p => some p
  | n + 1, p => (p.step? test).bind (steps? test n)

/-- Whether the condition holds at the place. -/
def satisfies (p : Place) : Anchor → Bool
  | .textStart => p.previous.isNone
  | .textEnd => p.rest.isEmpty
  | .lineStart => p.previous.all (· == '\n')
  | .lineEnd => p.rest.head?.all (· == '\n')
  | .wordBoundary => p.previous.any Text.isWordChar != p.rest.head?.any Text.isWordChar

/-- The place with a group begun at it. -/
def enter (p : Place) : Place :=
  { p with begun := (p.pos, p.rest) :: p.begun }

/-- The place with the innermost group captured under a number. -/
def leave (number : Nat) (p : Place) : Place :=
  match p.begun with
  | [] => p
  | (pos, rest) :: begun =>
    { p with begun, groups := (number, ⟨rest, p.pos - pos⟩) :: p.groups }

end Place

/-- Places reached so far, the latest first, and their positions. -/
structure Reached where
  places : List Place
  seen : Positions

namespace Reached

/-- No place. -/
def nothing : Reached :=
  ⟨[], .empty⟩

/-- Puts in a place unless its position has been reached. -/
def add (reached : Reached) (p : Place) : Reached :=
  if reached.seen.contains p.pos then reached
  else ⟨p :: reached.places, reached.seen.insert p.pos⟩

/-- The places in the order in which they were reached. -/
def inOrder (reached : Reached) : List Place :=
  reached.places.reverse

end Reached

/-- Keeps the first of the places with the same position. -/
def distinct (places : List Place) : List Place :=
  (places.foldl Reached.add .nothing).inOrder

/-- The places at and behind `pos` as long as the characters are of the class, the farthest
first, in front of those found nearer. The walk ends where another one has been: from there
on everything has been reached. -/
def stretch (test : Char → Bool) (seen : Positions) (start : Place) :
    Nat → Option Char → List Char → List Place → List Place
  | pos, previous, [], nearer =>
    if seen.contains pos then nearer else { start with pos, previous, rest := [] } :: nearer
  | pos, previous, c :: rest, nearer =>
    if seen.contains pos then nearer
    else
      let nearer := { start with pos, previous, rest := c :: rest } :: nearer
      if test c then stretch test seen start (pos + 1) (some c) rest nearer else nearer

/-- The places behind any number of characters of the class, from each of the places in
turn, the nearest or the farthest first. -/
def spread (isReluctant : Bool) (test : Char → Bool) (places : List Place) : List Place :=
  (places.foldl (fun reached p =>
    let found := stretch test reached.seen p p.pos p.previous p.rest []
    { places := (if isReluctant then found else found.reverse) ++ reached.places
      seen := reached.seen.insertRange p.pos found.length })
    Reached.nothing).inOrder

/-- Adds the places reached by any number of steps, at most `limit`, more steps first. -/
def sweep (step : Place → List Place) : Nat → Reached → Place → Reached
  | 0, reached, p => reached.add p
  | limit + 1, reached, p =>
    if reached.seen.contains p.pos then reached
    else
      let deeper := (step p).foldl (sweep step limit)
        { reached with seen := reached.seen.insert p.pos }
      { deeper with places := p :: deeper.places }

/-- The places where matches that begin at the places can end, preferred ones first. Nothing
is repeated more often than `limit` times, which the length of the text bounds. -/
def flow (limit : Nat) : Pattern → List Place → List Place
  | .empty, places => places
  | .char test, places => places.filterMap (Place.step? test)
  | .run least test, places => spread false test (places.filterMap (Place.steps? test least))
  | .reluctantRun least test, places =>
    spread true test (places.filterMap (Place.steps? test least))
  | .anchor condition, places => places.filter fun p => p.satisfies condition
  | .seq first second, places => second.flow limit (first.flow limit places)
  | .alt first second, places =>
    distinct (places.flatMap fun p => first.flow limit [p] ++ second.flow limit [p])
  | .many body, places =>
    (places.foldl (sweep (fun p => body.flow limit [p]) limit) .nothing).inOrder
  | .group number body, places =>
    (body.flow limit (places.map Place.enter)).map (Place.leave number)

/-! ## Writing patterns -/

/-- The text itself. -/
def literal (text : String) : Pattern :=
  text.toList.foldr (fun c p => .seq (.char (· == c)) p) .empty

/-- One after the other. -/
def chain (parts : List Pattern) : Pattern :=
  parts.foldr .seq .empty

/-- One of the alternatives, the first that fits. -/
def oneOf : List Pattern → Pattern
  | [] => .char fun _ => false
  | [p] => p
  | p :: rest => .alt p (oneOf rest)

/-- One of the words. -/
def words (list : List String) : Pattern :=
  oneOf (list.map literal)

/-- The pattern if it fits, else nothing. -/
def optional (p : Pattern) : Pattern :=
  .alt p .empty

/-- The pattern once or more often. -/
def oneOrMore (p : Pattern) : Pattern :=
  .seq p (.many p)

/-- A character of the list. -/
def oneIn (set : String) : Char → Bool :=
  fun c => set.toList.contains c

/-- A character that is not in the list. -/
def notIn (set : String) : Char → Bool :=
  fun c => ! set.toList.contains c

/-- The edge of a word. -/
def edge : Pattern :=
  .anchor .wordBoundary

end Pattern

end StepTrace
