import StepTrace.Pattern.Basic

/-!
# Finding and replacing

The first match of a pattern in a text is the leftmost one, and among those the preferred
one. Matches are taken from the left, each starting where the last one ended or later. A
search tries places in blocks that grow, so that a match near by is found without a look at
the rest of the text, and one far away without a new start at every place.

* `Match.text`: what was matched; `Match.group`: a captured part of it.
* `replaceAll` writes a new piece for every match and keeps the text between them.
-/

namespace StepTrace.Pattern

/-- A match: the characters it covers and its captured groups. -/
structure Match where
  text : List Char
  groups : List (Nat × List Char)

/-- What a group captured, if it took part in the match. -/
def Match.group? (m : Match) (number : Nat) : Option (List Char) :=
  m.groups.lookup number

/-- What a group captured; nothing if it took no part. -/
def Match.group (m : Match) (number : Nat) : List Char :=
  (m.group? number).getD []

/-- A match that was found: the text passed over, the match and the place behind it. -/
structure Found where
  before : List Char
  hit : Match
  after : Place

/-- So many places from one on, in front of which stand those taken already, latest first,
and the place behind them if the text goes on. -/
def Place.block : Nat → Place → List Place → List Place × Option Place
  | 0, p, taken => (taken.reverse, some p)
  | n + 1, p, taken =>
    match p.next? with
    | none => ((p :: taken).reverse, none)
    | some (_, q) => Place.block n q (p :: taken)

/-- The greatest number of places of a block. Positions are counted from the start of a
block, so a bound keeps them small. -/
def largestBlock : Nat := 4096

/-- The end of the first match that begins at the place or behind it, and how many places
have been passed over before its block; it has captured the match as group zero. `size`
places are tried first, and at most `limit` blocks. -/
def endFrom? (pattern : Pattern) : Nat → Nat → Nat → Place → Option (Nat × Place)
  | 0, _, _, _ => none
  | limit + 1, size, passed, p =>
    let (starts, behind) := p.block size []
    match (Pattern.group 0 pattern).flow (limit + 1) starts with
    | q :: _ => some (passed, q)
    | [] => behind.bind fun next =>
      pattern.endFrom? limit (min (2 * size) largestBlock) (passed + size) { next with pos := 0 }

/-- The first match at the place, whose position is zero, or behind it. The text has fewer
than `limit` characters. -/
def findFrom? (pattern : Pattern) (limit : Nat) (p : Place) : Option Found :=
  (pattern.endFrom? limit 1 0 p).map fun (passed, q) =>
    let groups := q.groups.map fun (number, captured) => (number, captured.text)
    let whole := (groups.lookup 0).getD []
    { before := p.rest.take (passed + (q.pos - whole.length))
      hit := ⟨whole, groups⟩
      after := ⟨0, q.previous, q.rest, [], []⟩ }

/-- The first match in a text. -/
def find? (pattern : Pattern) (text : List Char) : Option Match :=
  (pattern.findFrom? (text.length + 1) (Place.start text)).map Found.hit

/-- Whether the pattern occurs in the text. -/
def occursIn (pattern : Pattern) (text : List Char) : Bool :=
  (pattern.find? text).isSome

/-- A text cut at the matches of a pattern: each match with the text in front of it, and
the text behind the last one. -/
structure Cuts where
  found : List (List Char × Match)
  tail : List Char

/-- Cuts the text behind a place. `isBehind` tells whether a match has ended at the place: a
match of nothing there does not count, and the search goes on behind the next character. -/
def cutFrom (pattern : Pattern) : Nat → Place → List Char → Bool → Cuts
  | 0, p, carried, _ => ⟨[], carried ++ p.rest⟩
  | left + 1, p, carried, isBehind =>
    match pattern.findFrom? (left + 1) p with
    | none => ⟨[], carried ++ p.rest⟩
    | some ⟨skipped, m, q⟩ =>
      if m.text.isEmpty then
        let counts := ! (isBehind && skipped.isEmpty)
        match q.next? with
        | none =>
          if counts then ⟨[(carried ++ skipped, m)], []⟩ else ⟨[], carried ++ p.rest⟩
        | some (c, r) =>
          let r := { r with pos := 0 }
          if counts then
            let cuts := pattern.cutFrom left r [c] false
            ⟨(carried ++ skipped, m) :: cuts.found, cuts.tail⟩
          else pattern.cutFrom left r (carried ++ skipped ++ [c]) false
      else
        let cuts := pattern.cutFrom left q [] true
        ⟨(carried ++ skipped, m) :: cuts.found, cuts.tail⟩

/-- Cuts a text at the matches of the pattern. -/
def cuts (pattern : Pattern) (text : List Char) : Cuts :=
  pattern.cutFrom (text.length + 1) (Place.start text) [] false

/-- All matches in a text, from the left. -/
def findAll (pattern : Pattern) (text : List Char) : List Match :=
  (pattern.cuts text).found.map (·.2)

/-- The text with every match replaced. -/
def replaceAll (pattern : Pattern) (replacement : Match → List Char) (text : List Char) :
    List Char :=
  let cuts := pattern.cuts text
  cuts.found.flatMap (fun (before, m) => before ++ replacement m) ++ cuts.tail

end StepTrace.Pattern
