import StepTrace.Number.Text

/-!
# JSON documents

A document is a tree. Objects list their fields in the order in which they are written;
`Json.sorted` makes an object whose fields stand in the order of their names. Integers
and other numbers are kept apart because they are written differently.

* `compact` writes a document on one line without blanks.
* `pretty` writes it over several lines, two blanks deeper at each level.
-/

namespace StepTrace

/-- A JSON document. -/
inductive Json where
  | null
  | bool (value : Bool)
  | int (value : Int)
  | number (value : Number.Dyadic)
  | string (text : String)
  | array (items : List Json)
  | object (fields : List (String × Json))
deriving BEq, Inhabited

namespace Json

/-- An object with its fields in the order of their names. -/
def sorted (fields : List (String × Json)) : Json :=
  .object (fields.mergeSort fun a b => a.1 ≤ b.1)

/-- The document for a count. -/
def count (n : Nat) : Json :=
  .int n

/-- The value of a field of an object. -/
def field? (name : String) : Json → Option Json
  | .object fields => fields.lookup name
  | _ => none

/-- The four hexadecimal digits of a code below `0x10000`. -/
def hexFour (n : Nat) : String :=
  let digits := Nat.toDigits 16 n
  String.ofList (List.replicate (4 - digits.length) '0' ++ digits)

/-- A character as it stands inside a quoted text. Quotes, backslashes and control
characters are escaped, everything else stands for itself. -/
def escapeChar (c : Char) : String :=
  match c with
  | '"' => "\\\""
  | '\\' => "\\\\"
  | '\n' => "\\n"
  | '\r' => "\\r"
  | '\t' => "\\t"
  | _ =>
    if c.toNat = 8 then "\\b"
    else if c.toNat = 12 then "\\f"
    else if c.toNat < 0x20 then "\\u" ++ hexFour c.toNat
    else c.toString

/-- The text in quotes, written after `out`. -/
def quoteAfter (out : String) (text : String) : String :=
  (text.foldl (fun out c => out ++ escapeChar c) (out.push '"')).push '"'

mutual
/-- Writes a document after `out`. -/
def compactAfter (out : String) : Json → String
  | .null => out ++ "null"
  | .bool b => out ++ (if b then "true" else "false")
  | .int n => out ++ String.ofList (Number.intText n)
  | .number d => out ++ String.ofList (Number.jsonText d)
  | .string s => quoteAfter out s
  | .array items => (compactItems (out.push '[') items).push ']'
  | .object fields => (compactFields (out.push '\x7b') fields).push '\x7d'

/-- Writes the items with commas between them. -/
def compactItems (out : String) : List Json → String
  | [] => out
  | [item] => compactAfter out item
  | item :: rest => compactItems ((compactAfter out item).push ',') rest

/-- Writes the fields with commas between them. -/
def compactFields (out : String) : List (String × Json) → String
  | [] => out
  | [(name, value)] => compactAfter ((quoteAfter out name).push ':') value
  | (name, value) :: rest =>
    compactFields ((compactAfter ((quoteAfter out name).push ':') value).push ',') rest
end

/-- The document on one line. -/
def compact (json : Json) : String :=
  compactAfter "" json

/-- A new line with `depth` levels of indentation, written after `out`. -/
def breakAfter (out : String) (depth : Nat) : String :=
  (out.push '\n') ++ String.ofList (List.replicate (2 * depth) ' ')

mutual
/-- Writes a document after `out`, its lines indented to `depth`. -/
def prettyAfter (out : String) (depth : Nat) : Json → String
  | .array [] => out ++ "[]"
  | .array items =>
    (breakAfter (prettyItems (breakAfter (out.push '[') (depth + 1)) (depth + 1) items)
      depth).push ']'
  | .object [] => (out.push '\x7b').push '\x7d'
  | .object fields =>
    (breakAfter (prettyFields (breakAfter (out.push '\x7b') (depth + 1)) (depth + 1) fields)
      depth).push '\x7d'
  | .null => out ++ "null"
  | .bool b => compactAfter out (.bool b)
  | .int n => compactAfter out (.int n)
  | .number d => compactAfter out (.number d)
  | .string s => quoteAfter out s

/-- Writes the items, each on a line of its own. -/
def prettyItems (out : String) (depth : Nat) : List Json → String
  | [] => out
  | [item] => prettyAfter out depth item
  | item :: rest =>
    prettyItems (breakAfter ((prettyAfter out depth item).push ',') depth) depth rest

/-- Writes the fields, each on a line of its own. -/
def prettyFields (out : String) (depth : Nat) : List (String × Json) → String
  | [] => out
  | [(name, value)] => prettyAfter (quoteAfter out name ++ ": ") depth value
  | (name, value) :: rest =>
    prettyFields
      (breakAfter ((prettyAfter (quoteAfter out name ++ ": ") depth value).push ',') depth)
      depth rest
end

/-- The document over several lines. -/
def pretty (json : Json) : String :=
  prettyAfter "" 0 json

end Json

end StepTrace
