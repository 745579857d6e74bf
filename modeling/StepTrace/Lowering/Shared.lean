import StepTrace.Lowering.Rule
import StepTrace.Text.Search

/-!
# Rules of both typed languages

Java and C++ have much in common: braces around initial values, generic types, typed
signatures and typed local variables. The rules for these are here.

* `untypedParams` keeps the names of a parameter list.
-/

namespace StepTrace.Lowering

open Pattern

/-- Words that may stand in front of a name and are no types. -/
def statementWords : List String :=
  ["return", "else", "new", "throw", "case", "delete", "do", "goto", "await", "let",
    "const", "var", "typeof", "class", "struct", "if", "while", "for", "switch",
    "function", "async", "using", "namespace", "import", "package", "yield", "in", "of",
    "instanceof"]

/-- Whether a word may stand in front of a name and is no type. -/
def isStatementWord (word : List Char) : Bool :=
  statementWords.contains (String.ofList word)

/-- The text with brackets in place of braces. -/
def braceToBracket (text : List Char) : List Char :=
  text.map fun c => if c = '{' then '[' else if c = '}' then ']' else c

/-- An array of zeros of the given length, the element being a text of its own. -/
def filledList (length value : List Char) : List Char :=
  "new Array(".toList ++ Text.trim length ++ ").fill(".toList ++ Text.trim value ++ [')']

/-- An array of rows of zeros. -/
def filledRows (length row : List Char) : List Char :=
  "Array.from(\x7b length: ".toList ++ Text.trim length ++
    " \x7d, () => new Array(".toList ++ Text.trim row ++ ").fill(0))".toList

/-! ## Initial values -/

/-- A character of a list of initial values. -/
def isInitialChar (c : Char) : Bool :=
  Text.isWordChar c || oneIn " \t\r\n,.'\"+-\x7b\x7d" c

/-- A list of initial values in braces. -/
def initialValues : Pattern :=
  chain [literal "\x7b", .run 0 isInitialChar, literal "\x7d"]

/-- The rules for initial values. -/
def initializerRules : List Rule :=
  [{ name := "aggregate-initializer"
     pattern := chain [.group 1 (.seq (literal "=") gap), .group 2 initialValues,
       .group 3 (.seq gap (literal ";"))]
     replace := fun m => m.group 1 ++ braceToBracket (m.group 2) ++ m.group 3 },
   { name := "array-creation-initializer"
     pattern := chain [edge, literal "new", space, word, oneOrMore emptyBrackets, gap,
       .group 1 initialValues]
     replace := fun m => braceToBracket (m.group 1) }]

/-! ## Generic types -/

/-- A generic type with no further one between its brackets. -/
def innermostGeneric : Pattern :=
  chain [edge, .group 1 identifier, gap, literal "<",
    .run 0 (fun c => Text.isWordChar c || oneIn " \t,?.[]*" c), literal ">"]

/-- The rules for generic types. -/
def genericRules : List Rule :=
  [.template "innermost-generic" innermostGeneric [.group 1]]

/-! ## Signatures -/

/-- The name at the end of a parameter, brackets behind it aside. -/
def paramName : Pattern :=
  chain [.group 1 identifier, gap,
    .many (chain [literal "[", .run 0 (notIn "]"), literal "]", gap]), .anchor .textEnd]

/-- The name of a parameter, without its type and its default. -/
def untypedParam? (param : List Char) : Option (List Char) :=
  let param := Text.trim param
  if param.isEmpty || param = "void".toList then none
  else (paramName.find? (Text.trim (param.takeWhile (· ≠ '=')))).map (·.group 1)

/-- The names of a parameter list. -/
def untypedParams (params : List Char) : List Char :=
  Text.join [',', ' '] ((Text.cut [','] params).filterMap untypedParam?)

/-- A line with a typed signature: indentation, type, marks of the type, name, parameters
and an opening brace. -/
def typedSignature : Pattern :=
  wholeLine [.group 1 gap, .group 2 identifier,
    .group 3 (.many (.seq gap (oneOf [chain [literal "[", gap, literal "]"],
      .run 1 (· == '*'), .run 1 (· == '&')]))),
    space, .run 0 (oneIn "*&"), .group 4 identifier, gap, literal "(",
    .group 5 (.run 0 (notIn "()\n")), literal ")", gap,
    optional (chain [literal "throws", space,
      .reluctantRun 1 (fun c => Text.isWordChar c || oneIn "., \t" c)]),
    gap, .group 6 (optional (literal "\x7b")), gap]

/-- A typed signature becomes that of an `async` function. -/
def signatureRule : Rule where
  name := "typed-signature"
  pattern := typedSignature
  replace := fun m =>
    if isStatementWord (m.group 2) || isStatementWord (m.group 4) then m.text
    else
      m.group 1 ++ "async function ".toList ++ m.group 4 ++ ['('] ++
        untypedParams (m.group 5) ++ [')'] ++
        (if (m.group 6).isEmpty then [] else [' ', '{'])

/-! ## Declarations -/

/-- A cast to a number type. -/
def primitiveCast : Pattern :=
  chain [literal "(", gap, .many (.seq (words ["unsigned", "signed", "long"]) space),
    words ["int", "long", "short", "double", "float", "char", "byte", "size_t", "bool",
      "boolean"],
    gap, literal ")", gap]

/-- The types that introduce a local variable. -/
def localTypes : List String :=
  ["int", "long", "short", "double", "float", "char", "bool", "boolean", "byte", "String",
    "string", "auto", "var", "size_t", "unsigned", "Integer", "Long", "Double", "Float",
    "Character", "Boolean", "Byte", "Short", "Object", "List", "ArrayList", "LinkedList",
    "Deque", "ArrayDeque", "Queue", "Stack", "vector", "deque", "queue", "stack"]

/-- A local variable with its type. -/
def typedLocal : Pattern :=
  chain [edge, .many (.seq (words ["unsigned", "signed", "long", "short"]) space),
    words localTypes, edge, .many emptyBrackets, gap, .run 0 (oneIn "*&"), space,
    .group 1 identifier]

/-- The rules for declarations. -/
def declarationRules : List Rule :=
  [.erase "primitive-cast" primitiveCast,
   .template "typed-local" typedLocal [.text "let ", .group 1]]

/-! ## Loops and leftovers -/

/-- A loop over the elements of a container. -/
def rangeForRule : Rule :=
  .template "range-for"
    (chain [edge, literal "for", gap, literal "(", gap, literal "let", space,
      .group 1 identifier, gap, literal ":"])
    [.text "for (let ", .group 1, .text " of"]

/-- The rules for what the other passes leave over. -/
def cleanupRules : List Rule :=
  [.template "declaration-sigil"
    (chain [edge, literal "let", gap, .run 1 (oneIn "*&"), gap]) [.text "let "],
   .template "arrow-member" (literal "->") [.text "."],
   .template "address-of-argument"
    (chain [.group 1 (.seq (.char (oneIn "(,")) gap), literal "&",
      .group 2 (.char isNameHead)])
    [.group 1, .group 2]]

end StepTrace.Lowering
