import StepTrace.Lowering.Shared

/-!
# The rules for C++
-/

namespace StepTrace.Lowering

open Pattern

/-- Preprocessor lines, namespaces and templates. -/
def cppHeaders : List Rule :=
  [.erase "preprocessor" (wholeLine [gap, literal "#", .run 0 (notIn "\n")]),
   .erase "using-namespace"
    (wholeLine [gap, literal "using", space, literal "namespace", space, word, gap,
      literal ";", gap]),
   .erase "template"
    (wholeLine [gap, literal "template", gap, literal "<", .run 0 (notIn ">\n"),
      literal ">", gap])]

/-- Words that only qualify a declaration, and labels. -/
def cppModifiers : List Rule :=
  [.erase "modifier"
    (chain [edge, words ["static", "const", "constexpr", "inline", "virtual", "mutable",
      "register", "volatile", "explicit"], space]),
   .erase "std-qualifier" (chain [edge, literal "std::"]),
   .erase "access-label"
    (wholeLine [gap, words ["public", "private", "protected"], gap, literal ":", gap])]

/-- A type and the name of an array behind it. -/
def cppArrayHead : Pattern :=
  chain [edge, .group 1 identifier, space, .group 2 identifier, gap]

/-- A declaration unless the word in front is no type. -/
def unlessStatement (replace : Match → List Char) (m : Match) : List Char :=
  if isStatementWord (m.group 1) then m.text else replace m

/-- A vector inside the value of another one, and its length. -/
def nestedVector : Pattern :=
  chain [.anchor .textStart, gap, literal "vector", gap, literal "(",
    .group 1 (.run 1 (notIn ",()")), optional (.seq (literal ",") (.run 0 (notIn "()"))),
    literal ")", gap, .anchor .textEnd]

/-- The value of a vector with a length and perhaps an initial value. -/
def vectorValue (m : Match) : List Char :=
  match m.group? 3 with
  | none => filledList (m.group 2) ['0']
  | some value =>
    match nestedVector.find? value with
    | some row => filledRows (m.group 2) (row.group 1)
    | none => filledList (m.group 2) value

/-- A declaration of a name with a value. -/
def declaration (name value : List Char) : List Char :=
  "let ".toList ++ name ++ " = ".toList ++ value ++ [';']

/-- The creation of an array. -/
def cppNew : Pattern :=
  chain [edge, literal "new", space, word, gap]

/-- Arrays and vectors. -/
def cppAllocations : List Rule :=
  [{ name := "fixed-matrix"
     pattern := chain [cppArrayHead, bracketed 3, gap, bracketed 4, gap, literal ";"]
     replace := unlessStatement fun m =>
       declaration (m.group 2) (filledRows (m.group 3) (m.group 4)) },
   { name := "fixed-array"
     pattern := chain [cppArrayHead, bracketed 3, gap, literal ";"]
     replace := unlessStatement fun m =>
       declaration (m.group 2) (filledList (m.group 3) ['0']) },
   { name := "initialized-array"
     pattern := chain [edge, .group 1 identifier, space, .group 2 identifier,
       oneOrMore (chain [gap, literal "[", .run 0 (notIn "]\n"), literal "]"]), gap,
       literal "="]
     replace := unlessStatement fun m => "let ".toList ++ m.group 2 ++ " =".toList },
   { name := "sized-vector"
     pattern := chain [edge, literal "vector", gap, .run 0 (oneIn "*&"), space,
       .group 1 identifier, gap, literal "(", .group 2 (.reluctantRun 1 (notIn ",;\n")),
       optional (.seq (literal ",") (.group 3 (.run 1 (notIn ";\n")))), literal ")", gap,
       literal ";"]
     replace := fun m => declaration (m.group 1) (vectorValue m) },
   .template "empty-vector"
    (chain [edge, literal "vector", space, .group 1 identifier, gap, literal ";"])
    [.text "let ", .group 1, .text " = [];"],
   { name := "heap-matrix"
     pattern := chain [cppNew, bracketed 1, gap, bracketed 2]
     replace := fun m => filledRows (m.group 1) (m.group 2) },
   { name := "heap-array"
     pattern := chain [cppNew, bracketed 1]
     replace := fun m => filledList (m.group 1) ['0'] }]

/-- The values that a chain of outputs writes. -/
def streamArguments (chain : List Char) : List Char :=
  let parts := (Text.cut ['<', '<'] chain).map Text.trim
  Text.join [',', ' '] (parts.filter fun part =>
    ! part.isEmpty && part != "endl".toList && part != ['"', '\\', 'n', '"'])

/-- A chain of outputs on a stream. -/
def streamRule (name stream function : String) : Rule where
  name := name
  pattern := chain [edge, literal stream, gap, literal "<<", .group 1 (.run 0 (notIn ";")),
    literal ";"]
  replace := fun m =>
    function.toList ++ ['('] ++ streamArguments (m.group 1) ++ [')', ';']

/-- A function of the library without a qualifier. One that the program declares keeps its
name. -/
def mathFunctionRule : Rule where
  name := "math-free-function"
  pattern := chain [
    .group 1 (.alt (.anchor .textStart) (.char fun c => c != '.' && ! Text.isWordChar c)),
    .group 2 (optional (.seq (literal "function") space)),
    .group 3 (words ["max", "min", "abs", "sqrt", "pow", "floor", "ceil"]), gap,
    literal "("]
  replace := fun m =>
    if (m.group 2).isEmpty then m.group 1 ++ "Math.".toList ++ m.group 3 ++ ['('] else m.text

/-- Calls of the library. -/
def cppCalls : List Rule :=
  [rangeForRule,
   streamRule "cout" "cout" "console.log",
   streamRule "cerr" "cerr" "console.error",
   .erase "cin" (chain [edge, literal "cin", gap, literal ">>", .run 0 (notIn ";"),
    literal ";"]),
   .template "printf" (chain [edge, literal "printf", gap, literal "("])
    [.text "console.log("],
   .template "push-back"
    (chain [literal ".", words ["push_back", "emplace_back"], literal "("])
    [.text ".push("],
   .template "pop-back" (literal ".pop_back()") [.text ".pop()"],
   .template "size" (chain [literal ".", words ["size", "length"], literal "()"])
    [.text ".length"],
   .template "empty" (literal ".empty()") [.text ".length === 0"],
   .template "back" (literal ".back()") [.text ".at(-1)"],
   .template "front" (literal ".front()") [.text "[0]"],
   .template "int-max" (chain [edge, words ["INT_MAX", "LLONG_MAX", "LONG_MAX"], edge])
    [.text "Number.MAX_SAFE_INTEGER"],
   .template "int-min" (chain [edge, words ["INT_MIN", "LLONG_MIN", "LONG_MIN"], edge])
    [.text "Number.MIN_SAFE_INTEGER"],
   .template "null-pointer" (chain [edge, words ["nullptr", "NULL"], edge]) [.text "null"],
   .template "to-string" (chain [edge, literal "to_string("]) [.text "String("],
   mathFunctionRule,
   .template "swap"
    (chain [edge, literal "swap(", .group 1 (.run 1 (notIn ",()")), literal ",",
      .group 2 (.run 1 (notIn "()")), literal ")"])
    [.text "[", .group 1, .text ", ", .group 2, .text "] = [", .group 2, .text ", ",
      .group 1, .text "]"],
   .template "sort-range"
    (chain [edge, literal "sort(",
      .group 1 (.run 1 fun c => Text.isWordChar c || c == '.'), literal ".begin()", gap,
      literal ",", gap, .run 1 (fun c => Text.isWordChar c || c == '.'),
      literal ".end())"])
    [.group 1, .text ".sort((a, b) => a - b)"]]

/-- The rules for C++. -/
def cpp : Ruleset where
  language := .cpp
  passes := [
    ⟨.headers, cppHeaders, false⟩,
    ⟨.modifiers, cppModifiers, false⟩,
    ⟨.generics, genericRules, true⟩,
    ⟨.initializers, initializerRules, false⟩,
    ⟨.allocations, cppAllocations, false⟩,
    ⟨.signatures, [signatureRule], false⟩,
    ⟨.declarations, declarationRules, false⟩,
    ⟨.calls, cppCalls, false⟩,
    ⟨.cleanup, cleanupRules, false⟩]
  unwrapEntryClass := false
  entryFunction := some "main"

end StepTrace.Lowering
