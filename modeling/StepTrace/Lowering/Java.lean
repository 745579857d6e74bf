import StepTrace.Lowering.Shared

/-!
# The rules for Java
-/

namespace StepTrace.Lowering

open Pattern

/-- Package and import lines, annotations and scanners. -/
def javaHeaders : List Rule :=
  [.erase "package"
    (wholeLine [gap, literal "package", space,
      .run 1 (fun c => Text.isWordChar c || c == '.'), gap, literal ";", gap]),
   .erase "import"
    (wholeLine [gap, literal "import", space, optional (.seq (literal "static") space),
      .run 1 (fun c => Text.isWordChar c || oneIn ".*" c), gap, literal ";", gap]),
   .erase "annotation" (wholeLine [gap, literal "@", word, gap]),
   .erase "scanner"
    (wholeLine [.run 0 (notIn "\n"), edge, literal "new", space, literal "Scanner", edge,
      .run 0 (notIn "\n")])]

/-- Words that only qualify a declaration. -/
def javaModifiers : List Rule :=
  [.erase "modifier"
    (chain [edge, words ["public", "private", "protected", "static", "final", "abstract",
      "synchronized", "transient", "volatile"], space])]

/-- A collection class. -/
def javaCollection : Pattern :=
  words ["ArrayList", "LinkedList", "Vector", "ArrayDeque", "Stack"]

/-- The creation of an array. -/
def javaNew : Pattern :=
  chain [edge, literal "new", space, word, gap]

/-- Arrays and collections. -/
def javaAllocations : List Rule :=
  [{ name := "typed-matrix-allocation"
     pattern := chain [edge, identifier, emptyBrackets, emptyBrackets, space,
       .group 1 identifier, gap, literal "=", gap, literal "new", space, word, gap,
       bracketed 2, gap, bracketed 3]
     replace := fun m =>
       "let ".toList ++ m.group 1 ++ " = ".toList ++ filledRows (m.group 2) (m.group 3) },
   { name := "matrix-allocation"
     pattern := chain [javaNew, bracketed 1, gap, bracketed 2]
     replace := fun m => filledRows (m.group 1) (m.group 2) },
   { name := "array-allocation"
     pattern := chain [javaNew, bracketed 1]
     replace := fun m => filledList (m.group 1) ['0'] },
   .template "typed-array-local"
    (chain [edge, identifier, oneOrMore emptyBrackets, space, .group 1 identifier,
      .group 2 (.seq gap (.char (oneIn "=;")))])
    [.text "let ", .group 1, .group 2],
   .template "empty-collection"
    (chain [edge, literal "new", space, javaCollection, gap, literal "(", gap, literal ")"])
    [.text "[]"],
   .template "copied-collection"
    (chain [edge, literal "new", space, javaCollection, gap, literal "(",
      .group 1 (.run 1 (notIn "()")), literal ")"])
    [.text "Array.from(", .group 1, .text ")"]]

/-- A call that prints on a stream of the system. -/
def javaPrint (stream : String) : Pattern :=
  chain [edge, literal "System.", literal stream, literal ".print",
    optional (words ["ln", "f"]), gap, literal "("]

/-- Calls of the library. -/
def javaCalls : List Rule :=
  [rangeForRule,
   .template "println" (javaPrint "out") [.text "console.log("],
   .template "eprintln" (javaPrint "err") [.text "console.error("],
   .template "size" (literal ".size()") [.text ".length"],
   .template "string-length" (literal ".length()") [.text ".length"],
   .template "is-empty" (literal ".isEmpty()") [.text ".length === 0"],
   .template "add" (literal ".add(") [.text ".push("],
   .template "contains" (literal ".contains(") [.text ".includes("],
   .template "get" (chain [literal ".get(", .group 1 (.run 0 (notIn "()")), literal ")"])
    [.text "[", .group 1, .text "]"],
   .template "set"
    (chain [literal ".set(", .group 1 (.run 1 (notIn "(),")), literal ",",
      .group 2 (.run 0 (notIn "()")), literal ")"])
    [.text "[", .group 1, .text "] = ", .group 2],
   .template "equals" (literal ".equals(") [.text " === ("],
   .template "max-value" (chain [edge, literal "Integer.MAX_VALUE", edge])
    [.text "Number.MAX_SAFE_INTEGER"],
   .template "min-value" (chain [edge, literal "Integer.MIN_VALUE", edge])
    [.text "Number.MIN_SAFE_INTEGER"],
   .template "parse-int" (chain [edge, literal "Integer.parseInt("]) [.text "parseInt("],
   .template "value-of" (chain [edge, literal "String.valueOf("]) [.text "String("],
   .template "arrays-fill"
    (chain [edge, literal "Arrays.fill(", .group 1 (.run 1 (notIn ",()")), literal ","])
    [.group 1, .text ".fill("],
   .template "arrays-sort"
    (chain [edge, words ["Arrays", "Collections"], literal ".sort(",
      .group 1 (.run 1 (notIn ",()")), literal ")"])
    [.group 1, .text ".sort((a, b) => a - b)"],
   .template "arrays-to-string"
    (chain [edge, literal "Arrays.", words ["deepToString", "toString"], literal "(",
      .group 1 (.run 1 (notIn "()")), literal ")"])
    [.text "JSON.stringify(", .group 1, .text ")"],
   .template "scanner-read"
    (chain [edge, word, literal ".next", optional (words ["Int", "Line", "Double", "Long"]),
      literal "()"])
    [.text "0"]]

/-- The rules for Java. -/
def java : Ruleset where
  language := .java
  passes := [
    ⟨.headers, javaHeaders, false⟩,
    ⟨.modifiers, javaModifiers, false⟩,
    ⟨.generics, genericRules, true⟩,
    ⟨.initializers, initializerRules, false⟩,
    ⟨.allocations, javaAllocations, false⟩,
    ⟨.signatures, [signatureRule], false⟩,
    ⟨.declarations, declarationRules, false⟩,
    ⟨.calls, javaCalls, false⟩,
    ⟨.cleanup, cleanupRules, false⟩]
  unwrapEntryClass := true
  entryFunction := some "main"

end StepTrace.Lowering
