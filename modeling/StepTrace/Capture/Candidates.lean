/-!
# Candidate names

A step may show any name of the program. The candidates are all words of the program text
that could be names, without the words that never name a variable: keywords of the
languages and what the run itself provides. They are a superset of the variables, since
comments and texts have words too.

* `candidates` lists them in order, each once.
-/

namespace StepTrace.Capture

/-- Words that never name a variable of a program. -/
def reserved : List String :=
  ["let", "const", "var", "function", "async", "await", "return", "if", "else", "while",
    "do", "for", "of", "in", "break", "continue", "throw", "try", "catch", "finally",
    "switch", "case", "default", "new", "typeof", "instanceof", "delete", "void", "true",
    "false", "null", "this", "class", "extends", "super", "yield", "import", "export",
    "from",
    "public", "private", "protected", "static", "final", "abstract", "synchronized",
    "volatile", "transient", "native", "throws", "implements", "interface", "package",
    "enum", "int", "long", "double", "float", "char", "boolean", "byte", "short", "System",
    "out", "println", "print", "printf", "Scanner", "ArrayList", "List", "HashMap", "Map",
    "Integer",
    "include", "iostream", "vector", "string", "std", "cout", "cin", "endl", "using",
    "namespace", "auto", "bool", "unsigned", "signed", "struct", "template", "typename",
    "sizeof", "nullptr",
    "console", "Math", "Array", "Number", "String", "BigInt", "JSON", "Object", "parseInt",
    "parseFloat", "isNaN", "Infinity", "NaN", "undefined", "Error", "__step", "__scope"]

/-- A letter or digit of ASCII, an underscore or a dollar sign. -/
def isWordMark (c : Char) : Bool :=
  c.isAlphanum || c == '_' || c == '$'

/-- The longest runs of word marks in a text; `run` is the one that is open, its latest
character first. -/
def wordsAfter (run : List Char) : List Char → List (List Char)
  | [] => if run.isEmpty then [] else [run.reverse]
  | c :: rest =>
    if isWordMark c then wordsAfter (c :: run) rest
    else if run.isEmpty then wordsAfter [] rest
    else run.reverse :: wordsAfter [] rest

/-- Whether a word may name a variable. -/
def isCandidate (word : List Char) : Bool :=
  ! word.head?.any Char.isDigit && ! reserved.contains (String.ofList word)

/-- The texts in order, each once. -/
def ordered (texts : List String) : List String :=
  (texts.mergeSort fun a b => a ≤ b).eraseReps

/-- The names that a step of the program may show. -/
def candidates (source : String) : List String :=
  ordered (((wordsAfter [] source.toList).filter isCandidate).map String.ofList)

end StepTrace.Capture
