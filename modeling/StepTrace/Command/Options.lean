import StepTrace.Number.Reading

/-!
# Reading the command line

A command names a file and says what is to be produced from it. Options may stand before
and behind the file, each at most once; the value of an option stands behind an equals sign
or is the next argument. Arguments behind `--` are no options.

* `Options.read`: the command that arguments make up, or why they make up none.
-/

namespace StepTrace.Command

/-- What is produced. -/
inductive Product where
  /-- The viewer on a terminal. -/
  | viewer
  | trace
  | report
  | host
  | instrumented
deriving DecidableEq, Repr

/-- The word for a product. -/
def Product.word : Product → String
  | .viewer => "tui"
  | .trace => "trace"
  | .report => "report"
  | .host => "host"
  | .instrumented => "instrumented"

/-- What the product is. -/
def Product.help : Product → String
  | .viewer => "Interactive trace viewer"
  | .trace => "Run report as JSON"
  | .report => "Structure report as JSON"
  | .host => "Transpiled host program"
  | .instrumented => "Host program with its capture points marked"

/-- All products. -/
def Product.all : List Product :=
  [.viewer, .trace, .report, .host, .instrumented]

/-- The product that a word stands for. -/
def Product.ofWord? (word : String) : Option Product :=
  Product.all.find? fun product => product.word == word

/-- Why arguments make up no command. -/
inductive Rejection where
  | usage
  | help (long : Bool)
deriving DecidableEq, Repr

/-- What the arguments have said so far. -/
structure Partial where
  path : Option String
  language : Option String
  product : Option Product
  maxSteps : Option Nat

/-- A command. -/
structure Options where
  path : String
  language : Option String
  product : Product
  maxSteps : Nat
deriving DecidableEq, Repr

/-- The steps after which a run is stopped if nothing else is said. -/
def defaultMaxSteps : Nat := 10000

/-- Puts in what may be said only once. -/
def once {α : Type} (old : Option α) (new : α) : Except Rejection (Option α) :=
  match old with
  | none => .ok (some new)
  | some _ => .error .usage

/-- Takes the argument that names the file. -/
def Partial.addPath (said : Partial) (path : String) : Except Rejection Partial := do
  if path.isEmpty then throw .usage
  return { said with path := ← once said.path path }

/-- Takes an option with its value. -/
def Partial.addOption (said : Partial) (name value : String) : Except Rejection Partial :=
  match name with
  | "lang" => do
    return { said with language := ← once said.language value }
  | "emit" =>
    match Product.ofWord? value with
    | some product => do
      return { said with product := ← once said.product product }
    | none => .error .usage
  | "max-steps" =>
    match Number.readCount? 10 value.toList with
    | some n => do
      return { said with maxSteps := ← once said.maxSteps n }
    | none => .error .usage
  | _ => .error .usage

/-- Whether an option of that name exists. -/
def isOption (name : String) : Bool :=
  ["lang", "emit", "max-steps"].contains name

/-- The forms of an argument. -/
inductive Argument where
  | plain (text : String)
  /-- The name of an option, with what stands behind the equals sign. -/
  | option (name : String) (value : Option String)
  | short (letters : List Char)
  | endOfOptions
deriving DecidableEq, Repr

/-- The form of an argument. A dash by itself is plain text. -/
def Argument.ofText (text : String) : Argument :=
  match text.toList with
  | '-' :: '-' :: name =>
    let key := name.takeWhile (· ≠ '=')
    if name.isEmpty then .endOfOptions
    else if key.length = name.length then .option (String.ofList name) none
    else .option (String.ofList key) (some (String.ofList (name.drop (key.length + 1))))
  | '-' :: c :: rest => .short (c :: rest)
  | _ => .plain text

/-- Takes arguments none of which is an option. -/
def Partial.addPaths (said : Partial) : List String → Except Rejection Partial
  | [] => .ok said
  | path :: rest => do
    addPaths (← said.addPath path) rest

/-- Takes arguments one after the other. -/
def Partial.addAll (said : Partial) : List String → Except Rejection Partial
  | [] => .ok said
  | text :: rest =>
    match Argument.ofText text with
    | .plain path => do
      addAll (← said.addPath path) rest
    | .endOfOptions => said.addPaths rest
    | .short letters => .error (if letters.head? = some 'h' then .help false else .usage)
    | .option "help" none => .error (.help true)
    | .option name (some value) => do
      addAll (← said.addOption name value) rest
    | .option name none =>
      match rest with
      | [] => .error .usage
      | value :: rest =>
        match Argument.ofText value with
        | .plain value => do
          if isOption name then addAll (← said.addOption name value) rest
          else throw .usage
        | _ => .error .usage

/-- The command that arguments make up. -/
def Options.read (args : List String) : Except Rejection Options := do
  let said ← Partial.addAll ⟨none, none, none, none⟩ args
  match said.path with
  | none => throw .usage
  | some path =>
    return ⟨path, said.language, said.product.getD .viewer,
      said.maxSteps.getD defaultMaxSteps⟩

/-- The limit on the steps of a run; zero stands for no limit. -/
def Options.limit (options : Options) : Option Nat :=
  if options.maxSteps = 0 then none else some options.maxSteps

end StepTrace.Command
