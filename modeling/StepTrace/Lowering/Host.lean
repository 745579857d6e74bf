import StepTrace.Lowering.Java
import StepTrace.Lowering.Cpp
import StepTrace.Text.Lines

/-!
# Host programs

A host program is the text of a program in the host language. Text in a surface language
becomes one by the passes of that language; then the class around a Java program is
blanked out, and a declared but never called entry function gets a call at the end.

* `toHost` lowers a program text.
* `length_unwrapLines`: blanking the class keeps the number of lines.
-/

namespace StepTrace.Lowering

open Pattern

/-- The rules of a language; programs in the host language need none. -/
def ruleset? : Language → Option Ruleset
  | .javaScript => none
  | .java => some java
  | .cpp => some cpp

/-! ## The class around a program -/

/-- A line that opens a class. -/
def classHeader : Pattern :=
  chain [.anchor .textStart, gap, literal "class", space, word, .run 0 (notIn "\x7b"),
    literal "\x7b", gap, .anchor .textEnd]

/-- Whether a line opens a class, carriage returns at its end aside. -/
def opensClass (line : List Char) : Bool :=
  classHeader.occursIn (line.reverse.dropWhile (· == '\r')).reverse

/-- Whether a line has a closing brace only. -/
def closesClass (line : List Char) : Bool :=
  Text.trim line = ['}']

/-- The lines with the first line that opens a class and the last one that has a closing
brace only blanked out, if they stand in this order. -/
def unwrapLines (lines : List (List Char)) : List (List Char) :=
  match lines.findIdx? opensClass, lines.reverse.findIdx? closesClass with
  | some first, some fromEnd =>
    let last := lines.length - 1 - fromEnd
    if last ≤ first then lines else (lines.set first []).set last []
  | _, _ => lines

theorem length_unwrapLines (lines : List (List Char)) :
    (unwrapLines lines).length = lines.length := by
  unfold unwrapLines
  split
  · dsimp only
    split <;> simp
  · rfl

/-- The text without the class around it. -/
def unwrapClass (text : List Char) : List Char :=
  Text.joinLines (unwrapLines (Text.splitLines text))

/-! ## The entry function -/

/-- A declaration of the function. -/
def declares (name : String) : Pattern :=
  chain [edge, literal "function", space, literal name, gap, literal "("]

/-- The name of the function with an opening parenthesis behind it. -/
def mentions (name : String) : Pattern :=
  chain [edge, literal name, gap, literal "("]

/-- The text with a call of the entry function at its end, if the function is declared
and its name has no second mention. -/
def callEntry (name : String) (text : List Char) : List Char :=
  if ! (declares name).occursIn text || ((mentions name).findAll text).length > 1 then text
  else Text.trimEnd text ++ "\nawait ".toList ++ name.toList ++ "();\n".toList

/-! ## Host programs -/

/-- A program text in the host language and the language it was written in. -/
structure HostProgram where
  language : Language
  source : String
deriving DecidableEq

/-- The effect of all passes and of the two steps behind them. -/
def Ruleset.run (rules : Ruleset) (text : List Char) : List Char :=
  let text := rules.passes.foldl (fun text pass => pass.run text) text
  let text := if rules.unwrapEntryClass then unwrapClass text else text
  match rules.entryFunction with
  | some name => callEntry name text
  | none => text

/-- The host program of a text in a surface language. -/
def toHost (source : String) (language : Language) : HostProgram :=
  match ruleset? language with
  | none => ⟨language, source⟩
  | some rules => ⟨language, String.ofList (rules.run source.toList)⟩

theorem toHost_javaScript (source : String) : toHost source .javaScript = ⟨.javaScript, source⟩ :=
  rfl

end StepTrace.Lowering
