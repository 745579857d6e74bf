import StepTrace.Text.Search
import StepTrace.Text.Blank

/-!
# Surface languages

Programs are written in one of three languages. JavaScript is the host language in which
programs are run; the other two are lowered to it first.
-/

namespace StepTrace

/-- A language in which a program may be written. -/
inductive Language where
  | javaScript
  | java
  | cpp
deriving DecidableEq, Repr

namespace Language

/-- All languages. -/
def all : List Language :=
  [.javaScript, .java, .cpp]

/-- Whether programs of the language run without being lowered. -/
def isHostNative (language : Language) : Bool :=
  language == .javaScript

/-- The identifier of the language. -/
def id : Language → String
  | .javaScript => "javascript"
  | .java => "java"
  | .cpp => "cpp"

/-- The version of the tools that run the language. -/
def version : Language → String
  | .javaScript => "18.15.0"
  | .java => "15.0.2"
  | .cpp => "10.2.0"

/-- The name of the language for readers. -/
def display : Language → String
  | .javaScript => "JavaScript"
  | .java => "Java"
  | .cpp => "C++"

/-- The letters of ASCII in lower case. -/
def lowerAscii (text : List Char) : String :=
  String.ofList (text.map Char.toLower)

/-- The language a user names, whatever the case and the blanks around it; else the name
that was not understood. -/
def ofName (name : String) : Except String Language :=
  let key := lowerAscii (Text.trim name.toList)
  if ["js", "javascript", "node"].contains key then .ok .javaScript
  else if key = "java" then .ok .java
  else if ["cpp", "c++", "cxx"].contains key then .ok .cpp
  else .error key

/-- The last part of a path, without slashes and dots that name the same place. -/
def fileName (path : List Char) : List Char :=
  let parts := Text.cut ['/'] path
  let named := parts.filter fun part => ! part.isEmpty && part != ['.']
  match named.getLast? with
  | none => []
  | some last => if last = ['.', '.'] then [] else last

/-- What follows the last point of a file name; nothing if there is no point behind the
first character. -/
def extension (name : List Char) : List Char :=
  let back := name.reverse
  let last := back.takeWhile (· ≠ '.')
  if back.length ≤ last.length + 1 then [] else last.reverse

/-- The language of a file, told from the extension of its name; else the extension that
was not understood. -/
def ofPath (path : String) : Except String Language :=
  let key := lowerAscii (extension (fileName path.toList))
  if ["js", "mjs", "cjs"].contains key then .ok .javaScript
  else if key = "java" then .ok .java
  else if ["cpp", "cc", "cxx", "hpp", "h"].contains key then .ok .cpp
  else .error key

/-- What is said about a language that is not understood. -/
def unsupportedMessage (name : String) : String :=
  s!"visualization is unsupported for language '{name}'"

end Language

end StepTrace
