/-!
# Files and paths

A tree of files, and how a path leads through it. A path is followed name by name from the
working directory, or from the root if it begins with a slash; every name but the last has to
lead to a directory. Paths and names have a greatest length.

* `mem_of_read`: a text that is read belongs to a file of the tree.
-/

namespace StepTrace.Command

/-- Why a file cannot be read. -/
inductive ReadFailure where
  | missing
  | notDirectory
  | isDirectory
  | denied
  | nameTooLong
  | notText
deriving DecidableEq, Repr

/-- A place in a tree: the names that lead to it from the root. -/
abbrev Place := List String

/-- A tree of files: the text of each, the directories that are there without them, and the
working directory. -/
structure FileTree where
  files : List (Place × String)
  directories : List Place
  working : Place

namespace FileTree

/-- The number of bytes that a path has to stay below. -/
def pathLimit : Nat := 4096

/-- The greatest number of bytes of a name. -/
def nameLimit : Nat := 255

/-- Whether there is a directory at the place. Every place on the way to a file is one. -/
def isDirectory (tree : FileTree) (place : Place) : Bool :=
  (tree.working :: tree.directories).any (place.isPrefixOf ·) ||
    tree.files.any fun file => place.isPrefixOf file.1 && place != file.1

/-- Where a name leads from a place. -/
def step (tree : FileTree) (place : Place) (name : String) : Except ReadFailure Place :=
  if ! tree.isDirectory place then .error .notDirectory
  else if name = "" ∨ name = "." then .ok place
  else if name = ".." then .ok place.dropLast
  else if name.utf8ByteSize > nameLimit then .error .nameTooLong
  else
    let next := place ++ [name]
    if tree.isDirectory next || (tree.files.lookup next).isSome then .ok next
    else .error .missing

/-- Where a path leads. -/
def follow (tree : FileTree) (path : String) : Except ReadFailure Place :=
  if path.utf8ByteSize ≥ pathLimit then .error .nameTooLong
  else if path = "" then .error .missing
  else (path.splitOn "/").foldlM tree.step (if path.startsWith "/" then [] else tree.working)

/-- The text of a file. -/
def textAt (tree : FileTree) (place : Place) : Except ReadFailure String :=
  match tree.files.lookup place with
  | some text => .ok text
  | none => .error .isDirectory

/-- The text of the file that a path leads to. -/
def read (tree : FileTree) (path : String) : Except ReadFailure String := do
  tree.textAt (← tree.follow path)

theorem mem_of_lookup {files : List (Place × String)} {place : Place} {text : String}
    (h : files.lookup place = some text) : (place, text) ∈ files := by
  induction files with
  | nil => simp at h
  | cons file rest ih =>
    obtain ⟨there, content⟩ := file
    rw [List.lookup_cons] at h
    split at h
    · rename_i same
      simp_all
    · exact List.mem_cons_of_mem _ (ih h)

theorem mem_of_read {tree : FileTree} {path text : String} (h : tree.read path = .ok text) :
    ∃ place, tree.follow path = .ok place ∧ (place, text) ∈ tree.files := by
  unfold read at h
  cases hf : tree.follow path with
  | error failure => simp [hf, bind, Except.bind] at h
  | ok place =>
    simp only [hf, bind, Except.bind, textAt] at h
    split at h
    · rename_i found hl
      cases h
      exact ⟨place, rfl, mem_of_lookup hl⟩
    · cases h

end FileTree

end StepTrace.Command
