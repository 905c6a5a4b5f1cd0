import GraphStore.Text.Search

/-!
# Paths

A path is kept as it was written, for messages, together with the steps that lead to its target.
Whether the steps can be taken depends on the tree in which they are taken.
-/

namespace GraphStore

/-- One part of a written path. -/
inductive Step where
  /-- To an entry of the directory. -/
  | down (name : String)
  /-- To the directory itself, written as a dot. -/
  | stay
  /-- To the directory above, written as two dots. -/
  | up
  deriving DecidableEq

namespace Step

/-- The step that a part of a path stands for; an empty part stands for none. -/
def ofText? (part : String) : Option Step :=
  if part = "" then none
  else if part = "." then some stay
  else if part = ".." then some up
  else some (down part)

/-- The written form of a step. -/
def text : Step → String
  | down name => name
  | stay => "."
  | up => ".."

/-- Whether a step leads to an entry by its name. -/
def isDown : Step → Bool
  | down _ => true
  | _ => false

/-- The names from the root after a step, given those before it. -/
def follow (place : List String) : Step → List String
  | down name => place ++ [name]
  | stay => place
  | up => place.dropLast

end Step

/-- A path to a file or a directory. -/
structure Path where
  /-- The written form. -/
  text : String
  /-- The steps to the target. -/
  steps : List Step
  /-- Whether the written form ends in a slash, which only a path to a directory may. -/
  endsInSlash : Bool
  deriving DecidableEq

namespace Path

/-- Whether a written path ends in a slash. -/
def textEndsInSlash (text : String) : Bool :=
  text.toList.getLast? == some '/'

/-- The steps of a written path. -/
def stepsOfText (text : String) : List Step :=
  (Text.splitAt '/' text.toList).filterMap fun part => Step.ofText? (String.ofList part)

/-- Read a written path. -/
def ofText (text : String) : Path :=
  ⟨text, stepsOfText text, textEndsInSlash text⟩

/-- The written form of a path with another one below it. -/
def joinText (base name : String) : String :=
  if base = "" ∨ textEndsInSlash base then base ++ name else base ++ "/" ++ name

/-- The entry of a given name in a directory. -/
def child (base : Path) (name : String) : Path :=
  ⟨joinText base.text name, base.steps ++ [.down name], false⟩

/-- A written path taken relative to a base, unless it starts with a slash. -/
def join (base : Path) (text : String) : Path :=
  if text.toList.head? = some '/' then ofText text
  else
    let joined := joinText base.text text
    ⟨joined, base.steps ++ stepsOfText text, textEndsInSlash joined⟩

/-- The written form without slashes and dots at its end; one of the root or of the directory itself
remains. -/
def trimText (text : String) : String :=
  let parts := (Text.splitAt '/' text.toList).map String.ofList
  let kept := (parts.reverse.dropWhile fun part => part = "" ∨ part = ".").reverse
  if kept = [] then String.ofList (text.toList.take 1) else Text.joinWith "/" kept

/-- The same path without slashes and dots at its end. -/
def trimmed (path : Path) : Path :=
  ⟨trimText path.text, (path.steps.reverse.dropWhile (· == .stay)).reverse, false⟩

/-- How many bytes a written path may have. -/
def lengthLimit : Nat := 4095

/-- Whether a path may be asked for: it is not too long and holds no NUL. -/
def isUsable (path : Path) : Bool :=
  path.text.utf8ByteSize ≤ lengthLimit && !path.text.toList.contains '\x00'

/-- Whether the last step leads to an entry by its name, so that the entry can be made, moved or
removed. -/
def namesEntry (path : Path) : Bool :=
  path.steps.getLast?.any Step.isDown

end Path
end GraphStore
