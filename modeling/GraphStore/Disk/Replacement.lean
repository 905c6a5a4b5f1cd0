import GraphStore.Disk.Location

/-!
# Replacing files

A file is replaced as a whole: its directory is made if necessary, the new content is written to a
temporary file beside the target, and the temporary file is renamed to the target.  Seen from
outside this is one step.
-/

namespace GraphStore

/-- How the replacement of a file ends. -/
inductive Replacement where
  /-- The file has its new content. -/
  | done
  /-- The directory could not be made. -/
  | noDirectory
  /-- The file could not be written. -/
  | noFile
  deriving DecidableEq

namespace Replacement

/-- The name of a temporary entry beside a target, told apart by a token. -/
def temporaryName (name token : String) : String :=
  "." ++ name ++ "." ++ token ++ ".tmp"

/-- The length of the tokens that tell temporary entries apart. -/
def tokenLength : Nat := 32

/-- The temporary path beside a target in a directory. -/
def temporary (directory : Path) (name token : String) : Path :=
  directory.trimmed.child (temporaryName name token)

/-- Whether the temporary paths beside a target are short enough. -/
def hasTemporary (directory : Path) (name : String) : Bool :=
  let token := String.ofList (List.replicate tokenLength '0')
  Tree.fits (temporaryName name token) && (temporary directory name token).isUsable

end Replacement

/-- Replace a file in one step, making its directory if necessary. -/
def Tree.replace (tree : Tree) (directory : Path) (name : String) (content : Content) :
    Replacement × Tree :=
  let (made, withDirectory) := tree.makeDirectoriesAt directory.trimmed
  if !made then (.noDirectory, withDirectory)
  else
    match withDirectory.locate (directory.child name) with
    | .ok target =>
      if Replacement.hasTemporary directory name && withDirectory.acceptsFile target then
        (.done, withDirectory.update target (some (.file content)))
      else (.noFile, withDirectory)
    | .error _ => (.noFile, withDirectory)

end GraphStore
