import GraphStore.Disk.Replacement

/-!
# Stages of a replacement

The replacement of a file passes through several trees: directories are made one after the other, a
temporary file is created and written, and it takes the place of the target or is removed.
`Replacement.stages` shows them all, for a target that is given by any path; `Tree.replace` is what
comes of them.
-/

namespace GraphStore

namespace Path

/-- The part of a written path up to its last slash. -/
def frontText (text : String) : String :=
  let front := (Text.splitAt '/' text.toList).dropLast.map String.ofList
  if front = [] then "" else Text.joinWith "/" front ++ "/"

/-- The directory of the entry at a path.  A path without steps has the one in which paths start. -/
def parent (path : Path) : Path :=
  match path.trimmed.steps with
  | [] => ⟨if path.trimmed.text = "." then "" else ".", [], false⟩
  | steps => ⟨frontText path.trimmed.text, steps.dropLast, false⟩

/-- The name of the entry at a path, which is blank if the path does not end in a name. -/
def fileName (path : Path) : String :=
  match path.trimmed.steps.getLast? with
  | some (.down name) => name
  | _ => ""

end Path

namespace Tree

/-- The trees after each directory that is made along steps. -/
def makings : Tree → List String → List Step → List Tree
  | _, _, [] => []
  | tree, place, step :: rest =>
    let next := step.follow place
    match tree.find next with
    | .ok (directory _) => tree.makings next rest
    | .error .missing =>
      if rest != [] && rest.all (· == .stay) then []
      else
        let made := tree.update next (some emptyDirectory)
        made :: made.makings next rest
    | _ => []

/-- The trees after each directory that is made for a path. -/
def makingsAt (tree : Tree) (path : Path) : List Tree :=
  if path.isUsable then tree.makings [] path.steps else []

end Tree

/-- How the replacement of a target ends, and the trees after each of its steps. -/
def Replacement.stages (tree : Tree) (target : Path) (token : String) (content : Content) :
    Replacement × List Tree :=
  let directory := target.parent
  let temporary := temporary directory target.fileName token
  let makings := tree.makingsAt directory.trimmed
  let (made, withDirectory) := tree.makeDirectoriesAt directory.trimmed
  if !made then (noDirectory, makings)
  else
    let (created, withEmpty) := withDirectory.writeAt temporary (.text "")
    if !created then (noFile, makings ++ [(withDirectory.removeFileAt temporary).2])
    else
      let (_, withContent) := withEmpty.writeAt temporary content
      let (renamed, replaced) := withContent.renameAt temporary target
      if renamed then (done, makings ++ [withEmpty, withContent, replaced])
      else (noFile, makings ++ [withEmpty, withContent, (withContent.removeFileAt temporary).2])

end GraphStore
