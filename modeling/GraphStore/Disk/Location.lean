import GraphStore.Disk.Path
import GraphStore.Disk.Tree

/-!
# Paths in a tree

A path leads to a place step by step, and every step starts from a directory that exists.  The
operations on places become operations on paths: those that look at an entry follow the whole path,
those that make, move or remove an entry want a path that names it.
-/

namespace GraphStore
namespace Tree

/-! ## Following a path -/

/-- The place to which steps lead from another one.  Every step starts from a directory. -/
def follow (tree : Tree) : List String → List Step → Except Fault (List String)
  | place, [] => .ok place
  | place, step :: rest =>
    match tree.find place with
    | .ok (directory _) => tree.follow (step.follow place) rest
    | .ok (file _) => .error .obstructed
    | .error fault => .error fault

/-- The place to which a path leads, whether or not there is an entry.  The blank path leads
nowhere. -/
def locate (tree : Tree) (path : Path) : Except Fault (List String) :=
  if !path.isUsable then .error .obstructed
  else if path.text = "" then .error .missing
  else tree.follow [] path.steps

/-- The entry at a path.  A slash at the end counts as a step to the directory itself. -/
def findAt (tree : Tree) (path : Path) : Except Fault Tree :=
  match tree.locate path with
  | .error fault => .error fault
  | .ok place =>
    match tree.find place with
    | .ok (file content) =>
      if path.endsInSlash then .error .obstructed else .ok (file content)
    | entry => entry

/-- What stands at a path, if anything. -/
def kindAt? (tree : Tree) (path : Path) : Option Kind :=
  match tree.findAt path with
  | .ok entry => some entry.kind
  | .error _ => none

/-- The content of the file at a path. -/
def readAt (tree : Tree) (path : Path) : Except Fault Content :=
  match tree.findAt path with
  | .ok (file content) => .ok content
  | .ok (directory _) => .error .obstructed
  | .error fault => .error fault

/-- The names in the directory at a path. -/
def listAt (tree : Tree) (path : Path) : Except Fault (List String) :=
  match tree.findAt path with
  | .ok (directory entries) => .ok (entries.map Prod.fst)
  | .ok (file _) => .error .obstructed
  | .error fault => .error fault

/-! ## Changing entries -/

/-- Change the tree at the place of an entry, if a path names one. -/
def changeAt (tree : Tree) (path : Path) (change : List String → Bool × Tree) : Bool × Tree :=
  match tree.locate path with
  | .ok place => if path.namesEntry then change place else (false, tree)
  | .error _ => (false, tree)

/-- Write a file in an existing directory. -/
def writeAt (tree : Tree) (path : Path) (content : Content) : Bool × Tree :=
  if path.endsInSlash then (false, tree)
  else tree.changeAt path fun place => tree.write place content

/-- Remove a file. -/
def removeFileAt (tree : Tree) (path : Path) : Bool × Tree :=
  if path.endsInSlash then (false, tree)
  else tree.changeAt path fun place => tree.removeFile place

/-- Remove an empty directory. -/
def removeDirectoryAt (tree : Tree) (path : Path) : Bool × Tree :=
  tree.changeAt path fun place => tree.removeDirectory place

/-- Remove a directory with all that it holds.  A directory that the path does not name loses what
it holds, but stays. -/
def removeAllAt (tree : Tree) (path : Path) : Bool × Tree :=
  match tree.locate path with
  | .ok place =>
    if path.namesEntry then tree.removeAll place
    else (false, if place = [] then emptyDirectory else tree.update place (some emptyDirectory))
  | .error _ => (false, tree)

/-- Whether an entry may be moved from one path to another as far as their written forms say: they
name entries, and a file does not end in a slash. -/
def mayRename (entry : Except Fault Tree) (source target : Path) : Bool :=
  source.namesEntry && target.namesEntry &&
    match entry with
    | .ok (file _) => !source.endsInSlash && !target.endsInSlash
    | _ => true

/-- Move an entry to another path. -/
def renameAt (tree : Tree) (source target : Path) : Bool × Tree :=
  match tree.locate source, tree.locate target with
  | .ok origin, .ok goal =>
    if mayRename (tree.find origin) source target then tree.rename origin goal else (false, tree)
  | _, _ => (false, tree)

/-! ## Making directories -/

/-- Take steps from a directory and make every directory that is missing on the way; the flag says
whether all steps were taken.  A directory is not made if only dots follow its name. -/
def makeAlong : Tree → List String → List Step → Bool × Tree
  | tree, _, [] => (true, tree)
  | tree, place, step :: rest =>
    let next := step.follow place
    match tree.find next with
    | .ok (directory _) => tree.makeAlong next rest
    | .error .missing =>
      if rest != [] && rest.all (· == .stay) then (false, tree)
      else (tree.update next (some emptyDirectory)).makeAlong next rest
    | _ => (false, tree)

/-- Make a directory and the directories above it; those that were made stay even if not all can be
made.  The blank path stands for the directory in which paths start. -/
def makeDirectoriesAt (tree : Tree) (path : Path) : Bool × Tree :=
  if path.isUsable then tree.makeAlong [] path.steps else (false, tree)

end Tree
end GraphStore
