import GraphStore.SortedMap

/-!
# Directory trees

A disk is a tree of directories and files.  A place in it is the list of names from the root.  Every
operation takes a place, answers whether it could be done, and leaves the tree as it was if not.
-/

namespace GraphStore

/-- What a file holds: text, or bytes that are no text. -/
inductive Content where
  | text (value : String)
  | binary (bytes : List UInt8)
  deriving DecidableEq

/-- A file, or a directory with its entries in the order of their names. -/
inductive Tree where
  | file (content : Content)
  | directory (entries : List (String × Tree))

/-- Why an entry cannot be used. -/
inductive Fault where
  /-- There is no such entry. -/
  | missing
  /-- A file stands where a directory is needed or the reverse, or a name is too long. -/
  | obstructed
  deriving DecidableEq

/-- What an entry is. -/
inductive Kind where
  | file
  | directory
  deriving DecidableEq

namespace Tree

/-- The directory without entries. -/
def emptyDirectory : Tree :=
  directory []

instance : Inhabited Tree :=
  ⟨emptyDirectory⟩

/-- Whether an entry is a file or a directory. -/
def kind : Tree → Kind
  | file _ => .file
  | directory _ => .directory

/-- The entries of a directory; a file has none. -/
def entries : Tree → List (String × Tree)
  | file _ => []
  | directory entries => entries

/-! ## Names -/

/-- How many bytes a name may have. -/
def nameLimit : Nat := 255

/-- Whether a name is short enough to be an entry. -/
def fits (name : String) : Bool :=
  name.utf8ByteSize ≤ nameLimit

/-! ## Looking up -/

/-- The entry at a place. -/
def find : Tree → List String → Except Fault Tree
  | tree, [] => .ok tree
  | file _, _ :: _ => .error .obstructed
  | directory entries, name :: rest =>
    if fits name then
      match entries.lookup name with
      | none => .error .missing
      | some entry => entry.find rest
    else
      .error .obstructed

/-- What stands at a place, if anything. -/
def kind? (tree : Tree) (place : List String) : Option Kind :=
  match tree.find place with
  | .ok entry => some entry.kind
  | .error _ => none

/-- The content of the file at a place. -/
def read (tree : Tree) (place : List String) : Except Fault Content :=
  match tree.find place with
  | .ok (file content) => .ok content
  | .ok (directory _) => .error .obstructed
  | .error fault => .error fault

/-- The names in the directory at a place. -/
def list (tree : Tree) (place : List String) : Except Fault (List String) :=
  match tree.find place with
  | .ok (directory entries) => .ok (entries.map Prod.fst)
  | .ok (file _) => .error .obstructed
  | .error fault => .error fault

/-! ## Changing -/

/-- Put an entry under a name, or take the name away. -/
def setEntry (name : String) (entry : Option Tree) (entries : List (String × Tree)) :
    List (String × Tree) :=
  match entry with
  | some entry => SortedMap.insertEntry name entry entries
  | none => entries.filter fun other => other.1 != name

/-- Put an entry at a place whose directory exists, or take the entry away. -/
def update : Tree → List String → Option Tree → Tree
  | file content, _, _ => file content
  | directory entries, [], _ => directory entries
  | directory entries, [name], entry => directory (setEntry name entry entries)
  | directory entries, name :: next :: rest, entry =>
    match entries.lookup name with
    | none => directory entries
    | some child =>
      directory (SortedMap.insertEntry name (child.update (next :: rest) entry) entries)

/-- Whether a file can be put at a place: its directory exists, and the place is free or a file. -/
def acceptsFile (tree : Tree) (place : List String) : Bool :=
  place != [] && tree.kind? place.dropLast == some .directory &&
    match tree.find place with
    | .ok entry => entry.kind == .file
    | .error fault => fault == .missing

/-- Write a file in an existing directory. -/
def write (tree : Tree) (place : List String) (content : Content) : Bool × Tree :=
  if tree.acceptsFile place then (true, tree.update place (some (file content)))
  else (false, tree)

/-- Remove a file. -/
def removeFile (tree : Tree) (place : List String) : Bool × Tree :=
  match tree.find place with
  | .ok (file _) => (true, tree.update place none)
  | _ => (false, tree)

/-- Remove an empty directory. -/
def removeDirectory (tree : Tree) (place : List String) : Bool × Tree :=
  match place, tree.find place with
  | _ :: _, .ok (directory []) => (true, tree.update place none)
  | _, _ => (false, tree)

/-- Remove a directory with all that it holds. -/
def removeAll (tree : Tree) (place : List String) : Bool × Tree :=
  match place, tree.find place with
  | _ :: _, .ok (directory _) => (true, tree.update place none)
  | _, _ => (false, tree)

/-- Whether an entry may take the place of what stands at a place. -/
def accepts (tree : Tree) (place : List String) : Tree → Bool
  | file _ => tree.acceptsFile place
  | directory _ =>
    place != [] && tree.kind? place.dropLast == some .directory &&
      match tree.find place with
      | .ok entry => entry.kind == .directory && entry.entries.isEmpty
      | .error fault => fault == .missing

/-- Move an entry to another place.  A directory cannot be moved into itself. -/
def rename (tree : Tree) (source target : List String) : Bool × Tree :=
  match source, tree.find source with
  | _ :: _, .ok entry =>
    if source = target then (true, tree)
    else if !source.isPrefixOf target && tree.accepts target entry then
      (true, (tree.update source none).update target (some entry))
    else (false, tree)
  | _, _ => (false, tree)

end Tree
end GraphStore
