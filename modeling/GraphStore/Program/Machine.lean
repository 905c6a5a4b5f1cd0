import GraphStore.Identifier
import GraphStore.Program.Basic

/-!
# Programs on the machine

A program is run with the files and processes of the machine.  It has the process for itself, so its
locks and gates are always free.
-/

namespace GraphStore

/-- What the handles of this process share. -/
structure Memory where
  /-- The handles that have a transaction in flight. -/
  live : List String := []
  /-- The handles whose transaction manager is active. -/
  active : List String := []

/-- Input and output with the memory of this process. -/
abbrev Machine (α : Type) : Type :=
  StateT Memory IO α

namespace Machine

/-- Whether an action can be done. -/
def succeeds (action : IO Unit) : IO Bool := do
  try
    action
    pure true
  catch _ => pure false

/-- Do an action that may meet a fault. -/
def orFault {α : Type} (action : IO α) : IO (Except Fault α) := do
  try
    pure (.ok (← action))
  catch
    | .noFileOrDirectory .. => pure (.error .missing)
    | _ => pure (.error .obstructed)

/-- A random number of sixteen bytes. -/
def randomNumber : IO Nat := do
  pure ((← IO.getRandomBytes 16).foldl (fun number byte => number * 256 + byte.toNat) 0)

/-- The content of a file that holds given bytes. -/
def contentOf (bytes : ByteArray) : Content :=
  match String.fromUTF8? bytes with
  | some text => .text text
  | none => .binary bytes.toList

/-- The bytes of a file with a given content. -/
def bytesOf : Content → ByteArray
  | .text value => value.toUTF8
  | .binary bytes => ⟨bytes.toArray⟩

/-- What stands at a path. -/
def kindAt (path : String) : IO (Option Kind) := do
  try
    let resolved ← IO.FS.realPath path
    pure (some (if ← resolved.isDir then .directory else .file))
  catch _ => pure none

/-- The names in a directory. -/
def namesIn (path : String) : IO (List String) := do
  let entries ← (← IO.FS.realPath path).readDir
  pure (entries.toList.map fun entry => entry.fileName)

/-- Take steps from a directory and make every directory that is missing on the way, unless only
dots follow its name. -/
def makeAlong (directory : String) : List Step → IO Bool
  | [] => pure true
  | step :: rest => do
    let next := Path.joinText directory step.text
    match ← kindAt next with
    | some .directory => makeAlong next rest
    | some .file => pure false
    | none =>
      if rest != [] && rest.all (· == .stay) then pure false
      else if ← succeeds (IO.FS.createDir next) then makeAlong next rest
      else pure false

/-- Make a directory and the directories above it. -/
def makeDirectories (path : Path) : IO Bool :=
  if path.isUsable then
    makeAlong (if path.text.toList.head? = some '/' then "/" else "") path.steps
  else pure false

/-- Replace a file by way of a temporary file. -/
def replaceFile (directory : Path) (name : String) (content : Content) : IO Replacement := do
  if ← makeDirectories directory.trimmed then
    let token := Identifier.token (← randomNumber)
    let temporary := (Replacement.temporary directory name token).text
    let replaced ← succeeds do
      IO.FS.writeBinFile temporary (bytesOf content)
      IO.FS.rename temporary (directory.child name).text
    if replaced then pure .done
    else
      let _ ← succeeds (IO.FS.removeFile temporary)
      pure .noFile
  else pure .noDirectory

/-- The directory that the system keeps for a process. -/
def processDirectory (process : String) : String :=
  "/proc/" ++ process

/-- The number of this process. -/
def ownNumber : IO Nat := do
  let status ← IO.FS.readFile (processDirectory "self/stat")
  pure (Text.digitsValue (Text.spanDigits status.toList).1)

/-- Add a handle to a set, or take it away. -/
def mark (handle : String) (present : Bool) (handles : List String) : List String :=
  if present then handle :: handles else handles.filter (· != handle)

/-- Do one action. -/
def perform : (action : Action) → Machine action.Answer
  | .read path => do
    pure ((← orFault (IO.FS.readBinFile path.text)).map contentOf)
  | .kind path => kindAt path.text
  | .list path => orFault (namesIn path.text)
  | .makeDirectories path => makeDirectories path
  | .replace directory name content => replaceFile directory name content
  | .rename source target => succeeds (IO.FS.rename source.text target.text)
  | .removeFile path => succeeds (IO.FS.removeFile path.text)
  | .removeDirectory path => succeeds (IO.FS.removeDir path.text)
  | .removeAll path => succeeds (IO.FS.removeDirAll path.text)
  | .fresh => randomNumber
  | .ownProcess => ownNumber
  | .isRunning process => do
    pure (← kindAt (processDirectory (Text.intText process))).isSome
  | .isLive handle => do
    pure ((← get).live.contains handle)
  | .setLive handle live =>
    modify fun memory => { memory with live := mark handle live memory.live }
  | .isActive handle => do
    pure ((← get).active.contains handle)
  | .setActive handle active =>
    modify fun memory => { memory with active := mark handle active memory.active }
  | .acquire .. | .release .. | .enter .. | .leave .. => pure ()

/-- Run a program. -/
def interpret {α : Type} : Program α → Machine α
  | .done value => pure value
  | .act action next => do
    let answer ← perform action
    interpret (next answer)

end Machine
end GraphStore
