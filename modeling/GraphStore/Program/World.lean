import GraphStore.Lock.Registry
import GraphStore.Program.Basic

/-!
# Worlds

A world is all that programs act on: the disk, the running processes, and the memory that the
handles of one process share.  A program runs in a world action by action; several programs run
together by taking turns, where an action that has to wait for a lock or a gate is not enabled.
-/

namespace GraphStore

/-- The gate of a handle: who is inside. -/
structure Gate where
  /-- How many are inside together. -/
  together : Nat := 0
  /-- Whether someone is inside alone. -/
  alone : Bool := false
  deriving DecidableEq

/-- All that programs act on. -/
structure World where
  /-- The files and directories. -/
  disk : Tree := .emptyDirectory
  /-- The next number to be drawn. -/
  nextNumber : Nat := 0
  /-- The number of this process. -/
  process : Nat := 2
  /-- The numbers of the other running processes. -/
  running : List Nat := [1]
  /-- The handles of this process that have a transaction in flight. -/
  live : List String := []
  /-- The handles whose transaction manager is active. -/
  active : List String := []
  /-- The lock registries by name. -/
  registries : SortedMap LockRegistry := .empty
  /-- The gates by handle. -/
  gates : SortedMap Gate := .empty

namespace World

/-- Add a member to a set, or take it away. -/
def setMember (member : String) (present : Bool) (members : List String) : List String :=
  if present then
    if members.contains member then members else member :: members
  else members.filter (· != member)

/-- The lock registry of a name. -/
def registry (world : World) (name : String) : LockRegistry :=
  (world.registries.get? name).getD {}

/-- Change the lock registry of a name. -/
def changeRegistry (world : World) (name : String) (change : LockRegistry → LockRegistry) :
    World :=
  { world with registries := world.registries.insert name (change (world.registry name)) }

/-- The gate of a handle. -/
def gate (world : World) (handle : String) : Gate :=
  (world.gates.get? handle).getD {}

/-- Change the gate of a handle. -/
def changeGate (world : World) (handle : String) (change : Gate → Gate) : World :=
  { world with gates := world.gates.insert handle (change (world.gate handle)) }

/-- Do something to the disk and keep its answer. -/
def onDisk {α : Type} (world : World) (change : Tree → α × Tree) : α × World :=
  let (answer, disk) := change world.disk
  (answer, { world with disk })

/-- The answer to an action, and the world after it. -/
def perform (world : World) : (action : Action) → action.Answer × World
  | .read path => (world.disk.readAt path, world)
  | .kind path => (world.disk.kindAt? path, world)
  | .list path => (world.disk.listAt path, world)
  | .makeDirectories path => world.onDisk fun disk => disk.makeDirectoriesAt path
  | .replace directory name content =>
    world.onDisk fun disk => disk.replace directory name content
  | .rename source target => world.onDisk fun disk => disk.renameAt source target
  | .removeFile path => world.onDisk fun disk => disk.removeFileAt path
  | .removeDirectory path => world.onDisk fun disk => disk.removeDirectoryAt path
  | .removeAll path => world.onDisk fun disk => disk.removeAllAt path
  | .fresh => (world.nextNumber, { world with nextNumber := world.nextNumber + 1 })
  | .ownProcess => (world.process, world)
  | .isRunning process => (process == world.process || world.running.contains process, world)
  | .isLive handle => (world.live.contains handle, world)
  | .setLive handle live => ((), { world with live := setMember handle live world.live })
  | .isActive handle => (world.active.contains handle, world)
  | .setActive handle active =>
    ((), { world with active := setMember handle active world.active })
  | .acquire name resource => ((), world.changeRegistry name fun locks => locks.acquire resource)
  | .release name resource => ((), world.changeRegistry name fun locks => locks.release resource)
  | .enter handle alone =>
    ((), world.changeGate handle fun gate =>
      if alone then { gate with alone := true } else { gate with together := gate.together + 1 })
  | .leave handle alone =>
    ((), world.changeGate handle fun gate =>
      if alone then { gate with alone := false } else { gate with together := gate.together - 1 })

/-- Whether an action can be done now, or has to wait. -/
def enabled (world : World) : Action → Bool
  | .acquire name resource => !(world.registry name).isHeld resource
  | .enter handle alone =>
    let gate := world.gate handle
    !gate.alone && (!alone || gate.together == 0)
  | _ => true

/-- Run a program to its end. -/
def run {α : Type} (world : World) : Program α → α × World
  | .done value => (value, world)
  | .act action next =>
    let (answer, world) := world.perform action
    world.run (next answer)

/-- The worlds after each action of a program. -/
def trace {α : Type} (world : World) : Program α → List World
  | .done _ => []
  | .act action next =>
    let (answer, world) := world.perform action
    world :: world.trace (next answer)

/-- Let one of several programs do its next action, if it has one that is enabled. -/
def turn? {α : Type} (world : World) (programs : List (Program α)) (index : Nat) :
    Option (World × List (Program α)) :=
  match programs[index]? with
  | some (.act action next) =>
    if world.enabled action then
      let (answer, world) := world.perform action
      some (world, programs.set index (next answer))
    else none
  | _ => none

/-- Let programs take turns in a given order. -/
def interleave? {α : Type} (world : World) (programs : List (Program α)) :
    List Nat → Option (World × List (Program α))
  | [] => some (world, programs)
  | index :: rest =>
    match world.turn? programs index with
    | some (world, programs) => world.interleave? programs rest
    | none => none

@[simp]
theorem run_done {α : Type} (world : World) (value : α) :
    world.run (.done value) = (value, world) := rfl

theorem run_bind {α β : Type} (world : World) (program : Program α) (next : α → Program β) :
    world.run (program.bind next) =
      (world.run program).2.run (next (world.run program).1) := by
  induction program generalizing world with
  | done value => rfl
  | act action rest ih => simp [Program.bind, run, ih]

end World
end GraphStore
