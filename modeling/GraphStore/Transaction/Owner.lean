import GraphStore.Json.Reader
import GraphStore.Json.Record
import GraphStore.Json.Writer
import GraphStore.Program.Basic

/-!
# Owners of workspaces

Every workspace holds a marker that names the process and the handle that made it.
-/

namespace GraphStore

/-- Who made a workspace. -/
structure Owner where
  /-- The number of the process. -/
  process : Nat
  /-- The id of the handle. -/
  handle : String
  deriving DecidableEq

namespace Owner

/-- The file of the marker. -/
def file : String := "owner.json"

/-- The JSON form. -/
def toJson (owner : Owner) : Json :=
  .object [("pid", .integer (Int64.ofNat owner.process)), ("handle", .text owner.handle)]

/-- The number of a process, which has 32 bits. -/
def processOfJson? : Json → Option Nat
  | .integer number =>
    if 0 ≤ number.toInt ∧ number.toInt < Int.pow 2 32 then some number.toInt.toNat else none
  | _ => none

/-- Read an owner. -/
def ofJson? (json : Json) : Option Owner := do
  let fields ← json.record? ["pid", "handle"]
  let process ← Json.required? fields "pid" processOfJson?
  let handle ← Json.required? fields "handle" Json.asText?
  some ⟨process, handle⟩

/-- The owner that the content of a marker file names, if it is readable. -/
def ofContent? : Except Fault Content → Option Owner
  | .ok (.text source) => (Json.parse? source).bind ofJson?
  | _ => none

/-- The text of the marker file. -/
def markerText (owner : Owner) : String :=
  owner.toJson.write .compact

/-- Read the marker of a workspace. -/
def read (workspace : Path) : Program (Option Owner) := do
  let content ← Program.perform (.read (workspace.child file))
  pure (ofContent? content)

/-- Whether an owner may still finish its transaction: a handle of this process if it is live, and
another process if it is running. -/
def isAlive (owner : Owner) : Program Bool := do
  let own ← Program.perform .ownProcess
  if owner.process = own then Program.perform (.isLive owner.handle)
  else Program.perform (.isRunning owner.process)

end Owner
end GraphStore
