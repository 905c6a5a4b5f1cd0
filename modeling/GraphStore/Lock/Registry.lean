import GraphStore.Text.Escaped

/-!
# Lock registries

A registry hands out exclusive holds on resources, which it knows by name and registers when they
are first asked for.
-/

namespace GraphStore

/-- The resources that were asked for, and those that are held. -/
structure LockRegistry where
  /-- The resources that were asked for, the latest first. -/
  known : List String := []
  /-- The resources that are held. -/
  held : List String := []
  deriving DecidableEq

namespace LockRegistry

/-- Register a resource. -/
def register (registry : LockRegistry) (resource : String) : LockRegistry :=
  if registry.known.contains resource then registry
  else { registry with known := resource :: registry.known }

/-- The number of registered resources. -/
def size (registry : LockRegistry) : Nat :=
  registry.known.length

/-- Whether no resource is registered. -/
def isEmpty (registry : LockRegistry) : Bool :=
  registry.known.isEmpty

/-- Whether a resource is held. -/
def isHeld (registry : LockRegistry) (resource : String) : Bool :=
  registry.held.contains resource

/-- Hold a resource that is free, registering it in any case. -/
def acquire (registry : LockRegistry) (resource : String) : LockRegistry :=
  let registry := registry.register resource
  if registry.isHeld resource then registry
  else { registry with held := resource :: registry.held }

/-- Hold a resource if it is free, registering it in any case; the first result is whether it was
free. -/
def tryAcquire (registry : LockRegistry) (resource : String) : Bool × LockRegistry :=
  (!registry.isHeld resource, registry.acquire resource)

/-- Give a resource back. -/
def release (registry : LockRegistry) (resource : String) : LockRegistry :=
  { registry with held := registry.held.filter (· != resource) }

/-- Give every resource back. -/
def releaseAll (registry : LockRegistry) : LockRegistry :=
  { registry with held := [] }

/-- Put a text at its place among sorted texts, unless it is there already. -/
def insertOnce (text : String) : List String → List String
  | [] => [text]
  | other :: rest =>
    if text < other then text :: other :: rest
    else if text = other then other :: rest
    else other :: insertOnce text rest

/-- The order in which several resources are acquired: sorted, each once. -/
def acquisitionOrder (resources : List String) : List String :=
  resources.foldr insertOnce []

/-- Hold several resources, one after the other in their acquisition order. -/
def acquireMany (registry : LockRegistry) (resources : List String) : LockRegistry :=
  (acquisitionOrder resources).foldl acquire registry

/-! ## Descriptions -/

/-- A registry in words. -/
def describe (registry : LockRegistry) : String :=
  "LockRegistry \x7b resources: " ++ Text.intText registry.size ++ " \x7d"

/-- A hold on a resource in words. -/
def describeHold (resource : String) : String :=
  "ResourceGuard \x7b resource_id: " ++ Text.showQuoted resource ++ " \x7d"

/-! ## Collections -/

/-- The resource that stands for the stored nodes. -/
def nodes : String := "nodes"

/-- The resource that stands for the stored relationships. -/
def relationships : String := "relationships"

/-- The resource that stands for the stored indexes. -/
def indexes : String := "indexes"

/-- The resources of all collections, in the order in which they are acquired. -/
def collections : List String :=
  [nodes, relationships, indexes]

/-- The given collections in the order in which they are acquired. -/
def collectionOrder (resources : List String) : List String :=
  collections.filter resources.contains

end LockRegistry
end GraphStore
