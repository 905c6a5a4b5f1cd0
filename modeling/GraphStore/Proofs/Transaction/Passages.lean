import GraphStore.Proofs.Transaction.Publications
import GraphStore.Proofs.Transaction.Sessions

/-!
# Disks through which operations pass

A handle that serves an operation takes locks and enters its gate, and otherwise does what it does
without them.  So the disks through which it passes are those through which it passes without them.
-/

namespace GraphStore

variable {α ε : Type} {world : World}

/-- A program on the target passes through the disks of the program on the directory that is the
target. -/
theorem TransactionManager.passes_target {manager : TransactionManager} {program : Path → Program α}
    {during : World → Prop} {ends : α → World → Prop} (start : during world)
    (passes : (program (manager.targetIf (world.active.contains manager.owner.handle))).Passes
      during ends world) : (manager.target >>= program).Passes during ends world := by
  rw [targetIf] at passes
  refine ⟨start, ?_⟩
  change Program.Passes during ends world ((if world.active.contains manager.owner.handle then
    pure manager.workspace else pure manager.database : Program Path) >>= program)
  split
  · next active => rwa [if_pos active] at passes
  · next idle => rwa [if_neg idle] at passes

namespace Database

variable {database : Database} {operation : Operation} {during : Tree → Prop}

theorem passes_inGate {task : Task ε α} (alone : Bool) (start : during world.disk)
    (passes : ∀ inside : World, inside.unlocked = world.unlocked →
      task.run.Passes (fun stopped => during stopped.disk) (fun _ after => during after.disk)
        inside) :
    (database.inGate alone task).run.Passes (fun stopped => during stopped.disk)
      (fun _ after => during after.disk) world := by
  refine ⟨start, ?_⟩
  let inside := (world.perform (.enter database.name alone)).2
  change Program.Passes _ _ inside (task.run >>= fun result =>
    Program.perform (.leave database.name alone) >>= fun _ => pure result)
  exact Program.passes_bind ((passes inside rfl).mono id fun kept => ⟨kept, kept⟩)

theorem passes_onTarget {action : Path → Program α} (start : during world.disk)
    (passes : ∀ inside : World, inside.unlocked = world.unlocked →
      (database.manager.target >>= action).Passes (fun stopped => during stopped.disk)
        (fun _ after => during after.disk) inside) :
    (database.onTarget action).Passes (fun stopped => during stopped.disk)
      (fun _ after => during after.disk) world := by
  refine ⟨start, ?_⟩
  let inside := (world.perform (.enter database.name false)).2
  change Program.Passes _ _ inside (database.manager.target >>= fun target => action target >>= fun
    answer => Program.perform (.leave database.name false) >>= fun _ => pure answer)
  rw [← bind_assoc]
  exact Program.passes_bind ((passes inside rfl).mono id fun kept => ⟨kept, kept⟩)

/-- What holds of all disks without locks and gates holds of all disks. -/
theorem passes_serve (start : during world.disk)
    (passes : ∀ inside : World, inside.unlocked = world.unlocked →
      (database.serveBare (world.active.contains database.name) operation).Passes
        (fun stopped => during stopped.disk) (fun _ after => during after.disk) inside) :
    (database.serve operation).Passes (fun stopped => during stopped.disk)
      (fun _ after => during after.disk) world := by
  have startInside {inside : World} (same : inside.unlocked = world.unlocked) :
      during inside.disk := by
    rw [World.disk_congr same]
    exact start
  have onTarget {α : Type} {program : Path → Program α} (inside : World)
      (same : inside.unlocked = world.unlocked)
      (bare : (program (database.manager.targetIf (world.active.contains database.name))).Passes
        (fun stopped => during stopped.disk) (fun _ after => during after.disk) inside) :
      (database.manager.target >>= program).Passes (fun stopped => during stopped.disk)
        (fun _ after => during after.disk) inside := by
    refine TransactionManager.passes_target (startInside same) ?_
    rw [World.active_congr same]
    exact bare
  have change {change : Task TransactionError Unit}
      (bare : ∀ inside : World, inside.unlocked = world.unlocked →
        change.run.Passes (fun stopped => during stopped.disk) (fun _ after => during after.disk)
          inside) :
      (database.changeTransaction change).run.Passes (fun stopped => during stopped.disk)
        (fun _ after => during after.disk) world :=
    database.passes_changeTransaction during (fun _ => during) start fun inside same =>
      (bare inside same).mono id fun kept => ⟨kept, kept⟩
  cases operation with
  | execute source useIndex =>
      refine Program.passes_map (passes_inGate false start fun inside same => ?_)
      rw [ExceptT.run_bind_lift]
      exact onTarget inside same (passes inside same).of_map
  | createIndex label property =>
      refine Program.passes_map (Program.passes_mapError (passes_inGate false start
        fun inside same => ?_))
      rw [ExceptT.run_bind_lift]
      exact onTarget inside same (passes inside same).of_map.of_map
  | probeIndex label property value =>
      exact Program.passes_map (passes_onTarget start fun inside same =>
        onTarget inside same (passes inside same).of_map)
  | listIndexes =>
      exact Program.passes_map (passes_onTarget start fun inside same =>
        onTarget inside same (passes inside same).of_map)
  | begin | commit | rollback =>
      exact Program.passes_map (change fun inside same => (passes inside same).of_map)

end Database
end GraphStore
