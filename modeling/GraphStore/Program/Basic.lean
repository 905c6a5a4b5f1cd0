import GraphStore.Disk.Replacement

/-!
# Programs

What the store does is described by a program: a tree of actions on the disk and on the memory that
the handles of one process share, each followed by what is done with its answer.  The meaning of a
program is given elsewhere, once as a function on worlds and once as real input and output.
-/

namespace GraphStore

/-- One indivisible action. -/
inductive Action where
  /-- Read a file. -/
  | read (path : Path)
  /-- Ask what stands at a path. -/
  | kind (path : Path)
  /-- List the names in a directory. -/
  | list (path : Path)
  /-- Make a directory and the directories above it. -/
  | makeDirectories (path : Path)
  /-- Replace a file as a whole, making its directory if necessary. -/
  | replace (directory : Path) (name : String) (content : Content)
  /-- Move an entry. -/
  | rename (source target : Path)
  /-- Remove a file. -/
  | removeFile (path : Path)
  /-- Remove an empty directory. -/
  | removeDirectory (path : Path)
  /-- Remove a directory with all that it holds. -/
  | removeAll (path : Path)
  /-- Draw a number that was never drawn before. -/
  | fresh
  /-- Ask for the number of this process. -/
  | ownProcess
  /-- Ask whether a process is running. -/
  | isRunning (process : Nat)
  /-- Ask whether a handle of this process has a transaction in flight. -/
  | isLive (handle : String)
  /-- Note whether a handle of this process has a transaction in flight. -/
  | setLive (handle : String) (live : Bool)
  /-- Ask whether the transaction manager of a handle is active. -/
  | isActive (handle : String)
  /-- Set whether the transaction manager of a handle is active. -/
  | setActive (handle : String) (active : Bool)
  /-- Hold a resource of a lock registry. -/
  | acquire (registry resource : String)
  /-- Give a resource of a lock registry back. -/
  | release (registry resource : String)
  /-- Enter the gate of a handle, alone or together with others. -/
  | enter (handle : String) (alone : Bool)
  /-- Leave the gate of a handle. -/
  | leave (handle : String) (alone : Bool)
  deriving DecidableEq

/-- The type of the answer to an action. -/
abbrev Action.Answer : Action → Type
  | read _ => Except Fault Content
  | kind _ => Option Kind
  | list _ => Except Fault (List String)
  | makeDirectories _ => Bool
  | replace .. => Replacement
  | rename .. => Bool
  | removeFile _ => Bool
  | removeDirectory _ => Bool
  | removeAll _ => Bool
  | fresh => Nat
  | ownProcess => Nat
  | isRunning _ => Bool
  | isLive _ => Bool
  | setLive .. => Unit
  | isActive _ => Bool
  | setActive .. => Unit
  | acquire .. => Unit
  | release .. => Unit
  | enter .. => Unit
  | leave .. => Unit

/-- A value, or an action and what is done with its answer. -/
inductive Program (α : Type) : Type where
  /-- Nothing more is done. -/
  | done (value : α)
  /-- An action is next. -/
  | act (action : Action) (next : action.Answer → Program α)

namespace Program

/-- Go on with the value of a program. -/
def bind {α β : Type} (program : Program α) (next : α → Program β) : Program β :=
  match program with
  | done value => next value
  | act action rest => act action fun answer => (rest answer).bind next

instance : Monad Program where
  pure := done
  bind := bind

@[simp]
theorem bind_done {α : Type} (program : Program α) : program.bind done = program := by
  induction program with
  | done value => rfl
  | act action rest ih => simp [bind, ih]

theorem bind_bind {α β γ : Type} (program : Program α) (second : α → Program β)
    (third : β → Program γ) :
    (program.bind second).bind third = program.bind fun value => (second value).bind third := by
  induction program with
  | done value => rfl
  | act action rest ih => simp [bind, ih]

instance : LawfulMonad Program :=
  LawfulMonad.mk' Program
    (fun program => bind_done program)
    (fun _ _ => rfl)
    (fun program second third => bind_bind program second third)

/-- The program of one action. -/
def perform (action : Action) : Program action.Answer :=
  act action done

end Program

/-- A program that may fail with an error. -/
abbrev Task (ε α : Type) : Type :=
  ExceptT ε Program α

namespace Task

/-- Do one action, which does not fail. -/
def perform {ε : Type} (action : Action) : Task ε action.Answer :=
  ExceptT.lift (Program.perform action)

/-- Run a task with its errors wrapped. -/
def mapError {ε ε' α : Type} (wrap : ε → ε') (task : Task ε α) : Task ε' α :=
  (Except.mapError wrap <$> (task : Program (Except ε α)) : Program (Except ε' α))

/-- Run a task and do something afterwards in any case. -/
def ensuring {ε α : Type} (task : Task ε α) (afterwards : Program Unit) : Task ε α :=
  (do
    let result ← (task : Program (Except ε α))
    afterwards
    pure result : Program (Except ε α))

end Task
end GraphStore
