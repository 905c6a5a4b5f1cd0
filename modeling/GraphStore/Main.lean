import GraphStore.Command.Run
import GraphStore.Program.Machine

/-!
# The program
-/

namespace GraphStore
namespace Machine

/-- Write output. -/
def write (output : List Output) : Machine Unit := do
  for piece in output do
    match piece with
    | .out text =>
      let stream ← IO.getStdout
      stream.putStr text
      stream.flush
    | .err text =>
      let stream ← IO.getStderr
      stream.putStr text
      stream.flush

/-- Write the output of a command and give its exit code. -/
def finish (result : List Output × Nat) : Machine UInt32 := do
  write result.1
  pure (UInt32.ofNat result.2)

/-- Serve lines of the standard input until one asks to quit or there are no more. -/
partial def serveInput (shell : Shell) : Machine Unit := do
  write (← interpret shell.prompt)
  let line ← (← IO.getStdin).getLine
  if line = "" then return
  match Shell.Request.ofLine line with
  | .quit => return
  | request =>
    write (← interpret (shell.serve request))
    serveInput shell

/-- Run the shell on the standard input. -/
def interact (invocation : Invocation) (path : String) : Machine UInt32 := do
  match ← interpret invocation.settings with
  | .error message => finish (Command.failed message)
  | .ok settings =>
    match ← interpret (Database.open (Path.ofText path) settings).run with
    | .error error => finish (Command.failed error.message)
    | .ok database =>
      let shell : Shell := ⟨database, invocation.format⟩
      write shell.greeting
      serveInput shell
      finish (← interpret shell.leave)

/-- Run a command line. -/
def runCommandLine (environment : Option String) (words : List String) : Machine UInt32 := do
  match CommandLine.parse environment words with
  | .run ⟨configuration, format, .shell path⟩ =>
    interact ⟨configuration, format, .shell path⟩ path
  | _ => finish (← interpret (CommandLine.run environment words []))

end Machine
end GraphStore

/-- Run the command line of the process. -/
def main (words : List String) : IO UInt32 := do
  let environment ← IO.getEnv "TESSERA_CONFIG"
  let (code, _) ← (GraphStore.Machine.runCommandLine environment words).run {}
  pure code
