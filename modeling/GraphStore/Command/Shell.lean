import GraphStore.Command.Output
import GraphStore.Database

/-!
# The interactive shell

The shell reads lines.  A line is a command, which starts with a colon, or a query.  A transaction
that is still active when the shell ends is rolled back.
-/

namespace GraphStore

/-- A shell on an open database. -/
structure Shell where
  /-- The database. -/
  database : Database
  /-- How answers are written. -/
  format : Format

namespace Shell

/-- What a line asks for. -/
inductive Request where
  /-- Nothing: the line is blank. -/
  | nothing
  /-- To leave the shell. -/
  | quit
  /-- To list the commands. -/
  | help
  | begin
  | commit
  | rollback
  /-- To list the indexes. -/
  | indexes
  /-- To execute a query. -/
  | query (text : String)
  deriving DecidableEq

/-- Read a line. -/
def Request.ofLine (line : String) : Request :=
  match Text.trimString line with
  | "" => nothing
  | ":quit" | ":exit" | ":q" => quit
  | ":help" | ":h" => help
  | ":begin" => begin
  | ":commit" => commit
  | ":rollback" => rollback
  | ":indexes" => indexes
  | text => query text

/-- What is written when the shell starts. -/
def greeting (shell : Shell) : List Output :=
  [.line ("Tessera Interactive Shell on " ++ shell.database.path.text),
    .line "Type queries, or :help for commands. :quit to exit.\n"]

/-- What is written before a line is read. -/
def prompt (shell : Shell) : Program (List Output) := do
  if ← shell.database.inTransaction then pure [.err "tessera(tx)> "]
  else pure [.err "tessera> "]

/-- The list of the commands. -/
def helpOutput : List Output :=
  [.line "Commands:",
    .line "  :begin     Start a transaction",
    .line "  :commit    Commit the active transaction",
    .line "  :rollback  Roll back the active transaction",
    .line "  :indexes   List defined indexes",
    .line "  :quit      Exit shell",
    .line "  <query>    Execute a query"]

/-- Report how a change of the transaction ended. -/
def report (message : String) : Except TransactionError Unit → List Output
  | .ok () => [.line message]
  | .error error => [.error error.message]

/-- The list of the indexes. -/
def indexesOutput (definitions : List (String × String)) : List Output :=
  if definitions = [] then [.line "(no indexes)"]
  else definitions.map fun (label, property) => .line (":" ++ label ++ "(" ++ property ++ ")")

/-- Do what a line asks for; leaving the shell is not done here. -/
def serve (shell : Shell) : Request → Program (List Output)
  | .nothing => pure []
  | .quit => pure []
  | .help => pure helpOutput
  | .begin => report "Transaction started." <$> shell.database.begin.run
  | .commit => report "Changes committed to database." <$> shell.database.commit.run
  | .rollback => report "Transaction rolled back." <$> shell.database.rollback.run
  | .indexes => indexesOutput <$> shell.database.listIndexes
  | .query text => do
    let response ← shell.database.respond text shell.database.settings.useIndexes
    pure (Output.ofResponse response shell.format)

/-- Leave the shell; the second result is the exit code. -/
def leave (shell : Shell) : Program (List Output × Nat) := do
  let active ← shell.database.inTransaction
  let result ← if active then shell.database.rollback.run else pure (.ok ())
  shell.database.close
  match result with
  | .ok () =>
    let note := if active then [.line "Transaction rolled back before exit."] else []
    pure (note ++ [.line "Bye!"], 0)
  | .error error => pure ([.error error.message], 1)

/-- Serve lines until one asks to quit or there are no more. -/
def serveLines (shell : Shell) : List String → Program (List Output)
  | [] => shell.prompt
  | line :: rest => do
    let prompt ← shell.prompt
    match Request.ofLine line with
    | .quit => pure prompt
    | request => do
      let output ← shell.serve request
      let more ← shell.serveLines rest
      pure (prompt ++ output ++ more)

/-- Run the shell on lines of input. -/
def run (shell : Shell) (lines : List String) : Program (List Output × Nat) := do
  let served ← shell.serveLines lines
  let (last, code) ← shell.leave
  pure (shell.greeting ++ served ++ last, code)

/-- The lines of an input text. -/
def inputLines (input : String) : List String :=
  let lines := (Text.splitAt '\n' input.toList).map String.ofList
  if lines.getLast? = some "" then lines.dropLast else lines

end Shell
end GraphStore
