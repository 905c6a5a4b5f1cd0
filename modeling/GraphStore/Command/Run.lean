import GraphStore.Command.Help
import GraphStore.Command.Shell
import GraphStore.Configuration
import GraphStore.DatabaseCatalog

/-!
# Running commands

A command answers what it writes and an exit code: zero if it succeeded, one if it failed, and two
if the command line is not allowed.
-/

namespace GraphStore
namespace Command

/-- The output and the exit code of a command that failed. -/
def failed (message : String) : List Output × Nat :=
  ([.error message], 1)

/-- Open a database and do something with it; the database is closed afterwards. -/
def withDatabase (path : String) (settings : Settings)
    (action : Database → Program (List Output × Nat)) : Program (List Output × Nat) := do
  match ← (Database.open (Path.ofText path) settings).run with
  | .error error => pure (failed error.message)
  | .ok database => do
    let result ← action database
    database.close
    pure result

/-- Execute a query; a failure is written in the format and reported once more as an error. -/
def runQuery (format : Format) (text : String) (useIndex : Bool) (database : Database) :
    Program (List Output × Nat) := do
  let response ← database.respond text useIndex
  let output := Output.ofResponse response format
  match response with
  | .success _ => pure (output, 0)
  | .failure message => pure (output ++ [.error message], 1)

/-- Create a database. -/
def runCreate (root name digest : String) : Program (List Output × Nat) := do
  match ← (DatabaseCatalog.create ⟨Path.ofText root⟩ name digest).run with
  | .ok path => pure ([.line ("Created database '" ++ name ++ "' at " ++ path.text)], 0)
  | .error error => pure (failed error.message)

/-- The names of databases in a format. -/
def namesOutput (names : List String) : Format → List Output
  | .json => [.line ((Json.array (names.map .text)).write .indented)]
  | .table => if names = [] then [.line "(no databases)"] else names.map Output.line

/-- List databases. -/
def runList (format : Format) (root : String) : Program (List Output × Nat) := do
  match ← (DatabaseCatalog.list ⟨Path.ofText root⟩).run with
  | .ok names => pure (namesOutput names format, 0)
  | .error error => pure (failed error.message)

/-- Build an index. -/
def runIndex (label property : String) (database : Database) : Program (List Output × Nat) := do
  match ← (database.createIndex label property).run with
  | .ok count =>
    pure ([.line ("Index created for :" ++ label ++ " on property '" ++ property ++ "' (" ++
      Text.intText count ++ " distinct values)")], 0)
  | .error error => pure (failed error.message)

/-- Run a command with given settings; the lines are the input of a shell. -/
def run (command : Command) (format : Format) (settings : Settings) (lines : List String) :
    Program (List Output × Nat) :=
  match command with
  | query path text useIndex => withDatabase path settings (runQuery format text useIndex)
  | createDatabase root name digest => runCreate root name digest
  | list root => runList format root
  | index path label property => withDatabase path settings (runIndex label property)
  | shell path => withDatabase path settings fun database => Shell.run ⟨database, format⟩ lines

end Command

namespace Invocation

/-- The settings of an invocation, or what is written if they cannot be read. -/
def settings (invocation : Invocation) : Program (Except String Settings) := do
  match invocation.configuration with
  | none => pure (.ok {})
  | some path =>
    match ← (Configuration.load (Path.ofText path)).run with
    | .ok settings => pure (.ok settings)
    | .error error =>
      pure (.error ("loading config from " ++ path ++ ": " ++ error.message))

/-- Run an invocation; the lines are the input of a shell. -/
def run (invocation : Invocation) (lines : List String) : Program (List Output × Nat) := do
  match ← invocation.settings with
  | .ok settings => invocation.command.run invocation.format settings lines
  | .error message => pure (Command.failed message)

end Invocation

namespace CommandLine

/-- What is written and the exit code if a command line does not run a command. -/
def Outcome.shown (environment : Option String) : Outcome → Option (List Output × Nat)
  | run _ => none
  | help command => some ((helpLines environment command).map Output.line, 0)
  | version => some ([.line ("tessera " ++ versionText)], 0)
  | misuse =>
    some ([.err "Error: invalid command line, try --help\n"], 2)

/-- Run a command line; the lines are the input of a shell. -/
def run (environment : Option String) (words : List String) (lines : List String) :
    Program (List Output × Nat) :=
  match parse environment words with
  | .run invocation => invocation.run lines
  | outcome => pure ((outcome.shown environment).getD ([], 0))

end CommandLine
end GraphStore
