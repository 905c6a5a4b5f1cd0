import GraphStore.Command.Line

/-!
# Help texts
-/

namespace GraphStore
namespace CommandLine

/-- A name and what it stands for. -/
abbrev Entry := String × String

/-- How wide the names of a listing may be if their explanations stand beside them. -/
def widestNames : Nat := 32

/-- Entries under a heading.  The explanations stand in one column, or below the names if these are
too wide. -/
def listing (heading : String) (entries : List Entry) : List String :=
  let width := (entries.map fun entry => entry.1.length).foldl max 0
  if width ≤ widestNames then
    heading :: entries.map fun (name, about) =>
      "  " ++ name ++ String.ofList (List.replicate (width - name.length + 2) ' ') ++ about
  else
    heading :: entries.flatMap fun (name, about) => ["  " ++ name, "          " ++ about]

/-- The option for the configuration file. -/
def configurationEntry (environment : Option String) : Entry :=
  ("    --config <CONFIG>",
    "YAML configuration file [env: TESSERA_CONFIG=" ++ environment.getD "" ++ "]")

/-- The option for the format. -/
def formatEntry : Entry :=
  ("    --format <FORMAT>", "Output format [default: table] [possible values: table, json]")

/-- The option for this help. -/
def helpEntry : Entry :=
  ("-h, --help", "Print help")

/-- What the help says about a command. -/
structure Explanation where
  /-- What the command does. -/
  about : String
  /-- How it is called. -/
  usage : String
  /-- Its arguments. -/
  arguments : List Entry
  /-- The options of its own. -/
  options : List Entry := []

/-- The explanation of a command; any other name stands for the help itself. -/
def explanation : String → Explanation
  | "query" =>
    { about := "Execute a query against a database directory"
      usage := "query [OPTIONS] <PATH> <CYPHER>"
      arguments := [("<PATH>", "Database directory"), ("<CYPHER>", "The query string")]
      options := [("    --no-index", "Skip index probes and always scan")] }
  | "create-db" =>
    { about := "Create a named database under a root directory"
      usage := "create-db [OPTIONS] --password-digest <PASSWORD_DIGEST> <ROOT> <NAME>"
      arguments := [("<ROOT>", "Catalog root directory"), ("<NAME>", "Database name")]
      options := [("    --password-digest <PASSWORD_DIGEST>",
        "Hex password digest stored alongside the database")] }
  | "list" =>
    { about := "List databases under a root directory"
      usage := "list [OPTIONS] <ROOT>"
      arguments := [("<ROOT>", "Catalog root directory")] }
  | "index" =>
    { about := "Build an index on label.property"
      usage := "index [OPTIONS] <PATH> <LABEL> <PROPERTY>"
      arguments := [("<PATH>", "Database directory"), ("<LABEL>", ""), ("<PROPERTY>", "")] }
  | "shell" =>
    { about := "Start an interactive shell on a database directory"
      usage := "shell [OPTIONS] <PATH>"
      arguments := [("<PATH>", "Database directory")] }
  | _ =>
    { about := "Print this message or the help of the given subcommand(s)"
      usage := "help [COMMAND]..."
      arguments := [("[COMMAND]...", "Print help for the subcommand(s)")] }

/-- The options of a command; the help itself has none. -/
def optionLines (environment : Option String) (name : String) : List String :=
  if (grammars.map Grammar.name).contains name then
    "" :: listing "Options:" (configurationEntry environment :: (explanation name).options ++
      [formatEntry, helpEntry])
  else []

/-- The lines of the help of one command. -/
def commandHelp (environment : Option String) (name : String) : List String :=
  let text := explanation name
  [text.about, "", "Usage: tessera " ++ text.usage, ""] ++ listing "Arguments:" text.arguments ++
    optionLines environment name

/-- The lines of the help of the program. -/
def programHelp (environment : Option String) : List String :=
  let commands := grammars.map Grammar.name ++ ["help"]
  ["Tessera graph store CLI", "", "Usage: tessera [OPTIONS] <COMMAND>", ""] ++
    listing "Commands:" (commands.map fun name => (name, (explanation name).about)) ++ [""] ++
    listing "Options:" [configurationEntry environment, formatEntry, helpEntry,
      ("-V, --version", "Print version")]

/-- The lines of the help. -/
def helpLines (environment : Option String) : Option String → List String
  | some name => commandHelp environment name
  | none => programHelp environment

/-- The version of the program. -/
def versionText : String := "0.3.0"

end CommandLine
end GraphStore
