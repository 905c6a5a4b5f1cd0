import GraphStore.Command.Output

/-!
# The command line

A command line names a command with its arguments.  Options may stand before or among the arguments
of the command; an option of both levels that is given twice counts as given for the command.  The
value of an option that is a word of its own is examined when the words of the same level go on, so
the help of a command can be asked for after a value that is not allowed.
-/

namespace GraphStore

/-- What the program is asked to do. -/
inductive Command where
  /-- Execute a query. -/
  | query (path text : String) (useIndex : Bool)
  /-- Create a database. -/
  | createDatabase (root name digest : String)
  /-- List the databases below a root. -/
  | list (root : String)
  /-- Build an index. -/
  | index (path label property : String)
  /-- Open a shell. -/
  | shell (path : String)
  deriving DecidableEq

/-- A command with the options that all commands have. -/
structure Invocation where
  /-- The configuration file. -/
  configuration : Option String
  /-- How answers are written. -/
  format : Format
  /-- The command. -/
  command : Command
  deriving DecidableEq

namespace CommandLine

/-- What a command line amounts to. -/
inductive Outcome where
  /-- A command is run. -/
  | run (invocation : Invocation)
  /-- The help of the program or of one of its commands is shown. -/
  | help (command : Option String)
  /-- The version is shown. -/
  | version
  /-- The command line is not allowed. -/
  | misuse
  deriving DecidableEq

/-- What a command accepts. -/
structure Grammar where
  /-- The name. -/
  name : String
  /-- The arguments in order, and whether each is a path. -/
  arguments : List (String × Bool)
  /-- The options with a value that only this command has; all are required. -/
  options : List String := []
  /-- The options without a value. -/
  flags : List String := []

/-- The commands. -/
def grammars : List Grammar :=
  [{ name := "query", arguments := [("PATH", true), ("CYPHER", false)], flags := ["no-index"] },
    { name := "create-db", arguments := [("ROOT", true), ("NAME", false)],
      options := ["password-digest"] },
    { name := "list", arguments := [("ROOT", true)] },
    { name := "index",
      arguments := [("PATH", true), ("LABEL", false), ("PROPERTY", false)] },
    { name := "shell", arguments := [("PATH", true)] }]

/-- The options with a value that every command has. -/
def commonOptions : List String :=
  ["config", "format"]

/-- The arguments and options that were given. -/
structure Given where
  /-- The arguments in order. -/
  arguments : List String := []
  /-- The options with their values. -/
  options : List (String × String) := []
  /-- The options without a value. -/
  flags : List String := []
  /-- Whether everything from here on is an argument. -/
  onlyArguments : Bool := false
  /-- The last option, as long as its value has not been examined. -/
  pending : Option (String × String) := none

/-- Why the reading of a command line ends early. -/
inductive Stop where
  | help
  | version
  | misuse

/-- Whether a value may be given for an option. -/
def isOptionValue (name value : String) : Bool :=
  if name = "format" then value == "table" || value == "json"
  else if name = "config" then value != ""
  else true

/-- Note the value of an option, which may be given once. -/
def Given.setOption (given : Given) (name value : String) : Except Stop Given :=
  if isOptionValue name value ∧ (given.options.lookup name).isNone then
    .ok { given with options := given.options ++ [(name, value)] }
  else .error .misuse

/-- Examine the value of the last option. -/
def Given.settle (given : Given) : Except Stop Given :=
  match given.pending with
  | none => .ok given
  | some (name, value) => { given with pending := none }.setOption name value

/-- Note an option without a value, which may be given once. -/
def Given.setFlag (given : Given) (name : String) : Except Stop Given :=
  if given.flags.contains name then .error .misuse
  else .ok { given with flags := given.flags ++ [name] }

/-- Whether a word looks like an option. -/
def looksLikeOption (word : String) : Bool :=
  match word.toList with
  | '-' :: _ :: _ => true
  | _ => false

/-- Divide a long option into its name and the value after an equals sign. -/
def splitLong (body : List Char) : String × Option String :=
  match body.dropWhile (· != '=') with
  | '=' :: value => (String.ofList (body.takeWhile (· != '=')), some (String.ofList value))
  | _ => (String.ofList body, none)

/-- Read an option, which may use up the word after it. -/
def readOption (grammar : Grammar) (hasVersion : Bool) (given : Given) (word : String)
    (rest : List String) : Except Stop (Given × List String) := do
  let given ← given.settle
  match word.toList with
  | '-' :: '-' :: body =>
    match splitLong body with
    | ("help", none) => .error .help
    | ("version", none) => .error (if hasVersion then .version else .misuse)
    | (name, value) =>
      if (commonOptions ++ grammar.options).contains name then
        match value, rest with
        | some value, _ => (given.setOption name value).map fun given => (given, rest)
        | none, next :: others =>
          if looksLikeOption next then .error .misuse
          else .ok ({ given with pending := some (name, next) }, others)
        | none, [] => .error .misuse
      else if grammar.flags.contains name ∧ value = none then
        (given.setFlag name).map fun given => (given, rest)
      else .error .misuse
  | '-' :: 'h' :: _ => .error .help
  | '-' :: 'V' :: _ => .error (if hasVersion then .version else .misuse)
  | _ => .error .misuse

/-- Note an argument. -/
def Given.addArgument (grammar : Grammar) (given : Given) (word : String) :
    Except Stop Given := do
  let given ← given.settle
  match grammar.arguments[given.arguments.length]? with
  | some (_, isPath) =>
    if isPath ∧ word = "" then .error .misuse
    else .ok { given with arguments := given.arguments ++ [word] }
  | none => .error .misuse

/-- Read the words after the name of a command. -/
def readWords (grammar : Grammar) : Nat → Given → List String → Except Stop Given
  | _, given, [] => given.settle
  | 0, _, _ :: _ => .error .misuse
  | fuel + 1, given, word :: rest =>
    if given.onlyArguments ∨ !looksLikeOption word then do
      let given ← given.addArgument grammar word
      readWords grammar fuel given rest
    else if word = "--" then readWords grammar fuel { given with onlyArguments := true } rest
    else do
      let (given, rest) ← readOption grammar false given word rest
      readWords grammar fuel given rest

/-- The command that was given, if nothing is missing. -/
def command? (grammar : Grammar) (given : Given) : Option Command :=
  match grammar.name, given.arguments with
  | "query", [path, text] => some (.query path text (!given.flags.contains "no-index"))
  | "create-db", [root, name] =>
    (given.options.lookup "password-digest").map fun digest => .createDatabase root name digest
  | "list", [root] => some (.list root)
  | "index", [path, label, property] => some (.index path label property)
  | "shell", [path] => some (.shell path)
  | _, _ => none

/-- The format of a name. -/
def formatOf (name : Option String) : Format :=
  if name = some "json" then .json else .table

/-- Whether the environment may have the given value.  It is asked for the configuration file before
and after the name of the command, wherever no option names it, and must not answer with a blank. -/
def isEnvironmentAllowed (environment : Option String) (before after : Given) : Bool :=
  environment != some "" ||
    ((before.options.lookup "config").isSome && (after.options.lookup "config").isSome)

/-- The invocation of a command, given what stood before its name and after it.  The environment
may name a configuration file. -/
def invocation? (environment : Option String) (grammar : Grammar) (before after : Given) :
    Option Invocation := do
  let command ← command? grammar after
  if isEnvironmentAllowed environment before after then
    let option (name : String) : Option String :=
      (after.options.lookup name).or (before.options.lookup name)
    some ⟨(option "config").or environment, formatOf (option "format"), command⟩
  else none

/-- What is shown after the word `help`. -/
def helpOutcome : List String → Outcome
  | [] => .help none
  | [name] =>
    if (grammars.map Grammar.name).contains name || name = "help" then .help (some name)
    else .misuse
  | _ => .misuse

/-- The outcome of a reading that ended early. -/
def Stop.outcome (command : Option String) : Stop → Outcome
  | help => .help command
  | version => .version
  | misuse => .misuse

/-- Read the words up to the name of a command and go on with that command. -/
def readProgram (environment : Option String) : Nat → Given → List String → Outcome
  | _, _, [] => .misuse
  | 0, _, _ => .misuse
  | fuel + 1, given, word :: rest =>
    if looksLikeOption word then
      if word = "--" then .misuse
      else
        match readOption ⟨"", [], [], []⟩ true given word rest with
        | .ok (given, rest) => readProgram environment fuel given rest
        | .error stop => stop.outcome none
    else if word = "help" then helpOutcome rest
    else
      match grammars.find? fun grammar => grammar.name == word with
      | none => .misuse
      | some grammar =>
        match readWords grammar rest.length {} rest with
        | .error stop => stop.outcome (some word)
        | .ok after =>
          match given.settle with
          | .error stop => stop.outcome none
          | .ok before =>
            match invocation? environment grammar before after with
            | some invocation => .run invocation
            | none => .misuse

/-- Read a command line, without the name of the program. -/
def parse (environment : Option String) (words : List String) : Outcome :=
  readProgram environment words.length {} words

end CommandLine
end GraphStore
