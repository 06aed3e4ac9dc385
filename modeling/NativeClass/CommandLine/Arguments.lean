/-!
# Arguments of the command line

Options and paths in any order. After `--` all arguments are paths. An option is given once at most.

* `Arguments`: what a command line asks to be compiled, and how.
* `Request.parse?`: the request that a list of arguments spells.
-/

namespace NativeClass.CommandLine

/-- What is to be compiled, and how. -/
structure Arguments where
  /-- Files and directories. -/
  paths : List String := []
  /-- The configuration file. Without one the nearest is used. -/
  config : Option String := none
  noParallel : Bool := false
  json : Bool := false
  noColor : Bool := false
  verbose : Bool := false
  deriving DecidableEq, Inhabited

/-- What a command line asks for. -/
inductive Request where
  | compile (a : Arguments)
  | version
  | help
  deriving DecidableEq, Inhabited

/-- The name and the version of the program. -/
def versionText : String := "typthon-ext 0.1.0"

/-- How the program is used. -/
def helpText : String :=
  "\n".intercalate [
    "Compile @jit Python classes into native extension types",
    "",
    "Usage: typthon-ext [OPTIONS] <PATHS>...",
    "",
    "Arguments:",
    "  <PATHS>...  Files or directories to compile",
    "",
    "Options:",
    "      --config <FILE>  Configuration file (default: nearest .typthon-ext.toml)",
    "      --no-parallel    Compile classes sequentially",
    "      --json           Print JSON summaries instead of layouts",
    "      --no-color       ",
    "  -v, --verbose        Debug-level logging with stage spans",
    "  -h, --help           Print help",
    "  -V, --version        Print version"]

/-! ## Single options -/

/-- An option without a value. -/
inductive Switch where
  | noParallel
  | json
  | noColor
  | verbose
  | version
  | help
  deriving DecidableEq, Inhabited

/-- The switch of a long name. -/
def Switch.ofLong? : String → Option Switch
  | "--no-parallel" => some .noParallel
  | "--json" => some .json
  | "--no-color" => some .noColor
  | "--verbose" => some .verbose
  | "--version" => some .version
  | "--help" => some .help
  | _ => none

/-- The switch of a letter. -/
def Switch.ofShort? : Char → Option Switch
  | 'v' => some .verbose
  | 'V' => some .version
  | 'h' => some .help
  | _ => none

/-- A switch that was not set yet, set. -/
def once (isSet : Bool) (a : Arguments) : Option (Arguments ⊕ Request) :=
  if isSet then none else some (.inl a)

/-- The arguments with a switch set, or the request that the switch is by itself. -/
def Arguments.set (a : Arguments) : Switch → Option (Arguments ⊕ Request)
  | .noParallel => once a.noParallel { a with noParallel := true }
  | .json => once a.json { a with json := true }
  | .noColor => once a.noColor { a with noColor := true }
  | .verbose => once a.verbose { a with verbose := true }
  | .version => some (.inr .version)
  | .help => some (.inr .help)

/-- The arguments with the switches of several letters set. -/
def Arguments.setAll (a : Arguments) : List Char → Option (Arguments ⊕ Request)
  | [] => some (.inl a)
  | c :: cs => do
    match ← a.set (← Switch.ofShort? c) with
    | .inl a => a.setAll cs
    | .inr r => return .inr r

/-- The arguments with a configuration file. -/
def Arguments.setConfig (a : Arguments) (path : String) : Option Arguments :=
  if path.isEmpty || a.config.isSome then none else some { a with config := some path }

/-- The arguments with one more path. -/
def Arguments.addPath (a : Arguments) (path : String) : Option Arguments :=
  if path.isEmpty then none else some { a with paths := a.paths ++ [path] }

/-! ## Lists of arguments -/

/-- The text may be the value of an option that stands in the argument before it. -/
def isPlainValue (s : String) : Bool :=
  s = "-" || !s.startsWith "-"

/-- The request at the end of all arguments: at least one path is needed. -/
def Arguments.request? (a : Arguments) : Option Request :=
  if a.paths.isEmpty then none else some (.compile a)

/-- The request that a list of arguments spells after those read so far. -/
def Request.parseFrom? (a : Arguments) : List String → Option Request
  | [] => a.request?
  | "--" :: paths => (paths.foldlM Arguments.addPath a).bind Arguments.request?
  | "--config" :: path :: rest => do
    if isPlainValue path then parseFrom? (← a.setConfig path) rest else none
  | s :: rest =>
    if isPlainValue s then (a.addPath s).bind fun a => parseFrom? a rest
    else if s.startsWith "--config=" then
      (a.setConfig (s.drop 9).toString).bind fun a => parseFrom? a rest
    else if s.startsWith "--" then do
      match ← a.set (← Switch.ofLong? s) with
      | .inl a => parseFrom? a rest
      | .inr r => return r
    else do
      match ← a.setAll (s.toList.drop 1) with
      | .inl a => parseFrom? a rest
      | .inr r => return r

/-- The request that a list of arguments spells. -/
def Request.parse? (args : List String) : Option Request :=
  parseFrom? {} args

end NativeClass.CommandLine
