import NativeClass.Config.Basic
import NativeClass.FileTree
import NativeClass.Toml.Writer
/-!
# Configurations as documents

* `Config.parse`: the configuration that a TOML document spells.
* `Config.text?`: the document of a configuration.
* `Config.load`: the configuration of a file.
-/

namespace NativeClass

/-- The reason why there is no configuration. -/
inductive ConfigError where
  | unreadable (path : String) (problem : FileProblem)
  | malformed (cause : Toml.Error)
  /-- A field or a section with a value of another type. -/
  | wrongValue (key : String)
  deriving DecidableEq, Inhabited

/-- The message of an error. -/
def ConfigError.message : ConfigError → String
  | .unreadable path problem => "Failed to read config " ++ path ++ ": " ++ problem.message
  | .malformed cause => "Failed to parse config: " ++ cause.message
  | .wrongValue key => "Failed to parse config: invalid value of " ++ key

namespace Config

/-! ## Reading values -/

/-- A value read as a boolean. -/
def readBool : Toml.Value → Option Bool
  | .bool b => some b
  | _ => none

/-- A value read as a natural number. -/
def readNat : Toml.Value → Option Nat
  | .int i => if 0 ≤ i.toInt then some i.toInt.toNat else none
  | _ => none

/-- A value read as a string. -/
def readStr : Toml.Value → Option String
  | .str s => some s
  | _ => none

/-- A value read as a list of strings. -/
def readStrs : Toml.Value → Option (List String)
  | .array vs => vs.mapM readStr
  | _ => none

/-- A value read as the value of a flag. -/
def readFlag : Toml.Value → Option FlagValue
  | .bool b => some (.bool b)
  | .int i => some (.int i)
  | .float x => some (.float x)
  | .str s => some (.str s)
  | _ => none

/-- A value read as flags. -/
def readFlags : Toml.Value → Option Flags
  | .table es => (es.mapM fun e => (readFlag e.2).map (e.1, ·)).map Flags.ofList
  | _ => none

/-- There is nothing in the table or array. -/
def isEmptyValue : Toml.Value → Bool
  | .table es => es.isEmpty
  | .array vs => vs.isEmpty
  | _ => false

/-- A value read as one of several names: the name itself, or a table that has nothing but an empty table under
the name. -/
def readName {α : Type} (ofName? : String → Option α) : Toml.Value → Option α
  | .str s => ofName? s
  | .table [(key, v)] => if isEmptyValue v then ofName? key else none
  | _ => none

/-- The fields of a section: a table has them by name, an array in their order. -/
def fields? (names : List String) : Toml.Value → Option (List (String × Toml.Value))
  | .table es => some es
  | .array vs => some (names.zip vs)
  | _ => none

/-- A field, or its default if there is none. -/
def field {α : Type} (es : List (String × Toml.Value)) (key : String)
    (read : Toml.Value → Option α) (default : α) : Option α :=
  match es.lookup key with
  | none => some default
  | some v => read v

/-! ## Sections -/

/-- The section on compilation. -/
def readCompile (v : Toml.Value) : Option CompileSection := do
  let es ← fields? ["parallel", "flags"] v
  return { parallel := ← field es "parallel" readBool true
           flags := ← field es "flags" readFlags .empty }

/-- The section on validation. -/
def readValidation (v : Toml.Value) : Option ValidationConfig := do
  let es ← fields? ["name_collisions", "abstract_methods", "attribute_types"] v
  return { nameCollisions := ← field es "name_collisions" readBool true
           abstractMethods := ← field es "abstract_methods" readBool true
           attributeTypes := ← field es "attribute_types" readBool false }

/-- The section on errors. -/
def readErrors (v : Toml.Value) : Option ErrorSection := do
  let es ← fields? ["max_errors", "color", "format"] v
  return { maxErrors := ← field es "max_errors" readNat 100
           color := ← field es "color" readBool true
           format := ← field es "format" (readName ReportFormat.ofName?) .plain }

/-- The section on paths. Patterns that it leaves out are none at all. -/
def readPaths (v : Toml.Value) : Option PathSection := do
  let es ← fields? ["include", "exclude"] v
  return { included := ← field es "include" readStrs []
           excluded := ← field es "exclude" readStrs [] }

/-- The section on logging. A format that it leaves out is the one of several lines. -/
def readLogging (v : Toml.Value) : Option LoggingSection := do
  let es ← fields? ["level", "format"] v
  return { level := ← field es "level" readStr "warn"
           format := ← field es "format" (readName LogFormat.ofName?) .pretty }

/-- A section, or its default if the document does not have it. -/
def readSection {α : Type} (es : List (String × Toml.Value)) (key : String)
    (read : Toml.Value → Option α) (default : α) : Except ConfigError α :=
  match field es key read default with
  | some a => .ok a
  | none => .error (.wrongValue key)

/-- The configuration of a document's entries. Names that are not known are ignored. -/
def ofEntries (es : List (String × Toml.Value)) : Except ConfigError Config := do
  return { compile := ← readSection es "compile" readCompile {}
           validation := ← readSection es "validation" readValidation {}
           errors := ← readSection es "errors" readErrors {}
           paths := ← readSection es "paths" readPaths {}
           logging := ← readSection es "logging" readLogging {} }

/-- The configuration that a document spells. -/
def parse (text : String) : Except ConfigError Config :=
  match Toml.parse text with
  | .ok es => ofEntries es
  | .error e => .error (.malformed e)

/-! ## Writing -/

/-- The value of a flag. -/
def flagValue : FlagValue → Toml.Value
  | .bool b => .bool b
  | .int i => .int i
  | .float x => .float x
  | .str s => .str s

/-- The entries of the document of a configuration. -/
def toEntries (c : Config) : List (String × Toml.Value) :=
  [("compile", .table [
      ("parallel", .bool c.compile.parallel),
      ("flags", .table (c.compile.flags.entries.map fun e => (e.1, flagValue e.2)))]),
    ("validation", .table [
      ("name_collisions", .bool c.validation.nameCollisions),
      ("abstract_methods", .bool c.validation.abstractMethods),
      ("attribute_types", .bool c.validation.attributeTypes)]),
    ("errors", .table [
      ("max_errors", .int (.ofNat c.errors.maxErrors)),
      ("color", .bool c.errors.color),
      ("format", .str c.errors.format.name)]),
    ("paths", .table [
      ("include", .array (c.paths.included.map .str)),
      ("exclude", .array (c.paths.excluded.map .str))]),
    ("logging", .table [
      ("level", .str c.logging.level),
      ("format", .str c.logging.format.name)])]

/-- The document of a configuration, if its numbers fit. -/
def text? (c : Config) : Option String :=
  if c.errors.maxErrors ≤ Int64.maxValue.toInt then some (Toml.document c.toEntries) else none

/-- The document of the default configuration. -/
def defaultText : String :=
  (text? {}).getD "# Failed to generate config"

/-! ## Files -/

/-- The name under which a configuration is looked for. -/
def fileName : String := ".typthon-ext.toml"

/-- The configuration of the file that a path leads to. -/
def load (root : FileTree) (cwd : List String) (path : String) : Except ConfigError Config :=
  match root.readText cwd path with
  | .ok text => parse text
  | .error problem => .error (.unreadable path problem)

/-- The configuration of the nearest file in the current directory and those above it. Without one, or if it
cannot be read, it is the default. -/
def discover (root : FileTree) (cwd : List String) : Config :=
  match root.nearest? fileName cwd.reverse with
  | none => {}
  | some file =>
    match file.text with
    | .ok text => (parse text).toOption.getD {}
    | .error _ => {}

end Config

end NativeClass
