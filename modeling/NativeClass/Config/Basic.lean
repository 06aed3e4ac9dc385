import NativeClass.Draft.Validation
import NativeClass.Glob.Pattern
import NativeClass.Logging
/-!
# Configuration

* `Config`: the sections of a configuration; every field has its default.
* `Config.shouldCompile`: the files that the patterns of a configuration let through.
-/

namespace NativeClass

/-- How compilation runs. -/
structure CompileSection where
  /-- Independent classes of a module may be compiled at the same time. -/
  parallel : Bool := true
  flags : Flags := .empty
  deriving DecidableEq, Inhabited

/-- The shape in which results are reported. -/
inductive ReportFormat where
  /-- Lines of text. -/
  | plain
  /-- One JSON array. -/
  | json
  deriving DecidableEq, Inhabited

/-- The name of a shape. -/
def ReportFormat.name : ReportFormat → String
  | .plain => "default"
  | .json => "json"

/-- The shape of a name. -/
def ReportFormat.ofName? (s : String) : Option ReportFormat :=
  [ReportFormat.plain, .json].find? (·.name = s)

/-- How errors are reported. -/
structure ErrorSection where
  /-- No further file is compiled once there are so many errors. -/
  maxErrors : Nat := 100
  color : Bool := true
  format : ReportFormat := .plain
  deriving DecidableEq, Inhabited

/-- Which files of a directory are compiled. -/
structure PathSection where
  /-- Patterns of which a file must match one, unless there are none. -/
  included : List String := ["**/*.py"]
  /-- Patterns of which a file must match none. -/
  excluded : List String := ["**/__pycache__/**", "**/venv/**", "**/.venv/**"]
  deriving DecidableEq, Inhabited

/-- How events are reported. -/
structure LoggingSection where
  /-- The name of the level. A name that is not known is ignored. -/
  level : String := "warn"
  format : LogFormat := .compact
  deriving DecidableEq, Inhabited

/-- A configuration. -/
structure Config where
  compile : CompileSection := {}
  validation : ValidationConfig := {}
  errors : ErrorSection := {}
  paths : PathSection := {}
  logging : LoggingSection := {}
  deriving DecidableEq, Inhabited

namespace Config

/-- The configurations are equal; flags are compared by their values. -/
def same (c d : Config) : Bool :=
  c.compile.flags.same d.compile.flags &&
    { c with compile.flags := .empty } = { d with compile.flags := .empty }

/-! ## Patterns -/

/-- A path with slashes for backslashes. -/
def normalizedPath (path : String) : String :=
  path.map fun c => if c = '\\' then '/' else c

/-- The text occurs in another one. -/
def occursIn (part : List Char) : List Char → Bool
  | [] => part.isEmpty
  | c :: cs => part.isPrefixOf (c :: cs) || occursIn part cs

/-- The path matches the pattern, letters in either case. A pattern that is not well formed matches the paths
in which it occurs. -/
def matchesGlob (path pattern : String) : Bool :=
  match Glob.Pattern.parse? pattern with
  | some p => p.accepts .insensitive (normalizedPath path)
  | none => occursIn pattern.toList (normalizedPath path).toList

/-- The patterns let the file through. -/
def shouldCompile (c : Config) (path : String) : Bool :=
  !c.paths.excluded.any (matchesGlob path) &&
    (c.paths.included.isEmpty || c.paths.included.any (matchesGlob path))

end Config

end NativeClass
