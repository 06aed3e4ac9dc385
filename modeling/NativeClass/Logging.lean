/-!
# Logging settings

* `LogLevel.ofName?`: a level by its name or its number.
* `LogConfig`: how events are reported, with one function for each setting.
-/

namespace NativeClass

/-- The severity of an event, the gravest first. -/
inductive LogLevel where
  | error
  | warn
  | info
  | debug
  | trace
  deriving DecidableEq, Inhabited

/-- The shape in which events are written. -/
inductive LogFormat where
  /-- Several lines for an event. -/
  | pretty
  /-- One line for an event. -/
  | compact
  /-- One JSON object for an event. -/
  | json
  deriving DecidableEq, Inhabited

/-- Where events are written to. -/
inductive LogOutput where
  | stdout
  | stderr
  /-- Files in a directory, a new one every day, whose names begin alike. -/
  | files (directory stem : String)
  deriving DecidableEq, Inhabited

namespace LogLevel

/-- All levels, the gravest first. -/
def all : List LogLevel :=
  [.error, .warn, .info, .debug, .trace]

/-- The name of a level. -/
def name : LogLevel → String
  | .error => "error"
  | .warn => "warn"
  | .info => "info"
  | .debug => "debug"
  | .trace => "trace"

/-- The level of a number; the gravest is one. -/
def ofNumber? (n : Nat) : Option LogLevel :=
  if n = 0 then none else all[n - 1]?

/-- The number that digits spell, with an optional plus sign. -/
def number? (cs : List Char) : Option Nat :=
  let ds := match cs with
    | '+' :: ds => ds
    | ds => ds
  if !ds.isEmpty && ds.all Char.isDigit then
    some (ds.foldl (fun n d => 10 * n + (d.toNat - '0'.toNat)) 0)
  else none

/-- The level that a text names, by its number or by its name in letters of either case. -/
def ofName? (s : String) : Option LogLevel :=
  ((number? s.toList).bind ofNumber?).or (all.find? (·.name = s.toLower))

end LogLevel

namespace LogFormat

/-- The name of a format. -/
def name : LogFormat → String
  | .pretty => "pretty"
  | .compact => "compact"
  | .json => "json"

/-- All formats. -/
def all : List LogFormat :=
  [.pretty, .compact, .json]

/-- The format of a name. -/
def ofName? (s : String) : Option LogFormat :=
  all.find? (·.name = s)

end LogFormat

/-- How events are reported. -/
structure LogConfig where
  level : LogLevel := .warn
  format : LogFormat := .compact
  output : LogOutput := .stderr
  /-- The beginning and the end of each stage are events. -/
  spans : Bool := false
  /-- Further directives that say which events are reported. -/
  filter : Option String := none
  deriving DecidableEq, Inhabited

namespace LogConfig

/-- The settings with a level. -/
def withLevel (c : LogConfig) (level : LogLevel) : LogConfig :=
  { c with level }

/-- The settings with the level that a text names. A text that names none changes nothing. -/
def withLevelName (c : LogConfig) (name : String) : LogConfig :=
  { c with level := (LogLevel.ofName? name).getD c.level }

/-- The settings with a format. -/
def withFormat (c : LogConfig) (format : LogFormat) : LogConfig :=
  { c with format }

/-- The settings with an output. -/
def withOutput (c : LogConfig) (output : LogOutput) : LogConfig :=
  { c with output }

/-- The settings with or without events at the bounds of stages. -/
def withSpans (c : LogConfig) (spans : Bool) : LogConfig :=
  { c with spans }

/-- The settings with further directives. -/
def withFilter (c : LogConfig) (filter : String) : LogConfig :=
  { c with filter := some filter }

end LogConfig

end NativeClass
