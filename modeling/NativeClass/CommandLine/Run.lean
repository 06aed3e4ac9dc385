import NativeClass.CommandLine.Arguments
import NativeClass.Config.Document
import NativeClass.Glob.Expansion
import NativeClass.Module.Summary
/-!
# Running a command line

The files that the arguments name are compiled one after another with one registry, until there are too many
errors. What is printed and the exit code follow from the reports.

* `collectFiles`: the files of the arguments, with directories expanded.
* `compileFiles`: the reports on a list of files.
* `run`: what a command line prints, and its exit code.
-/

namespace NativeClass.CommandLine

/-- What a command line prints, and its exit code. -/
structure Output where
  exitCode : Nat
  stdout : String
  stderr : String
  deriving DecidableEq, Inhabited

/-- The reason why nothing is compiled. -/
inductive Failure where
  | config (cause : ConfigError)
  /-- The path of a directory is no pattern. -/
  | malformedPattern (pattern : String)
  | pathNotFound (path : String)
  deriving DecidableEq, Inhabited

/-- The message of a failure. -/
def Failure.message : Failure → String
  | .config cause => cause.message
  | .malformedPattern pattern => "Glob pattern error: " ++ pattern
  | .pathNotFound path => "Path not found: " ++ path

/-! ## Input files -/

/-- The configuration of a command line. -/
def configOf (root : FileTree) (cwd : List String) (a : Arguments) : Except Failure Config :=
  match a.config with
  | some path => (Config.load root cwd path).mapError .config
  | none => .ok (Config.discover root cwd)

/-- The place is a file that the configuration lets through. -/
def isWanted (root : FileTree) (c : Config) (p : Glob.Place) : Bool :=
  (root.at? p.location).any FileTree.isFile && c.shouldCompile p.path

/-- The files that one path stands for: the file itself, or all modules below the directory that the
configuration lets through. -/
def filesOf (root : FileTree) (cwd : List String) (c : Config) (path : String) :
    Except Failure (List String) :=
  match root.find cwd path with
  | .ok (.file _) => .ok [path]
  | .ok (.directory _) =>
    let pattern := path ++ "/**/*.py"
    match Glob.expand? root cwd pattern with
    | some places => .ok ((places.filter (isWanted root c)).map Glob.Place.path)
    | none => .error (.malformedPattern pattern)
  | .error _ => .error (.pathNotFound path)

/-- The files that the paths stand for, in order. -/
def collectFiles (root : FileTree) (cwd : List String) (c : Config) (paths : List String) :
    Except Failure (List String) :=
  (paths.mapM (filesOf root cwd c)).map List.flatten

/-! ## Compilation -/

/-- A file to be compiled: its path, and its text unless it cannot be read. -/
structure SourceFile where
  path : String
  text : Except FileProblem String
  deriving Inhabited

/-- The file at a path. -/
def SourceFile.read (root : FileTree) (cwd : List String) (path : String) : SourceFile :=
  ⟨path, root.readText cwd path⟩

/-- What has been reached after some files. -/
structure Progress where
  registry : Registry NativeType
  /-- The reports on the files that are well formed. -/
  reports : List Module.Report
  /-- The errors of the other files, with their paths. -/
  rejected : List (String × CompileError)
  events : List Event

namespace Progress

/-- The beginning. -/
def empty : Progress :=
  ⟨.empty, [], [], []⟩

/-- The number of errors of files and of classes. -/
def errorCount (p : Progress) : Nat :=
  p.reports.foldr (fun r n => r.errors.length + n) p.rejected.length

/-- The number of compiled classes. -/
def compiledCount (p : Progress) : Nat :=
  p.reports.foldr (fun r n => r.compiled.length + n) 0

end Progress

/-- The result of compiling a file. -/
def compileFile (o : CompileOptions) (registry : Registry NativeType) (f : SourceFile) :
    Module.SourceResult :=
  match f.text with
  | .ok source => Module.compileSource o registry f.path source
  | .error problem => ⟨.error (.parse (f.path ++ ": " ++ problem.message)), registry, []⟩

/-- One more file compiled. -/
def compileNext (o : CompileOptions) (p : Progress) (f : SourceFile) : Progress :=
  let r := compileFile o p.registry f
  match r.report with
  | .ok report => ⟨r.registry, p.reports ++ [report], p.rejected, p.events ++ r.events⟩
  | .error e => ⟨r.registry, p.reports, p.rejected ++ [(f.path, e)], p.events ++ r.events⟩

/-- The files compiled in order. There is no further file once the number of errors reaches the limit. -/
def compileFiles (o : CompileOptions) (limit : Nat) (p : Progress) : List SourceFile → Progress
  | [] => p
  | f :: fs =>
    let p := compileNext (o.part 0) p f
    if limit ≤ p.errorCount then p else compileFiles (o.part 1) limit p fs

/-- The options that a configuration asks for. -/
def optionsOf (c : Config) (order : LocalOrder := .asInserted) : CompileOptions where
  backend := .reference
  validators := c.validation.validators
  flags := c.compile.flags
  order := order

/-! ## Printing -/

/-- A number of things, in words. -/
def counted (n : Nat) (one many : String) : String :=
  toString n ++ " " ++ if n = 1 then one else many

/-- A line, between the codes of a colour if there are colours. -/
def coloredLine (color : Bool) (code text : String) : String :=
  if color then "\x1b[" ++ code ++ "m" ++ text ++ "\x1b[0m\n" else text ++ "\n"

/-- The line of an error. -/
def errorLine (color : Bool) (text : String) : String :=
  coloredLine color "31" text

/-- The line of an error in a file. -/
def fileErrorLine (color : Bool) (path : String) (e : CompileError) : String :=
  errorLine color (path ++ ": " ++ e.message)

/-- The summaries of the types of a report, each with a blank line behind it. -/
def typeLines (r : Module.Report) : String :=
  String.join (r.summaries.map fun s => s.text ++ "\n")

/-- The lines of the errors of a report. -/
def reportErrorLines (color : Bool) (r : Module.Report) : String :=
  String.join (r.errors.map (fileErrorLine color r.path))

/-- What was compiled, in words. -/
def summaryText (p : Progress) (fileCount : Nat) : String :=
  "Compiled " ++ counted p.compiledCount "class" "classes" ++ " in " ++ counted fileCount "file" "files"

/-- The lines of the files that were rejected. They are printed first. -/
def rejectedLines (color : Bool) (p : Progress) : String :=
  String.join (p.rejected.map fun e => fileErrorLine color e.1 e.2)

/-- The exit code: one if there was any error. -/
def exitCodeOf (p : Progress) : Nat :=
  if p.errorCount = 0 then 0 else 1

/-- Reports as lines of text. -/
def plainOutput (color : Bool) (p : Progress) (fileCount : Nat) : Output :=
  let types := String.join (p.reports.map typeLines)
  let errors := rejectedLines color p ++ String.join (p.reports.map (reportErrorLines color))
  let summary := summaryText p fileCount
  if p.errorCount = 0 then ⟨0, types ++ coloredLine color "32" summary, errors⟩
  else
    let counts := summary ++ ", " ++ counted p.errorCount "error" "errors"
    ⟨1, types, errors ++ "\n" ++ errorLine color counts⟩

/-- Reports as a JSON array. -/
def jsonOutput (color : Bool) (p : Progress) : Output :=
  ⟨exitCodeOf p, (Json.arr (p.reports.map Module.Report.toJson)).pretty ++ "\n", rejectedLines color p⟩

/-- The figures that are printed last when everything is reported. Time is not measured here. -/
def figures (p : Progress) : String :=
  "\n".intercalate (Metrics.empty.noteAll p.events).reportLines ++ "\n"

/-- What is printed about a list of files after they have been compiled. -/
def outputOf (a : Arguments) (c : Config) (p : Progress) (fileCount : Nat) : Output :=
  let color := c.errors.color && !a.noColor
  let out :=
    if a.json || c.errors.format = .json then jsonOutput color p else plainOutput color p fileCount
  if a.verbose then { out with stderr := out.stderr ++ figures p } else out

/-! ## The whole run -/

/-- The files compiled with a configuration. -/
def compileAll (c : Config) (files : List SourceFile) (order : LocalOrder := .asInserted) : Progress :=
  compileFiles (optionsOf c order) c.errors.maxErrors .empty files

/-- The files that the arguments name, compiled. -/
def compile (root : FileTree) (cwd : List String) (a : Arguments) (order : LocalOrder := .asInserted) :
    Except Failure Output := do
  let c ← configOf root cwd a
  let paths ← collectFiles root cwd c a.paths
  let files := paths.map (SourceFile.read root cwd)
  return outputOf a c (compileAll c files order) files.length

/-- What a list of arguments prints, and the exit code: two for arguments that make no sense, one for a failure
or an error in a file. -/
def run (root : FileTree) (cwd : List String) (args : List String) (order : LocalOrder := .asInserted) : Output :=
  match Request.parse? args with
  | none => ⟨2, "", "error: invalid arguments\n\nFor more information, try '--help'.\n"⟩
  | some .version => ⟨0, versionText ++ "\n", ""⟩
  | some .help => ⟨0, helpText ++ "\n", ""⟩
  | some (.compile a) =>
    match compile root cwd a order with
    | .ok out => out
    | .error failure => ⟨1, "", "Error: " ++ failure.message ++ "\n"⟩

end NativeClass.CommandLine
