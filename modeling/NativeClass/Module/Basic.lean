import NativeClass.ClassSource.Reading
import NativeClass.Compilation.Basic
import NativeClass.Module.Dependency
import NativeClass.Registry
/-!
# Compilation of a module

The marked classes of a module are compiled layer by layer, each after its bases, and registered under their
names. A base is looked for in the module first, then in the registry; any other name is a base of which
nothing is known.

* `Module.resolveBases`: the bases of a class.
* `Module.compileClasses`: the outcomes of all classes, in the order of the module.
* `Module.compileSource`: the report on a source text.
-/

namespace NativeClass

/-- The end of the compilation of one class. -/
abbrev Outcome := Except CompileError NativeType

namespace Module

/-- What has been reached while a module is compiled. -/
structure Progress where
  /-- The outcomes so far, by position. -/
  outcomes : List (Option Outcome)
  registry : Registry NativeType
  events : List Event

/-! ## One class -/

/-- A base by its name. -/
def resolveBase (registry : Registry NativeType) (decls : List ClassDecl)
    (outcomes : List (Option Outcome)) (d : ClassDecl) (name : String) : Except CompileError Base :=
  match position? decls name with
  | some i =>
    match (outcomes[i]?).join with
    | some (.ok t) => .ok (.extension t)
    | some (.error e) => .error (.ofBase d.name name (.failed e.kind))
    | none => .error (.ofBase d.name name .pending)
  | none =>
    match registry.get? name with
    | some t => .ok (.extension t)
    | none => .ok (.external name)

/-- The bases of a class, from left to right. -/
def resolveBases (registry : Registry NativeType) (decls : List ClassDecl)
    (outcomes : List (Option Outcome)) (d : ClassDecl) : Except CompileError (List Base) :=
  d.baseNames.mapM (resolveBase registry decls outcomes d)

/-- The outcome of a class whose bases have been looked up, and what it reports. -/
def compileBound (o : CompileOptions) (d : ClassDecl) (bases : Except CompileError (List Base)) :
    Outcome × List Event :=
  match bases with
  | .error e => (.error e, [])
  | .ok bases =>
    let finish := BoundClass.compile ⟨d.source, bases⟩ o
    match finish.result with
    | .ok t => (.ok t, finish.events ++ [.classCompiled])
    | .error e => (.error e, finish.events ++ [.classFailed])

/-- The registry after a class has ended; a compiled one is registered. -/
def registerOutcome (registry : Registry NativeType) : Outcome → Registry NativeType
  | .ok t => (registry.register t.name t).2
  | .error _ => registry

/-! ## All classes -/

/-- One class of a layer compiled. Its bases are looked up among the outcomes of earlier layers. -/
def compileNext (o : CompileOptions) (decls : List ClassDecl) (earlier : List (Option Outcome))
    (p : Progress) (i : Nat) : Progress :=
  match decls[i]? with
  | none => p
  | some d =>
    let (outcome, events) := compileBound (o.part i) d (resolveBases p.registry decls earlier d)
    { outcomes := p.outcomes.set i (some outcome)
      registry := registerOutcome p.registry outcome
      events := p.events ++ events }

/-- The classes of one layer compiled in the given order. -/
def compileLayer (o : CompileOptions) (decls : List ClassDecl) (p : Progress) (layer : List Nat) :
    Progress :=
  layer.foldl (compileNext o decls p.outcomes) p

/-- The error of a class on a cycle. It names the first base that is a class of the module. -/
def cycleError (decls : List ClassDecl) (d : ClassDecl) : CompileError :=
  let base := (d.baseNames.find? fun name => (position? decls name).isSome).getD ""
  .ofBase d.name base .cycle

/-- The beginning: classes on cycles have failed, the others have no outcome. -/
def start (registry : Registry NativeType) (decls : List ClassDecl) : Progress where
  outcomes :=
    let cyclic := cyclicClasses (baseGraph decls)
    decls.zipIdx.map fun e =>
      if cyclic.contains e.2 then some (.error (cycleError decls e.1)) else none
  registry := registry
  events := []

/-- The module compiled with the layers in the given order. -/
def compileLayers (o : CompileOptions) (decls : List ClassDecl) (p : Progress)
    (order : List (List Nat)) : Progress :=
  order.foldl (compileLayer o decls) p

/-- The outcome of a class; one that was never reached could not be ordered. -/
def finalOutcome (d : ClassDecl) (outcome : Option Outcome) : Outcome :=
  outcome.getD (.error (.ofBase d.name (", ".intercalate d.baseNames) .unordered))

/-- The outcomes of all classes in the order of the module, with the registry and what was reported. -/
structure Result where
  outcomes : List Outcome
  registry : Registry NativeType
  events : List Event

/-- The classes of a module compiled, each layer in the order of the module. -/
def compileClasses (o : CompileOptions) (registry : Registry NativeType) (decls : List ClassDecl) :
    Result :=
  let p := compileLayers o decls (start registry decls) (layers (baseGraph decls))
  { outcomes := (decls.zip p.outcomes).map fun e => finalOutcome e.1 e.2
    registry := p.registry
    events := p.events }

/-! ## Source texts -/

/-- The outcomes of the marked classes of a module, in the order of its text. -/
structure Report where
  path : String
  classes : List (String × Outcome)

namespace Report

/-- The types that were compiled. -/
def compiled (r : Report) : List NativeType :=
  r.classes.filterMap fun e => e.2.toOption

/-- The error of an outcome. -/
def error? : Outcome → Option CompileError
  | .ok _ => none
  | .error e => some e

/-- The errors. -/
def errors (r : Report) : List CompileError :=
  r.classes.filterMap fun e => error? e.2

/-- The outcome of the first class of a name. -/
def get? (r : Report) (name : String) : Option Outcome :=
  r.classes.lookup name

/-- Every class was compiled. -/
def isOk (r : Report) : Bool :=
  r.errors.isEmpty

end Report

/-- The marked classes of a source text. -/
def markedClasses (path source : String) : Except CompileError (List ClassDecl) :=
  match ClassDecl.parse source with
  | .ok decls => .ok (decls.filter (·.isJit))
  | .error e => .error (.parse (path ++ ": " ++ e.message))

/-- A source text compiled: the report, or the error of a text that is not well formed, with the registry and
what was reported. -/
structure SourceResult where
  report : Except CompileError Report
  registry : Registry NativeType
  events : List Event

/-- The marked classes of a source text compiled. -/
def compileSource (o : CompileOptions) (registry : Registry NativeType) (path source : String) :
    SourceResult :=
  match markedClasses path source with
  | .error e => ⟨.error e, registry, []⟩
  | .ok decls =>
    let r := compileClasses o registry decls
    ⟨.ok ⟨path, (decls.map ClassDecl.name).zip r.outcomes⟩, r.registry, r.events ++ [.timed "module"]⟩

end Module

end NativeClass
