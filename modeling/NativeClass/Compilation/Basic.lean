import NativeClass.Compilation.Backend
import NativeClass.Draft.Signatures
import NativeClass.Metrics
/-!
# Compilation of a class

A class is compiled in stages that run in one order only: inference, validation, freezing of the tables, and
code generation. The constructor is inferred before the attribute table is built, and all other methods after
it, so they see a fixed set of attributes.

* `Compilation`: a class somewhere between its source and its finished type.
* `Compilation.infer`, `validate`, `finalize`: the stages. A failed inference or validation drops everything
  built so far.
* `Compilation.compile`, `Compilation.run`: the last stage, and all stages in a row.
-/

namespace NativeClass

/-- How far a compilation has come. -/
inductive Stage where
  | created
  | inferred
  | validated
  | finalized
  /-- A stage failed and what it built was dropped. -/
  | failed
  deriving DecidableEq, Inhabited

/-- The name of a stage in messages. -/
def Stage.text : Stage → String
  | .created => "created"
  | .inferred => "inferred"
  | .validated => "validated"
  | .finalized => "finalized"
  | .failed => "failed"

/-- What a compilation works with. -/
structure CompileOptions where
  backend : Backend
  validators : ValidatorSet
  flags : Flags
  /-- The order of local names. A class needs only one, since its inference ends at the first suggestion. -/
  order : LocalOrder := .asInserted

namespace CompileOptions

/-- The engines of this library, the usual checks and no flags. -/
def standard : CompileOptions where
  backend := .reference
  validators := ValidationConfig.validators {}
  flags := .empty

/-- The options in a part of a run. -/
def part (o : CompileOptions) (k : Nat) : CompileOptions :=
  { o with order := o.order.part k }

end CompileOptions

/-- A class under compilation. -/
structure Compilation where
  target : BoundClass
  dict : ClassDict
  draft : Draft
  /-- The methods in the order of the class body. -/
  methods : List Method
  /-- The typings found so far, by method name. -/
  typings : OrderedMap Typing
  stage : Stage
  deriving Inhabited

namespace Compilation

/-- The compilation of a class before its first stage. -/
def ofClass (c : BoundClass) : Compilation where
  target := c
  dict := c.source.dict
  draft := .ofClass c
  methods := []
  typings := .empty
  stage := .created

/-- The compilation with all that was built dropped. -/
def discard (c : Compilation) : Compilation :=
  { ofClass c.target with stage := .failed }

/-- The error of a stage that is called while another one is due. -/
def outOfOrder (c : Compilation) (expected : Stage) : CompileError :=
  .layout c.draft.name (.outOfOrder expected.text c.stage.text)

/-! ## Inference -/

/-- The compilation with a method in the class dictionary. -/
def setMember (c : Compilation) (m : Method) : Compilation :=
  { c with dict := c.dict.insert m.name (.method m) }

/-- The inherited and the declared attributes. -/
def inferAttributes (c : Compilation) : Except CompileError Compilation := do
  let draft ← c.draft.inherit
  return { c with draft := draft.declareAttributes c.dict }

/-- The compilation with the signature of one more method recorded. -/
def installMethod (c : Compilation) (m : Method) : Except CompileError Compilation := do
  let (signature, draft) ← c.draft.addMethod m.name m.signature
  let m := { m with signature }
  return { c with draft, methods := c.methods ++ [m] }.setMember m

/-- The compilation with the signatures of all methods recorded. -/
def installMethods (o : CompileOptions) (c : Compilation) : Except CompileError Compilation := do
  let methods ← c.draft.methodsOf o.validators c.dict
  methods.foldlM installMethod { c with methods := [] }

/-- What the inference engine is asked about a method. -/
def request (o : CompileOptions) (c : Compilation) (m : Method) : TypingRequest where
  className := c.draft.name
  method := m
  declared := (c.draft.methods.get? m.name).getD m.signature
  flags := o.flags
  symbols := c.draft.symbols
  mayDefine := m.name = initName
  methods := ⟨c.draft.methods, c.draft.slotTypes⟩
  order := o.order

/-- The error of a method that cannot be typed. -/
def typingError (className : String) (m : Method) (f : TypingFailure) : CompileError :=
  .inference className m.name (f.location.getD m.func.location) f.problem.message f.suggestions

/-- The methods with one of them replaced by its later version. -/
def replaceMethod (methods : List Method) (m : Method) : List Method :=
  methods.map fun old => if old.name = m.name then m else old

/-- The compilation with the typing of a method recorded. -/
def recordTyping (c : Compilation) (m : Method) (typing : Typing) : Except CompileError Compilation := do
  let (signature, draft) ← c.draft.addMethod m.name typing.signature
  let m := { m with signature }
  return { c with
    draft
    methods := replaceMethod c.methods m
    typings := c.typings.insert m.name typing }.setMember m

/-- The compilation with one more method typed. Only the constructor may change the symbol table. -/
def typeMethod (o : CompileOptions) (c : Compilation) (m : Method) : Except CompileError Compilation :=
  let r := c.request o m
  let outcome := o.backend.infer r
  let symbols := if r.mayDefine then outcome.symbols else c.draft.symbols
  match outcome.result with
  | .error f => .error (typingError c.draft.name m f)
  | .ok typing => { c with draft := { c.draft with symbols } }.recordTyping m typing

/-- The constructor typed, if there is one. -/
def typeInit (o : CompileOptions) (c : Compilation) : Except CompileError Compilation :=
  match c.methods.find? (·.name = initName) with
  | some m => c.typeMethod o m
  | none => .ok c

/-- All other methods typed, in order. -/
def typeMethods (o : CompileOptions) (c : Compilation) : Except CompileError Compilation :=
  (c.methods.filter fun m => m.name ≠ initName ∧ m.name ≠ newName).foldlM (typeMethod o) c

/-- Everything that inference does. -/
def runInference (o : CompileOptions) (c : Compilation) : Except CompileError Compilation := do
  let c ← c.inferAttributes
  let c ← c.installMethods o
  let c ← c.typeInit o
  let c := { c with draft := ← c.draft.buildAttributes }
  let c ← c.typeMethods o
  return { c with draft := ← c.draft.buildSlots }

/-! ## Stages -/

/-- The end of a stage: its result, what it reports, and the compilation after it. -/
structure Step where
  result : Except CompileError Unit
  events : List Event
  after : Compilation

/-- A stage that was not due changes nothing. -/
def refuse (c : Compilation) (expected : Stage) : Step :=
  ⟨.error (c.outOfOrder expected), [], c⟩

/-- Inference of attributes and methods. -/
def infer (o : CompileOptions) (c : Compilation) : Step :=
  if c.stage = .created then
    match c.runInference o with
    | .ok c => ⟨.ok (), [.timed "infer"], { c with stage := .inferred }⟩
    | .error e => ⟨.error e, [.timed "infer"], c.discard⟩
  else c.refuse .created

/-- Validation of the inferred draft. -/
def validate (o : CompileOptions) (c : Compilation) : Step :=
  if c.stage = .inferred then
    match o.validators.validate c.draft with
    | .ok () => ⟨.ok (), [.timed "validate"], { c with stage := .validated }⟩
    | .error e => ⟨.error e, [.timed "validate"], c.discard⟩
  else c.refuse .inferred

/-- Offsets and slots are fixed. -/
def finalize (c : Compilation) : Step :=
  if c.stage = .validated then
    ⟨.ok (), [], { c with draft := c.draft.freezeAttributes.freezeSlots, stage := .finalized }⟩
  else c.refuse .validated

/-! ## Code generation -/

/-- The code of one method. -/
def generateMethod (o : CompileOptions) (c : Compilation) (m : Method) :
    Except CompileError CompiledMethod :=
  match c.typings.get? m.name with
  | none => .error (.codegen c.draft.name m.name "method was never type-inferred")
  | some typing =>
    match o.backend.generate c.draft.name m typing with
    | .ok code => .ok code
    | .error f => .error (.codegen c.draft.name m.name f.message)

/-- The code of all methods, in order. -/
def generateMethods (o : CompileOptions) (c : Compilation) : Except CompileError (List CompiledMethod) :=
  c.methods.mapM (c.generateMethod o)

/-- The parts of the finished type, from the code of the methods. -/
def assembleCore (c : Compilation) (compiled : List CompiledMethod) : Except CompileError TypeCore := do
  let d := c.draft
  let dict := c.dict.insert originKey (.origin c.target.source)
  let vtable ← d.buildVTable (d.resolveEntries (compiled.map fun m => (m.name, m.entry)))
  let descriptors ← d.descriptors
  match d.attributes.table?, d.slotTypes.table?, d.layout with
  | some attributes, some slotTypes, some layout =>
    return {
      name := d.name
      source := c.target.source
      members := ClassDict.withDescriptors dict descriptors
      symbols := d.symbols
      methods := d.methods
      attributes
      slotTypes
      layout
      descriptors
      compiled
      vtable }
  | none, _, _ => throw (.layout d.name (.notFinalized .attributes))
  | _, none, _ => throw (.layout d.name (.notFinalized .methods))
  | _, _, none => throw (.layout d.name (.notFinalized .attributes))

/-- The end of a compilation: the finished type, and what all of it reports. -/
structure Finish where
  result : Except CompileError NativeType
  events : List Event

/-- Code generation and the finished type. -/
def compile (o : CompileOptions) (c : Compilation) : Finish :=
  if c.stage = .finalized then
    match c.generateMethods o with
    | .error e => ⟨.error e, [.timed "compile"]⟩
    | .ok compiled =>
      ⟨c.assembleCore compiled >>= (o.backend.assemble · c.target.bases),
        [.methodsCompiled compiled.length, .timed "compile"]⟩
  else ⟨.error (c.outOfOrder .finalized), []⟩

/-- The next part of a compilation after a stage that succeeded. -/
def Step.andThen (s : Step) (next : Compilation → Finish) : Finish :=
  match s.result with
  | .error e => ⟨.error e, s.events⟩
  | .ok () =>
    let f := next s.after
    ⟨f.result, s.events ++ f.events⟩

/-- All stages in a row. -/
def run (o : CompileOptions) (c : Compilation) : Finish :=
  (c.infer o).andThen fun c => (c.validate o).andThen fun c => c.finalize.andThen (compile o)

end Compilation

/-- The finished type of a class. -/
def BoundClass.compile (c : BoundClass) (o : CompileOptions) : Compilation.Finish :=
  (Compilation.ofClass c).run o

end NativeClass
