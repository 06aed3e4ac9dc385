import NativeClass.Draft.Basic
/-!
# Validation

Checks of single methods before inference, and of the whole draft after it. All validators of a set run, and
all their objections are reported together.

* `MethodValidator`, `DraftValidator`: a check with a name.
* `ValidationConfig.validators`: the checks that a configuration asks for.
-/

namespace NativeClass

/-- A check of one method. It returns what is wrong. -/
structure MethodValidator where
  name : String
  objection? : Method → Draft → Option String

/-- A check of a draft. It returns what is wrong. -/
structure DraftValidator where
  name : String
  objection? : Draft → Option String

/-- The objection of a validator to a method. -/
def MethodValidator.failure? (v : MethodValidator) (m : Method) (d : Draft) : Option ValidationFailure :=
  (v.objection? m d).map (⟨v.name, m.name, ·⟩)

/-- The objection of a validator to a draft. -/
def DraftValidator.failure? (v : DraftValidator) (d : Draft) : Option ValidationFailure :=
  (v.objection? d).map (⟨v.name, d.name, ·⟩)

namespace MethodValidator

/-- The usual name of the receiver, for kinds that have one. -/
def receiverWord? : MethodKind → Option String
  | .instanceMethod => some "self"
  | .classMethod => some "cls"
  | .staticMethod => none

/-- The message about a missing receiver. -/
def missingReceiver? (f : Function) : Option String :=
  if f.params.isEmpty then
    (receiverWord? f.kind).map fun word => f.kind.text ++ " takes no '" ++ word ++ "' parameter"
  else none

/-- The message about a number of argument types that is not that of the parameters. -/
def wrongArity? (m : Method) : Option String :=
  let expected := m.func.explicitParams.length
  let found := m.signature.args.length
  if expected = found then none
  else some ("expected " ++ toString expected ++ " argument type(s), got " ++ toString found)

/-- The parameters must be a receiver and plain parameters, one for each argument type. -/
def argcount : MethodValidator where
  name := "argcount"
  objection? m _ :=
    if m.func.isVariadic then some "variadic and keyword-only parameters are not supported"
    else (missingReceiver? m.func).or (wrongArity? m)

/-- The constructor must be an instance method that returns nothing. -/
def init : MethodValidator where
  name := "init"
  objection? m _ :=
    if m.name ≠ initName then none
    else if m.signature.kind ≠ .instanceMethod then
      some ("__init__ cannot be a " ++ m.signature.kind.text)
    else match m.signature.ret with
      | none | some .noneType => none
      | some ty => some ("__init__ must return None, not " ++ ty.text)

/-- The checks that every configuration includes. -/
def standard : List MethodValidator :=
  [argcount, init]

end MethodValidator

namespace DraftValidator

/-- A list of names after a message, if there are any. -/
def complaint? (message : String) (names : List String) : Option String :=
  if names.isEmpty then none else some (message ++ ": " ++ ", ".intercalate names)

/-- The attributes that have the name of a method or of a slot. -/
def collisions (d : Draft) : List String :=
  d.attributes.entries.keys.filter fun name => d.methods.contains name || d.slotTypes.entries.contains name

/-- Attributes and methods share one namespace. -/
def nameCollision : DraftValidator where
  name := "name-collision"
  objection? d := complaint? "attribute(s) collide with method names" (collisions d)

/-- A class without abstract methods of its own must implement every slot. -/
def abstractMethod : DraftValidator where
  name := "abstract-method"
  objection? d :=
    if d.methods.values.any (·.isAbstract) then none
    else complaint? "abstract method(s) without a concrete override" d.abstractMethods

/-- The bases that give an attribute of the class another type, in words. -/
def typeChanges (d : Draft) (name : String) : List String :=
  match d.attributes.get? name with
  | none => []
  | some own =>
    d.bases.filterMap fun base =>
      match base.attributes.get? name with
      | some ty =>
        if ty = own then none
        else some (name ++ " (" ++ ty.text ++ " in " ++ base.name ++ ", " ++ own.text ++ " here)")
      | none => none

/-- An attribute that the class redeclares keeps its type. -/
def attributeType : DraftValidator where
  name := "attribute-type"
  objection? d := complaint? "inherited attribute type changed" (d.ownAttributes.flatMap (typeChanges d))

end DraftValidator

/-- The optional checks. -/
structure ValidationConfig where
  nameCollisions : Bool := true
  abstractMethods : Bool := true
  attributeTypes : Bool := false
  deriving DecidableEq, Inhabited

/-- Checks of methods and of drafts, in the order in which they run. -/
structure ValidatorSet where
  methods : List MethodValidator
  drafts : List DraftValidator

/-- The checks that a configuration asks for. -/
def ValidationConfig.validators (c : ValidationConfig) : ValidatorSet where
  methods := MethodValidator.standard
  drafts :=
    (if c.nameCollisions then [.nameCollision] else []) ++
    (if c.abstractMethods then [.abstractMethod] else []) ++
    (if c.attributeTypes then [.attributeType] else [])

namespace ValidatorSet

/-- The objections to a list of methods, method by method. -/
def methodFailures (set : ValidatorSet) (d : Draft) (ms : List Method) : List ValidationFailure :=
  ms.flatMap fun m => set.methods.filterMap fun v => v.failure? m d

/-- The objections to a draft. -/
def draftFailures (set : ValidatorSet) (d : Draft) : List ValidationFailure :=
  set.drafts.filterMap fun v => v.failure? d

/-- Objections fail the class. -/
def accept (className : String) (failures : List ValidationFailure) : Except CompileError Unit :=
  if failures.isEmpty then .ok () else .error (.validation className failures)

/-- The draft passes all checks of drafts. -/
def validate (set : ValidatorSet) (d : Draft) : Except CompileError Unit :=
  accept d.name (set.draftFailures d)

end ValidatorSet

end NativeClass
