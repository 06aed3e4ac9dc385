import NativeClass.Draft.Validation
/-!
# Method signatures of a class body

Every function of the body but the allocator becomes a method. Its signature is the one that its type hints
spell out. Without type hints a function takes over the signature of the slot of its name, if that takes as
many arguments; otherwise all its parameters are `any`.

* `Draft.methodOf`: the method of a function.
* `Draft.methodsOf`: the methods of a class dictionary, once all validators accept them.
-/

namespace NativeClass.Draft

/-- The signature of a slot that an unannotated function takes over. -/
def adoptable? (d : Draft) (name : String) (f : Function) : Option Signature :=
  (d.slotTypes.get? name).filter fun s =>
    !s.isConstructor && name ≠ initName && s.args.length = f.explicitParams.length

/-- The signature in which every parameter is `any` and the result is not known. -/
def openSignature (name : String) (f : Function) : Signature where
  args := f.explicitParams.map fun _ => .any
  ret := none
  kind := f.kind
  isConstructor := name = initName
  isAbstract := f.isAbstract

/-- The signature of a function without type hints. -/
def impliedSignature (d : Draft) (name : String) (f : Function) : Signature :=
  match d.adoptable? name f with
  | some s => { s with kind := f.kind, isAbstract := f.isAbstract }
  | none => openSignature name f

/-- The method of a function under a name. -/
def methodOf (d : Draft) (name : String) (f : Function) : Method :=
  match f.declaredSignature? with
  | some s => ⟨name, f, s, true⟩
  | none => ⟨name, f, d.impliedSignature name f, false⟩

/-- The functions of a class dictionary that become methods. -/
def methodFunctions (dict : ClassDict) : List (String × Function) :=
  (dict.entries.filterMap fun e => e.2.function?.map (e.1, ·)).filter (·.1 ≠ newName)

/-- The methods of a class dictionary, in order. -/
def methodsOf (d : Draft) (validators : ValidatorSet) (dict : ClassDict) :
    Except CompileError (List Method) := do
  let methods := (methodFunctions dict).map fun e => d.methodOf e.1 e.2
  ValidatorSet.accept d.name (validators.methodFailures d methods)
  return methods

end NativeClass.Draft
