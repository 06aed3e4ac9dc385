import NativeClass.OrderedMap.Basic
import NativeClass.Python.Lines
import NativeClass.Python.Tree
import NativeClass.Signature
/-!
# Class sources

A class as it is written: its name and the declarations of its body.

* `Function`: a function of the body with its type hints as types.
* `Function.declaredSignature?`: the signature that the type hints spell out.
* `ClassSource`, `ClassDecl`: the class, and the names of its bases beside it.
-/

namespace NativeClass

/-- The name of the constructor. It is typed before all other methods because it introduces attributes. -/
def initName : String := "__init__"

/-- The name of the allocator, which is neither typed nor compiled. -/
def newName : String := "__new__"

/-- A parameter of a function. -/
structure Parameter where
  name : String
  hint : Option Ty
  deriving DecidableEq, Inhabited

/-- The statements of a function and the lines of the text they stand in. -/
structure FunctionBody where
  statements : List Python.Stmt
  lines : Python.LineIndex
  deriving Inhabited

/-- A function of a class body. -/
structure Function where
  name : String
  /-- The parameters passed by position, with the receiver. -/
  params : List Parameter
  returns : Option Ty
  kind : MethodKind
  isAbstract : Bool
  /-- There are starred or keyword-only parameters. -/
  isVariadic : Bool
  location : Location
  body : Option FunctionBody
  deriving Inhabited

namespace Function

/-- The parameters after the receiver. -/
def explicitParams (f : Function) : List Parameter :=
  match f.kind with
  | .staticMethod => f.params
  | .instanceMethod | .classMethod => f.params.tail

/-- The result or a parameter after the receiver has a type hint. -/
def isAnnotated (f : Function) : Bool :=
  f.returns.isSome || f.explicitParams.any (·.hint.isSome)

/-- The signature that the type hints spell out, if there are any. A parameter without one is `any`. -/
def declaredSignature? (f : Function) : Option Signature :=
  if f.isAnnotated then
    some {
      args := f.explicitParams.map fun p => p.hint.getD .any
      ret := f.returns
      kind := f.kind
      isConstructor := f.name = initName
      isAbstract := f.isAbstract }
  else none

end Function

/-- A declaration of a class body. -/
inductive Declaration where
  | function (f : Function)
  /-- An attribute with its type. -/
  | attr (ty : Ty)
  /-- Any other value, as it is written. -/
  | value (text : String)
  deriving Inhabited

/-- The function of a declaration. -/
def Declaration.function? : Declaration → Option Function
  | .function f => some f
  | _ => none

/-- A class as it is written, without its bases. -/
structure ClassSource where
  name : String
  members : OrderedMap Declaration
  location : Location
  deriving Inhabited

/-- A class statement. -/
structure ClassDecl where
  source : ClassSource
  /-- The names of the bases in order. -/
  baseNames : List String
  /-- The class is marked for compilation. -/
  isJit : Bool
  deriving Inhabited

/-- The name of the class. -/
def ClassDecl.name (d : ClassDecl) : String :=
  d.source.name

end NativeClass
