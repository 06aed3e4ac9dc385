import NativeClass.Flags
import NativeClass.Method
import NativeClass.SymbolTable
/-!
# Typings of methods

What passes between the compiler and an inference engine.

* `Typing`: what inference finds out about a method, as code generation reads it.
* `TypingFailure`: why a body cannot be typed, with `TypingProblem.message`.
* `LocalOrder`: the order in which local names are enumerated, which is left open.
* `TypingRequest`, `TypingOutcome`: one call of an inference engine.
-/

namespace NativeClass

/-- What the inference of a body found. -/
structure InferredBody where
  /-- The types of the local names, in increasing order of the names. -/
  locals : List (String × Ty)
  ret : Ty
  /-- The number of statements of the body. -/
  statements : Nat
  deriving DecidableEq, Inhabited

/-- The typing of a method: its signature with the return type, and the body if this library inferred it. -/
structure Typing where
  signature : Signature
  body : Option InferredBody
  deriving DecidableEq, Inhabited

/-- The reason why a method body cannot be typed. -/
inductive TypingProblem where
  | undefinedName (name : String)
  | noAttribute (className name : String)
  | unsupportedOperands (op : Python.BinaryOp) (left right : Ty)
  | annotatedValue (value hint : Ty)
  | methodAssigned (name : String)
  | attributeValue (value : Ty) (name : String) (ty : Ty)
  | attributeOutsideInit (name : String)
  | argumentCount (name : String) (expected found : Nat)
  | argumentType (name : String) (expected found : Ty)
  | resultType (found declared : Ty)
  /-- A problem that another inference engine reports in its own words. -/
  | reported (message : String)
  deriving DecidableEq, Inhabited

/-- The message of a problem. -/
def TypingProblem.message : TypingProblem → String
  | .undefinedName name => "name '" ++ name ++ "' is not defined"
  | .noAttribute className name => "Type " ++ className ++ " has no attribute '" ++ name ++ "'"
  | .unsupportedOperands op left right =>
    "unsupported operand types for " ++ op.text ++ ": " ++ left.text ++ " and " ++ right.text
  | .annotatedValue value hint =>
    "cannot assign " ++ value.text ++ " to a " ++ hint.text ++ " annotation"
  | .methodAssigned name => "cannot assign to method '" ++ name ++ "'"
  | .attributeValue value name ty =>
    "cannot assign " ++ value.text ++ " to attribute '" ++ name ++ "' of type " ++ ty.text
  | .attributeOutsideInit name => "cannot introduce attribute '" ++ name ++ "' outside __init__"
  | .argumentCount name expected found =>
    name ++ "() takes " ++ toString expected ++ " argument(s) but " ++ toString found ++ " were given"
  | .argumentType name expected found =>
    name ++ "() expects " ++ expected.text ++ ", got " ++ found.text
  | .resultType found declared =>
    "returns " ++ found.text ++ " but the declared return type is " ++ declared.text
  | .reported message => message

/-- A problem, the place where it was found if it has one, and the names that may have been meant. -/
structure TypingFailure where
  problem : TypingProblem
  location : Option Location
  similar : List String
  deriving DecidableEq, Inhabited

/-- The suggestions of a failure, in words. -/
def TypingFailure.suggestions (f : TypingFailure) : List String :=
  f.similar.map fun name => "Did you mean '" ++ name ++ "'?"

/-- The order in which the local names of a body are enumerated. The names do not determine it, nor does the order in
which they came, and it differs from one part of a run to another. -/
structure LocalOrder where
  /-- The names in their order at some place of the run. -/
  enumerate : List Nat → List String → List String
  perm : ∀ place names, (enumerate place names).Perm names

namespace LocalOrder

/-- The names in the order in which they came. -/
def asInserted : LocalOrder :=
  ⟨fun _ names => names, fun _ names => .refl names⟩

instance : Inhabited LocalOrder :=
  ⟨asInserted⟩

/-- The order in a part of the run. -/
def part (order : LocalOrder) (k : Nat) : LocalOrder :=
  ⟨fun place => order.enumerate (k :: place), fun place => order.perm (k :: place)⟩

/-- The names in order. -/
def names (order : LocalOrder) : List String → List String :=
  order.enumerate []

end LocalOrder

/-- What an inference engine is given to type one method. -/
structure TypingRequest where
  className : String
  method : Method
  /-- The signature that the body is checked against. -/
  declared : Signature
  flags : Flags
  symbols : SymbolTable
  /-- The body may introduce and widen attributes. -/
  mayDefine : Bool
  methods : MethodView
  /-- The order in which the engine comes across local names. -/
  order : LocalOrder
  deriving Inhabited

/-- The answer of an inference engine, with the symbol table as it is left. -/
structure TypingOutcome where
  result : Except TypingFailure Typing
  symbols : SymbolTable

end NativeClass
