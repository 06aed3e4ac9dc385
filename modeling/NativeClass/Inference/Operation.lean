import NativeClass.Python.Tree
import NativeClass.Ty.Basic
/-!
# Types of operations

The typing rules that look at types only: operators, subscripts, iteration, and calls of built-in functions.
An operation that a rule does not know is `any`.

* `Ty.binary?`: a binary operator on two types.
* `Ty.element`: the values that iteration yields.
* `Ty.builtinResult`: a call of a function that the module does not define.
-/

namespace NativeClass

open Python (BinaryOp Literal UnaryOp)

namespace Ty

/-- The type of a literal. -/
def ofLiteral : Literal → Ty
  | .noneValue => .noneType
  | .bool => .bool
  | .int => .int
  | .float => .float
  | .str _ => .str
  | .bytes => .bytes
  | .complex | .ellipsis => .any

/-- The type is `any` or that of a class, whose operators are not known. -/
def isOpenOperand : Ty → Bool
  | .any | .nominal _ => true
  | _ => false

/-- The result of a binary operator on two numbers. -/
def numericBinary? (op : BinaryOp) (left right : Ty) : Option Ty :=
  match op with
  | .div => some .float
  | .matMult => none
  | _ => some (if left = .float ∨ right = .float then .float else .int)

/-- The result of a binary operator; `none` if the types do not support it. -/
def binary? (op : BinaryOp) (left right : Ty) (promote : Bool) : Option Ty :=
  if left.isOpenOperand || right.isOpenOperand then some .any
  else if left.isNumeric && right.isNumeric then numericBinary? op left right
  else match op, left, right with
    | .add, .str, .str => some .str
    | .mult, .str, .int | .mult, .int, .str => some .str
    | .mod, .str, _ => some .str
    | .add, .list a, .list b => some (.list (join a b promote))
    | .mult, .list a, .int => some (.list a)
    | _, _, _ => none

/-- The result of a unary operator. -/
def unary (op : UnaryOp) (operand : Ty) : Ty :=
  match op with
  | .not => .bool
  | .invert => .int
  | .plus | .minus => if operand = .bool then .int else operand

/-- The element type of a collection with elements of these types. -/
def collected (ts : List Ty) : Ty :=
  if ts.isEmpty then .any else unionOf ts

/-- The type of the values that iteration yields. -/
def element : Ty → Ty
  | .list t | .set t => t
  | .dict k _ => k
  | .tuple ts => unionOf ts
  | .str => .str
  | .bytes => .int
  | _ => .any

/-- The type of a subscript. -/
def subscript : Ty → Ty
  | .list t => t
  | .dict _ v => v
  | .tuple ts => unionOf ts
  | .str => .str
  | .bytes => .int
  | _ => .any

/-- The result of calling a value. -/
def resultOfCall : Ty → Ty
  | .function _ r => r
  | _ => .any

/-- The types of the targets of an unpacking assignment. -/
def unpacked (value : Ty) (count : Nat) : List Ty :=
  match value with
  | .tuple ts => if ts.length = count then ts else List.replicate count value.element
  | _ => List.replicate count value.element

/-- The type of a constant of the `math` module. -/
def mathConstant : String → Ty
  | "pi" | "e" | "tau" | "inf" | "nan" => .float
  | _ => .any

/-- The result of a function of the `math` module. -/
def mathResult : String → Ty
  | "floor" | "ceil" | "trunc" | "factorial" | "gcd" | "isqrt" => .int
  | "isnan" | "isinf" | "isfinite" | "isclose" => .bool
  | "sqrt" | "exp" | "log" | "log2" | "log10" | "sin" | "cos" | "tan" | "asin" | "acos" | "atan"
  | "atan2" | "hypot" | "pow" | "fabs" | "degrees" | "radians" | "fsum" => .float
  | _ => .any

/-- The result of `abs`. -/
def absResult : List Ty → Ty
  | .bool :: _ => .int
  | t :: _ => if t.isNumeric then t else .any
  | [] => .any

/-- The result of `min` and `max`. -/
def extremeResult (args : List Ty) (promote : Bool) : Ty :=
  match args with
  | [.list t] => t
  | _ => (joinAll? args promote).getD .any

/-- The result of `sum`. -/
def sumResult : List Ty → Ty
  | .list .int :: _ | .list .bool :: _ => .int
  | .list .float :: _ => .float
  | _ => .any

/-- The elements of a collection made from the first argument. -/
def firstElement (args : List Ty) : Ty :=
  (args.head?.map element).getD .any

/-- The result of calling a function that the module does not define. A name that begins with a capital
letter makes an instance of a class of that name. -/
def builtinResult (name : String) (args : List Ty) (promote : Bool) : Ty :=
  match name with
  | "float" => .float
  | "int" | "len" | "hash" | "ord" => .int
  | "str" | "repr" | "chr" => .str
  | "bool" | "isinstance" | "callable" => .bool
  | "print" => .noneType
  | "abs" => absResult args
  | "round" => if 2 ≤ args.length then .float else .int
  | "min" | "max" => extremeResult args promote
  | "sum" => sumResult args
  | "range" => .list .int
  | "list" => .list (firstElement args)
  | "set" => .set (firstElement args)
  | "dict" => .dict .any .any
  | "tuple" => .tuple []
  | _ => if (name.toList.head?.map Char.isUpper).getD false then .nominal name else .any

end Ty

end NativeClass
