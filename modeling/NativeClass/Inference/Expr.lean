import NativeClass.EditDistance
import NativeClass.Inference.Basic
import NativeClass.Inference.Operation
/-!
# Types of expressions

An expression is typed against the local names, the attributes and the methods known at one point of a body.
Typing an expression changes nothing of these.

* `BodyContext`, `Scope`: what stays and what grows while a body is typed.
* `typeOf`: the type of an expression.
-/

namespace NativeClass.Inference

open Python (Expr Span)

/-- What stays the same throughout a body. -/
structure BodyContext where
  className : String
  methods : MethodView
  /-- The name of the parameter that holds the instance. -/
  receiver : Option String
  /-- Integers widen into `float`. -/
  promote : Bool
  /-- The body may introduce and widen attributes. -/
  mayDefine : Bool
  /-- The order in which local names are suggested. -/
  order : LocalOrder
  lines : Python.LineIndex
  /-- The location of the whole function. -/
  location : Location
  deriving Inhabited

/-- What grows while a body is typed. -/
structure Scope where
  /-- The local names with their types. -/
  locals : OrderedMap Ty
  /-- The attributes. -/
  symbols : SymbolTable
  /-- The types of the returned values. -/
  returns : List Ty
  deriving Inhabited

/-- A failure at a place of the body. -/
def BodyContext.fail {α : Type} (c : BodyContext) (span : Span) (problem : TypingProblem)
    (similar : List String := []) : Except TypingFailure α :=
  .error ⟨problem, some (c.lines.locate span), similar⟩

/-- The expression is the receiver. -/
def BodyContext.isReceiver (c : BodyContext) : Expr → Bool
  | .name _ id => c.receiver = some id
  | _ => false

/-- The expression is the `math` module. -/
def Scope.isMath (s : Scope) : Expr → Bool
  | .name _ "math" => !s.locals.contains "math"
  | _ => false

/-- The type of a name. An unknown name belongs to the module and is opaque, unless it looks like a misspelt
local name. Of several that are equally near the first one to be enumerated is suggested. -/
def nameType (c : BodyContext) (s : Scope) (span : Span) (id : String) : Except TypingFailure Ty :=
  match s.locals.get? id with
  | some ty => .ok ty
  | none =>
    match similarNames id (c.order.names s.locals.keys) 1 with
    | near :: _ => if 2 < id.utf8ByteSize then c.fail span (.undefinedName id) [near] else .ok .any
    | [] => .ok .any

/-- The type of an attribute or a method of a value. Only values of the class itself are looked into. -/
def attributeType (c : BodyContext) (s : Scope) (span : Span) (value : Ty) (name : String) :
    Except TypingFailure Ty :=
  if value ≠ .nominal c.className then .ok .any
  else match s.symbols.get? name, c.methods.get? name with
    | some v, _ => .ok v.ty
    | none, some sig => .ok sig.functionType
    | none, none =>
      c.fail span (.noAttribute c.className name)
        (similarNames name (s.symbols.keys ++ c.methods.names) 2)

/-- The first argument that does not fit its parameter, with the parameter. -/
def firstMisfit? (promote : Bool) : List Ty → List Ty → Option (Ty × Ty)
  | p :: ps, a :: as =>
    if p.isAssignableFrom a promote then firstMisfit? promote ps as else some (p, a)
  | _, _ => none

/-- The arguments of a call fit the parameters of the method. -/
def checkArguments (c : BodyContext) (span : Span) (name : String) (params args : List Ty) :
    Except TypingFailure Unit :=
  if params.length ≠ args.length then c.fail span (.argumentCount name params.length args.length)
  else match firstMisfit? c.promote params args with
    | some (p, a) => c.fail span (.argumentType name p a)
    | none => .ok ()

/-- The result of a method call on a value. -/
def methodCallType (c : BodyContext) (s : Scope) (span attrSpan : Span) (value : Ty) (name : String)
    (args : List Ty) : Except TypingFailure Ty :=
  if value ≠ .nominal c.className then .ok .any
  else match c.methods.get? name with
    | some sig => do
      checkArguments c span name sig.args args
      return sig.ret.getD .any
    | none => return (← attributeType c s attrSpan value name).resultOfCall

/-- The result of a binary operator at a place. -/
def binaryType (c : BodyContext) (span : Span) (op : Python.BinaryOp) (left right : Ty) :
    Except TypingFailure Ty :=
  match Ty.binary? op left right c.promote with
  | some ty => .ok ty
  | none => c.fail span (.unsupportedOperands op left right)

mutual

/-- The type of an expression. -/
def typeOf (c : BodyContext) (s : Scope) : Expr → Except TypingFailure Ty
  | .name span id => nameType c s span id
  | .literal _ value => .ok (.ofLiteral value)
  | .formatted _ => .ok .str
  | .attribute span value attr =>
    if s.isMath value then .ok (.mathConstant attr)
    else do attributeType c s span (← typeOf c s value) attr
  | .subscript _ value index => do
    let ty ← typeOf c s value
    let _ ← typeOf c s index
    return ty.subscript
  | .binary span left op right => do
    let l ← typeOf c s left
    let r ← typeOf c s right
    binaryType c span op l r
  | .unary _ op operand => return .unary op (← typeOf c s operand)
  | .boolean _ operands => return .unionOf (← typesOf c s operands)
  | .compare _ left others => do
    let _ ← typeOf c s left
    let _ ← typesOf c s others
    return .bool
  | .conditional _ test body orelse => do
    let _ ← typeOf c s test
    let b ← typeOf c s body
    let o ← typeOf c s orelse
    return .join b o c.promote
  | .call span func args keywordValues => do
    let args ← typesOf c s args
    let _ ← typesOf c s keywordValues
    match func with
    | .attribute attrSpan value attr =>
      if s.isMath value then return .mathResult attr
      else methodCallType c s span attrSpan (← typeOf c s value) attr args
    | .name _ id =>
      match s.locals.get? id with
      | some ty => return ty.resultOfCall
      | none =>
        if id = c.className then return .nominal id else return .builtinResult id args c.promote
    | func => return (← typeOf c s func).resultOfCall
  | .list _ elems => return .list (.collected (← typesOf c s elems))
  | .set _ elems => return .set (.collected (← typesOf c s elems))
  | .tuple _ elems => return .tuple (← typesOf c s elems)
  | .dict _ keys values => do
    let ks ← typesOf c s keys
    let vs ← typesOf c s values
    return .dict (.collected ks) (.collected vs)
  | .comprehension _ kind =>
    match kind with
    | .list | .generator => .ok (.list .any)
    | .set => .ok (.set .any)
    | .dict => .ok (.dict .any .any)
  | .other _ => .ok .any

/-- The types of expressions, from left to right. -/
def typesOf (c : BodyContext) (s : Scope) : List Expr → Except TypingFailure (List Ty)
  | [] => .ok []
  | e :: es => do
    let ty ← typeOf c s e
    let tys ← typesOf c s es
    return ty :: tys

end

end NativeClass.Inference
