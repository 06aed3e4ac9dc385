import NativeClass.TypeHint
import NativeClass.Inference.Expr
/-!
# Typing of statements

One pass over the statements of a body, in order. Every branch is walked once, and the types of a name in
different branches are joined. Statements of other forms are passed over.

* `assign`: a store of a value of some type into a target.
* `walk`, `walkAll`: the scope after a statement and after a block.
-/

namespace NativeClass.Inference

open Python (Expr Span Stmt)

/-- The end of a walk that fails: the failure and the attributes as they stand. -/
structure Halt where
  failure : TypingFailure
  symbols : SymbolTable

/-- A failure halts the walk at a scope. -/
def Scope.attempt {α : Type} (s : Scope) : Except TypingFailure α → Except Halt α
  | .ok a => .ok a
  | .error f => .error ⟨f, s.symbols⟩

/-- The scope with one more type of a returned value. -/
def Scope.addReturn (s : Scope) (ty : Ty) : Scope :=
  { s with returns := s.returns ++ [ty] }

/-- The scope with an attribute set. -/
def Scope.setAttribute (s : Scope) (name : String) (v : Variable) : Scope :=
  { s with symbols := s.symbols.insert name v }

/-- A store into a local name. A type hint replaces the type that the name has; any other store joins
it. -/
def assignLocal (c : BodyContext) (s : Scope) (name : String) (value : Ty) (isAnnotated : Bool) : Scope :=
  let ty := match s.locals.get? name with
    | some old => if isAnnotated then value else Ty.join old value c.promote
    | none => value
  { s with locals := s.locals.insert name ty }

/-- A store into an attribute of the receiver. A body that may define attributes introduces new ones and
widens promotable ones; all others only store what fits. -/
def assignAttribute (c : BodyContext) (s : Scope) (span : Span) (name : String) (value : Ty)
    (isAnnotated : Bool) : Except TypingFailure Scope :=
  match s.symbols.get? name with
  | some v =>
    if v.ty.isAssignableFrom value c.promote then .ok s
    else if c.mayDefine && v.promotable then
      .ok (s.setAttribute name { v with ty := Ty.join v.ty value c.promote })
    else c.fail span (.attributeValue value name v.ty)
  | none =>
    if (c.methods.get? name).isSome then c.fail span (.methodAssigned name)
    else if c.mayDefine then
      .ok (s.setAttribute name (if isAnnotated then .declared value else .inferred value))
    else c.fail span (.attributeOutsideInit name) (similarNames name s.symbols.keys 2)

mutual

/-- A store of a value of the given type into a target. -/
def assign (c : BodyContext) (s : Scope) (target : Expr) (value : Ty) (isAnnotated : Bool) :
    Except Halt Scope :=
  match target with
  | .name _ id => .ok (assignLocal c s id value isAnnotated)
  | .tuple _ elems => assignEach c s elems (value.unpacked elems.length)
  | .attribute span object attr =>
    if c.isReceiver object then
      s.attempt (assignAttribute c s span attr value isAnnotated)
    else do
      let _ ← s.attempt (typeOf c s target)
      return s
  | _ => do
    let _ ← s.attempt (typeOf c s target)
    return s

/-- A store of values into the targets at their places. -/
def assignEach (c : BodyContext) (s : Scope) (targets : List Expr) (values : List Ty) :
    Except Halt Scope :=
  match targets, values with
  | t :: ts, v :: vs => do assignEach c (← assign c s t v false) ts vs
  | _, _ => .ok s

end

/-- A store of one value into each of several targets. -/
def assignAll (c : BodyContext) (s : Scope) (targets : List Expr) (value : Ty) : Except Halt Scope :=
  targets.foldlM (fun s t => assign c s t value false) s

/-- The value of an annotated store fits the type hint. -/
def checkAnnotated (c : BodyContext) (s : Scope) (span : Span) (hint : Ty) :
    Option Expr → Except TypingFailure Unit
  | none => .ok ()
  | some e => do
    let value ← typeOf c s e
    if hint.isAssignableFrom value c.promote then .ok ()
    else c.fail span (.annotatedValue value hint)

/-- The type of the value that a `return` statement returns. -/
def returnedType (c : BodyContext) (s : Scope) : Option Expr → Except TypingFailure Ty
  | none => .ok .noneType
  | some e => typeOf c s e

/-- The type that an augmented store gives to its target. -/
def augmentedType (c : BodyContext) (s : Scope) (span : Span) (target : Expr) (op : Python.BinaryOp)
    (value : Expr) : Except TypingFailure Ty := do
  let current ← typeOf c s target
  let operand ← typeOf c s value
  binaryType c span op current operand

mutual

/-- The scope after a statement. -/
def walk (c : BodyContext) (s : Scope) : Stmt → Except Halt Scope
  | .assign _ targets value => do
    let ty ← s.attempt (typeOf c s value)
    assignAll c s targets ty
  | .annotated span target hint value => do
    let ty := Ty.ofHint hint
    s.attempt (checkAnnotated c s span ty value)
    assign c s target ty true
  | .augmented span target op value => do
    let ty ← s.attempt (augmentedType c s span target op value)
    assign c s target ty false
  | .ret _ value => do
    let ty ← s.attempt (returnedType c s value)
    return s.addReturn ty
  | .branch _ test body orelse => do
    let _ ← s.attempt (typeOf c s test)
    let s ← walkAll c s body
    walkAll c s orelse
  | .whileLoop _ test body orelse => do
    let _ ← s.attempt (typeOf c s test)
    let s ← walkAll c s body
    walkAll c s orelse
  | .forLoop _ target iter body orelse => do
    let ty ← s.attempt (typeOf c s iter)
    let s ← assign c s target ty.element false
    let s ← walkAll c s body
    walkAll c s orelse
  | .expr _ value => do
    let _ ← s.attempt (typeOf c s value)
    return s
  | .assertion _ test => do
    let _ ← s.attempt (typeOf c s test)
    return s
  | _ => .ok s

/-- The scope after the statements of a block. -/
def walkAll (c : BodyContext) (s : Scope) : List Stmt → Except Halt Scope
  | [] => .ok s
  | stmt :: rest => do
    let s ← walk c s stmt
    walkAll c s rest

end

end NativeClass.Inference
