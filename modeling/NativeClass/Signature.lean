import NativeClass.Ty.Text
/-!
# Method signatures

The native signature of a method: its kind, the types of its arguments without the receiver, and the
return type once it is known.

* `Signature.reconcile`: a new signature for a name that already has one. The two must agree, except that
  a missing return type is taken from the other side.
* `Signature.Conflict`: the ways in which two signatures disagree.
-/

namespace NativeClass

/-- What a method receives in its first parameter. -/
inductive MethodKind where
  /-- The object. -/
  | instanceMethod
  /-- The class. -/
  | classMethod
  /-- Nothing: every parameter is an argument. -/
  | staticMethod
  deriving DecidableEq, Inhabited

/-- The name of a kind in messages. -/
def MethodKind.text : MethodKind → String
  | .instanceMethod => "instance method"
  | .classMethod => "classmethod"
  | .staticMethod => "staticmethod"

/-- The native signature of a method. -/
structure Signature where
  /-- The argument types, without the receiver. -/
  args : List Ty
  /-- The return type, once it is known. -/
  ret : Option Ty
  /-- The kind of the method. -/
  kind : MethodKind := .instanceMethod
  /-- The method makes instances. -/
  isConstructor : Bool := false
  /-- The method is declared without an implementation. -/
  isAbstract : Bool := false
  deriving DecidableEq, Inhabited

namespace Signature

/-- The return type is known. -/
def isResolved (s : Signature) : Bool :=
  s.ret.isSome

/-- The function type seen through an instance; an unknown result is `any`. -/
def functionType (s : Signature) : Ty :=
  .function s.args (s.ret.getD .any)

/-- The spelling of a signature. -/
def text (s : Signature) : String :=
  let word := match s.kind with
    | .staticMethod => "static "
    | .classMethod => "class "
    | .instanceMethod => ""
  word ++ "(" ++ Ty.listText s.args ++ ") -> " ++ (s.ret.map Ty.text).getD "?"

/-! ## Reconciliation -/

/-- A disagreement between a new signature and the existing one of its name. -/
inductive Conflict where
  | kind (old new : MethodKind)
  | arguments (new old : List Ty)
  | result (new old : Ty)
  deriving DecidableEq

/-- The message of a disagreement. -/
def Conflict.message : Conflict → String
  | .kind old new => "cannot override " ++ old.text ++ " with " ++ new.text
  | .arguments new old =>
    "argument types (" ++ Ty.listText new ++ ") do not match existing signature (" ++
      Ty.listText old ++ ")"
  | .result new old =>
    "return type " ++ new.text ++ " does not match existing return type " ++ old.text

/-- The signature recorded for a name when `new` meets the existing signature `old`. Kinds and argument
types must be equal, and so must two known return types; a missing one is taken from the other side. -/
def reconcile (new old : Signature) : Except Conflict Signature :=
  if new.kind ≠ old.kind then .error (.kind old.kind new.kind)
  else if new.args ≠ old.args then .error (.arguments new.args old.args)
  else match new.ret, old.ret with
    | some r, some r' => if r = r' then .ok new else .error (.result r r')
    | some _, none => .ok new
    | none, r => .ok { new with ret := r }

theorem reconcile_self (s : Signature) : s.reconcile s = .ok s := by
  obtain ⟨args, ret, kind, ctor, abs⟩ := s
  cases ret <;> simp [reconcile]

end Signature

end NativeClass
