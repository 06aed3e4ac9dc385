import NativeClass.ClassSource.Basic
import NativeClass.Table
/-!
# Methods

* `Method`: a function of a class body with its signature.
* `MethodView`: the signatures that a method body sees.
-/

namespace NativeClass

/-- A function of a class body with its signature. -/
structure Method where
  /-- The name under which the class body holds the function. -/
  name : String
  func : Function
  signature : Signature
  /-- The signature is spelled out by type hints. -/
  isDeclared : Bool
  deriving Inhabited

/-- The signatures that a method body sees: those of the class first, then those of the bases. -/
structure MethodView where
  own : OrderedMap Signature
  inherited : TableState Signature
  deriving Inhabited

namespace MethodView

/-- The signature of a method. -/
def get? (v : MethodView) (name : String) : Option Signature :=
  (v.own.get? name).or (v.inherited.get? name)

/-- The names of all methods, those of the class first. -/
def names (v : MethodView) : List String :=
  v.own.keys ++ v.inherited.entries.keys.filter (!v.own.contains ·)

end MethodView

end NativeClass
