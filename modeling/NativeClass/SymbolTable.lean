import NativeClass.OrderedMap.Basic
import NativeClass.Ty.Basic
/-!
# Symbol tables

The attributes that the methods of a class may use, with their types, in the order in which they were first
seen.

* `Variable`: an attribute's type, and whether later stores may widen it.
* `SymbolTable`: the attributes of a class by name.
-/

namespace NativeClass

/-- How an attribute came to be known. -/
inductive VariableOrigin where
  /-- From the attribute table of a base. -/
  | inherited
  /-- From a declaration with a type. -/
  | declared
  /-- From a store in the constructor. -/
  | inferred
  deriving DecidableEq, Inhabited

/-- An attribute as method bodies see it. -/
structure Variable where
  ty : Ty
  /-- Later stores in the constructor may widen the type. -/
  promotable : Bool
  origin : VariableOrigin
  deriving DecidableEq, Inhabited

namespace Variable

/-- An attribute declared with a type, which stays. -/
def declared (ty : Ty) : Variable :=
  ⟨ty, false, .declared⟩

/-- An attribute first stored in the constructor, whose type may still widen. -/
def inferred (ty : Ty) : Variable :=
  ⟨ty, true, .inferred⟩

/-- An attribute of a base, whose type stays. -/
def inherited (ty : Ty) : Variable :=
  ⟨ty, false, .inherited⟩

end Variable

/-- The attributes of a class by name. -/
abbrev SymbolTable := OrderedMap Variable

end NativeClass
