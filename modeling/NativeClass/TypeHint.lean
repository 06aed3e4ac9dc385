import NativeClass.Python.Tree
import NativeClass.Ty.Basic
/-!
# Types of type hints

* `Ty.ofName`: the type that a name denotes; an unknown name is a nominal type.
* `Ty.ofHint`: the type that a type hint denotes.
* `Ty.ofValue?`: the type that a value assigned in a class body declares, if it names a built-in one.
-/

namespace NativeClass

open Python (Expr)

/-- The names that take type arguments between brackets. -/
inductive Generic where
  | list
  | set
  | dict
  | tuple
  | optional
  | union
  deriving DecidableEq, Inhabited

/-- The generic of a name. -/
def Generic.ofName? : String → Option Generic
  | "list" | "List" => some .list
  | "set" | "Set" => some .set
  | "dict" | "Dict" => some .dict
  | "tuple" | "Tuple" => some .tuple
  | "Optional" => some .optional
  | "Union" => some .union
  | _ => none

namespace Ty

/-- The type that a name denotes. Containers without arguments hold `any`; the names of native numbers
denote the type they store. -/
def ofName : String → Ty
  | "int" | "int64" | "long" => .int
  | "float" | "double" | "float64" => .float
  | "str" => .str
  | "bool" => .bool
  | "bytes" => .bytes
  | "None" => .noneType
  | "Any" | "object" => .any
  | "list" | "List" => .list .any
  | "dict" | "Dict" => .dict .any .any
  | "set" | "Set" => .set .any
  | name => .nominal name

mutual

/-- The type that a type hint denotes. Text is a forward reference to a name; a form that denotes no type
is `any`. -/
def ofHint : Expr → Ty
  | .name _ id => ofName id
  | .literal _ .noneValue => .noneType
  | .literal _ (.str name) => ofName name
  | .attribute _ value attr =>
    match value with
    | .name _ moduleName => if moduleName = "typing" then ofName attr else .nominal attr
    | _ => .nominal attr
  | .subscript _ (.name _ id) index =>
    match Generic.ofName? id with
    | some .list => .list (ofHint index)
    | some .set => .set (ofHint index)
    | some .dict =>
      match index with
      | .tuple _ [key, value] => .dict (ofHint key) (ofHint value)
      | _ => .dict .any .any
    | some .tuple =>
      match index with
      | .tuple _ elems => .tuple (ofHints elems)
      | elem => .tuple [ofHint elem]
    | some .optional => unionOf [ofHint index, .noneType]
    | some .union =>
      match index with
      | .tuple _ members => unionOf (ofHints members)
      | member => ofHint member
    | none => .nominal id
  | .binary _ left .bitOr right => unionOf [ofHint left, ofHint right]
  | _ => .any

/-- The types that a list of type hints denotes. -/
def ofHints : List Expr → List Ty
  | [] => []
  | e :: es => ofHint e :: ofHints es

end

/-- The name that a class-level value refers to, possibly with type arguments. -/
def referredName? : Expr → Option String
  | .name _ id => some id
  | .subscript _ (.name _ id) _ => some id
  | _ => none

/-- The type that a class-level value declares: the value must name a built-in type that has a native slot or
a container. -/
def ofValue? (e : Expr) : Option Ty :=
  match (referredName? e).map ofName with
  | none | some (.nominal _) | some .any | some .noneType => none
  | some _ => some (ofHint e)

end Ty

end NativeClass
