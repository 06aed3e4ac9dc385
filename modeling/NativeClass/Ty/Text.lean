import NativeClass.Ty.Basic
/-!
# The text of a type

* `Ty.text`: the spelling used in messages and signatures. Tuples are written like parameter lists and
  the members of a union are separated by bars, so the text does not determine the type.
-/

namespace NativeClass.Ty

mutual

/-- The spelling of a type. -/
def text : Ty → String
  | .any => "Any"
  | .never => "Never"
  | .noneType => "None"
  | .bool => "bool"
  | .int => "int"
  | .float => "float"
  | .str => "str"
  | .bytes => "bytes"
  | .list t => "list[" ++ t.text ++ "]"
  | .tuple ts => "(" ++ ", ".intercalate (texts ts) ++ ")"
  | .dict k v => "dict[" ++ k.text ++ ", " ++ v.text ++ "]"
  | .set t => "set[" ++ t.text ++ "]"
  | .function ps r => "(" ++ ", ".intercalate (texts ps) ++ ") -> " ++ r.text
  | .union ts => " | ".intercalate (texts ts)
  | .nominal name => name

/-- The spellings of a list of types. -/
def texts : List Ty → List String
  | [] => []
  | t :: ts => t.text :: texts ts

end

/-- The spellings of a list of types, separated by commas. -/
def listText (ts : List Ty) : String :=
  ", ".intercalate (texts ts)

instance : ToString Ty := ⟨text⟩

end NativeClass.Ty
