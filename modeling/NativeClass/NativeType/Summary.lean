import NativeClass.Json
import NativeClass.NativeType.Basic
import NativeClass.Padding
/-!
# Summaries of native types

* `TypeSummary`: the layout and the dispatch table of a type, in words.
* `TypeSummary.text`, `TypeSummary.toJson`: its two written forms.
-/

namespace NativeClass

/-- An attribute in a summary. -/
structure AttributeSummary where
  name : String
  ty : String
  offset : Nat
  inheritedFrom : Option String
  deriving DecidableEq, Inhabited

/-- A slot of the dispatch table in a summary. -/
structure SlotSummary where
  index : Nat
  name : String
  signature : String
  entry : String
  inheritedFrom : Option String
  deriving DecidableEq, Inhabited

/-- The layout and the dispatch table of a type, in words. -/
structure TypeSummary where
  name : String
  bases : List String
  instanceSize : Nat
  attributes : List AttributeSummary
  slots : List SlotSummary
  deriving DecidableEq, Inhabited

/-- The base that an entry of a table comes from. -/
def Table.base? {α : Type} (t : Table α) (name : String) : Option String :=
  (t.entries.get? name).bind (·.origin.base?)

/-- The summary of a type. -/
def NativeType.summary (t : NativeType) : TypeSummary where
  name := t.name
  bases := t.bases.map Base.name
  instanceSize := t.layout.instanceSize
  attributes := t.layout.slots.map fun s => ⟨s.name, s.ty.text, s.offset, t.attributes.base? s.name⟩
  slots := t.vtable.slots.zipIdx.map fun e =>
    ⟨e.2, e.1.name, e.1.signature.text, e.1.entry.text, t.slotTypes.base? e.1.name⟩

namespace TypeSummary

/-- The remark about the base that an entry comes from. -/
def originRemark : Option String → String
  | some base => "  (from " ++ base ++ ")"
  | none => ""

/-- The line of an attribute. -/
def attributeLine (a : AttributeSummary) : String :=
  "  +" ++ padRight ' ' 4 (toString a.offset) ++ " " ++ a.name ++ ": " ++ a.ty ++
    originRemark a.inheritedFrom ++ "\n"

/-- The line of a slot. -/
def slotLine (s : SlotSummary) : String :=
  "  [" ++ toString s.index ++ "] " ++ s.name ++ " " ++ s.signature ++ " -> " ++ s.entry ++
    originRemark s.inheritedFrom ++ "\n"

/-- The lines of a summary, each with its line end. -/
def text (s : TypeSummary) : String :=
  "class " ++ s.name ++ "(" ++ ", ".intercalate s.bases ++ ") [" ++ toString s.instanceSize ++
    " bytes]\n" ++
    String.join (s.attributes.map attributeLine) ++ String.join (s.slots.map slotLine)

/-- The field that names the base of an inherited entry. -/
def originField : Option String → List (String × Json)
  | some base => [("inherited_from", .str base)]
  | none => []

/-- An attribute as a JSON object. -/
def attributeJson (a : AttributeSummary) : Json :=
  .obj ([("name", .str a.name), ("type", .str a.ty), ("offset", .num a.offset)] ++
    originField a.inheritedFrom)

/-- A slot as a JSON object. -/
def slotJson (s : SlotSummary) : Json :=
  .obj ([("index", .num s.index), ("name", .str s.name), ("signature", .str s.signature),
    ("pointer", .str s.entry)] ++ originField s.inheritedFrom)

/-- A summary as a JSON object. -/
def toJson (s : TypeSummary) : Json :=
  .obj [("name", .str s.name), ("bases", .arr (s.bases.map .str)),
    ("instance_size", .num s.instanceSize), ("attributes", .arr (s.attributes.map attributeJson)),
    ("vtab", .arr (s.slots.map slotJson))]

end TypeSummary

end NativeClass
