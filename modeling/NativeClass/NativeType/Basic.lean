import NativeClass.Dispatch.VTable
import NativeClass.Layout.Instance
/-!
# Native types

A class after compilation: its tables, its layout, its dispatch table and the members of its dictionary.

* `Member`: an entry of the class dictionary.
* `NativeType`, `Base`: a finished type and its bases, which are finished types or plain names.
* `NativeType.isSubclassOf`: the type or one of its ancestors has a name.
-/

namespace NativeClass

/-- The key under which a finished class keeps the class it was made from. -/
def originKey : String := "__typthon_py_class__"

/-- An entry of a class dictionary. -/
inductive Member where
  /-- A declaration of the class body as it is written. -/
  | declared (d : Declaration)
  /-- A function whose signature has been worked out. -/
  | method (m : Method)
  /-- The accessor of an attribute. -/
  | descriptor (d : Descriptor)
  /-- The class that the type was made from. -/
  | origin (c : ClassSource)
  deriving Inhabited

namespace Member

/-- The name of a member's kind. -/
def kindName : Member → String
  | .declared (.function _) => "function"
  | .declared (.attr _) => "attribute type"
  | .declared (.value _) => "value"
  | .method _ => "method"
  | .descriptor _ => "descriptor"
  | .origin _ => "class"

/-- The function of a member that is one, as it is written. -/
def function? : Member → Option Function
  | .declared d => d.function?
  | _ => none

/-- The type of a declared attribute. -/
def declaredType? : Member → Option Ty
  | .declared (.attr ty) => some ty
  | _ => none

end Member

/-- A class dictionary. -/
abbrev ClassDict := OrderedMap Member

/-- The dictionary of a class as it is written. -/
def ClassSource.dict (c : ClassSource) : ClassDict :=
  c.members.mapValues Member.declared

/-- All parts of a finished type but its bases. -/
structure TypeCore where
  name : String
  /-- The class that the type was made from. -/
  source : ClassSource
  members : ClassDict
  symbols : SymbolTable
  /-- The signatures of the methods that the class defines. -/
  methods : OrderedMap Signature
  attributes : Table Ty
  /-- The signatures of the slots of the dispatch table. -/
  slotTypes : Table Signature
  layout : Layout
  descriptors : List Descriptor
  compiled : List CompiledMethod
  vtable : VTable
  deriving Inhabited

mutual

/-- A finished type. -/
inductive NativeType where
  | mk (core : TypeCore) (bases : List Base)

/-- A base of a class: a finished type, or a class that is only known by its name. -/
inductive Base where
  | extension (type : NativeType)
  | external (name : String)

end

instance : Inhabited NativeType := ⟨.mk default []⟩

instance : Inhabited Base := ⟨.external ""⟩

namespace NativeType

/-- All parts but the bases. -/
def core : NativeType → TypeCore
  | .mk core _ => core

/-- The bases in order. -/
def bases : NativeType → List Base
  | .mk _ bases => bases

/-- The name of the class. -/
def name (t : NativeType) : String :=
  t.core.name

/-- The attribute table. -/
def attributes (t : NativeType) : Table Ty :=
  t.core.attributes

/-- The signatures of the slots of the dispatch table. -/
def slotTypes (t : NativeType) : Table Signature :=
  t.core.slotTypes

/-- The places of the attributes. -/
def layout (t : NativeType) : Layout :=
  t.core.layout

/-- The dispatch table. -/
def vtable (t : NativeType) : VTable :=
  t.core.vtable

/-- The accessor of an attribute. -/
def descriptor? (t : NativeType) (name : String) : Option Descriptor :=
  t.core.descriptors.find? (·.name = name)

/-- The signature of a method of the class, or of the slot of that name. -/
def methodSignature? (t : NativeType) (name : String) : Option Signature :=
  (t.core.methods.get? name).or (t.slotTypes.get? name)

/-- An instance with no attribute set. -/
def instantiate (t : NativeType) : Instance :=
  .zeroed t.name t.layout.instanceSize t.vtable.id

mutual

/-- The type or one of its ancestors has the name. -/
def isSubclassOf (target : String) : NativeType → Bool
  | .mk core bases => core.name = target || anyIsSubclassOf target bases

/-- One of the bases or of their ancestors has the name. -/
def anyIsSubclassOf (target : String) : List Base → Bool
  | [] => false
  | .extension t :: bases => isSubclassOf target t || anyIsSubclassOf target bases
  | .external name :: bases => name = target || anyIsSubclassOf target bases

end

end NativeType

namespace Base

/-- The name of a base. -/
def name : Base → String
  | .extension t => t.name
  | .external name => name

/-- The finished type of a base. -/
def type? : Base → Option NativeType
  | .extension t => some t
  | .external _ => none

end Base

/-- A class with its bases found. -/
structure BoundClass where
  source : ClassSource
  bases : List Base
  deriving Inhabited

/-- The name of the class. -/
def BoundClass.name (c : BoundClass) : String :=
  c.source.name

/-- The bases that are finished types, in order. -/
def BoundClass.extensionBases (c : BoundClass) : List NativeType :=
  c.bases.filterMap Base.type?

end NativeClass
