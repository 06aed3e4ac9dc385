import NativeClass.Table
import NativeClass.Ty.Text
/-!
# The native layout of attributes

An instance begins with a header of 24 bytes: type information, a reference count and the identity of its
dispatch table. Then come the attributes in table order, each at the next offset that its type's alignment
allows.

* `Layout.ofTable`: the offsets of a frozen attribute table.
* `Layout.descriptors`: one accessor for each slot.
-/

namespace NativeClass

/-- The place of one attribute in an instance. -/
structure Slot where
  name : String
  ty : Ty
  /-- The position in the attribute table. -/
  index : Nat
  /-- The first byte. -/
  offset : Nat
  /-- The number of bytes. -/
  size : Nat
  deriving DecidableEq, Inhabited

/-- The places of all attributes of a class. -/
structure Layout where
  /-- The slots in table order. -/
  slots : List Slot
  /-- The bytes of an instance. -/
  instanceSize : Nat
  deriving DecidableEq, Inhabited

/-- The accessor of one attribute. -/
structure Descriptor where
  name : String
  ty : Ty
  /-- The position in the attribute table. -/
  index : Nat
  /-- The first byte. -/
  offset : Nat
  deriving DecidableEq, Inhabited

/-- The accessor of a slot. -/
def Slot.descriptor (s : Slot) : Descriptor :=
  ⟨s.name, s.ty, s.index, s.offset⟩

/-- The first byte after a slot. -/
def Slot.stop (s : Slot) : Nat :=
  s.offset + s.size

namespace Layout

/-- Where the reference count stands. -/
def refcountOffset : Nat := 8

/-- Where the identity of the dispatch table stands. -/
def vtabOffset : Nat := 16

/-- Where the attributes begin. -/
def attributesOffset : Nat := 24

/-- The least multiple of `align` that is not below `offset`. -/
def alignUp (offset align : Nat) : Nat :=
  (offset + align - 1) / align * align

/-- The slots of attributes from a position on, none of them below `offset`. -/
def slotsFrom (offset index : Nat) : List (String × Ty) → List Slot
  | [] => []
  | (name, ty) :: rest =>
    let start := alignUp offset ty.nativeAlign
    ⟨name, ty, index, start, ty.nativeSize⟩ :: slotsFrom (start + ty.nativeSize) (index + 1) rest

/-- The first byte after all slots. -/
def stopOf (slots : List Slot) : Nat :=
  (slots.getLast?.map Slot.stop).getD attributesOffset

/-- The attributes of a table with their types, in order. -/
def attributes (t : Table Ty) : List (String × Ty) :=
  t.entries.entries.map fun e => (e.1, e.2.value)

/-- The layout of a frozen attribute table. -/
def ofTable (t : Table Ty) : Layout :=
  let slots := slotsFrom attributesOffset 0 (attributes t)
  ⟨slots, alignUp (stopOf slots) 8⟩

/-- The slot of an attribute. -/
def slot? (l : Layout) (name : String) : Option Slot :=
  l.slots.find? (·.name = name)

/-- The accessor of an attribute. -/
def descriptor? (l : Layout) (name : String) : Option Descriptor :=
  (l.slot? name).map Slot.descriptor

/-- The accessors of all attributes, in slot order. -/
def descriptors (l : Layout) : List Descriptor :=
  l.slots.filterMap fun s => l.descriptor? s.name

end Layout

end NativeClass
