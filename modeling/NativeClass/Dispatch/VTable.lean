import NativeClass.Dispatch.EntryPoint
/-!
# Dispatch tables

The slots of a dispatch table stand in the order of the class's method table, so an overriding method keeps
the slot of the method that it overrides.

* `VTable.build`: the table of a class, if every slot has an entry point.
* `VTable.identity`: the number that instances carry.
-/

namespace NativeClass

/-- One slot of a dispatch table. -/
structure VTableSlot where
  name : String
  entry : EntryPoint
  signature : Signature
  deriving DecidableEq, Inhabited

/-- A dispatch table. -/
structure VTable where
  id : UInt64
  slots : List VTableSlot
  deriving DecidableEq, Inhabited

namespace VTable

/-- The bytes of a slot within a table's identity. -/
def slotKey (s : VTableSlot) : List UInt8 :=
  0 :: s.name.toUTF8.toList ++ LittleEndian.ofWord s.entry.address

/-- The bytes whose digest makes the identity of a table. -/
def key (className : String) (slots : List VTableSlot) : List UInt8 :=
  className.toUTF8.toList ++ slots.flatMap slotKey

/-- The identity of a table, derived from its class and its slots. It is never zero. -/
def identity (className : String) (slots : List VTableSlot) : UInt64 :=
  max (Blake3.word64 (key className slots)) 1

/-- The table with these slots. -/
def ofSlots (className : String) (slots : List VTableSlot) : VTable :=
  ⟨identity className slots, slots⟩

/-- The slot of a method. -/
def slot? (t : VTable) (name : String) : Option VTableSlot :=
  t.slots.find? (·.name = name)

/-- The entry points of the slots by method name. -/
def entryPoints (t : VTable) : List (String × EntryPoint) :=
  t.slots.map fun s => (s.name, s.entry)

/-- The slots from a position on, or the first method that has no entry point, with its position. -/
def fillSlots (entries : OrderedMap EntryPoint) (index : Nat) :
    List (String × Entry Signature) → Except (String × Nat) (List VTableSlot)
  | [] => .ok []
  | (name, e) :: rest =>
    match entries.get? name with
    | none => .error (name, index)
    | some entry => do
      let slots ← fillSlots entries (index + 1) rest
      return ⟨name, entry, e.value⟩ :: slots

/-- The dispatch table for a frozen method table. -/
def build (className : String) (methods : Table Signature) (entries : OrderedMap EntryPoint) :
    Except CompileError VTable :=
  match fillSlots entries 0 methods.entries.entries with
  | .ok slots => .ok (.ofSlots className slots)
  | .error (name, index) =>
    .error (.codegen className name
      ("no compiled entry point for vtab slot " ++ toString index))

end VTable

end NativeClass
