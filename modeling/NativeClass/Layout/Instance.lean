import NativeClass.Binary64
import NativeClass.Layout.Basic
import NativeClass.LittleEndian
/-!
# Instances

An instance is a string of bytes that descriptors read and write.

* `Instance.zeroed`: the instance in which every attribute has the zero value of its type.
* `Descriptor.get`, `Descriptor.set`: access to one attribute, checked against the instance's size and the
  attribute's type.
-/

namespace NativeClass

/-- A value that enters or leaves a native slot. -/
inductive Value where
  | noneValue
  | bool (b : Bool)
  | int (i : Int64)
  | float (x : Binary64)
  /-- An opaque handle of an object; zero stands for none. -/
  | object (handle : UInt64)
  deriving DecidableEq, Inhabited

/-- The name of a value's type in messages. -/
def Value.typeName : Value → String
  | .noneValue => "None"
  | .bool _ => "bool"
  | .int _ => "int"
  | .float _ => "float"
  | .object _ => "object"

/-- The reason why an access fails. -/
inductive AccessError where
  | typeMismatch (name : String) (expected : Ty) (found : String)
  | outOfBounds (name : String) (offset size : Nat)
  deriving DecidableEq, Inhabited

/-- The message of a failed access. -/
def AccessError.message : AccessError → String
  | .typeMismatch name expected found =>
    "attribute '" ++ name ++ "' of type " ++ expected.text ++ " cannot hold a value of type " ++ found
  | .outOfBounds name offset size =>
    "attribute '" ++ name ++ "' at offset " ++ toString offset ++ " lies outside a " ++
      toString size ++ "-byte instance"

/-- The storage of one object. -/
structure Instance where
  className : String
  bytes : List UInt8
  deriving DecidableEq, Inhabited

namespace Instance

/-- The number of bytes. -/
def size (x : Instance) : Nat :=
  x.bytes.length

/-- An instance with no attribute set: the header holds one reference and the dispatch table's identity. -/
def zeroed (className : String) (size : Nat) (vtabId : UInt64) : Instance :=
  ⟨className, List.replicate 8 0 ++ LittleEndian.ofWord 1 ++ LittleEndian.ofWord vtabId ++
    List.replicate (size - Layout.attributesOffset) 0⟩

/-- The word at an offset. -/
def wordAt (x : Instance) (offset : Nat) : UInt64 :=
  LittleEndian.toWord (x.bytes.drop offset)

/-- The identity of the dispatch table. -/
def vtabId (x : Instance) : UInt64 :=
  x.wordAt Layout.vtabOffset

/-- The instance with the bytes from an offset on overwritten. -/
def write (x : Instance) (offset : Nat) (bytes : List UInt8) : Instance :=
  { x with bytes := x.bytes.take offset ++ bytes ++ x.bytes.drop (offset + bytes.length) }

end Instance

namespace Value

/-- The bytes of a word slot that holds one or zero. -/
def boolWord (b : Bool) : UInt64 :=
  if b then 1 else 0

/-- The bytes that a slot of the given type holds for a value, if it can hold it. Booleans widen into
integers, and both into floats. -/
def encode? : Ty → Value → Option (List UInt8)
  | .bool, .bool b => some [if b then 1 else 0]
  | .int, .int i => some (LittleEndian.ofWord i.toUInt64)
  | .int, .bool b => some (LittleEndian.ofWord (boolWord b))
  | .float, .float x => some (LittleEndian.ofWord x.bits)
  | .float, .int i => some (LittleEndian.ofWord (Binary64.ofInt i.toInt).bits)
  | .float, .bool b => some (LittleEndian.ofWord (Binary64.ofInt (if b then 1 else 0)).bits)
  | .bool, _ | .int, _ | .float, _ => none
  | _, .noneValue => some (LittleEndian.ofWord 0)
  | _, .object handle => some (LittleEndian.ofWord handle)
  | _, _ => none

/-- The value of a slot of the given type that begins with these bytes. -/
def decode (ty : Ty) (bytes : List UInt8) : Value :=
  let word := LittleEndian.toWord bytes
  match ty with
  | .bool => .bool (bytes.headD 0 ≠ 0)
  | .int => .int word.toInt64
  | .float => .float ⟨word⟩
  | _ => if word = 0 then .noneValue else .object word

end Value

namespace Descriptor

/-- The slot lies within the instance. -/
def checkBounds (d : Descriptor) (x : Instance) : Except AccessError Unit :=
  if x.size < d.offset + d.ty.nativeSize then .error (.outOfBounds d.name d.offset x.size) else .ok ()

/-- The value of the attribute. -/
def get (d : Descriptor) (x : Instance) : Except AccessError Value := do
  d.checkBounds x
  return Value.decode d.ty (x.bytes.drop d.offset)

/-- The instance with a value stored for the attribute. -/
def set (d : Descriptor) (x : Instance) (v : Value) : Except AccessError Instance := do
  d.checkBounds x
  match Value.encode? d.ty v with
  | some bytes => return x.write d.offset bytes
  | none => throw (.typeMismatch d.name d.ty v.typeName)

end Descriptor

end NativeClass
