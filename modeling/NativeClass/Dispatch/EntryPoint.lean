import NativeClass.Digest.Blake3
import NativeClass.Inference.Basic
import NativeClass.Padding
/-!
# Entry points

No machine code is made. The entry point of a method is an address derived from the method's qualified name
and its signature, so it is the same in every run.

* `EntryPoint.ofSymbol`: the address of a symbol and a signature.
* `CompiledMethod`, `compileMethod`: the code of a method whose signature is known.
-/

namespace NativeClass

/-- The address of native code. -/
structure EntryPoint where
  address : UInt64
  deriving DecidableEq, Inhabited

namespace EntryPoint

/-- The bits that an address may have: aligned to 16 bytes and 48 bits wide. -/
def mask : UInt64 := 0x0000fffffffffff0

/-- The address that stands in for zero, which means no entry. -/
def least : UInt64 := 0x10

/-- The bytes whose digest makes an address. -/
def key (qualifiedName signature : String) : List UInt8 :=
  qualifiedName.toUTF8.toList ++ ":".toUTF8.toList ++ signature.toUTF8.toList

/-- The entry point of a qualified name with the text of a signature. -/
def ofSymbol (qualifiedName signature : String) : EntryPoint :=
  let address := Blake3.word64 (key qualifiedName signature) &&& mask
  ⟨if address = 0 then least else address⟩

/-- The address in hexadecimal digits, at least twelve of them. -/
def text (p : EntryPoint) : String :=
  "0x" ++ padLeft '0' 12 (String.ofList (Nat.toDigits 16 p.address.toNat))

end EntryPoint

/-- A method with its native code. -/
structure CompiledMethod where
  name : String
  /-- The qualified name of the code. -/
  qualifiedName : String
  entry : EntryPoint
  deriving DecidableEq, Inhabited

/-- The qualified name of a method. -/
def qualifiedName (className methodName : String) : String :=
  className ++ "." ++ methodName

/-- The reason why a method has no native code. -/
inductive CodegenFailure where
  | unresolved (className methodName : String) (signature : Signature)
  /-- A reason that another code generator reports in its own words. -/
  | reported (message : String)
  deriving DecidableEq, Inhabited

/-- The message of a failure. -/
def CodegenFailure.message : CodegenFailure → String
  | .unresolved className methodName signature =>
    "signature of " ++ qualifiedName className methodName ++ " is unresolved: " ++ signature.text
  | .reported message => message

/-- The code of a method, from its name and its typing. The return type must be known. -/
def compileMethod (className methodName : String) (typing : Typing) :
    Except CodegenFailure CompiledMethod :=
  if typing.signature.isResolved then
    let symbol := qualifiedName className methodName
    .ok ⟨methodName, symbol, .ofSymbol symbol typing.signature.text⟩
  else .error (.unresolved className methodName typing.signature)

end NativeClass
