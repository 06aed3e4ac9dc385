import NativeClass.Inference.Body
import NativeClass.NativeType.Basic
/-!
# Backends

The three collaborators that a compilation calls: an inference engine, a code generator and a type factory.

* `Backend.reference`: the engines of this library.
-/

namespace NativeClass

/-- The collaborators of a compilation. -/
structure Backend where
  /-- The typing of a method. -/
  infer : TypingRequest → TypingOutcome
  /-- The native code of a method of the named class. -/
  generate : String → Method → Typing → Except CodegenFailure CompiledMethod
  /-- The finished type. -/
  assemble : TypeCore → List Base → Except CompileError NativeType

namespace Backend

/-- Inference by one pass over each body, symbolic entry points, and types as they are handed over. -/
def reference : Backend where
  infer := Inference.inferMethod
  generate className m typing := compileMethod className m.name typing
  assemble core bases := .ok (.mk core bases)

end Backend

end NativeClass
