/-!
# Padding

* `padLeft`, `padRight`: a text filled up to a width.
-/

namespace NativeClass

/-- A text filled up to a width on its left. -/
def padLeft (fill : Char) (width : Nat) (s : String) : String :=
  String.ofList (List.replicate (width - s.length) fill) ++ s

/-- A text filled up to a width on its right. -/
def padRight (fill : Char) (width : Nat) (s : String) : String :=
  s ++ String.ofList (List.replicate (width - s.length) fill)

end NativeClass
