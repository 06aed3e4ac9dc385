import NativeClass.Binary64
/-!
# TOML values

* `Toml.Value`: the values of a document; a document is a table.
* `Toml.Error`: the reasons why a text is not a document.
-/

namespace NativeClass.Toml

/-- A value of a document. -/
inductive Value where
  | str (s : String)
  | int (i : Int64)
  | float (x : Binary64)
  | bool (b : Bool)
  /-- A date, a time or both, as written. -/
  | dateTime (text : String)
  | array (elems : List Value)
  /-- Names are distinct. -/
  | table (entries : List (String × Value))
  deriving Inhabited

/-- The reason why a text is not a document. -/
inductive Error where
  /-- Something else stands where this is needed. -/
  | expected (what : String)
  /-- A string or a bracket is not closed. -/
  | unclosed (what : String)
  /-- A control character. -/
  | forbiddenCharacter (c : Char)
  /-- A backslash that begins no escape sequence. -/
  | malformedEscape
  /-- A number, date or word that is not well formed. -/
  | malformedScalar (text : String)
  /-- A number that does not fit. -/
  | outOfRange (text : String)
  /-- A name that is defined a second time. -/
  | duplicateKey (key : String)
  /-- A name that is used as that of a table but has another value. -/
  | notATable (key : String)
  /-- Too many values inside each other. -/
  | tooDeep
  deriving DecidableEq, Inhabited

/-- The message of an error. -/
def Error.message : Error → String
  | .expected what => "expected " ++ what
  | .unclosed what => "unclosed " ++ what
  | .forbiddenCharacter c => "control character U+" ++ String.ofList (Nat.toDigits 16 c.toNat)
  | .malformedEscape => "malformed escape sequence"
  | .malformedScalar text => "malformed value " ++ text
  | .outOfRange text => "number out of range: " ++ text
  | .duplicateKey key => "duplicate key " ++ key
  | .notATable key => key ++ " is not a table"
  | .tooDeep => "values are nested too deeply"

/-- The greatest number of values inside each other, and of names in a dotted key, is one less than this. -/
def depthLimit : Nat := 80

/-- The character may stand in a comment or, unescaped, in a string. -/
def isTextChar (c : Char) : Bool :=
  c = '\t' || (0x20 ≤ c.toNat && c.toNat ≠ 0x7f)

/-- The character is a blank within a line. -/
def isBlank (c : Char) : Bool :=
  c = ' ' || c = '\t'

end NativeClass.Toml
