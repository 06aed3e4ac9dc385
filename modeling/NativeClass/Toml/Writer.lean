import NativeClass.Toml.Reader
/-!
# Writing documents

* `quoted`: a string in the plainest of the four kinds that can hold it.
* `Value.text`: a value; arrays of several elements take a line for each.
* `document`: a table with the tables inside it under headers.
-/

namespace NativeClass.Toml

/-! ## Strings -/

/-- The greatest number of neighbouring copies of a character. -/
def longestRun (c : Char) (cs : List Char) : Nat :=
  let step (r : Nat × Nat) (d : Char) : Nat × Nat :=
    if d = c then (r.1 + 1, max r.2 (r.1 + 1)) else (0, r.2)
  (cs.foldl step (0, 0)).2

/-- The character can only be written with an escape sequence. -/
def needsEscape (c : Char) : Bool :=
  !isTextChar c && c ≠ '\n'

/-- The four digits of an escape sequence. -/
def fourDigits (c : Char) : List Char :=
  let ds := (Nat.toDigits 16 c.toNat).map Char.toUpper
  List.replicate (4 - ds.length) '0' ++ ds

/-- The escape sequence of a character. -/
def escapeSequence (c : Char) : List Char :=
  match c with
  | '\x08' => ['\\', 'b']
  | '\t' => ['\\', 't']
  | '\n' => ['\\', 'n']
  | '\x0c' => ['\\', 'f']
  | '\r' => ['\\', 'r']
  | '"' => ['\\', '"']
  | '\\' => ['\\', '\\']
  | c => '\\' :: 'u' :: fourDigits c

/-- The characters of a basic string. In one of several lines, line ends and up to two quotes in a row stand
as they are; `quotes` counts the quotes just written. -/
def escaped (multi : Bool) (quotes : Nat) : List Char → List Char
  | [] => []
  | c :: cs =>
    if c = '"' then
      if multi && quotes < 2 then '"' :: escaped multi (quotes + 1) cs
      else escapeSequence '"' ++ escaped multi 0 cs
    else if c = '\n' && multi then '\n' :: escaped multi 0 cs
    else if c = '\t' || c = '\\' || !isTextChar c then escapeSequence c ++ escaped multi 0 cs
    else c :: escaped multi 0 cs

/-- A text between the delimiters of a string of several lines. If it has line ends, it begins on a line of its
own. -/
def multiQuoted (quote : Char) (text body : List Char) : List Char :=
  let delimiter := List.replicate 3 quote
  delimiter ++ (if text.contains '\n' then ['\n'] else []) ++ body ++ delimiter

/-- The characters between quotes in the plainest kind of string that can hold them. -/
def quotedChars (cs : List Char) : List Char :=
  let mustEscape := cs.any needsEscape
  let plain := !mustEscape && !cs.contains '\\'
  let lines := cs.contains '\n'
  if plain && !cs.contains '"' && !lines then '"' :: escaped false 0 cs ++ ['"']
  else if !mustEscape && !cs.contains '\x27' && !lines then '\x27' :: cs ++ ['\x27']
  else if plain && longestRun '"' cs ≤ 2 then multiQuoted '"' cs (escaped true 0 cs)
  else if !mustEscape && longestRun '\x27' cs ≤ 2 then multiQuoted '\x27' cs cs
  else if lines then multiQuoted '"' cs (escaped true 0 cs)
  else '"' :: escaped false 0 cs ++ ['"']

/-- A string between quotes. -/
def quoted (s : String) : String :=
  String.ofList (quotedChars s.toList)

/-- A name, between quotes if it needs them. -/
def keyText (key : String) : String :=
  let cs := key.toList
  if !cs.isEmpty && cs.all isKeyChar then key
  else if cs.any (fun c => needsEscape c || c = '\n') then
    String.ofList ('"' :: escaped false 0 cs ++ ['"'])
  else if !cs.contains '\\' && !cs.contains '"' then
    String.ofList ('"' :: escaped false 0 cs ++ ['"'])
  else if !cs.contains '\x27' then String.ofList ('\x27' :: cs ++ ['\x27'])
  else String.ofList ('"' :: escaped false 0 cs ++ ['"'])

/-! ## Values -/

/-- A floating-point number, with a fraction if it is a whole number. The sign of a NaN is not written. -/
def floatText (x : Binary64) : String :=
  if x.isNaN then "nan"
  else if x.isInfinite || x.text.contains '.' then x.text
  else x.text ++ ".0"

/-- The texts of elements between brackets, each on a line of its own if there are several. -/
def arrayText (elems : List String) : String :=
  match elems with
  | [] => "[]"
  | [e] => "[" ++ e ++ "]"
  | es => "[" ++ String.join (es.map fun e => "\n    " ++ e ++ ",") ++ "\n]"

/-- The texts of pairs between braces. -/
def bracedText (pairs : List String) : String :=
  if pairs.isEmpty then "\x7b\x7d" else "\x7b " ++ ", ".intercalate pairs ++ " \x7d"

mutual

/-- The text of a value. -/
def Value.text : Value → String
  | .str s => quoted s
  | .int i => toString i.toInt
  | .float x => floatText x
  | .bool b => if b then "true" else "false"
  | .dateTime s => s
  | .array elems => arrayText (elementTexts elems)
  | .table entries => bracedText (pairTexts entries)

/-- The texts of the elements of an array. -/
def elementTexts : List Value → List String
  | [] => []
  | v :: vs => v.text :: elementTexts vs

/-- The texts of the entries of a table. -/
def pairTexts : List (String × Value) → List String
  | [] => []
  | (key, v) :: es => (keyText key ++ " = " ++ v.text) :: pairTexts es

end

/-! ## Documents -/

/-- It is a table. -/
def Value.isTable : Value → Bool
  | .table _ => true
  | _ => false

/-- The line that names a table. The document itself has none. -/
def headerText (path : List String) : String :=
  if path.isEmpty then "" else "[" ++ ".".intercalate (path.map keyText) ++ "]\n"

/-- The header of a table with its values other than tables. It is left out where headers further down imply
it. -/
def ownSection (path : List String) (entries : List (String × Value)) : List String :=
  let plain := entries.filter fun e => !e.2.isTable
  if plain.isEmpty && (path.isEmpty || !entries.isEmpty) then []
  else [headerText path ++ String.join ((pairTexts plain).map (· ++ "\n"))]

mutual

/-- The sections of a value: none unless it is a table. -/
def sections (path : List String) : Value → List String
  | .table entries => ownSection path entries ++ sectionsWithin path entries
  | _ => []

/-- The sections of the tables among some entries. -/
def sectionsWithin (path : List String) : List (String × Value) → List String
  | [] => []
  | (key, v) :: es => sections (path ++ [key]) v ++ sectionsWithin path es

end

/-- A document, with a blank line between its sections. -/
def document (entries : List (String × Value)) : String :=
  "\n".intercalate (sections [] (.table entries))

end NativeClass.Toml
