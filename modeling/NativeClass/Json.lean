/-!
# JSON text

* `Json`: the values that summaries are made of.
* `Json.pretty`: a value over several lines, indented by two blanks.
-/

namespace NativeClass

/-- A JSON value. Numbers are natural numbers. -/
inductive Json where
  | null
  | num (n : Nat)
  | str (s : String)
  | arr (elems : List Json)
  /-- Fields in the order in which they are written. -/
  | obj (fields : List (String × Json))
  deriving Inhabited

namespace Json

/-- A hexadecimal digit. -/
def hexDigit (n : Nat) : Char :=
  (Nat.toDigits 16 (n % 16)).headD '0'

/-- The characters that stand for one character of a string. -/
def escape (c : Char) : List Char :=
  match c with
  | '"' => ['\\', '"']
  | '\\' => ['\\', '\\']
  | '\n' => ['\\', 'n']
  | '\r' => ['\\', 'r']
  | '\t' => ['\\', 't']
  | '\x08' => ['\\', 'b']
  | '\x0c' => ['\\', 'f']
  | c =>
    if c.toNat < 0x20 then ['\\', 'u', '0', '0', hexDigit (c.toNat / 16), hexDigit c.toNat] else [c]

/-- A string between quotes. -/
def quote (s : String) : String :=
  "\"" ++ String.ofList (s.toList.flatMap escape) ++ "\""

/-- The blanks at the start of a line. -/
def indentation (depth : Nat) : String :=
  String.ofList (List.replicate (2 * depth) ' ')

/-- Items between brackets, each on a line of its own. -/
def block (opening closing : String) (depth : Nat) (items : List String) : String :=
  if items.isEmpty then opening ++ closing
  else
    opening ++ "\n" ++
      ",\n".intercalate (items.map (indentation (depth + 1) ++ ·)) ++
      "\n" ++ indentation depth ++ closing

mutual

/-- A value whose first line begins at an indentation. -/
def prettyAt (depth : Nat) : Json → String
  | .null => "null"
  | .num n => toString n
  | .str s => quote s
  | .arr elems => block "[" "]" depth (prettyElems (depth + 1) elems)
  | .obj fields => block "\x7b" "\x7d" depth (prettyFields (depth + 1) fields)

/-- The elements of an array. -/
def prettyElems (depth : Nat) : List Json → List String
  | [] => []
  | e :: es => prettyAt depth e :: prettyElems depth es

/-- The fields of an object. -/
def prettyFields (depth : Nat) : List (String × Json) → List String
  | [] => []
  | (k, v) :: fs => (quote k ++ ": " ++ prettyAt depth v) :: prettyFields depth fs

end

/-- A value over several lines. -/
def pretty (v : Json) : String :=
  v.prettyAt 0

end Json

end NativeClass
