import NativeClass.Python.Lexer
/-!
# String literals

What the characters between the quotes of a string denote.

* `StringLiteral.unescape`: the characters with escape sequences resolved.
* `StringLiteral.checkFormat`: the braces of a formatted string, whose expressions are checked by a parser
  that the caller provides.
-/

namespace NativeClass.Python.StringLiteral

/-! ## Escape sequences -/

/-- The value of a hexadecimal digit. -/
def hexDigit? (c : Char) : Option Nat :=
  if c.isDigit then some (c.toNat - 48)
  else if 'a' ≤ c ∧ c ≤ 'f' then some (c.toNat - 87)
  else if 'A' ≤ c ∧ c ≤ 'F' then some (c.toNat - 55)
  else none

/-- The number of the first `count` hexadecimal digits and the text after them. -/
def hexNumber? (count : Nat) (cs : List Char) : Option (Nat × List Char) := do
  let digits := cs.take count
  if digits.length < count then none
  let values ← digits.mapM hexDigit?
  return (values.foldl (fun n d => 16 * n + d) 0, cs.drop count)

/-- The character with a number; half of a surrogate pair becomes the replacement character. -/
def charOf? (n : Nat) : Option Char :=
  if 0xD800 ≤ n ∧ n ≤ 0xDFFF then some '\ufffd'
  else if n ≤ 0x10FFFF then some (Char.ofNat n)
  else none

/-- The character written with `count` hexadecimal digits. -/
def hexEscape (count : Nat) (cs : List Char) : Except SyntaxError (List Char × List Char) :=
  match hexNumber? count cs with
  | some (n, rest) =>
    match charOf? n with
    | some c => .ok ([c], rest)
    | none => .error .malformedString
  | none => .error .malformedString

/-- The character is an octal digit. -/
def isOctal (c : Char) : Bool :=
  '0' ≤ c && c ≤ '7'

/-- The greatest length of a character's name. -/
def maxNameLength : Nat := 88

/-- A character written by its name between braces. Names are checked for their form alone and stand for
the replacement character. -/
def namedEscape (cs : List Char) : Except SyntaxError (List Char × List Char) :=
  match cs with
  | '\x7b' :: cs =>
    let name := cs.takeWhile (· ≠ '\x7d')
    let formed (c : Char) : Bool := c.isAlphanum || c = ' ' || c = '-'
    match cs.dropWhile (· ≠ '\x7d') with
    | _ :: rest =>
      if name.length ≤ maxNameLength && !name.isEmpty && name.all formed then .ok (['\ufffd'], rest)
      else .error .malformedString
    | [] => .error .malformedString
  | _ => .error .malformedString

/-- The characters of an escape sequence after its backslash, and the text after it. An unknown sequence
stands for itself. -/
def escape (isBytes : Bool) : List Char → Except SyntaxError (List Char × List Char)
  | [] => .error .malformedString
  | c :: cs =>
    match c with
    | '\\' | '\'' | '"' => .ok ([c], cs)
    | 'a' => .ok (['\x07'], cs)
    | 'b' => .ok (['\x08'], cs)
    | 'f' => .ok (['\x0c'], cs)
    | 'n' => .ok (['\n'], cs)
    | 'r' => .ok (['\r'], cs)
    | 't' => .ok (['\t'], cs)
    | 'v' => .ok (['\x0b'], cs)
    | 'x' => hexEscape 2 cs
    | '\n' => .ok ([], cs)
    | _ =>
      if isOctal c then
        let digits := c :: (cs.take 2).takeWhile isOctal
        let value := digits.foldl (fun n d => 8 * n + (d.toNat - 48)) 0
        .ok ([Char.ofNat value], cs.drop (digits.length - 1))
      else if isBytes then
        if c.toNat < 128 then .ok (['\\', c], cs) else .error .malformedString
      else if c = 'u' then hexEscape 4 cs
      else if c = 'U' then hexEscape 8 cs
      else if c = 'N' then namedEscape cs
      else .ok (['\\', c], cs)

/-- The characters that a string without embedded expressions denotes. Each step takes a character, so the
length of the content is enough of them. -/
def unescapeSteps (kind : StringKind) : Nat → List Char → Except SyntaxError (List Char)
  | _, [] => .ok []
  | 0, _ => .error .malformedString
  | steps + 1, c :: cs => do
    if c = '\\' && !kind.isRaw then
      let (front, rest) ← escape kind.isBytes cs
      return front ++ (← unescapeSteps kind steps rest)
    else if kind.isBytes && 127 < c.toNat then throw .malformedString
    else return c :: (← unescapeSteps kind steps cs)

/-- The characters that a string without embedded expressions denotes. -/
def unescape (kind : StringKind) (content : List Char) : Except SyntaxError (List Char) :=
  unescapeSteps kind content.length content

/-! ## Formatted strings -/

/-- What has been read of an embedded expression. -/
structure Field where
  /-- The characters of the expression, last first. -/
  expression : List Char := []
  /-- The brackets that are open, innermost first. -/
  brackets : List Char := []
  /-- An equals sign ended the expression, which is shown with its value. -/
  selfDocumenting : Bool := false

/-- The expression holds no character but blanks. -/
def Field.isEmpty (f : Field) : Bool :=
  f.expression.all Char.isWhitespace

/-- The field with one more character. -/
def Field.push (f : Field) (c : Char) : Field :=
  { f with expression := c :: f.expression }

/-- The bracket that a closing bracket belongs to. -/
def opening (c : Char) : Char :=
  if c = ')' then '(' else if c = ']' then '[' else '\x7b'

/-- The characters up to the next occurrence of a quote and the text after it. -/
def quoted (quote : Char) (cs : List Char) : Except SyntaxError (List Char × List Char) :=
  match cs.dropWhile (· ≠ quote) with
  | _ :: rest => .ok (cs.takeWhile (· ≠ quote), rest)
  | [] => .error .malformedFormat

/-- The conversion after an exclamation mark, which a colon or the closing brace follows. -/
def conversion : List Char → Except SyntaxError (List Char)
  | c :: d :: cs =>
    if (c = 's' || c = 'r' || c = 'a') && (d = ':' || d = '\x7d') then .ok (d :: cs)
    else .error .malformedFormat
  | _ => .error .malformedFormat

mutual

/-- The text after a formatted string's plain text and its fields. In a format specification (`depth`
above zero) a closing brace ends it. -/
def formatText (parse : List Char → Except SyntaxError Unit) (isRaw : Bool) :
    Nat → (depth : Nat) → List Char → Except SyntaxError (List Char)
  | 0, _, _ => .error .malformedFormat
  | steps + 1, depth, cs => do
    if 2 ≤ depth then throw .malformedFormat
    match cs with
    | [] => return []
    | c :: rest =>
      if c = '\x7b' then
        if depth = 0 && rest.head? = some '\x7b' then formatText parse isRaw steps depth rest.tail
        else formatText parse isRaw steps depth (← formatField parse isRaw steps depth {} rest)
      else if c = '\x7d' then
        if 0 < depth then return c :: rest
        else if rest.head? = some '\x7d' then formatText parse isRaw steps depth rest.tail
        else throw .malformedFormat
      else if c = '\\' && !isRaw then
        let (_, rest) ← escape false rest
        formatText parse isRaw steps depth rest
      else formatText parse isRaw steps depth rest

/-- The text after a field, of which a part has been read. -/
def formatField (parse : List Char → Except SyntaxError Unit) (isRaw : Bool) :
    Nat → (depth : Nat) → Field → List Char → Except SyntaxError (List Char)
  | 0, _, _, _ => .error .malformedFormat
  | _ + 1, _, _, [] => .error .malformedFormat
  | steps + 1, depth, f, c :: rest => do
    if (c = '!' || c = '=' || c = '>' || c = '<') && rest.head? = some '=' then
      formatField parse isRaw steps depth ((f.push c).push '=') rest.tail
    else if c = '!' && f.brackets.isEmpty then
      if f.isEmpty then throw .malformedFormat
      formatField parse isRaw steps depth f (← conversion rest)
    else if c = '=' && f.brackets.isEmpty then
      formatField parse isRaw steps depth { f with selfDocumenting := true } rest
    else if c = ':' && f.brackets.isEmpty then
      formatField parse isRaw steps depth f (← formatSpec parse isRaw steps depth rest)
    else if c = '(' || c = '\x7b' || c = '[' then
      formatField parse isRaw steps depth { f.push c with brackets := c :: f.brackets } rest
    else if c = ')' || c = ']' || (c = '\x7d' && !f.brackets.isEmpty) then
      if f.brackets.head? ≠ some (opening c) then throw .malformedFormat
      formatField parse isRaw steps depth { f.push c with brackets := f.brackets.tail } rest
    else if c = '\x7d' then
      if f.isEmpty then throw .malformedFormat
      parse ('(' :: f.expression.reverse ++ [')'])
      return rest
    else if c = '"' || c = '\'' then
      let (inner, rest) ← quoted c rest
      let expression := c :: (inner.reverse ++ c :: f.expression)
      formatField parse isRaw steps depth { f with expression } rest
    else if c = ' ' && f.selfDocumenting then formatField parse isRaw steps depth f rest
    else if c = '\\' || f.selfDocumenting then throw .malformedFormat
    else formatField parse isRaw steps depth (f.push c) rest

/-- The text after a format specification, from the closing brace on. -/
def formatSpec (parse : List Char → Except SyntaxError Unit) (isRaw : Bool) :
    Nat → (depth : Nat) → List Char → Except SyntaxError (List Char)
  | 0, _, _ => .error .malformedFormat
  | _ + 1, _, [] => .ok []
  | steps + 1, depth, c :: rest => do
    if c = '\x7b' then
      formatSpec parse isRaw steps depth (← formatText parse isRaw steps (depth + 1) (c :: rest))
    else if c = '\x7d' then return c :: rest
    else formatSpec parse isRaw steps depth rest

end

/-- The braces of a formatted string enclose well-formed fields. At most three steps begin at one character
and one is left for the end. -/
def checkFormat (parse : List Char → Except SyntaxError Unit) (kind : StringKind)
    (content : List Char) : Except SyntaxError Unit := do
  let _ ← formatText parse kind.isRaw (3 * content.length + 3) 0 content

end NativeClass.Python.StringLiteral
