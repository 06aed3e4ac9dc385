import NativeClass.Toml.Scalar
import NativeClass.Toml.Table
import NativeClass.Toml.Text
/-!
# Reading documents

* `readKey`: a dotted key.
* `readValue`: a value of any kind.
* `parse`: the entries of a document.
-/

namespace NativeClass.Toml

/-! ## Keys -/

/-- The character may stand in a key without quotes. -/
def isKeyChar (c : Char) : Bool :=
  c.isAlphanum || c = '-' || c = '_'

/-- The name that begins a text, between quotes or without, and the text behind it. -/
def readName (cs : List Char) : Except Error (String × List Char) :=
  match cs with
  | '"' :: _ | '\x27' :: _ => readLineString cs
  | _ =>
    let name := cs.takeWhile isKeyChar
    if name.isEmpty then .error (.expected "a key")
    else .ok (String.ofList name, cs.dropWhile isKeyChar)

/-- The names between points that begin a text, and the text behind them. -/
def readNames (fuel : Nat) (cs : List Char) : Except Error (List String × List Char) := do
  match fuel with
  | 0 => throw (.expected "a key")
  | fuel + 1 =>
    let (name, rest) ← readName (skipBlanks cs)
    match skipBlanks rest with
    | '.' :: rest =>
      let (names, rest) ← readNames fuel rest
      return (name :: names, rest)
    | rest => return ([name], rest)

/-- The dotted key that begins a text, and the text behind it and its blanks. -/
def readKey (cs : List Char) : Except Error (List String × List Char) := do
  let (names, rest) ← readNames cs.length cs
  if depthLimit ≤ names.length then throw .tooDeep
  return (names, rest)

/-- The text behind a word that must begin it. -/
def expect (word : String) (cs : List Char) : Except Error (List Char) :=
  if word.toList.isPrefixOf cs then .ok (cs.drop word.length) else .error (.expected word)

/-! ## Values -/

mutual

/-- The value that begins a text, inside so many others, and the text behind it. -/
def readValueWith (fuel depth : Nat) (cs : List Char) : Except Error (Value × List Char) :=
  match fuel with
  | 0 => .error (.expected "a value")
  | fuel + 1 =>
    match cs with
    | '"' :: _ | '\x27' :: _ => (readString cs).map fun r => (.str r.1, r.2)
    | '[' :: cs =>
      if depthLimit ≤ depth + 1 then .error .tooDeep
      else (readElements fuel (depth + 1) cs).map fun r => (.array r.1, r.2)
    | '\x7b' :: cs =>
      if depthLimit ≤ depth + 1 then .error .tooDeep
      else
        match skipBlanks cs with
        | '\x7d' :: rest => .ok (.table [], rest)
        | rest => (readPairs fuel (depth + 1) [] rest).map fun r => (.table (Entries.toValues r.1), r.2)
    | cs => readScalar cs

/-- The elements of an array up to its closing bracket, and the text behind it. A comma may follow the last
one. -/
def readElements (fuel depth : Nat) (cs : List Char) : Except Error (List Value × List Char) :=
  match fuel with
  | 0 => .error (.unclosed "array")
  | fuel + 1 =>
    match skipLines false cs with
    | ']' :: rest => .ok ([], rest)
    | cs => do
      let (v, rest) ← readValueWith fuel depth cs
      match skipLines false rest with
      | ']' :: rest => return ([v], rest)
      | ',' :: rest =>
        let (vs, rest) ← readElements fuel depth rest
        return (v :: vs, rest)
      | _ => throw (.unclosed "array")

/-- The pairs of a table between braces up to the closing one, after those read so far, and the text behind
it. They stand on one line. -/
def readPairs (fuel depth : Nat) (es : Entries) (cs : List Char) : Except Error (Entries × List Char) :=
  match fuel with
  | 0 => .error (.unclosed "table")
  | fuel + 1 => do
    let (keys, rest) ← readKey cs
    let rest ← expect "=" rest
    let (v, rest) ← readValueWith fuel depth (skipBlanks rest)
    let es ← Entries.assign keys v es
    match skipBlanks rest with
    | '\x7d' :: rest => return (es, rest)
    | ',' :: rest => readPairs fuel depth es rest
    | _ => throw (.unclosed "table")

end

/-- The value that begins a text, and the text behind it. -/
def readValue (cs : List Char) : Except Error (Value × List Char) :=
  readValueWith (2 * cs.length + 2) 0 cs

/-! ## Documents -/

/-- What has been read of a document: its entries, and the path of the last header. -/
structure Progress where
  entries : Entries
  path : List String
  deriving Inhabited

namespace Progress

/-- A line with a doubled header. The text begins behind its opening brackets. -/
def elementLine (p : Progress) (cs : List Char) : Except Error (Progress × List Char) := do
  let (keys, rest) ← readKey cs
  let rest ← endOfLine (← expect "]]" rest)
  return (⟨← p.entries.addElement keys, keys⟩, rest)

/-- A line with a header. The text begins behind its opening bracket. -/
def headerLine (p : Progress) (cs : List Char) : Except Error (Progress × List Char) := do
  let (keys, rest) ← readKey cs
  let rest ← endOfLine (← expect "]" rest)
  return (⟨← p.entries.addTable keys, keys⟩, rest)

/-- A line with a key and its value. -/
def pairLine (p : Progress) (cs : List Char) : Except Error (Progress × List Char) := do
  let (keys, rest) ← readKey cs
  let rest ← expect "=" rest
  let (v, rest) ← readValue (skipBlanks rest)
  let rest ← endOfLine rest
  return (⟨← p.entries.assignAt p.path keys v, p.path⟩, rest)

/-- The line that begins a text, without its leading blanks. -/
def line (p : Progress) (cs : List Char) : Except Error (Progress × List Char) :=
  match cs with
  | '[' :: '[' :: cs => p.elementLine cs
  | '[' :: cs => p.headerLine cs
  | cs =>
    match endOfLine cs with
    | .ok rest => .ok (p, rest)
    | .error _ => p.pairLine cs

/-- All lines of a text. -/
def lines (fuel : Nat) (p : Progress) (cs : List Char) : Except Error Progress := do
  match fuel with
  | 0 => return p
  | fuel + 1 =>
    match skipBlanks cs with
    | [] => return p
    | cs =>
      let (p, rest) ← p.line cs
      lines fuel p rest

end Progress

/-- A text without the byte order mark that begins it, if one does. -/
def skipMark : List Char → List Char
  | '\ufeff' :: cs => cs
  | cs => cs

/-- The entries of a document. -/
def parse (text : String) : Except Error (List (String × Value)) :=
  let cs := skipMark text.toList
  (Progress.lines cs.length ⟨[], []⟩ cs).map fun p => Entries.toValues p.entries

end NativeClass.Toml
