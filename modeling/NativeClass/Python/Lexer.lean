import NativeClass.Python.Identifier
import NativeClass.Python.Token
/-!
# The lexer

A source text as a list of tokens. Line ends inside brackets, blank lines and comments leave no token;
changes of indentation do.

* `Token.lex`: the tokens of a source text.
* `Token.resolveSoftKeywords`: the words that are keywords only at the start of certain lines.
-/

namespace NativeClass.Python

/-- The source text is not well formed. -/
inductive SyntaxError where
  /-- A tab after a space in the blanks that begin a line. -/
  | tabAfterSpaces
  /-- Two indentations that cannot be compared. -/
  | inconsistentTabs
  /-- An indentation that no open block has. -/
  | unmatchedIndentation
  /-- A closing bracket without its opening one. -/
  | unmatchedBracket
  /-- A character that begins no token. -/
  | unexpectedCharacter (c : Char)
  /-- A string without its end. -/
  | unterminatedString
  /-- A string with a malformed escape sequence or a character it may not hold. -/
  | malformedString
  /-- A formatted string with malformed braces. -/
  | malformedFormat
  /-- A number that is not well formed. -/
  | malformedNumber
  /-- The text ends inside brackets or after a backslash. -/
  | unexpectedEnd
  /-- A backslash that is not the last character of its line. -/
  | strayBackslash
  /-- A token that cannot stand at its place. -/
  | unexpectedToken
  /-- Arguments or parameters in an impossible order, or one name twice. -/
  | malformedArguments
  deriving DecidableEq, Inhabited

/-- The message of an error. -/
def SyntaxError.message : SyntaxError → String
  | .tabAfterSpaces => "tab after spaces in indentation"
  | .inconsistentTabs => "inconsistent use of tabs and spaces in indentation"
  | .unmatchedIndentation => "unindent does not match any outer indentation level"
  | .unmatchedBracket => "unmatched closing bracket"
  | .unexpectedCharacter c => "unexpected character '" ++ c.toString ++ "'"
  | .unterminatedString => "unterminated string literal"
  | .malformedString => "malformed string literal"
  | .malformedFormat => "malformed formatted string"
  | .malformedNumber => "malformed number"
  | .unexpectedEnd => "unexpected end of text"
  | .strayBackslash => "unexpected character after line continuation"
  | .unexpectedToken => "unexpected token"
  | .malformedArguments => "malformed arguments"

/-! ## Characters -/

/-- The bytes of a list of characters. -/
def utf8Length (cs : List Char) : Nat :=
  cs.foldr (fun c n => c.utf8Size + n) 0

/-- The character is a blank within a line. -/
def isBlank (c : Char) : Bool :=
  c = ' ' || c = '\t' || c = '\x0c'

/-- The character ends a line. -/
def isLineEnd (c : Char) : Bool :=
  c = '\n' || c = '\r'

/-- The characters of the line end that begins a text: a carriage return and a line feed are one. -/
def lineEndLength : List Char → Nat
  | '\r' :: '\n' :: _ => 2
  | _ => 1

/-! ## Indentation -/

/-- The blanks that begin a line. -/
structure Indentation where
  tabs : Nat
  spaces : Nat
  deriving DecidableEq, Inhabited

/-- The order of two indentations, where tabs and spaces do not disagree on it. -/
def Indentation.compare (a b : Indentation) : Except SyntaxError Ordering :=
  if a.tabs < b.tabs then
    if a.spaces ≤ b.spaces then .ok .lt else .error .inconsistentTabs
  else if b.tabs < a.tabs then
    if b.spaces ≤ a.spaces then .ok .gt else .error .inconsistentTabs
  else .ok (Ord.compare a.spaces b.spaces)

/-- The blanks before the next token of a line, and the text that begins with that token. Blank lines and
lines that hold only a comment are skipped. -/
def skipToIndented (comment : Bool) (level : Indentation) :
    List Char → Except SyntaxError (Indentation × List Char)
  | [] => .ok (⟨0, 0⟩, [])
  | c :: cs =>
    if isLineEnd c then skipToIndented false ⟨0, 0⟩ cs
    else if comment then skipToIndented true ⟨0, 0⟩ cs
    else if c = ' ' then skipToIndented false ⟨level.tabs, level.spaces + 1⟩ cs
    else if c = '\t' then
      if level.spaces = 0 then skipToIndented false ⟨level.tabs + 1, 0⟩ cs else .error .tabAfterSpaces
    else if c = '#' then skipToIndented true ⟨0, 0⟩ cs
    else if c = '\x0c' then skipToIndented false ⟨0, 0⟩ cs
    else .ok (level, c :: cs)

/-- The open indentations after a line of the given one, innermost first, with the number of blocks that
it closes. -/
def closeBlocks (level : Indentation) :
    List Indentation → Except SyntaxError (List Indentation × Nat)
  | [] => do
    match ← level.compare ⟨0, 0⟩ with
    | .eq => return ([], 0)
    | _ => throw .unmatchedIndentation
  | block :: outer => do
    match ← level.compare block with
    | .eq => return (block :: outer, 0)
    | .gt => throw .unmatchedIndentation
    | .lt =>
      let (left, closed) ← closeBlocks level outer
      return (left, closed + 1)

/-! ## Numbers -/

/-- The digits that begin a text, without single underscores between two of them. -/
def digitRun (isDigit : Char → Bool) : List Char → List Char × List Char
  | '_' :: c :: cs =>
    if isDigit c then digitRun isDigit (c :: cs) else ([], '_' :: c :: cs)
  | c :: cs =>
    if isDigit c then
      let (ds, rest) := digitRun isDigit cs
      (c :: ds, rest)
    else ([], c :: cs)
  | [] => ([], [])

/-- The digits of a base up to sixteen. -/
def isDigitOfBase (base : Nat) (c : Char) : Bool :=
  let value :=
    if c.isDigit then c.toNat - 48
    else if 'a' ≤ c ∧ c ≤ 'f' then c.toNat - 87
    else if 'A' ≤ c ∧ c ≤ 'F' then c.toNat - 55
    else 16
  value < base

/-- The text begins with an exponent that has digits. -/
def startsExponent : List Char → Bool
  | e :: cs =>
    (e = 'e' || e = 'E') &&
      match cs with
      | s :: d :: _ => if s = '+' || s = '-' then d.isDigit else s.isDigit
      | [d] => d.isDigit
      | [] => false
  | [] => false

/-- The text begins with an underscore. -/
def startsUnderscore (cs : List Char) : Bool :=
  cs.head? = some '_'

/-- The text after an exponent, whose letter is there but whose digits may be missing. -/
def dropExponent (cs : List Char) : Except SyntaxError (List Char) := do
  if startsUnderscore cs then throw .malformedNumber
  let digits ← match cs with
    | s :: rest =>
      if s = '+' || s = '-' then
        if startsUnderscore rest then throw .malformedNumber else pure rest
      else pure cs
    | [] => pure []
  let (ds, rest) := digitRun Char.isDigit digits
  if ds.isEmpty then throw .malformedNumber
  return rest

/-- A number with a fraction or an exponent, after the digits before the point. -/
def lexFraction (cs : List Char) : Except SyntaxError (Tok × List Char) := do
  let afterPoint ← match cs with
    | '.' :: rest =>
      if startsUnderscore rest then throw .malformedNumber
      else pure (digitRun Char.isDigit rest).2
    | _ => pure cs
  let afterExponent ← match afterPoint with
    | e :: rest => if e = 'e' || e = 'E' then dropExponent rest else pure afterPoint
    | [] => pure []
  match afterExponent with
  | j :: rest => if j = 'j' || j = 'J' then return (.complex, rest) else return (.float, j :: rest)
  | [] => return (.float, [])

/-- A decimal number. -/
def lexDecimal (cs : List Char) : Except SyntaxError (Tok × List Char) := do
  let (ds, rest) := digitRun Char.isDigit cs
  if rest.head? = some '.' || startsExponent rest then lexFraction rest
  else match rest with
    | j :: rest' =>
      if j = 'j' || j = 'J' then return (.complex, rest')
      else checkZeros ds rest
    | [] => checkZeros ds rest
where
  /-- No integer but zero begins with a zero. -/
  checkZeros (ds rest : List Char) : Except SyntaxError (Tok × List Char) :=
    if ds.head? = some '0' && ds.any (· ≠ '0') then .error .malformedNumber else .ok (.int, rest)

/-- A number of the given base, after the letter that names it. -/
def lexBase (base : Nat) (cs : List Char) : Except SyntaxError (Tok × List Char) :=
  let (ds, rest) := digitRun (isDigitOfBase base) cs
  if ds.isEmpty then .error .malformedNumber else .ok (.int, rest)

/-- A number. -/
def lexNumber : List Char → Except SyntaxError (Tok × List Char)
  | '0' :: x :: cs =>
    if x = 'x' || x = 'X' then lexBase 16 cs
    else if x = 'o' || x = 'O' then lexBase 8 cs
    else if x = 'b' || x = 'B' then lexBase 2 cs
    else lexDecimal ('0' :: x :: cs)
  | cs => lexDecimal cs

/-! ## Strings -/

/-- The kind of string that a letter before the quote names. -/
def StringKind.ofLetter? (c : Char) : Option StringKind :=
  match c with
  | 'r' | 'R' => some { isRaw := true }
  | 'b' | 'B' => some { isBytes := true }
  | 'f' | 'F' => some { isFormatted := true }
  | 'u' | 'U' => some {}
  | _ => none

/-- The kind of string that two letters before the quote name: one of them is for raw. -/
def StringKind.ofLetters? (c d : Char) : Option StringKind := do
  let a ← ofLetter? c
  let b ← ofLetter? d
  if a.isRaw = b.isRaw || !(a.isBytes || a.isFormatted || b.isBytes || b.isFormatted) then none
  else some ⟨a.isBytes || b.isBytes, true, a.isFormatted || b.isFormatted⟩

/-- The letters before the quote that begins a string, and the text from the quote on. -/
def stringStart? : List Char → Option (StringKind × List Char)
  | '"' :: cs => some ({}, '"' :: cs)
  | '\'' :: cs => some ({}, '\'' :: cs)
  | c :: '"' :: cs => (StringKind.ofLetter? c).map (·, '"' :: cs)
  | c :: '\'' :: cs => (StringKind.ofLetter? c).map (·, '\'' :: cs)
  | c :: d :: '"' :: cs => (StringKind.ofLetters? c d).map (·, '"' :: cs)
  | c :: d :: '\'' :: cs => (StringKind.ofLetters? c d).map (·, '\'' :: cs)
  | _ => none

/-- The characters up to the closing quotes and the text after them. A line end is read as a line feed
and ends a string of single quotes. -/
def lexQuoted (quote : Char) (triple : Bool) :
    List Char → Except SyntaxError (List Char × List Char)
  | [] => .error .unterminatedString
  | '\\' :: '\r' :: '\n' :: cs => push ['\\', '\n'] (lexQuoted quote triple cs)
  | '\\' :: c :: cs => push ['\\', if c = '\r' then '\n' else c] (lexQuoted quote triple cs)
  | '\r' :: '\n' :: cs =>
    if triple then push ['\n'] (lexQuoted quote triple cs) else .error .unterminatedString
  | c :: cs =>
    if isLineEnd c then
      if triple then push ['\n'] (lexQuoted quote triple cs) else .error .unterminatedString
    else if c = quote then
      if triple then
        match cs with
        | c₁ :: c₂ :: rest =>
          if c₁ = quote ∧ c₂ = quote then .ok ([], rest) else push [c] (lexQuoted quote triple cs)
        | _ => push [c] (lexQuoted quote triple cs)
      else .ok ([], cs)
    else push [c] (lexQuoted quote triple cs)
where
  /-- The characters in front of what was read. -/
  push (front : List Char) (r : Except SyntaxError (List Char × List Char)) :
      Except SyntaxError (List Char × List Char) :=
    r.map fun e => (front ++ e.1, e.2)

/-- A string, from its opening quote on. -/
def lexString (kind : StringKind) : List Char → Except SyntaxError (Tok × List Char)
  | quote :: c₁ :: c₂ :: cs =>
    if c₁ = quote ∧ c₂ = quote then finish (lexQuoted quote true cs)
    else finish (lexQuoted quote false (c₁ :: c₂ :: cs))
  | quote :: cs => finish (lexQuoted quote false cs)
  | [] => .error .unterminatedString
where
  /-- The token of the characters read. -/
  finish (r : Except SyntaxError (List Char × List Char)) : Except SyntaxError (Tok × List Char) :=
    r.map fun e => (.str kind e.1, e.2)

/-! ## Tokens -/

/-- The state between two tokens. -/
structure LexState where
  /-- The text that is left. -/
  rest : List Char
  /-- The bytes read so far. -/
  pos : Nat := 0
  /-- The brackets that are open. -/
  nesting : Nat := 0
  /-- The indentations of the open blocks, innermost first. -/
  blocks : List Indentation := []
  /-- The next character begins a line. -/
  atLineStart : Bool := true
  /-- The tokens found so far, last first. -/
  found : List Token := []
  deriving Inhabited

namespace LexState

/-- The state with that many further characters read. -/
def skip (s : LexState) (count : Nat) : LexState :=
  { s with rest := s.rest.drop count, pos := s.pos + utf8Length (s.rest.take count) }

/-- The state with the text read up to `rest`. -/
def skipTo (s : LexState) (rest : List Char) : LexState :=
  s.skip (s.rest.length - rest.length)

/-- The state with that many further characters read as one token. -/
def emit (s : LexState) (tok : Tok) (count : Nat) : LexState :=
  let s' := s.skip count
  { s' with found := ⟨tok, s.pos, s'.pos⟩ :: s'.found }

/-- The state with the text read up to `rest` as one token. -/
def emitTo (s : LexState) (tok : Tok) (rest : List Char) : LexState :=
  s.emit tok (s.rest.length - rest.length)

/-- The state with a token of no characters. -/
def emitEmpty (s : LexState) (tok : Tok) : LexState :=
  { s with found := ⟨tok, s.pos, s.pos⟩ :: s.found }

/-- The state after the blanks that begin a line: blocks are opened and closed. -/
def beginLine (s : LexState) : Except SyntaxError LexState := do
  let (level, rest) ← skipToIndented false ⟨0, 0⟩ s.rest
  let s := { s.skipTo rest with atLineStart := rest.isEmpty }
  match ← level.compare (s.blocks.headD ⟨0, 0⟩) with
  | .eq => return s
  | .gt =>
    let start := s.pos - (level.tabs + level.spaces)
    return { s with blocks := level :: s.blocks, found := ⟨.indent, start, s.pos⟩ :: s.found }
  | .lt =>
    let (blocks, closed) ← closeBlocks level s.blocks
    let dedents := List.replicate closed (Token.mk .dedent ⟨s.pos, s.pos⟩)
    return { s with blocks := blocks, found := dedents ++ s.found }

/-- The state after the whole text: the last line is ended and all blocks are closed. -/
def finish (s : LexState) : Except SyntaxError LexState := do
  if 0 < s.nesting then throw .unexpectedEnd
  let s := if s.atLineStart then s else s.emitEmpty .newline
  let dedents := List.replicate s.blocks.length (Token.mk .dedent ⟨s.pos, s.pos⟩)
  return { s with blocks := [], atLineStart := true, found := dedents ++ s.found }

/-- The state after an operator or a bracket. -/
def lexOperator (s : LexState) (c : Char) : Except SyntaxError LexState :=
  match operators.find? (fun o => o.toList.isPrefixOf s.rest) with
  | none => .error (.unexpectedCharacter c)
  | some o =>
    let s' := s.emit (.op o) o.length
    if ["(", "[", "\x7b"].contains o then .ok { s' with nesting := s.nesting + 1 }
    else if [")", "]", "\x7d"].contains o then
      if s.nesting = 0 then .error .unmatchedBracket else .ok { s' with nesting := s.nesting - 1 }
    else .ok s'

/-- The state after the next token, or after blanks or a comment. -/
def next (s : LexState) (c : Char) (cs : List Char) : Except SyntaxError LexState := do
  match stringStart? s.rest with
  | some (kind, quoted) =>
    let (tok, rest) ← lexString kind quoted
    return s.emitTo tok rest
  | none =>
    if isIdentifierStart c then
      let word := s.rest.takeWhile isIdentifierPart
      return s.emit (.ofWord (String.ofList word)) word.length
    else if isEmoji c then return s.emit (.name (String.singleton c)) 1
    else if c.isDigit || (c = '.' && (cs.head?.map Char.isDigit).getD false) then
      let (tok, rest) ← lexNumber s.rest
      return s.emitTo tok rest
    else if c = '#' then return s.skip (s.rest.takeWhile (!isLineEnd ·)).length
    else if isLineEnd c then
      let count := lineEndLength s.rest
      if s.nesting = 0 then return { s.emit .newline count with atLineStart := true }
      else return s.skip count
    else if isBlank c then return s.skip (s.rest.takeWhile isBlank).length
    else if c = '\\' then
      match cs with
      | d :: _ =>
        if !isLineEnd d then throw .strayBackslash
        let count := lineEndLength cs
        if (cs.drop count).isEmpty then throw .unexpectedEnd
        return s.skip (count + 1)
      | [] => throw .strayBackslash
    else s.lexOperator c

/-- The state after the whole text. Each step takes at least one character, so as many steps as the text
has characters, and one more, are enough. -/
def run : Nat → LexState → Except SyntaxError LexState
  | 0, _ => .error .unexpectedEnd
  | steps + 1, s => do
    let s ← if s.atLineStart then s.beginLine else pure s
    match s.rest with
    | [] => s.finish
    | c :: cs => run steps (← s.next c cs)

end LexState

/-! ## Words that are keywords in some places -/

/-- The tokens up to the end of a logical line hold a colon outside brackets that belongs neither to a
lambda nor comes first. -/
def hasBlockColon : (first lambda : Bool) → (nesting : Int) → List Token → Bool
  | _, _, _, [] => false
  | first, lambda, nesting, t :: ts =>
    match t.tok with
    | .newline => false
    | .keyword "lambda" => hasBlockColon false (lambda || nesting = 0) nesting ts
    | .op ":" =>
      if nesting ≠ 0 then hasBlockColon false lambda nesting ts
      else if lambda then hasBlockColon false false nesting ts
      else !first || hasBlockColon false false nesting ts
    | .op "(" | .op "[" | .op "\x7b" => hasBlockColon false lambda (nesting + 1) ts
    | .op ")" | .op "]" | .op "\x7d" => hasBlockColon false lambda (nesting - 1) ts
    | _ => hasBlockColon false lambda nesting ts

/-- The tokens after a name go on with type parameters, or none, and an equals sign. -/
def hasAliasEquals : (nesting : Int) → List Token → Bool
  | _, [] => false
  | nesting, t :: ts =>
    match t.tok with
    | .newline => false
    | .op "=" => nesting = 0 || hasAliasEquals nesting ts
    | .op "[" => hasAliasEquals (nesting + 1) ts
    | .op "]" => hasAliasEquals (nesting - 1) ts
    | _ => 0 < nesting && hasAliasEquals nesting ts

/-- The token may be read as a name. -/
def Tok.canBeName : Tok → Bool
  | .name _ => true
  | .keyword w => w = "match" || w = "case" || w = "type"
  | _ => false

/-- The words `match`, `case` and `type` as keywords where a statement of that form begins, and as names
everywhere else. -/
def Token.resolveSoftKeywords : (lineStart : Bool) → List Token → List Token
  | _, [] => []
  | lineStart, t :: ts =>
    let resolved : Bool := match t.tok with
      | .keyword w =>
        if w = "match" || w = "case" then lineStart && hasBlockColon true false 0 ts
        else if w = "type" then
          lineStart && ((ts.head?.map (·.tok.canBeName)).getD false) && hasAliasEquals 0 ts.tail
        else true
      | _ => true
    let t' := if resolved then t else
      match t.tok with
      | .keyword w => { t with tok := .name w }
      | _ => t
    t' :: resolveSoftKeywords (t.tok = .newline || t.tok = .indent || t.tok = .dedent) ts

/-- The tokens of a source text. A byte order mark at its start is skipped. A statement may begin at the
start of the text only if `statements` is set. -/
def Token.lex (statements : Bool) (source : List Char) : Except SyntaxError (List Token) := do
  let start : LexState := match source with
    | '\ufeff' :: cs => { rest := cs, pos := 3 }
    | cs => { rest := cs }
  let final ← start.run (source.length + 1)
  return resolveSoftKeywords statements final.found.reverse

end NativeClass.Python
