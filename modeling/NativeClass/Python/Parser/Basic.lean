import NativeClass.Python.Lexer
/-!
# Parsers

A parser reads tokens from the front of a list. It knows where the last token that it read ended, so that
every form can tell the stretch of text that it spans.

* `Parser.accept`, `Parser.expect`: one token.
* `Parser.commaList`: items separated by commas, with an optional comma at the end.
-/

namespace NativeClass.Python

/-- The tokens that are left and the end of the last one read. -/
structure Cursor where
  rest : List Token
  stop : Nat := 0
  deriving Inhabited

/-- A reader of tokens. -/
abbrev Parser := StateT Cursor (Except SyntaxError)

namespace Parser

variable {α : Type}

/-- No form of the grammar fits. -/
def fail : Parser α :=
  throw .unexpectedToken

/-- The next token. -/
def peek : Parser (Option Tok) := do
  return (← get).rest.head?.map Token.tok

/-- The token after the next one. -/
def peekSecond : Parser (Option Tok) := do
  return (← get).rest.tail.head?.map Token.tok

/-- The byte at which the next token begins. -/
def startOffset : Parser Nat := do
  let c ← get
  return (c.rest.head?.map (·.span.start)).getD c.stop

/-- The stretch from a byte to the end of the last token read. -/
def spanFrom (start : Nat) : Parser Span := do
  return ⟨start, (← get).stop⟩

/-- Any token. -/
def advance : Parser Tok := do
  match (← get).rest with
  | t :: rest =>
    set { rest := rest, stop := t.span.stop : Cursor }
    return t.tok
  | [] => fail

/-- The next token is read if it is the given one. -/
def accept (tok : Tok) : Parser Bool := do
  if (← peek) = some tok then
    let _ ← advance
    return true
  else return false

/-- The given token. -/
def expect (tok : Tok) : Parser Unit := do
  if !(← accept tok) then fail

/-- The next token is the given operator or delimiter. -/
def atOp (text : String) : Parser Bool := do
  return (← peek) = some (.op text)

/-- The next token is the given keyword. -/
def atKeyword (word : String) : Parser Bool := do
  return (← peek) = some (.keyword word)

/-- The next token is read if it is the given operator or delimiter. -/
def acceptOp (text : String) : Parser Bool :=
  accept (.op text)

/-- The next token is read if it is the given keyword. -/
def acceptKeyword (word : String) : Parser Bool :=
  accept (.keyword word)

/-- The given operator or delimiter. -/
def expectOp (text : String) : Parser Unit :=
  expect (.op text)

/-- The given keyword. -/
def expectKeyword (word : String) : Parser Unit :=
  expect (.keyword word)

/-- A name. -/
def identifier : Parser String := do
  match ← advance with
  | .name word => return word
  | _ => fail

/-- The number of tokens that are left: a bound on the items of any list. -/
def remaining : Parser Nat := do
  return (← get).rest.length

/-- Items as long as there are some; `count` bounds their number. -/
def manyUpTo (item? : Parser (Option α)) : (count : Nat) → Parser (List α)
  | 0 => return []
  | count + 1 => do
    match ← item? with
    | some a => return a :: (← manyUpTo item? count)
    | none => return []

/-- Items as long as there are some. Each must read a token. -/
def many (item? : Parser (Option α)) : Parser (List α) := do
  manyUpTo item? ((← remaining) + 1)

/-- One item, and further ones after commas while a token follows that can begin one. The flag tells
whether a comma came last. -/
def commaListUpTo (item : Parser α) (begins : Tok → Bool) : (count : Nat) → Parser (List α × Bool)
  | 0 => fail
  | count + 1 => do
    let first ← item
    if ← acceptOp "," then
      match ← peek with
      | some tok =>
        if begins tok then
          let (others, comma) ← commaListUpTo item begins count
          return (first :: others, comma)
        else return ([first], true)
      | none => return ([first], true)
    else return ([first], false)

/-- One or more items separated by commas, with an optional comma at the end. -/
def commaList (item : Parser α) (begins : Tok → Bool) : Parser (List α × Bool) := do
  commaListUpTo item begins ((← remaining) + 1)

/-- Items separated by commas before a closing delimiter, which is read; there may be none, and a comma may
come last. -/
def commaListBefore (item : Parser α) (close : String) : Parser (List α × Bool) := do
  if ← acceptOp close then return ([], false)
  let (items, comma) ← commaList item (· ≠ .op close)
  expectOp close
  return (items, comma)

/-- One or more items separated by a token. -/
def separated (item : Parser α) (separator : Tok) : Parser (List α) := do
  let first ← item
  let others ← many do
    if ← accept separator then return some (← item) else return none
  return first :: others

end Parser

end NativeClass.Python
