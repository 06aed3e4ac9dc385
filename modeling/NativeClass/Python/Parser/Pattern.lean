import NativeClass.Python.Parser.Expr
/-!
# The grammar of patterns

Patterns bind names but have no influence on any type, so a pattern is read and leaves nothing.

* `Parser.patterns`: the pattern of a case.
-/

namespace NativeClass.Python.Parser

/-- The token can begin a pattern. -/
def beginsPattern : Tok → Bool
  | .name _ | .int | .float | .complex | .str _ _ => true
  | .keyword w => ["None", "True", "False"].contains w
  | .op o => ["(", "[", "\x7b", "-", "*"].contains o
  | .newline | .indent | .dedent => false

/-- A number without a sign. -/
def numberAtom : Parser Unit := do
  match ← advance with
  | .int | .float | .complex => return ()
  | _ => fail

/-- A number, possibly negative or the sum of two. -/
def numberPattern : Parser Unit := do
  let _ ← acceptOp "-"
  numberAtom
  if ← acceptOp "+" then numberAtom
  else if ← acceptOp "-" then numberAtom

/-- A name with attributes; the result tells whether there is one. -/
def dottedName : Parser Bool := do
  let _ ← identifier
  let attrs ← many do
    if ← acceptOp "." then return some (← identifier) else return none
  return !attrs.isEmpty

/-- A literal that may stand in a pattern, if the next token begins one. -/
def literalPattern? (b : Below) : Parser Bool := do
  match ← peek with
  | some (.str _ _) =>
    let _ ← string b
    return true
  | some .int | some .float | some .complex | some (.op "-") =>
    numberPattern
    return true
  | some (.keyword w) =>
    if ["None", "True", "False"].contains w then
      let _ ← advance
      return true
    else return false
  | _ => return false

/-- An entry of a mapping; the flag tells whether it is the rest. -/
def mappingItem (b : Below) (pattern : Parser Unit) : Parser Bool := do
  if ← acceptOp "**" then
    let _ ← identifier
    return true
  if !(← literalPattern? b) then
    if !(← dottedName) then fail
  expectOp ":"
  pattern
  return false

/-- An argument of a class pattern; the flag tells whether it is a keyword. -/
def classPatternItem (pattern : Parser Unit) : Parser Bool := do
  let isKeyword ← atNameThen "="
  if isKeyword then
    let _ ← identifier
    expectOp "="
  pattern
  return isKeyword

/-- A pattern that is no alternative. -/
def closedPattern (b : Below) (pattern : Parser Unit) : Parser Unit := do
  if ← literalPattern? b then return ()
  match ← peek with
  | some (.op "*") =>
    let _ ← advance
    let _ ← identifier
  | some (.name _) =>
    let _ ← dottedName
    if ← acceptOp "(" then
      let (keywords, _) ← commaListBefore (classPatternItem pattern) ")"
      if (keywords.dropWhile (!·)).any (!·) then fail
  | some (.op "(") =>
    let _ ← advance
    let _ ← commaListBefore pattern ")"
  | some (.op "[") =>
    let _ ← advance
    let _ ← commaListBefore pattern "]"
  | some (.op "\x7b") =>
    let _ ← advance
    let (rests, _) ← commaListBefore (mappingItem b pattern) "\x7d"
    if rests.dropLast.any id then fail
  | _ => fail

/-- A pattern with its alternatives and the name it binds. -/
def patternAt (b : Below) (pattern : Parser Unit) : Parser Unit := do
  let _ ← separated (closedPattern b pattern) (.op "|")
  if ← acceptKeyword "as" then
    if (← identifier) = "_" then fail

/-- A pattern, nested at most `depth` levels. -/
def pattern (b : Below) : (depth : Nat) → Parser Unit
  | 0 => fail
  | depth + 1 => patternAt b (pattern b depth)

/-- The pattern of a case, nested at most `depth` levels. -/
def patterns (b : Below) (depth : Nat) : Parser Unit := do
  let _ ← commaList (pattern b depth) beginsPattern

end NativeClass.Python.Parser
