import NativeClass.Python.Parser.Pattern
/-!
# The grammar of statements

* `Parser.suite`: an indented block or the statements of one line.
* `parseModule`, `parseExpression`: whole texts.
-/

namespace NativeClass.Python.Parser

/-! ## Statements of one line -/

/-- Expressions separated by commas, or a yielded value. -/
def testListOrYield (b : Below) : Parser Expr := do
  if ← atKeyword "yield" then yieldForm b else testList b

/-- The operator of an assignment that computes with the old value. -/
def augmentedOp? : Tok → Option BinaryOp
  | .op "+=" => some .add
  | .op "-=" => some .sub
  | .op "*=" => some .mult
  | .op "@=" => some .matMult
  | .op "/=" => some .div
  | .op "%=" => some .mod
  | .op "**=" => some .pow
  | .op "<<=" => some .leftShift
  | .op ">>=" => some .rightShift
  | .op "|=" => some .bitOr
  | .op "^=" => some .bitXor
  | .op "&=" => some .bitAnd
  | .op "//=" => some .floorDiv
  | _ => none

/-- A value after an equals sign, if there is one. -/
def assignedValue? (b : Below) : Parser (Option Expr) := do
  if ← acceptOp "=" then return some (← testListOrYield b) else return none

/-- An assignment of any form, or an expression. -/
def expressionStmt (b : Below) : Parser Stmt := do
  let start ← startOffset
  let isStarred ← atOp "*"
  let (items, comma) ← commaList (orStarred b b.test) beginsStarred
  let (first, isSingle) ← match items, comma with
    | [e], false => pure (e, !isStarred)
    | _, _ => pure (.tuple (← spanFrom start) items, false)
  if isSingle && (← acceptOp ":") then
    let hint ← b.test
    let value ← assignedValue? b
    return .annotated (← spanFrom start) first hint value
  match (← peek).bind augmentedOp? with
  | some op =>
    let _ ← advance
    let value ← testListOrYield b
    return .augmented (← spanFrom start) first op value
  | none =>
    let values ← many (assignedValue? b)
    match values.getLast? with
    | some value => return .assign (← spanFrom start) (first :: values.dropLast) value
    | none => return .expr (← spanFrom start) first

/-- A name with attributes, possibly renamed. -/
def importedModule : Parser Unit := do
  let _ ← dottedName
  if ← acceptKeyword "as" then
    let _ ← identifier

/-- A name, possibly renamed. -/
def importedName : Parser Unit := do
  let _ ← identifier
  if ← acceptKeyword "as" then
    let _ ← identifier

/-- The token is a name. -/
def isName : Tok → Bool
  | .name _ => true
  | _ => false

/-- An import of names from a module, after its first word. -/
def importFrom : Parser Unit := do
  let dots ← many do
    if ← acceptOp "." then return some ()
    else if ← acceptOp "..." then return some ()
    else return none
  if !(← atKeyword "import") || dots.isEmpty then
    let _ ← dottedName
  expectKeyword "import"
  if ← acceptOp "*" then return ()
  else if ← acceptOp "(" then
    let _ ← commaList importedName isName
    expectOp ")"
  else
    let _ ← separated importedName (.op ",")

/-- The parameters of a generic function or class, if there are some. -/
def typeParams (b : Below) : Parser Unit := do
  if ← acceptOp "[" then
    let item : Parser Unit := do
      if ← acceptOp "*" then
        let _ ← identifier
      else if ← acceptOp "**" then
        let _ ← identifier
      else
        let _ ← identifier
        if ← acceptOp ":" then
          let _ ← b.test
    let _ ← commaList item (· ≠ .op "]")
    expectOp "]"

/-- A statement that starts with a keyword and stays on its line, after that keyword. -/
def keywordStmt (b : Below) (start : Nat) (word : String) : Parser Stmt := do
  match word with
  | "pass" => return .simple (← spanFrom start)
  | "break" => return .breakLoop (← spanFrom start)
  | "continue" => return .continueLoop (← spanFrom start)
  | "return" =>
    let value ← match ← peek with
      | some tok => if beginsStarred tok then some <$> testList b else pure none
      | none => pure none
    return .ret (← spanFrom start) value
  | "raise" =>
    match ← optionalTest b with
    | some _ =>
      if ← acceptKeyword "from" then
        let _ ← b.test
    | none => pure ()
    return .raise (← spanFrom start)
  | "assert" =>
    let condition ← b.test
    if ← acceptOp "," then
      let _ ← b.test
    return .assertion (← spanFrom start) condition
  | "del" =>
    let _ ← commaList (orStarred b b.bitOr) beginsStarred
    return .simple (← spanFrom start)
  | "global" | "nonlocal" =>
    let _ ← separated identifier (.op ",")
    return .simple (← spanFrom start)
  | "import" =>
    let _ ← separated importedModule (.op ",")
    return .simple (← spanFrom start)
  | "from" =>
    importFrom
    return .simple (← spanFrom start)
  | "type" =>
    let _ ← identifier
    typeParams b
    expectOp "="
    let _ ← b.test
    return .simple (← spanFrom start)
  | _ => fail

/-- The words that begin a statement of one line. -/
def lineWords : List String :=
  ["pass", "break", "continue", "return", "raise", "assert", "del", "global", "nonlocal", "import",
    "from", "type"]

/-- A statement of one line. -/
def lineStmt (b : Below) : Parser Stmt := do
  let start ← startOffset
  match ← peek with
  | some (.keyword "yield") =>
    let value ← yieldForm b
    return .expr (← spanFrom start) value
  | some (.keyword word) =>
    if lineWords.contains word then
      let _ ← advance
      keywordStmt b start word
    else expressionStmt b
  | _ => expressionStmt b

/-- The statements of a line; `count` bounds their number. -/
def lineStmtsUpTo (b : Below) : (count : Nat) → Parser (List Stmt)
  | 0 => fail
  | count + 1 => do
    let first ← lineStmt b
    if ← acceptOp ";" then
      if ← accept .newline then return [first]
      else return first :: (← lineStmtsUpTo b count)
    else
      expect .newline
      return [first]

/-- The statements of a line. -/
def lineStmts (b : Below) : Parser (List Stmt) := do
  lineStmtsUpTo b ((← remaining) + 1)

/-! ## Compound statements -/

/-- The end of the last statement of a block. -/
def stopOf (default : Nat) (body : List Stmt) : Nat :=
  (body.getLast?.map (·.span.stop)).getD default

/-- The span of a statement that ends with a block. -/
def spanOver (start : Nat) (body : List Stmt) : Parser Span := do
  return ⟨start, stopOf (← get).stop body⟩

/-- A colon and a block. -/
def colonSuite (suite : Parser (List Stmt)) : Parser (List Stmt) := do
  expectOp ":"
  suite

/-- A keyword, a colon and a block, if the keyword is there. -/
def optionalSuite (suite : Parser (List Stmt)) (word : String) : Parser (List Stmt) := do
  if ← acceptKeyword word then colonSuite suite else return []

/-- A condition and its block. -/
def conditionSuite (b : Below) (suite : Parser (List Stmt)) : Parser (Expr × List Stmt) := do
  let condition ← namedTest b
  return (condition, ← colonSuite suite)

/-- Conditions with their blocks as nested branches, each one the alternative of the one before. -/
def nestBranches (orelse : List Stmt) : List (Nat × Expr × List Stmt) → List Stmt
  | [] => orelse
  | (start, condition, body) :: rest =>
    let alternative := nestBranches orelse rest
    let stop := stopOf (stopOf start body) alternative
    [.branch ⟨start, stop⟩ condition body alternative]

/-- An `if` statement, after its first word. -/
def ifStmt (b : Below) (suite : Parser (List Stmt)) (start : Nat) : Parser (List Stmt) := do
  let first ← conditionSuite b suite
  let others ← many do
    let start ← startOffset
    if ← acceptKeyword "elif" then return some (start, ← conditionSuite b suite) else return none
  let orelse ← optionalSuite suite "else"
  return nestBranches orelse ((start, first) :: others)

/-- A `for` statement, after its first word. -/
def forStmt (b : Below) (suite : Parser (List Stmt)) (start : Nat) (isAsync : Bool) :
    Parser Stmt := do
  let target ← targets b
  expectKeyword "in"
  let iter ← testList b
  let body ← colonSuite suite
  let orelse ← optionalSuite suite "else"
  let span ← spanOver start (body ++ orelse)
  if isAsync then return .compound span (body ++ orelse)
  else return .forLoop span target iter body orelse

/-- The handler of a `try` statement, if there is one: whether it is starred, and its block. -/
def handler? (b : Below) (suite : Parser (List Stmt)) : Parser (Option (Bool × List Stmt)) := do
  if !(← acceptKeyword "except") then return none
  let isStarred ← acceptOp "*"
  match ← optionalTest b with
  | some _ =>
    if ← acceptKeyword "as" then
      let _ ← identifier
  | none => if isStarred then fail
  return some (isStarred, ← colonSuite suite)

/-- A `try` statement, after its first word. -/
def tryStmt (b : Below) (suite : Parser (List Stmt)) (start : Nat) : Parser Stmt := do
  let body ← colonSuite suite
  let handlers ← many (handler? b suite)
  if handlers.any (·.1) && !handlers.all (·.1) then fail
  let orelse ← if handlers.isEmpty then pure [] else optionalSuite suite "else"
  if handlers.isEmpty && !(← atKeyword "finally") then fail
  let final ← optionalSuite suite "finally"
  let all := body ++ handlers.flatMap Prod.snd ++ orelse ++ final
  return .compound (← spanOver start all) all

/-- The tokens after an opening parenthesis hold `as` outside inner brackets, and a colon follows the
closing one. -/
def hasParenthesizedItems : (nesting : Nat) → (sawAs : Bool) → List Token → Bool
  | _, _, [] => false
  | nesting, sawAs, t :: ts =>
    match t.tok with
    | .keyword "as" => hasParenthesizedItems nesting (sawAs || nesting = 0) ts
    | .op "(" | .op "[" | .op "\x7b" => hasParenthesizedItems (nesting + 1) sawAs ts
    | .op ")" | .op "]" | .op "\x7d" =>
      match nesting with
      | 0 => sawAs && (ts.head?.map Token.tok) = some (.op ":")
      | n + 1 => hasParenthesizedItems n sawAs ts
    | _ => hasParenthesizedItems nesting sawAs ts

/-- A managed value, possibly bound to a target. -/
def withItem (b : Below) : Parser Unit := do
  let _ ← b.test
  if ← acceptKeyword "as" then
    let _ ← b.bitOr

/-- A `with` statement, after its first word. -/
def withStmt (b : Below) (suite : Parser (List Stmt)) (start : Nat) : Parser Stmt := do
  if (← atOp "(") && hasParenthesizedItems 0 false (← get).rest.tail then
    expectOp "("
    let _ ← commaListBefore (withItem b) ")"
  else
    let _ ← separated (withItem b) (.op ",")
  let body ← colonSuite suite
  return .compound (← spanOver start body) body

/-- A case of a `match` statement, if there is one. -/
def case? (b : Below) (depth : Nat) (suite : Parser (List Stmt)) : Parser (Option (List Stmt)) := do
  if !(← acceptKeyword "case") then return none
  patterns b depth
  if ← acceptKeyword "if" then
    let _ ← namedTest b
  return some (← colonSuite suite)

/-- A `match` statement, after its first word. -/
def matchStmt (b : Below) (depth : Nat) (suite : Parser (List Stmt)) (start : Nat) :
    Parser Stmt := do
  let _ ← commaList (orStarred b (namedTest b)) (· ≠ .op ":")
  expectOp ":"
  expect .newline
  expect .indent
  let cases ← many (case? b depth suite)
  if cases.isEmpty then fail
  expect .dedent
  return .compound (← spanOver start cases.flatten) cases.flatten

/-- A function definition, after its first word. -/
def functionStmt (b : Below) (suite : Parser (List Stmt)) (start : Nat) (isAsync : Bool)
    (decorators : List Expr) : Parser Stmt := do
  let name ← identifier
  typeParams b
  expectOp "("
  let params ← parameters b true ")"
  expectOp ")"
  let returns ← if ← acceptOp "->" then some <$> b.test else pure none
  let body ← colonSuite suite
  return .functionDef (← spanOver start body) isAsync name decorators params returns body

/-- A class definition, after its first word. -/
def classStmt (b : Below) (suite : Parser (List Stmt)) (start : Nat) (decorators : List Expr) :
    Parser Stmt := do
  let name ← identifier
  typeParams b
  let bases ← if ← acceptOp "(" then Prod.fst <$> arguments b else pure []
  let body ← colonSuite suite
  return .classDef (← spanOver start body) name decorators bases body

/-- A decorator, if there is one. -/
def decorator? (b : Below) : Parser (Option Expr) := do
  if ← acceptOp "@" then
    let e ← namedTest b
    expect .newline
    return some e
  else return none

/-- A decorated definition. -/
def decoratedStmt (b : Below) (suite : Parser (List Stmt)) : Parser Stmt := do
  let decorators ← many (decorator? b)
  let start ← startOffset
  if ← acceptKeyword "class" then classStmt b suite start decorators
  else
    let isAsync ← acceptKeyword "async"
    expectKeyword "def"
    functionStmt b suite start isAsync decorators

/-- The words that begin a compound statement. -/
def compoundWords : List String :=
  ["if", "while", "for", "try", "with", "def", "class", "match", "async"]

/-- A compound statement that starts with a keyword, after that keyword. -/
def compoundStmt (b : Below) (depth : Nat) (suite : Parser (List Stmt)) (start : Nat)
    (word : String) : Parser (List Stmt) := do
  match word with
  | "if" => ifStmt b suite start
  | "while" =>
    let (condition, body) ← conditionSuite b suite
    let orelse ← optionalSuite suite "else"
    return [.whileLoop (← spanOver start (body ++ orelse)) condition body orelse]
  | "for" => return [← forStmt b suite start false]
  | "try" => return [← tryStmt b suite start]
  | "with" => return [← withStmt b suite start]
  | "def" => return [← functionStmt b suite start false []]
  | "class" => return [← classStmt b suite start []]
  | "match" => return [← matchStmt b depth suite start]
  | "async" =>
    if ← acceptKeyword "def" then return [← functionStmt b suite start true []]
    else if ← acceptKeyword "for" then return [← forStmt b suite start true]
    else
      expectKeyword "with"
      return [← withStmt b suite start]
  | _ => fail

/-- A compound statement or the statements of a line. -/
def statements (b : Below) (depth : Nat) (suite : Parser (List Stmt)) : Parser (List Stmt) := do
  let start ← startOffset
  match ← peek with
  | some (.op "@") => return [← decoratedStmt b suite]
  | some (.keyword word) =>
    if compoundWords.contains word then
      let _ ← advance
      compoundStmt b depth suite start word
    else lineStmts b
  | _ => lineStmts b

/-! ## Blocks and whole texts -/

/-- A block whose inner blocks are read with `inner`. -/
def suiteAt (b : Below) (depth : Nat) (inner : Parser (List Stmt)) : Parser (List Stmt) := do
  if ← accept .newline then
    expect .indent
    let first ← statements b depth inner
    let others ← many do
      if ← accept .dedent then return none else return some (← statements b depth inner)
    return first ++ others.flatten
  else lineStmts b

/-- A block, nested at most `depth` levels. -/
def suite (b : Below) : (depth : Nat) → Parser (List Stmt)
  | 0 => fail
  | depth + 1 => suiteAt b depth (suite b depth)

/-- The statements of a module, nested at most `depth` levels. -/
def module (depth : Nat) : Parser (List Stmt) := do
  let b := exprForms depth
  let items ← many do
    if (← peek).isNone then return none
    else if ← accept .newline then return some []
    else return some (← statements b depth (suite b depth))
  return items.flatten

end Parser

/-- The statements of a source text. Every level of nesting takes a character, so the length of the text
bounds the depth. -/
def parseModule (source : String) : Except SyntaxError (List Stmt) := do
  let cs := source.toList
  let tokens ← Token.lex true cs
  let (body, c) ← (Parser.module (cs.length + 1)).run { rest := tokens }
  if c.rest.isEmpty then return body else throw .unexpectedToken

/-- The expression that a source text consists of. -/
def parseExpression (source : String) : Except SyntaxError Expr := do
  let cs := source.toList
  let tokens ← Token.lex false cs
  let (e, c) ← (Parser.testList (Parser.exprForms (cs.length + 1))).run { rest := tokens }
  if c.rest.all (·.tok = .newline) then return e else throw .unexpectedToken

end NativeClass.Python
