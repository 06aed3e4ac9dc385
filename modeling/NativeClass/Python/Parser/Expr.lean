import NativeClass.Python.Parser.Basic
import NativeClass.Python.StringLiteral
import NativeClass.Python.Tree
/-!
# The grammar of expressions

Each form is a parser over the forms it contains (`Below`), which are parsed one level of nesting deeper;
`test` ties the knot for a given depth.

* `Parser.test`: a conditional expression, a lambda or anything that binds tighter.
* `Parser.testList`: expressions separated by commas, a tuple if there is a comma.
* `Parser.arguments`: the arguments of a call.
-/

namespace NativeClass.Python.Parser

/-- The forms that a form contains. -/
structure Below where
  /-- Any expression. -/
  test : Parser Expr
  /-- A disjunction or anything that binds tighter. -/
  orTest : Parser Expr
  /-- A negation or anything that binds tighter. -/
  notTest : Parser Expr
  /-- An expression of bitwise operators or anything that binds tighter. -/
  bitOr : Parser Expr
  /-- A signed expression or anything that binds tighter. -/
  factor : Parser Expr

/-- The token can begin an expression. -/
def beginsExpr : Tok → Bool
  | .name _ | .int | .float | .complex | .str _ _ => true
  | .keyword w => ["None", "True", "False", "not", "lambda", "await"].contains w
  | .op o => ["(", "[", "\x7b", "-", "+", "~", "..."].contains o
  | .newline | .indent | .dedent => false

/-- The token can begin an expression or a starred expression. -/
def beginsStarred (t : Tok) : Bool :=
  beginsExpr t || t = .op "*"

/-! ## Lists of expressions -/

/-- One expression, or a tuple if there is a comma. -/
def tupleOf (item : Parser Expr) : Parser Expr := do
  let start ← startOffset
  let (items, comma) ← commaList item beginsStarred
  match items, comma with
  | [e], false => return e
  | _, _ => return .tuple (← spanFrom start) items

/-- A starred expression. -/
def starred (b : Below) : Parser Expr := do
  let start ← startOffset
  expectOp "*"
  let _ ← b.bitOr
  return .other (← spanFrom start)

/-- The item, or a starred expression. -/
def orStarred (b : Below) (item : Parser Expr) : Parser Expr := do
  if ← atOp "*" then starred b else item

/-- The next two tokens are a name and the given operator. -/
def atNameThen (text : String) : Parser Bool := do
  match ← peek, ← peekSecond with
  | some (.name _), some (.op o) => return o = text
  | _, _ => return false

/-- An expression or an assignment expression. -/
def namedTest (b : Below) : Parser Expr := do
  if ← atNameThen ":=" then
    let start ← startOffset
    let _ ← identifier
    expectOp ":="
    let _ ← b.test
    return .other (← spanFrom start)
  else b.test

/-- The targets of a loop. -/
def targets (b : Below) : Parser Expr :=
  tupleOf (orStarred b b.bitOr)

/-- One `for` of a comprehension with its conditions, if there is one. -/
def comprehensionFor? (b : Below) : Parser (Option Unit) := do
  let isAsync ← acceptKeyword "async"
  if ← acceptKeyword "for" then
    let _ ← targets b
    expectKeyword "in"
    let _ ← b.orTest
    let _ ← many do
      if ← acceptKeyword "if" then return some (← b.orTest) else return none
    return some ()
  else if isAsync then fail
  else return none

/-- The part of a comprehension after its first expression, if there is one. -/
def comprehension? (b : Below) : Parser Bool := do
  return !(← many (comprehensionFor? b)).isEmpty

/-! ## Parameters -/

/-- The parameters read so far. -/
structure ParamState where
  /-- The parameters that may be passed by position, with whether they have a default. -/
  positional : List (Param × Bool) := []
  /-- The names of all other parameters. -/
  others : List String := []
  /-- A slash has been read. -/
  slash : Bool := false
  /-- A star has been read. -/
  star : Bool := false
  /-- A star without a name has been read, and no parameter after it. -/
  bareStar : Bool := false
  /-- A double star has been read. -/
  doubleStar : Bool := false

/-- A parameter's name and, where they are allowed, its hint. -/
def paramName (typed : Bool) (hint : Parser Expr) : Parser Param := do
  let name ← identifier
  if typed then
    if ← acceptOp ":" then return ⟨name, some (← hint)⟩
  return ⟨name, none⟩

/-- The state after one more item of a parameter list. -/
def paramItem (b : Below) (typed : Bool) (s : ParamState) : Parser ParamState := do
  if s.doubleStar then fail
  if ← acceptOp "**" then
    let p ← paramName typed b.test
    return { s with others := p.name :: s.others, doubleStar := true, bareStar := false }
  else if ← acceptOp "*" then
    if s.star then fail
    match ← peek with
    | some (.name _) =>
      let p ← paramName typed (orStarred b b.test)
      return { s with others := p.name :: s.others, star := true }
    | _ => return { s with star := true, bareStar := true }
  else if ← acceptOp "/" then
    if s.slash || s.star || s.positional.isEmpty then fail
    return { s with slash := true }
  else
    let p ← paramName typed b.test
    let hasDefault ← acceptOp "="
    if hasDefault then
      let _ ← b.test
    if s.star then return { s with others := p.name :: s.others, bareStar := false }
    else return { s with positional := s.positional ++ [(p, hasDefault)] }

/-- The state after all items up to a closing delimiter, which stays. -/
def paramItems (b : Below) (typed : Bool) (close : String) :
    (count : Nat) → ParamState → Parser ParamState
  | 0, _ => fail
  | count + 1, s => do
    if ← atOp close then return s
    let s ← paramItem b typed s
    if ← acceptOp "," then paramItems b typed close count s else return s

/-- No parameter without a default comes after one with a default. -/
def defaultsComeLast (ps : List (Param × Bool)) : Bool :=
  (ps.dropWhile (!·.2)).all (·.2)

/-- The parameters before a closing delimiter, which stays. -/
def parameters (b : Below) (typed : Bool) (close : String) : Parser Params := do
  let s ← paramItems b typed close ((← remaining) + 1) {}
  let names := s.positional.map (·.1.name) ++ s.others
  if s.bareStar || !defaultsComeLast s.positional || !decide names.Nodup then
    throw .malformedArguments
  return ⟨s.positional.map Prod.fst, s.star || s.doubleStar⟩

/-! ## Arguments -/

/-- An argument of a call. -/
inductive Argument where
  | positional (value : Expr)
  | starred (value : Expr)
  | keyword (name : String) (value : Expr)
  | doubleStarred (value : Expr)

/-- An argument. -/
def argument (b : Below) : Parser Argument := do
  let start ← startOffset
  if ← acceptOp "*" then
    let _ ← b.test
    return .starred (.other (← spanFrom start))
  else if ← acceptOp "**" then return .doubleStarred (← b.test)
  else if ← atNameThen "=" then
    let name ← identifier
    expectOp "="
    return .keyword name (← b.test)
  else
    let value ← namedTest b
    if ← comprehension? b then return .positional (.comprehension (← spanFrom start) .generator)
    else return .positional value

/-- The order of arguments is possible: after a keyword only keywords and starred ones, after a double star
only keywords and double stars. -/
def argumentsInOrder : (keyword double : Bool) → List Argument → Bool
  | _, _, [] => true
  | keyword, double, .positional _ :: as => !keyword && argumentsInOrder keyword double as
  | keyword, double, .starred _ :: as => !double && argumentsInOrder keyword double as
  | _, double, .keyword _ _ :: as => argumentsInOrder true double as
  | _, _, .doubleStarred _ :: as => argumentsInOrder true true as

/-- The name of a keyword argument. -/
def Argument.name? : Argument → Option String
  | .keyword name _ => some name
  | _ => none

/-- The positional arguments of a call and the values of its keyword arguments, up to the closing
parenthesis, which is read. -/
def arguments (b : Below) : Parser (List Expr × List Expr) := do
  let (items, _) ← commaListBefore (argument b) ")"
  if !argumentsInOrder false false items || !decide (items.filterMap Argument.name?).Nodup then
    throw .malformedArguments
  let args := items.filterMap fun
    | .positional e | .starred e => some e
    | _ => none
  let values := items.filterMap fun
    | .keyword _ e | .doubleStarred e => some e
    | _ => none
  return (args, values)

/-! ## Atoms -/

/-- The expression in a text, read with the given parser. -/
def parseText (item : Parser Expr) (source : List Char) : Except SyntaxError Unit := do
  let tokens ← Token.lex false source
  let (_, c) ← (tupleOf item).run { rest := tokens }
  if c.rest.all (·.tok = .newline) then return () else throw .malformedFormat

/-- The string tokens that stand next to each other. -/
def stringTokens : Parser (List (StringKind × List Char)) :=
  many do
    match ← peek with
    | some (.str kind content) =>
      let _ ← advance
      return some (kind, content)
    | _ => return none

/-- A string, written as one or more tokens. Strings of bytes do not mix with others, and one formatted
token makes the whole a formatted string. -/
def string (b : Below) : Parser Expr := do
  let start ← startOffset
  let parts ← stringTokens
  let span ← spanFrom start
  if parts.any (·.1.isBytes) && !parts.all (·.1.isBytes) then throw .malformedString
  let texts ← parts.mapM fun (kind, content) =>
    if kind.isFormatted then do
      StringLiteral.checkFormat (parseText (orStarred b b.test)) kind content
      return []
    else StringLiteral.unescape kind content
  if parts.any (·.1.isFormatted) then return .formatted span
  else if parts.any (·.1.isBytes) then return .literal span .bytes
  else return .literal span (.str (String.ofList texts.flatten))

/-- What stands between brackets: a list or a list comprehension. -/
def listForm (b : Below) (start : Nat) : Parser Expr := do
  if ← acceptOp "]" then return .list (← spanFrom start) []
  let isStarred ← atOp "*"
  let first ← orStarred b (namedTest b)
  if !isStarred && (← comprehension? b) then
    expectOp "]"
    return .comprehension (← spanFrom start) .list
  let others ← if ← acceptOp "," then
      Prod.fst <$> commaListBefore (orStarred b (namedTest b)) "]"
    else do
      expectOp "]"
      pure []
  return .list (← spanFrom start) (first :: others)

/-- A yielded value. -/
def yieldForm (b : Below) : Parser Expr := do
  let start ← startOffset
  expectKeyword "yield"
  if ← acceptKeyword "from" then
    let _ ← b.test
  else
    match ← peek with
    | some tok =>
      if beginsStarred tok then
        let _ ← tupleOf (orStarred b b.test)
    | none => pure ()
  return .other (← spanFrom start)

/-- What stands between parentheses: a tuple, a generator or any expression. Only a tuple and a generator
span the parentheses. -/
def parenForm (b : Below) (start : Nat) : Parser Expr := do
  if ← acceptOp ")" then return .tuple (← spanFrom start) []
  if ← atKeyword "yield" then
    let e ← yieldForm b
    expectOp ")"
    return e
  let isStarred ← atOp "*"
  let first ← orStarred b (namedTest b)
  if !isStarred && (← comprehension? b) then
    expectOp ")"
    return .comprehension (← spanFrom start) .generator
  if ← acceptOp "," then
    let (others, _) ← commaListBefore (orStarred b (namedTest b)) ")"
    return .tuple (← spanFrom start) (first :: others)
  else
    expectOp ")"
    if isStarred then fail
    return first

/-- An entry of a dictionary: its key, unless it is a double star, and its value. -/
def dictEntry (b : Below) : Parser (Option Expr × Expr) := do
  if ← acceptOp "**" then return (none, ← b.bitOr)
  else
    let key ← b.test
    expectOp ":"
    return (some key, ← b.test)

/-- The dictionary of its entries, up to the closing brace, after the first entry. -/
def dictForm (b : Below) (start : Nat) (first : Option Expr × Expr) : Parser Expr := do
  let others ← if ← acceptOp "," then Prod.fst <$> commaListBefore (dictEntry b) "\x7d"
    else do
      expectOp "\x7d"
      pure []
  let entries := first :: others
  return .dict (← spanFrom start) (entries.filterMap Prod.fst) (entries.map Prod.snd)

/-- What stands between braces: a dictionary, a set or a comprehension. -/
def braceForm (b : Below) (start : Nat) : Parser Expr := do
  if ← acceptOp "\x7d" then return .dict (← spanFrom start) [] []
  if ← atOp "**" then dictForm b start (← dictEntry b)
  else
    let isPlain := !(← atOp "*") && !(← atNameThen ":=")
    let first ← orStarred b (namedTest b)
    if isPlain && (← acceptOp ":") then
      let value ← b.test
      if ← comprehension? b then
        expectOp "\x7d"
        return .comprehension (← spanFrom start) .dict
      dictForm b start (some first, value)
    else if isPlain && (← comprehension? b) then
      expectOp "\x7d"
      return .comprehension (← spanFrom start) .set
    else
      let others ← if ← acceptOp "," then
          Prod.fst <$> commaListBefore (orStarred b (namedTest b)) "\x7d"
        else do
          expectOp "\x7d"
          pure []
      return .set (← spanFrom start) (first :: others)

/-- A name, a literal or a form in brackets. -/
def atom (b : Below) : Parser Expr := do
  let start ← startOffset
  let literal (value : Literal) : Parser Expr := do
    let _ ← advance
    return .literal (← spanFrom start) value
  match ← peek with
  | some (.str _ _) => string b
  | some .int => literal .int
  | some .float => literal .float
  | some .complex => literal .complex
  | some (.keyword "None") => literal .noneValue
  | some (.keyword "True") => literal .bool
  | some (.keyword "False") => literal .bool
  | some (.op "...") => literal .ellipsis
  | some (.name id) =>
    let _ ← advance
    return .name (← spanFrom start) id
  | some (.op "[") =>
    let _ ← advance
    listForm b start
  | some (.op "(") =>
    let _ ← advance
    parenForm b start
  | some (.op "\x7b") =>
    let _ ← advance
    braceForm b start
  | _ => fail

/-! ## Operators -/

/-- An expression if the next token can begin one. -/
def optionalTest (b : Below) : Parser (Option Expr) := do
  match ← peek with
  | some tok => if beginsExpr tok then return some (← b.test) else return none
  | none => return none

/-- An index or a slice. -/
def subscriptItem (b : Below) : Parser Expr := do
  let start ← startOffset
  let first ← if ← atOp ":" then pure none else some <$> orStarred b (namedTest b)
  if ← acceptOp ":" then
    let _ ← optionalTest b
    if ← acceptOp ":" then
      let _ ← optionalTest b
    return .other (← spanFrom start)
  else match first with
    | some e => return e
    | none => fail

/-- The indices between brackets, a tuple if there is a comma. -/
def subscriptList (b : Below) : Parser Expr := do
  let start ← startOffset
  let (items, comma) ← commaList (subscriptItem b) (· ≠ .op "]")
  match items, comma with
  | [e], false => return e
  | _, _ => return .tuple (← spanFrom start) items

/-- The calls, indices and attributes after an atom; `count` bounds their number. -/
def trailers (b : Below) (start : Nat) : (count : Nat) → Expr → Parser Expr
  | 0, _ => fail
  | count + 1, e => do
    if ← acceptOp "(" then
      let (args, values) ← arguments b
      trailers b start count (.call (← spanFrom start) e args values)
    else if ← acceptOp "[" then
      let index ← subscriptList b
      expectOp "]"
      trailers b start count (.subscript (← spanFrom start) e index)
    else if ← acceptOp "." then
      let attr ← identifier
      trailers b start count (.attribute (← spanFrom start) e attr)
    else return e

/-- An atom with its calls, indices and attributes. -/
def primary (b : Below) : Parser Expr := do
  let start ← startOffset
  let first ← atom b
  trailers b start ((← remaining) + 1) first

/-- A primary expression, possibly awaited. -/
def awaited (b : Below) : Parser Expr := do
  let start ← startOffset
  if ← acceptKeyword "await" then
    let _ ← primary b
    return .other (← spanFrom start)
  else primary b

/-- The operator of a signed expression. -/
def signOp? : Tok → Option UnaryOp
  | .op "-" => some .minus
  | .op "+" => some .plus
  | .op "~" => some .invert
  | _ => none

/-- A signed expression, a power or anything that binds tighter. -/
def factorAt (b : Below) : Parser Expr := do
  let start ← startOffset
  match (← peek).bind signOp? with
  | some op =>
    let _ ← advance
    let operand ← b.factor
    return .unary (← spanFrom start) op operand
  | none =>
    let base ← awaited b
    if ← acceptOp "**" then
      let exponent ← b.factor
      return .binary (← spanFrom start) base .pow exponent
    else return base

/-- The operators of one level after their first operand; `count` bounds their number. -/
def binaryRest (operand : Parser Expr) (op? : Tok → Option BinaryOp) (start : Nat) :
    (count : Nat) → Expr → Parser Expr
  | 0, _ => fail
  | count + 1, left => do
    match (← peek).bind op? with
    | some op =>
      let _ ← advance
      let right ← operand
      binaryRest operand op? start count (.binary (← spanFrom start) left op right)
    | none => return left

/-- The operators of one level, from left to right. -/
def binaryLevel (operand : Parser Expr) (op? : Tok → Option BinaryOp) : Parser Expr := do
  let start ← startOffset
  let first ← operand
  binaryRest operand op? start ((← remaining) + 1) first

/-- The operators of multiplication. -/
def termOp? : Tok → Option BinaryOp
  | .op "*" => some .mult
  | .op "/" => some .div
  | .op "//" => some .floorDiv
  | .op "%" => some .mod
  | .op "@" => some .matMult
  | _ => none

/-- The operators of addition. -/
def sumOp? : Tok → Option BinaryOp
  | .op "+" => some .add
  | .op "-" => some .sub
  | _ => none

/-- The operators of shifting. -/
def shiftOp? : Tok → Option BinaryOp
  | .op "<<" => some .leftShift
  | .op ">>" => some .rightShift
  | _ => none

/-- The operator of a bitwise conjunction. -/
def bitAndOp? (t : Tok) : Option BinaryOp :=
  if t = .op "&" then some .bitAnd else none

/-- The operator of a bitwise exclusive disjunction. -/
def bitXorOp? (t : Tok) : Option BinaryOp :=
  if t = .op "^" then some .bitXor else none

/-- The operator of a bitwise disjunction. -/
def bitOrOp? (t : Tok) : Option BinaryOp :=
  if t = .op "|" then some .bitOr else none

/-- An expression of bitwise operators or anything that binds tighter. -/
def bitOrAt (b : Below) : Parser Expr :=
  let term := binaryLevel (factorAt b) termOp?
  let sum := binaryLevel term sumOp?
  let shift := binaryLevel sum shiftOp?
  let conjunction := binaryLevel shift bitAndOp?
  let exclusive := binaryLevel conjunction bitXorOp?
  binaryLevel exclusive bitOrOp?

/-- The operator of a comparison, if there is one. -/
def compareOp : Parser Bool := do
  match ← peek with
  | some (.op o) =>
    if ["==", "!=", "<", "<=", ">", ">="].contains o then
      let _ ← advance
      return true
    else return false
  | some (.keyword "in") =>
    let _ ← advance
    return true
  | some (.keyword "is") =>
    let _ ← advance
    let _ ← acceptKeyword "not"
    return true
  | some (.keyword "not") =>
    let _ ← advance
    expectKeyword "in"
    return true
  | _ => return false

/-- A chain of comparisons or anything that binds tighter. -/
def comparisonAt (b : Below) : Parser Expr := do
  let start ← startOffset
  let left ← bitOrAt b
  let others ← many do
    if ← compareOp then return some (← bitOrAt b) else return none
  if others.isEmpty then return left else return .compare (← spanFrom start) left others

/-- A negation or anything that binds tighter. -/
def notTestAt (b : Below) : Parser Expr := do
  let start ← startOffset
  if ← acceptKeyword "not" then
    let operand ← b.notTest
    return .unary (← spanFrom start) .not operand
  else comparisonAt b

/-- A chain of one logical operator, or its only operand. -/
def booleanLevel (operand : Parser Expr) (word : String) : Parser Expr := do
  let start ← startOffset
  match ← separated operand (.keyword word) with
  | [e] => return e
  | es => return .boolean (← spanFrom start) es

/-- A disjunction or anything that binds tighter. -/
def orTestAt (b : Below) : Parser Expr :=
  booleanLevel (booleanLevel (notTestAt b) "and") "or"

/-- Any expression. -/
def testAt (b : Below) : Parser Expr := do
  let start ← startOffset
  if ← acceptKeyword "lambda" then
    let _ ← parameters b false ":"
    expectOp ":"
    let _ ← b.test
    return .other (← spanFrom start)
  let body ← orTestAt b
  if ← acceptKeyword "if" then
    let condition ← b.orTest
    expectKeyword "else"
    let orelse ← b.test
    return .conditional (← spanFrom start) condition body orelse
  else return body

/-! ## Nesting -/

mutual

/-- Any expression, nested at most `depth` levels. -/
def test : (depth : Nat) → Parser Expr
  | 0 => fail
  | depth + 1 => testAt ⟨test depth, orTest depth, notTest depth, bitOr depth, factor depth⟩

/-- A disjunction, nested at most `depth` levels. -/
def orTest : (depth : Nat) → Parser Expr
  | 0 => fail
  | depth + 1 => orTestAt ⟨test depth, orTest depth, notTest depth, bitOr depth, factor depth⟩

/-- A negation, nested at most `depth` levels. -/
def notTest : (depth : Nat) → Parser Expr
  | 0 => fail
  | depth + 1 => notTestAt ⟨test depth, orTest depth, notTest depth, bitOr depth, factor depth⟩

/-- An expression of bitwise operators, nested at most `depth` levels. -/
def bitOr : (depth : Nat) → Parser Expr
  | 0 => fail
  | depth + 1 => bitOrAt ⟨test depth, orTest depth, notTest depth, bitOr depth, factor depth⟩

/-- A signed expression, nested at most `depth` levels. -/
def factor : (depth : Nat) → Parser Expr
  | 0 => fail
  | depth + 1 => factorAt ⟨test depth, orTest depth, notTest depth, bitOr depth, factor depth⟩

end

/-- The forms of expressions, nested at most `depth` levels. -/
def exprForms (depth : Nat) : Below :=
  ⟨test depth, orTest depth, notTest depth, bitOr depth, factor depth⟩

/-- Expressions separated by commas, a tuple if there is a comma. -/
def testList (b : Below) : Parser Expr :=
  tupleOf (orStarred b b.test)

end NativeClass.Python.Parser
