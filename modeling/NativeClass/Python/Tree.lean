import NativeClass.Python.Token
/-!
# Syntax trees

Expressions and statements, as far as the typing of classes reads them. Forms whose parts have no
influence on any type keep only their span.

* `Expr`: expressions.
* `Stmt`: statements.
-/

namespace NativeClass.Python

/-- A literal. Only a text keeps its value, because it may name a type. -/
inductive Literal where
  | noneValue
  | bool
  | int
  | float
  | complex
  | str (value : String)
  | bytes
  | ellipsis
  deriving DecidableEq, Inhabited

/-- A binary operator. -/
inductive BinaryOp where
  | add
  | sub
  | mult
  | matMult
  | div
  | mod
  | pow
  | leftShift
  | rightShift
  | bitOr
  | bitXor
  | bitAnd
  | floorDiv
  deriving DecidableEq, Inhabited

/-- The spelling of a binary operator. -/
def BinaryOp.text : BinaryOp → String
  | .add => "+"
  | .sub => "-"
  | .mult => "*"
  | .matMult => "@"
  | .div => "/"
  | .mod => "%"
  | .pow => "**"
  | .leftShift => "<<"
  | .rightShift => ">>"
  | .bitOr => "|"
  | .bitXor => "^"
  | .bitAnd => "&"
  | .floorDiv => "//"

/-- A unary operator. -/
inductive UnaryOp where
  | not
  | invert
  | plus
  | minus
  deriving DecidableEq, Inhabited

/-- What a comprehension builds. -/
inductive ComprehensionKind where
  | list
  | set
  | dict
  | generator
  deriving DecidableEq, Inhabited

/-- An expression. -/
inductive Expr where
  | name (span : Span) (id : String)
  | literal (span : Span) (value : Literal)
  /-- A string with embedded expressions. -/
  | formatted (span : Span)
  | attribute (span : Span) (value : Expr) (attr : String)
  | subscript (span : Span) (value index : Expr)
  | binary (span : Span) (left : Expr) (op : BinaryOp) (right : Expr)
  | unary (span : Span) (op : UnaryOp) (operand : Expr)
  /-- A chain of `and` or of `or`. -/
  | boolean (span : Span) (operands : List Expr)
  /-- A chain of comparisons. -/
  | compare (span : Span) (left : Expr) (others : List Expr)
  | conditional (span : Span) (test body orelse : Expr)
  /-- A call with its positional arguments and the values of its keyword arguments. -/
  | call (span : Span) (func : Expr) (args keywordValues : List Expr)
  | list (span : Span) (elems : List Expr)
  | set (span : Span) (elems : List Expr)
  | tuple (span : Span) (elems : List Expr)
  /-- A dictionary: the keys of its plain entries, and the values of all entries. -/
  | dict (span : Span) (keys values : List Expr)
  | comprehension (span : Span) (kind : ComprehensionKind)
  /-- A lambda, a slice, a starred, awaited or yielded expression or an assignment expression. -/
  | other (span : Span)
  deriving Inhabited

/-- Where an expression stands, without parentheses around it. -/
def Expr.span : Expr → Span
  | .name s _ | .literal s _ | .formatted s | .attribute s _ _ | .subscript s _ _ | .binary s _ _ _
  | .unary s _ _ | .boolean s _ | .compare s _ _ | .conditional s _ _ _ | .call s _ _ _ | .list s _
  | .set s _ | .tuple s _ | .dict s _ _ | .comprehension s _ | .other s => s

/-- A parameter of a function. -/
structure Param where
  name : String
  hint : Option Expr
  deriving Inhabited

/-- The parameters of a function: those passed by position, and whether there are others. -/
structure Params where
  /-- The parameters that may be passed by position. -/
  positional : List Param
  /-- There are starred or keyword-only parameters. -/
  variadic : Bool
  deriving Inhabited

/-- A statement. -/
inductive Stmt where
  | assign (span : Span) (targets : List Expr) (value : Expr)
  | annotated (span : Span) (target hint : Expr) (value : Option Expr)
  | augmented (span : Span) (target : Expr) (op : BinaryOp) (value : Expr)
  | ret (span : Span) (value : Option Expr)
  | raise (span : Span)
  | branch (span : Span) (test : Expr) (body orelse : List Stmt)
  | whileLoop (span : Span) (test : Expr) (body orelse : List Stmt)
  | forLoop (span : Span) (target iter : Expr) (body orelse : List Stmt)
  | expr (span : Span) (value : Expr)
  | assertion (span : Span) (test : Expr)
  | breakLoop (span : Span)
  | continueLoop (span : Span)
  /-- A statement of one line that neither stores nor leaves: `pass`, `del`, an import, a declaration. -/
  | simple (span : Span)
  /-- A `with`, `try` or `match` statement or an asynchronous loop: the statements of all its blocks. -/
  | compound (span : Span) (body : List Stmt)
  | functionDef (span : Span) (isAsync : Bool) (name : String) (decorators : List Expr)
      (params : Params) (returns : Option Expr) (body : List Stmt)
  | classDef (span : Span) (name : String) (decorators bases : List Expr) (body : List Stmt)
  deriving Inhabited

/-- Where a statement stands, without its decorators. -/
def Stmt.span : Stmt → Span
  | .assign s _ _ | .annotated s _ _ _ | .augmented s _ _ _ | .ret s _ | .raise s | .branch s _ _ _
  | .whileLoop s _ _ _ | .forLoop s _ _ _ _ | .expr s _ | .assertion s _ | .breakLoop s
  | .continueLoop s | .simple s | .compound s _ | .functionDef s _ _ _ _ _ _
  | .classDef s _ _ _ _ => s

end NativeClass.Python
