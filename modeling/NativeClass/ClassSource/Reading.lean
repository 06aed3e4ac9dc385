import NativeClass.TypeHint
import NativeClass.ClassSource.Basic
import NativeClass.Python.Parser.Stmt
/-!
# Reading class sources

* `ClassDecl.ofStatements`: the classes among the statements of a module.
* `ClassDecl.parse`: the classes of a source text.
-/

namespace NativeClass

open Python (Expr LineIndex Params Span Stmt)

/-- The last component of a dotted name or of the name of a call's target. -/
def decoratorName? : Expr → Option String
  | .name _ id => some id
  | .attribute _ _ attr => some attr
  | .call _ func _ _ => decoratorName? func
  | _ => none

/-- One of the decorators has the name. -/
def hasDecorator (decorators : List Expr) (name : String) : Bool :=
  decorators.any (decoratorName? · = some name)

/-- The kind of method that decorators make of a function. -/
def MethodKind.ofDecorators (decorators : List Expr) : MethodKind :=
  if hasDecorator decorators "staticmethod" then .staticMethod
  else if hasDecorator decorators "classmethod" then .classMethod
  else .instanceMethod

/-- The function of a definition. -/
def Function.ofDef (lines : LineIndex) (span : Span) (name : String) (decorators : List Expr)
    (params : Params) (returns : Option Expr) (body : List Stmt) : Function where
  name := name
  params := params.positional.map fun p => ⟨p.name, p.hint.map Ty.ofHint⟩
  returns := returns.map Ty.ofHint
  kind := .ofDecorators decorators
  isAbstract := hasDecorator decorators "abstractmethod"
  isVariadic := params.variadic
  location := lines.locate span
  body := some ⟨body, lines⟩

/-- The declaration that an assigned value makes. -/
def Declaration.ofValue (source : String) (value : Expr) : Declaration :=
  match Ty.ofValue? value with
  | some ty => .attr ty
  | none => .value (value.span.slice source)

/-- The declarations of a class body after one more statement. Assignments, type hints and functions count,
and an expression if it comes first: it documents the class. -/
def addDeclaration (source : String) (lines : LineIndex) (members : OrderedMap Declaration) :
    Stmt → OrderedMap Declaration
  | .annotated _ (.name _ id) hint _ => members.insert id (.attr (Ty.ofHint hint))
  | .functionDef span false name decorators params returns body =>
    members.insert name (.function (.ofDef lines span name decorators params returns body))
  | .assign _ targets value =>
    let names := targets.filterMap fun
      | .name _ id => some id
      | _ => none
    members.insertAll (names.map fun name => (name, .ofValue source value))
  | .expr _ value =>
    if members.isEmpty then members.insert "__doc__" (.value (value.span.slice source)) else members
  | _ => members

/-- The name by which a base is looked up. -/
def baseName (source : String) : Expr → String
  | .name _ id => id
  | .attribute _ _ attr => attr
  | e => e.span.slice source

/-- The class of a statement, if it defines one. -/
def ClassDecl.ofStmt? (source : String) (lines : LineIndex) : Stmt → Option ClassDecl
  | .classDef span name decorators bases body =>
    some {
      source := {
        name := name
        members := body.foldl (addDeclaration source lines) .empty
        location := lines.locate span }
      baseNames := bases.map (baseName source)
      isJit := hasDecorator decorators "jit" }
  | _ => none

/-- The classes among the statements of a module, in order. Only statements outside all others count. -/
def ClassDecl.ofStatements (source : String) (body : List Stmt) : List ClassDecl :=
  body.filterMap (ClassDecl.ofStmt? source (.ofSource source))

/-- The classes of a source text. -/
def ClassDecl.parse (source : String) : Except Python.SyntaxError (List ClassDecl) :=
  (Python.parseModule source).map (ClassDecl.ofStatements source)

end NativeClass
