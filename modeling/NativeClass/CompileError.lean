/-!
# Compilation errors

* `Location`: a range of the source text.
* `CompileError`: the ways in which a class fails to compile, with `CompileError.kind` and
  `CompileError.message`.
-/

namespace NativeClass

/-- A range of the source text: lines count from one, columns in bytes from zero. -/
structure Location where
  line : Nat
  column : Nat
  endLine : Nat
  endColumn : Nat
  deriving DecidableEq, Inhabited

namespace Location

/-- The location of a member that has no source text. -/
def unknown : Location :=
  ⟨0, 0, 0, 0⟩

/-- The location stands for source text. -/
def isKnown (l : Location) : Bool :=
  0 < l.line

/-- The start of a location, as written in messages. -/
def text (l : Location) : String :=
  toString l.line ++ ":" ++ toString l.column

end Location

/-- The objection of one validator. -/
structure ValidationFailure where
  /-- The name of the validator. -/
  validator : String
  /-- The method or the class that the objection is about. -/
  subject : String
  /-- What is wrong. -/
  message : String
  deriving DecidableEq, Inhabited

/-- The text of an objection. -/
def ValidationFailure.text (f : ValidationFailure) : String :=
  "[" ++ f.validator ++ "] " ++ f.subject ++ ": " ++ f.message

/-- The two tables of a class. -/
inductive TableKind where
  | attributes
  | methods
  deriving DecidableEq, Inhabited

/-- The name of a table in messages. -/
def TableKind.text : TableKind → String
  | .attributes => "attribute table"
  | .methods => "vtab type"

/-- A breach of the order in which a class is built. -/
inductive LayoutError where
  /-- A frozen table was asked to take another entry. -/
  | frozen (table : TableKind) (name : String)
  /-- A table was used as frozen before it was. -/
  | notFinalized (table : TableKind)
  /-- A stage was called while another one was due. -/
  | outOfOrder (expected found : String)
  deriving DecidableEq, Inhabited

/-- The text of a breach. -/
def LayoutError.message : LayoutError → String
  | .frozen table name => "cannot add '" ++ name ++ "': " ++ table.text ++ " is finalized"
  | .notFinalized table => table.text ++ " has not been finalized"
  | .outOfOrder expected found =>
    "stage out of order: expected " ++ expected ++ ", compiler is " ++ found

/-- The reason why a base cannot be used. -/
inductive BaseProblem where
  /-- Another base has the same name. -/
  | duplicate
  /-- The class is among its own ancestors. -/
  | cycle
  /-- The base failed with an error of the named kind. -/
  | failed (kind : String)
  /-- The base has no result yet. -/
  | pending
  /-- The class has no place in the order of compilation. -/
  | unordered
  deriving DecidableEq, Inhabited

/-- The text of a problem with a base. -/
def BaseProblem.message : BaseProblem → String
  | .duplicate => "duplicate base class"
  | .cycle => "inheritance cycle"
  | .failed kind => "base failed to compile (" ++ kind ++ ")"
  | .pending => "base has not been compiled"
  | .unordered => "bases could not be ordered"

/-- The reason why a class, or a whole file, was not compiled. -/
inductive CompileError where
  /-- A method's signature disagrees with one already known under its name. -/
  | signature (className method message : String)
  /-- A method body cannot be typed. -/
  | inference (className method : String) (location : Location) (message : String)
      (suggestions : List String)
  /-- Validators objected. -/
  | validation (className : String) (failures : List ValidationFailure)
  /-- The order of building was breached. -/
  | layout (className : String) (cause : LayoutError)
  /-- A method has no native code. -/
  | codegen (className method message : String)
  /-- A base class cannot be used. -/
  | base (className baseName message : String)
  /-- The source text is not well formed. -/
  | parse (message : String)
  deriving DecidableEq, Inhabited

namespace CompileError

/-- The stable name of the kind of error. -/
def kind : CompileError → String
  | .signature .. => "SignatureError"
  | .inference .. => "TypeInferenceError"
  | .validation .. => "ValidationError"
  | .layout .. => "LayoutError"
  | .codegen .. => "CodeGenError"
  | .base .. => "BaseClassError"
  | .parse .. => "ParseError"

/-- The class that failed, if the error is about one. -/
def className? : CompileError → Option String
  | .signature c .. | .inference c .. | .validation c .. | .layout c .. | .codegen c ..
  | .base c .. => some c
  | .parse .. => none

/-- The text of an error. -/
def message : CompileError → String
  | .signature c m text => c ++ "." ++ m ++ ": signature error: " ++ text
  | .inference c m location text hints =>
    c ++ "." ++ m ++ " (" ++ location.text ++ "): type inference failed: " ++ text ++
      String.join (hints.map fun h => "\n  hint: " ++ h)
  | .validation c failures =>
    c ++ ": " ++ toString failures.length ++ " validation failure(s):" ++
      String.join (failures.map fun f => "\n  " ++ f.text)
  | .layout c cause => c ++ ": layout error: " ++ cause.message
  | .codegen c m text => c ++ "." ++ m ++ ": code generation failed: " ++ text
  | .base c b text => c ++ ": base class '" ++ b ++ "': " ++ text
  | .parse text => "parse error: " ++ text

/-- The error of a base that cannot be used. -/
def ofBase (className baseName : String) (problem : BaseProblem) : CompileError :=
  .base className baseName problem.message

/-- The error of an entry added to a frozen table. -/
def ofFrozen (className : String) (table : TableKind) (name : String) : CompileError :=
  .layout className (.frozen table name)

end CompileError

end NativeClass
