import NativeClass.Inference.Stmt
/-!
# Inference of a method

* `blockTerminates`: a block that never runs off its end, as far as its last statement shows.
* `resolveReturn`: the return type that the walk of a body leads to.
* `inferMethod`: the typing of one method.
-/

namespace NativeClass.Inference

open Python (Stmt)

/-- The flag that lets integers widen into `float`. -/
def promotionFlag : String := "numeric_promotion"

mutual

/-- The statement leaves the function on every path. -/
def terminates : Stmt → Bool
  | .ret .. | .raise _ => true
  | .branch _ _ body orelse => blockTerminates body && blockTerminates orelse
  | _ => false

/-- The last statement of the block leaves the function on every path. -/
def blockTerminates : List Stmt → Bool
  | [] => false
  | [stmt] => terminates stmt
  | _ :: rest => blockTerminates rest

end

/-- The types of all results of a body: the returned values, and none if it may run off its end. -/
def resultTypes (s : Scope) (fallsThrough : Bool) : List Ty :=
  if fallsThrough then s.returns ++ [.noneType] else s.returns

/-- The return type of a method. A declared one must admit every result; otherwise the results are
joined. An abstract method keeps its declaration. -/
def resolveReturn (c : BodyContext) (s : Scope) (declared : Option Ty) (fallsThrough isAbstract : Bool) :
    Except TypingFailure Ty :=
  let results := resultTypes s fallsThrough
  if isAbstract then .ok (declared.getD .noneType)
  else match declared with
    | some expected =>
      match results.find? (!expected.isAssignableFrom · c.promote) with
      | some ty => .error ⟨.resultType ty expected, some c.location, []⟩
      | none => .ok expected
    | none => .ok ((Ty.joinAll? results c.promote).getD .noneType)

/-- The local names at the start of a body: the receiver, then the parameters with their declared types. -/
def initialLocals (className : String) (func : Function) (args : List Ty) : OrderedMap Ty :=
  let receiver : List (String × Ty) :=
    match func.kind, func.params with
    | .instanceMethod, p :: _ => [(p.name, .nominal className)]
    | .classMethod, p :: _ => [(p.name, .any)]
    | _, _ => []
  OrderedMap.ofList (receiver ++ (func.explicitParams.map Parameter.name).zip args)

/-- The parameter that holds the instance. -/
def receiverName? (func : Function) : Option String :=
  match func.kind with
  | .instanceMethod => func.params.head?.map Parameter.name
  | .classMethod | .staticMethod => none

/-- The context of a body. -/
def bodyContext (r : TypingRequest) (lines : Python.LineIndex) : BodyContext where
  className := r.className
  methods := r.methods
  receiver := receiverName? r.method.func
  promote := r.flags.getBool promotionFlag true
  mayDefine := r.mayDefine
  order := r.order
  lines := lines
  location := r.method.func.location

/-- The scope at the start of a body. -/
def initialScope (r : TypingRequest) : Scope where
  locals := initialLocals r.className r.method.func r.declared.args
  symbols := r.symbols
  returns := []

/-- The names with their types, in increasing order of the names. -/
def sortedLocals (locals : OrderedMap Ty) : List (String × Ty) :=
  locals.entries.mergeSort fun x y => x.1 ≤ y.1

/-- A declared signature with its return type resolved. -/
def typingOf (declared : Signature) (ret : Ty) (locals : List (String × Ty)) (statements : Nat) : Typing :=
  ⟨{ declared with ret := some ret }, some ⟨locals, ret, statements⟩⟩

/-- The typing of a body. -/
def inferBody (r : TypingRequest) (body : FunctionBody) : TypingOutcome :=
  let c := bodyContext r body.lines
  match walkAll c (initialScope r) body.statements with
  | .error halt => ⟨.error halt.failure, halt.symbols⟩
  | .ok s =>
    let fallsThrough := !blockTerminates body.statements
    let ret := resolveReturn c s r.declared.ret fallsThrough r.method.func.isAbstract
    ⟨ret.map fun ty => typingOf r.declared ty (sortedLocals s.locals) body.statements.length, s.symbols⟩

/-- The typing of a method. A method without a body keeps its declaration. -/
def inferMethod (r : TypingRequest) : TypingOutcome :=
  match r.method.func.body with
  | some body => inferBody r body
  | none => ⟨.ok (typingOf r.declared (r.declared.ret.getD .noneType) [] 0), r.symbols⟩

end NativeClass.Inference
