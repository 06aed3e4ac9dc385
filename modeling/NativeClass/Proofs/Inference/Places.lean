import NativeClass.Proofs.Inference.Visits
/-!
# Syntax trees without places

Two texts of a method that stand at different places are the same tree once all spans are dropped.

* `Expr.unplaced`, `Stmt.unplaced`: trees with all spans dropped.
* `Function.unplaced`, `Method.unplaced`: functions and methods without their places.
* `Function.SameText`: what two functions have in common that are the same without their places.
* **`Ty.ofHint_unplaced`**: the type that a type hint denotes does not depend on spans.
* **`Inference.reached_unplaced`**, **`Inference.blockTerminates_unplaced`**: nor do the statements that a walk
  reaches, or whether a block ends.
-/

namespace NativeClass

open Python (Expr Param Params Stmt)

/-! ## Trees -/

namespace Python

mutual

/-- The expression with all spans dropped. -/
def Expr.unplaced : Expr → Expr
  | .name _ id => .name default id
  | .literal _ value => .literal default value
  | .formatted _ => .formatted default
  | .attribute _ value attr => .attribute default value.unplaced attr
  | .subscript _ value index => .subscript default value.unplaced index.unplaced
  | .binary _ left op right => .binary default left.unplaced op right.unplaced
  | .unary _ op operand => .unary default op operand.unplaced
  | .boolean _ operands => .boolean default (unplacedAll operands)
  | .compare _ left others => .compare default left.unplaced (unplacedAll others)
  | .conditional _ test body orelse => .conditional default test.unplaced body.unplaced orelse.unplaced
  | .call _ func args keywordValues =>
    .call default func.unplaced (unplacedAll args) (unplacedAll keywordValues)
  | .list _ elems => .list default (unplacedAll elems)
  | .set _ elems => .set default (unplacedAll elems)
  | .tuple _ elems => .tuple default (unplacedAll elems)
  | .dict _ keys values => .dict default (unplacedAll keys) (unplacedAll values)
  | .comprehension _ kind => .comprehension default kind
  | .other _ => .other default

/-- The expressions with all spans dropped. -/
def unplacedAll : List Expr → List Expr
  | [] => []
  | e :: es => e.unplaced :: unplacedAll es

end

/-- The parameters with the spans of their type hints dropped. -/
def Params.unplaced (ps : Params) : Params :=
  { ps with positional := ps.positional.map fun p => { p with hint := p.hint.map Expr.unplaced } }

mutual

/-- The statement with all spans dropped. -/
def Stmt.unplaced : Stmt → Stmt
  | .assign _ targets value => .assign default (unplacedAll targets) value.unplaced
  | .annotated _ target hint value =>
    .annotated default target.unplaced hint.unplaced (value.map Expr.unplaced)
  | .augmented _ target op value => .augmented default target.unplaced op value.unplaced
  | .ret _ value => .ret default (value.map Expr.unplaced)
  | .raise _ => .raise default
  | .branch _ test body orelse => .branch default test.unplaced (unplacedBlock body) (unplacedBlock orelse)
  | .whileLoop _ test body orelse =>
    .whileLoop default test.unplaced (unplacedBlock body) (unplacedBlock orelse)
  | .forLoop _ target iter body orelse =>
    .forLoop default target.unplaced iter.unplaced (unplacedBlock body) (unplacedBlock orelse)
  | .expr _ value => .expr default value.unplaced
  | .assertion _ test => .assertion default test.unplaced
  | .breakLoop _ => .breakLoop default
  | .continueLoop _ => .continueLoop default
  | .simple _ => .simple default
  | .compound _ body => .compound default (unplacedBlock body)
  | .functionDef _ isAsync name decorators params returns body =>
    .functionDef default isAsync name (unplacedAll decorators) params.unplaced (returns.map Expr.unplaced)
      (unplacedBlock body)
  | .classDef _ name decorators bases body =>
    .classDef default name (unplacedAll decorators) (unplacedAll bases) (unplacedBlock body)

/-- The statements of a block with all spans dropped. -/
def unplacedBlock : List Stmt → List Stmt
  | [] => []
  | stmt :: rest => stmt.unplaced :: unplacedBlock rest

end

theorem length_unplacedAll (es : List Expr) : (unplacedAll es).length = es.length := by
  induction es with
  | nil => rfl
  | cons e es ih => rw [unplacedAll, List.length_cons, List.length_cons, ih]

theorem unplacedBlock_eq_map (block : List Stmt) : unplacedBlock block = block.map Stmt.unplaced := by
  induction block with
  | nil => rfl
  | cons stmt rest ih => rw [unplacedBlock, List.map_cons, ih]

end Python

/-- The function without the places of its text. -/
def Function.unplaced (f : Function) : Function :=
  { f with
    location := .unknown
    body := f.body.map fun b => ⟨Python.unplacedBlock b.statements, default⟩ }

/-- Two functions are written in the same way. -/
structure Function.SameText (f g : Function) : Prop where
  name : f.name = g.name
  params : f.params = g.params
  returns : f.returns = g.returns
  kind : f.kind = g.kind
  isAbstract : f.isAbstract = g.isAbstract
  isVariadic : f.isVariadic = g.isVariadic
  body : f.body.map (fun b => Python.unplacedBlock b.statements) =
    g.body.map fun b => Python.unplacedBlock b.statements

theorem Function.sameText_of_unplaced {f g : Function} (h : f.unplaced = g.unplaced) : f.SameText g := by
  have hbody := congrArg (fun f : Function => f.body.map FunctionBody.statements) h
  simp only [unplaced, Option.map_map] at hbody
  rw [unplaced, unplaced, mk.injEq] at h
  obtain ⟨hname, hparams, hreturns, hkind, habstract, hvariadic, -, -⟩ := h
  exact ⟨hname, hparams, hreturns, hkind, habstract, hvariadic, hbody⟩

/-- The method without the places of its text. -/
def Method.unplaced (m : Method) : Method :=
  { m with func := m.func.unplaced }

/-! ## Type hints -/

mutual

/-- **The type that a type hint denotes does not depend on spans.** -/
theorem Ty.ofHint_unplaced (e : Expr) : Ty.ofHint e.unplaced = Ty.ofHint e := by
  cases e with
  | literal span value => cases value <;> rfl
  | «attribute» span value attr => cases value <;> rfl
  | binary span left op right =>
    cases op with
    | bitOr =>
      rw [Expr.unplaced, Ty.ofHint, Ty.ofHint, Ty.ofHint_unplaced left, Ty.ofHint_unplaced right]
    | _ => rfl
  | subscript span value index =>
    cases value with
    | name nameSpan id =>
      have hindex := Ty.ofHint_unplaced index
      rw [Expr.unplaced, Expr.unplaced]
      unfold Ty.ofHint
      cases Generic.ofName? id with
      | none => rfl
      | some g =>
        cases g with
        | list | set | optional => simp only [hindex]
        | dict =>
          cases index with
          | tuple span elems =>
            match elems with
            | [key, value] =>
              have hkey := Ty.ofHint_unplaced key
              have hvalue := Ty.ofHint_unplaced value
              simp only [Expr.unplaced, Python.unplacedAll, hkey, hvalue]
            | [] | [_] | _ :: _ :: _ :: _ => rfl
          | _ => rfl
        | tuple =>
          cases index with
          | tuple span elems => exact congrArg Ty.tuple (Ty.ofHints_unplaced elems)
          | _ => exact congrArg (fun t => Ty.tuple [t]) hindex
        | union =>
          cases index with
          | tuple span elems => exact congrArg Ty.unionOf (Ty.ofHints_unplaced elems)
          | _ => exact hindex
    | _ => rfl
  | _ => rfl

theorem Ty.ofHints_unplaced (es : List Expr) : Ty.ofHints (Python.unplacedAll es) = Ty.ofHints es := by
  cases es with
  | nil => rfl
  | cons e es =>
    rw [Python.unplacedAll, Ty.ofHints, Ty.ofHints, Ty.ofHint_unplaced e, Ty.ofHints_unplaced es]

end

namespace Inference

open Python (unplacedBlock)

/-! ## Walks -/

mutual

theorem reachedIn_unplaced (stmt : Stmt) : reachedIn stmt.unplaced = (reachedIn stmt).map Stmt.unplaced := by
  cases stmt with
  | branch span test body orelse | whileLoop span test body orelse | forLoop span target iter body orelse =>
    rw [Stmt.unplaced, reachedIn, reachedIn, List.map_cons, List.map_append, reached_unplaced body,
      reached_unplaced orelse, Stmt.unplaced]
  | _ => rfl

/-- **The statements that a walk reaches.** -/
theorem reached_unplaced (block : List Stmt) : reached (unplacedBlock block) = (reached block).map Stmt.unplaced := by
  cases block with
  | nil => rfl
  | cons stmt rest =>
    rw [unplacedBlock, reached, reached, List.map_append, reachedIn_unplaced stmt, reached_unplaced rest]

end

mutual

theorem terminates_unplaced (stmt : Stmt) : terminates stmt.unplaced = terminates stmt := by
  cases stmt with
  | branch span test body orelse =>
    rw [Stmt.unplaced, terminates, terminates, blockTerminates_unplaced body, blockTerminates_unplaced orelse]
  | _ => rfl

/-- **Whether a block ends.** -/
theorem blockTerminates_unplaced (block : List Stmt) :
    blockTerminates (unplacedBlock block) = blockTerminates block := by
  match block with
  | [] => rfl
  | [stmt] => exact terminates_unplaced stmt
  | _ :: stmt :: rest => exact blockTerminates_unplaced (stmt :: rest)

end

end Inference

end NativeClass
