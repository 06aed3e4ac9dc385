import NativeClass.Proofs.EditDistance
import NativeClass.Proofs.Inference.Visits
/-!
# Hints in another order

The order in which the local names of a body are enumerated shows in one place only. Of the local names that are
one edit away from an undefined one it decides which is suggested.

* `TypingFailure.UpToHint`, `TypingOutcome.UpToHint`: failures and answers that differ at most in that name.
* `Inference.nameType_eq`: the name that is suggested.
* `Inference.upToHint_typeOf`, `Inference.upToHint_visit`: expressions and statements.
* **`Inference.upToHint_inferMethod`**: methods.
-/

namespace NativeClass

/-- The local names in the order opposite to the one in which they came. -/
def LocalOrder.reversed : LocalOrder :=
  ⟨fun _ names => names.reverse, fun _ names => names.reverse_perm⟩

/-- Two failures that differ at most in the name that is suggested for an undefined one. Both names are one edit
away from it. -/
inductive TypingFailure.UpToHint : TypingFailure → TypingFailure → Prop
  | same (f : TypingFailure) : UpToHint f f
  | hint (name : String) (location : Option Location) {near near' : String} (h : editDistance name near = 1)
    (h' : editDistance name near' = 1) :
    UpToHint ⟨.undefinedName name, location, [near]⟩ ⟨.undefinedName name, location, [near']⟩

instance : Std.Refl TypingFailure.UpToHint :=
  ⟨.same⟩

theorem TypingFailure.UpToHint.location_eq {f f' : TypingFailure} (h : f.UpToHint f') :
    f.location = f'.location := by
  cases h <;> rfl

/-- Two answers that differ at most in a hint. -/
structure TypingOutcome.UpToHint (out out' : TypingOutcome) : Prop where
  result : SameUpTo TypingFailure.UpToHint out.result out'.result
  symbols : out.symbols = out'.symbols

/-- The request with the local names in another order. -/
def TypingRequest.inOrder (r : TypingRequest) (order : LocalOrder) : TypingRequest :=
  { r with order }

namespace Inference

open Python (Expr Stmt)

/-- The context with the local names in another order. -/
def BodyContext.inOrder (c : BodyContext) (order : LocalOrder) : BodyContext :=
  { c with order }

/-- Two halts that differ at most in a hint. -/
structure Halt.UpToHint (halt halt' : Halt) : Prop where
  failure : halt.failure.UpToHint halt'.failure
  symbols : halt.symbols = halt'.symbols

variable {order : LocalOrder} {s : Scope}

instance : Std.Refl Halt.UpToHint :=
  ⟨fun halt => ⟨.same halt.failure, rfl⟩⟩

/-! ## Expressions -/

/-- Two typings that differ at most in a hint. -/
abbrev TypesAlike {α : Type} (r r' : Except TypingFailure α) : Prop :=
  SameUpTo TypingFailure.UpToHint r r'

/-- What is suggested for an undefined name is the first local name in the order that is one edit away. -/
theorem nameType_eq (c : BodyContext) (s : Scope) (span : Python.Span) (id : String) :
    nameType c s span id =
      match s.locals.get? id, (c.order.names s.locals.keys).find? (editDistance id · = 1) with
      | some ty, _ => .ok ty
      | none, some near => if 2 < id.utf8ByteSize then c.fail span (.undefinedName id) [near] else .ok .any
      | none, none => .ok .any := by
  rw [nameType, similarNames_one, ← List.head?_filter]
  cases s.locals.get? id with
  | some ty => rfl
  | none => cases (c.order.names s.locals.keys).filter (editDistance id · = 1) <;> rfl

theorem nameType_of_find? {c : BodyContext} {id near : String} (span : Python.Span) (hid : s.locals.get? id = none)
    (h : (c.order.names s.locals.keys).find? (editDistance id · = 1) = some near) (hlong : 2 < id.utf8ByteSize) :
    nameType c s span id = c.fail span (.undefinedName id) [near] := by
  rw [nameType_eq, hid, h]
  exact if_pos hlong

theorem editDistance_of_find? {names : List String} {id near : String}
    (h : names.find? (editDistance id · = 1) = some near) : editDistance id near = 1 := by
  simpa using List.find?_some h

theorem find?_eq_none_iff_of_perm {names names' : List String} {p : String → Bool} (h : names.Perm names') :
    names.find? p = none ↔ names'.find? p = none := by
  simp only [List.find?_eq_none, h.mem_iff]

/-- An undefined name has a near local name in every order or in none. -/
theorem upToHint_nameType (c : BodyContext) (s : Scope) (span : Python.Span) (id : String) :
    TypesAlike (nameType (c.inOrder order) s span id) (nameType c s span id) := by
  have hperm : (order.names s.locals.keys).Perm (c.order.names s.locals.keys) :=
    (order.perm [] _).trans (c.order.perm [] _).symm
  have horder : (c.inOrder order).order = order := rfl
  rw [nameType_eq, nameType_eq, horder]
  cases s.locals.get? id with
  | some ty => exact .refl _
  | none =>
    cases hnear : (c.order.names s.locals.keys).find? (editDistance id · = 1) with
    | none =>
      rw [(find?_eq_none_iff_of_perm hperm).mpr hnear]
      exact .refl _
    | some near =>
      cases hnear' : (order.names s.locals.keys).find? (editDistance id · = 1) with
      | none =>
        rw [(find?_eq_none_iff_of_perm hperm).mp hnear'] at hnear
        cases hnear
      | some near' =>
        dsimp only
        split
        · exact .error (.hint id _ (editDistance_of_find? hnear') (editDistance_of_find? hnear))
        · exact .refl _

mutual

/-- **The type of an expression is the same in every order, up to the hint.** -/
theorem upToHint_typeOf (c : BodyContext) (s : Scope) (e : Expr) :
    TypesAlike (typeOf (c.inOrder order) s e) (typeOf c s e) := by
  cases e with
  | name span id => exact upToHint_nameType c s span id
  | literal | formatted | other | comprehension => exact .refl _
  | «attribute» span value name =>
    rw [typeOf, typeOf]
    split
    · exact .ok _
    · exact (upToHint_typeOf c s value).bind fun _ => .refl _
  | subscript span value index =>
    rw [typeOf, typeOf]
    exact (upToHint_typeOf c s value).bind fun _ => (upToHint_typeOf c s index).bind fun _ => .refl _
  | binary span left op right =>
    rw [typeOf, typeOf]
    exact (upToHint_typeOf c s left).bind fun _ => (upToHint_typeOf c s right).bind fun _ => .refl _
  | unary span op operand =>
    rw [typeOf, typeOf]
    exact (upToHint_typeOf c s operand).bind fun _ => .refl _
  | boolean span elems | list span elems | set span elems | tuple span elems =>
    rw [typeOf, typeOf]
    exact (upToHint_typesOf c s elems).bind fun _ => .refl _
  | compare span left others =>
    rw [typeOf, typeOf]
    exact (upToHint_typeOf c s left).bind fun _ => (upToHint_typesOf c s others).bind fun _ => .refl _
  | conditional span test body orelse =>
    rw [typeOf, typeOf]
    exact (upToHint_typeOf c s test).bind fun _ => (upToHint_typeOf c s body).bind fun _ =>
      (upToHint_typeOf c s orelse).bind fun _ => .refl _
  | call span func args keywordValues =>
    rw [typeOf, typeOf]
    refine (upToHint_typesOf c s args).bind fun _ => (upToHint_typesOf c s keywordValues).bind fun _ => ?_
    cases func with
    | «attribute» attrSpan value name =>
      dsimp only
      split
      · exact .refl _
      · exact (upToHint_typeOf c s value).bind fun _ => .refl _
    | name nameSpan id => exact .refl _
    | _ => exact (upToHint_typeOf c s _).bind fun _ => .refl _
  | dict span keys values =>
    rw [typeOf, typeOf]
    exact (upToHint_typesOf c s keys).bind fun _ => (upToHint_typesOf c s values).bind fun _ => .refl _

theorem upToHint_typesOf (c : BodyContext) (s : Scope) (es : List Expr) :
    TypesAlike (typesOf (c.inOrder order) s es) (typesOf c s es) := by
  cases es with
  | nil => exact .refl _
  | cons e es =>
    rw [typesOf, typesOf]
    exact (upToHint_typeOf c s e).bind fun _ => (upToHint_typesOf c s es).bind fun _ => .refl _

end

/-! ## Statements -/

/-- Two steps of a walk that differ at most in a hint. -/
abbrev WalksAlike {α : Type} (r r' : Except Halt α) : Prop :=
  SameUpTo Halt.UpToHint r r'

theorem TypesAlike.attempt {α : Type} {r r' : Except TypingFailure α} (h : TypesAlike r r') (s : Scope) :
    WalksAlike (s.attempt r) (s.attempt r') := by
  cases h with
  | ok a => exact .ok a
  | error h => exact .error ⟨h, rfl⟩

mutual

theorem upToHint_assign (c : BodyContext) (s : Scope) (target : Expr) (value : Ty) (isAnnotated : Bool) :
    WalksAlike (assign (c.inOrder order) s target value isAnnotated) (assign c s target value isAnnotated) := by
  have hread : WalksAlike (do let _ ← s.attempt (typeOf (c.inOrder order) s target); return s)
      (do let _ ← s.attempt (typeOf c s target); return s) :=
    (TypesAlike.attempt (upToHint_typeOf c s target) s).bind fun _ => .refl _
  cases target with
  | name span id => exact .refl _
  | tuple span elems =>
    rw [assign, assign]
    exact upToHint_assignEach c s elems _
  | «attribute» span object attr =>
    rw [assign, assign]
    split
    · rw [if_pos (by assumption)]
      exact .refl _
    · rw [if_neg (by assumption)]
      exact hread
  | _ => exact hread

theorem upToHint_assignEach (c : BodyContext) (s : Scope) (targets : List Expr) (values : List Ty) :
    WalksAlike (assignEach (c.inOrder order) s targets values) (assignEach c s targets values) := by
  cases targets with
  | nil => exact .refl _
  | cons t ts =>
    cases values with
    | nil => exact .refl _
    | cons ty tys =>
      rw [assignEach, assignEach]
      exact (upToHint_assign c s t ty false).bind fun s' => upToHint_assignEach c s' ts tys

end

theorem upToHint_assignAll (c : BodyContext) (s : Scope) (targets : List Expr) (value : Ty) :
    WalksAlike (assignAll (c.inOrder order) s targets value) (assignAll c s targets value) :=
  .foldlM (fun s t => upToHint_assign c s t value false) targets s

/-- **The scope after a statement is the same in every order, up to the hint.** -/
theorem upToHint_visit (c : BodyContext) (s : Scope) (stmt : Stmt) :
    WalksAlike (visit (c.inOrder order) s stmt) (visit c s stmt) := by
  have hread : ∀ e, WalksAlike (s.attempt (typeOf (c.inOrder order) s e)) (s.attempt (typeOf c s e)) :=
    fun e => TypesAlike.attempt (upToHint_typeOf c s e) s
  cases stmt with
  | assign span targets value => exact (hread value).bind fun ty => upToHint_assignAll c s targets ty
  | annotated span target hint value =>
    have hvalue : TypesAlike (checkAnnotated (c.inOrder order) s span (.ofHint hint) value)
        (checkAnnotated c s span (.ofHint hint) value) := by
      cases value with
      | none => exact .refl _
      | some e => exact (upToHint_typeOf c s e).bind fun _ => .refl _
    exact (hvalue.attempt s).bind fun _ => upToHint_assign c s target _ true
  | augmented span target op value =>
    have htype : TypesAlike (augmentedType (c.inOrder order) s span target op value)
        (augmentedType c s span target op value) :=
      (upToHint_typeOf c s target).bind fun _ => (upToHint_typeOf c s value).bind fun _ => .refl _
    exact (htype.attempt s).bind fun ty => upToHint_assign c s target ty false
  | ret span value =>
    have htype : TypesAlike (returnedType (c.inOrder order) s value) (returnedType c s value) := by
      cases value with
      | none => exact .refl _
      | some e => exact upToHint_typeOf c s e
    exact (htype.attempt s).bind fun _ => .refl _
  | branch span test body orelse | whileLoop span test body orelse => exact (hread test).bind fun _ => .refl _
  | forLoop span target iter body orelse =>
    exact (hread iter).bind fun ty => upToHint_assign c s target ty.element false
  | expr span e | assertion span e => exact (hread e).bind fun _ => .refl _
  | _ => exact .refl _

theorem upToHint_walkAll (c : BodyContext) (s : Scope) (block : List Stmt) :
    WalksAlike (walkAll (c.inOrder order) s block) (walkAll c s block) := by
  rw [walkAll_eq_foldlM, walkAll_eq_foldlM]
  exact .foldlM (upToHint_visit c) _ s

/-! ## Methods -/

/-- **The typing of a method, and the symbol table after it, are the same in every order, up to the hint.** -/
theorem upToHint_inferMethod (r : TypingRequest) (order : LocalOrder) :
    (inferMethod (r.inOrder order)).UpToHint (inferMethod r) := by
  have hfunc : (r.inOrder order).method.func = r.method.func := rfl
  cases hbody : r.method.func.body with
  | none =>
    simp only [inferMethod, hfunc, hbody]
    exact ⟨.ok _, rfl⟩
  | some body =>
    have hwalk : WalksAlike (walkAll ((bodyContext r body.lines).inOrder order) (initialScope r) body.statements)
        (walkAll (bodyContext r body.lines) (initialScope r) body.statements) := upToHint_walkAll _ _ _
    have hcontext : bodyContext (r.inOrder order) body.lines = (bodyContext r body.lines).inOrder order := rfl
    have hscope : initialScope (r.inOrder order) = initialScope r := rfl
    simp only [inferMethod, hfunc, hbody, inferBody, hcontext, hscope]
    rcases hwalk.ok_or_error with ⟨last, hok', hok⟩ | ⟨halt', halt, herror', herror, h⟩
    · simp only [hok', hok]
      exact ⟨.refl _, rfl⟩
    · simp only [herror', herror]
      exact ⟨.error h.failure, h.symbols⟩

end Inference

end NativeClass
