import NativeClass.Proofs.Inference.Visits
import NativeClass.Proofs.Ty.Admission
/-!
# Requirements on unions that inference keeps

Inference makes unions only by `Ty.unionOf`. So a requirement on the members of unions that `Ty.unionOf`
establishes holds of every union in a type that inference finds, if it holds of the types that inference is
given.

* `UnionClosed Q`: `Ty.unionOf` establishes the requirement `Q`.
* `Ty.everyUnion_ofHint`: type hints.
* **`Inference.ensures_typeOf`**: expressions.
* **`Inference.ensures_visit`**, **`Inference.ensures_foldlM_visit`**: the scope after a statement and after a
  run over statements.
* `TypingRequest.EveryUnion`, `Typing.EveryUnion`: the types that inference is given and those that it finds.
* **`Inference.everyUnion_symbols_inferMethod`**, **`Inference.ensures_everyUnion_inferMethod`**: methods.
-/

namespace NativeClass

open Python (Expr Stmt)

/-- A requirement on the members of unions that the union of types establishes. -/
def UnionClosed (Q : List Ty → Prop) : Prop :=
  ∀ ts : List Ty, (∀ t ∈ ts, t.EveryUnion Q) → (Ty.unionOf ts).EveryUnion Q

theorem unionClosed_ne_nil : UnionClosed (· ≠ []) :=
  fun _ => Ty.noEmptyUnion_unionOf

theorem unionClosed_reduced : UnionClosed Ty.Reduced :=
  fun _ => Ty.canonical_unionOf

variable {Q : List Ty → Prop}

namespace Ty

/-! ## Operations -/

section Operations

variable {a b t T : Ty} {ts : List Ty} {promote : Bool}

theorem everyUnion_ofName (name : String) : (ofName name).EveryUnion Q := by
  unfold ofName
  split <;> trivial

theorem everyUnion_ofLiteral (l : Python.Literal) : (ofLiteral l).EveryUnion Q := by
  cases l <;> trivial

theorem everyUnion_join (hQ : UnionClosed Q) (ha : a.EveryUnion Q) (hb : b.EveryUnion Q) :
    (join a b promote).EveryUnion Q :=
  join_induction ha trivial (hQ _ (List.forall_mem_cons.mpr ⟨ha, List.forall_mem_singleton.mpr hb⟩))

theorem everyUnion_foldl_join (hQ : UnionClosed Q) (ha : a.EveryUnion Q) (hts : ∀ t ∈ ts, t.EveryUnion Q) :
    (ts.foldl (join · · promote) a).EveryUnion Q := by
  induction ts generalizing a with
  | nil => exact ha
  | cons b ts ih =>
    obtain ⟨hb, hts⟩ := List.forall_mem_cons.mp hts
    exact ih (everyUnion_join hQ ha hb) hts

theorem everyUnion_joinAll? (hQ : UnionClosed Q) (hts : ∀ t ∈ ts, t.EveryUnion Q) :
    ((joinAll? ts promote).getD .any).EveryUnion Q := by
  match ts with
  | [] => trivial
  | a :: ts =>
    obtain ⟨ha, hts⟩ := List.forall_mem_cons.mp hts
    exact everyUnion_foldl_join hQ ha hts

theorem everyUnion_collected (hQ : UnionClosed Q) (hts : ∀ t ∈ ts, t.EveryUnion Q) :
    (collected ts).EveryUnion Q := by
  unfold collected
  split
  · trivial
  · exact hQ ts hts

theorem everyUnion_element (hQ : UnionClosed Q) (h : t.EveryUnion Q) : t.element.EveryUnion Q := by
  cases t with
  | list | set => exact h
  | dict => exact h.1
  | tuple ts => exact hQ ts (everyUnions_iff.mp h)
  | _ => trivial

theorem everyUnion_subscript (hQ : UnionClosed Q) (h : t.EveryUnion Q) : t.subscript.EveryUnion Q := by
  cases t with
  | list => exact h
  | dict => exact h.2
  | tuple ts => exact hQ ts (everyUnions_iff.mp h)
  | _ => trivial

theorem everyUnion_resultOfCall (h : t.EveryUnion Q) : t.resultOfCall.EveryUnion Q := by
  cases t with
  | function => exact h.2
  | _ => trivial

theorem everyUnion_unary (op : Python.UnaryOp) (h : t.EveryUnion Q) : (unary op t).EveryUnion Q := by
  cases op with
  | not | invert => trivial
  | plus | minus =>
    unfold unary
    dsimp only
    split
    · trivial
    · exact h

theorem everyUnion_numericBinary? (op : Python.BinaryOp) (a b : Ty) :
    ∀ t ∈ numericBinary? op a b, t.EveryUnion Q := by
  intro t ht
  unfold numericBinary? at ht
  split at ht
  · cases ht
    trivial
  · cases ht
  · cases ht
    split <;> trivial

theorem everyUnion_binary? (hQ : UnionClosed Q) (op : Python.BinaryOp) (ha : a.EveryUnion Q)
    (hb : b.EveryUnion Q) : ∀ t ∈ binary? op a b promote, t.EveryUnion Q := by
  intro t ht
  unfold binary? at ht
  split at ht
  · cases ht
    trivial
  · split at ht
    · exact everyUnion_numericBinary? op a b t ht
    · split at ht <;> cases ht
      · trivial
      · trivial
      · trivial
      · trivial
      · exact everyUnion_join hQ ha.list hb.list
      · exact ha

theorem everyUnion_unpacked (hQ : UnionClosed Q) (h : t.EveryUnion Q) (count : Nat) :
    ∀ u ∈ t.unpacked count, u.EveryUnion Q := by
  have heach : ∀ u ∈ List.replicate count t.element, u.EveryUnion Q := fun u hu =>
    (List.eq_of_mem_replicate hu) ▸ everyUnion_element hQ h
  unfold unpacked
  split
  · split
    · exact everyUnions_iff.mp h
    · exact heach
  · exact heach

theorem everyUnion_mathConstant (name : String) : (mathConstant name).EveryUnion Q := by
  unfold mathConstant
  split <;> trivial

theorem everyUnion_mathResult (name : String) : (mathResult name).EveryUnion Q := by
  unfold mathResult
  split <;> trivial

theorem everyUnion_absResult (hts : ∀ t ∈ ts, t.EveryUnion Q) : (absResult ts).EveryUnion Q := by
  unfold absResult
  split
  · trivial
  · split
    · exact hts _ List.mem_cons_self
    · trivial
  · trivial

theorem everyUnion_extremeResult (hQ : UnionClosed Q) (hts : ∀ t ∈ ts, t.EveryUnion Q) :
    (extremeResult ts promote).EveryUnion Q := by
  unfold extremeResult
  split
  · exact (hts _ List.mem_cons_self).list
  · exact everyUnion_joinAll? hQ hts

theorem everyUnion_sumResult : (sumResult ts).EveryUnion Q := by
  unfold sumResult
  split <;> trivial

theorem everyUnion_firstElement (hQ : UnionClosed Q) (hts : ∀ t ∈ ts, t.EveryUnion Q) :
    (firstElement ts).EveryUnion Q := by
  match ts with
  | [] => trivial
  | a :: _ => exact everyUnion_element hQ (hts a List.mem_cons_self)

theorem everyUnion_builtinResult (hQ : UnionClosed Q) (name : String) (hts : ∀ t ∈ ts, t.EveryUnion Q) :
    (builtinResult name ts promote).EveryUnion Q := by
  have hfirst : (firstElement ts).EveryUnion Q := everyUnion_firstElement hQ hts
  unfold builtinResult
  split
  any_goals trivial
  · exact everyUnion_absResult hts
  · split <;> trivial
  · exact everyUnion_extremeResult hQ hts
  · exact everyUnion_extremeResult hQ hts
  · exact everyUnion_sumResult
  · split <;> trivial

end Operations

/-! ## Type hints -/

mutual

theorem everyUnion_ofHint (hQ : UnionClosed Q) (e : Expr) : (ofHint e).EveryUnion Q := by
  unfold ofHint
  split
  · exact everyUnion_ofName _
  · trivial
  · exact everyUnion_ofName _
  · split
    · split
      · exact everyUnion_ofName _
      · trivial
    · trivial
  next index =>
    split
    · exact everyUnion_ofHint hQ index
    · exact everyUnion_ofHint hQ index
    · split
      next key value => exact ⟨everyUnion_ofHint hQ key, everyUnion_ofHint hQ value⟩
      · exact ⟨trivial, trivial⟩
    · split
      next elems => exact everyUnions_iff.mpr (everyUnion_ofHints hQ elems)
      · exact ⟨everyUnion_ofHint hQ index, trivial⟩
    · exact hQ _ (List.forall_mem_cons.mpr
        ⟨everyUnion_ofHint hQ index, List.forall_mem_singleton.mpr trivial⟩)
    · split
      next members => exact hQ _ (everyUnion_ofHints hQ members)
      · exact everyUnion_ofHint hQ index
    · trivial
  next left right =>
    exact hQ _ (List.forall_mem_cons.mpr
      ⟨everyUnion_ofHint hQ left, List.forall_mem_singleton.mpr (everyUnion_ofHint hQ right)⟩)
  · trivial

theorem everyUnion_ofHints (hQ : UnionClosed Q) (es : List Expr) : ∀ t ∈ ofHints es, t.EveryUnion Q := by
  cases es with
  | nil => exact fun t ht => nomatch ht
  | cons e es => exact List.forall_mem_cons.mpr ⟨everyUnion_ofHint hQ e, everyUnion_ofHints hQ es⟩

end

theorem everyUnion_ofValue? (hQ : UnionClosed Q) (e : Expr) : ∀ t ∈ ofValue? e, t.EveryUnion Q := by
  intro t ht
  unfold ofValue? at ht
  split at ht
  any_goals cases ht
  exact everyUnion_ofHint hQ e

end Ty

/-! ## What a body is given -/

/-- The unions in a signature meet the requirement. -/
structure Signature.EveryUnion (Q : List Ty → Prop) (s : Signature) : Prop where
  args : ∀ t ∈ s.args, t.EveryUnion Q
  ret : ∀ r ∈ s.ret, r.EveryUnion Q

theorem Signature.EveryUnion.getD_ret {s : Signature} (h : s.EveryUnion Q) : (s.ret.getD .any).EveryUnion Q := by
  cases hret : s.ret with
  | none => trivial
  | some r => exact h.ret r hret

theorem Signature.EveryUnion.functionType {s : Signature} (h : s.EveryUnion Q) :
    s.functionType.EveryUnion Q :=
  ⟨Ty.everyUnions_iff.mpr h.args, h.getD_ret⟩

/-- The unions in the attributes of a symbol table meet the requirement. -/
def SymbolTable.EveryUnion (Q : List Ty → Prop) (symbols : SymbolTable) : Prop :=
  ∀ name v, symbols.get? name = some v → v.ty.EveryUnion Q

/-- The unions in the signatures that a body sees meet the requirement. -/
def MethodView.EveryUnion (Q : List Ty → Prop) (view : MethodView) : Prop :=
  ∀ name s, view.get? name = some s → s.EveryUnion Q

/-- The unions in the types that a body is typed against meet the requirement. -/
structure TypingRequest.EveryUnion (Q : List Ty → Prop) (r : TypingRequest) : Prop where
  args : ∀ t ∈ r.declared.args, t.EveryUnion Q
  symbols : r.symbols.EveryUnion Q
  methods : r.methods.EveryUnion Q

/-- The unions in the types that inference found in a body meet the requirement. -/
structure InferredBody.EveryUnion (Q : List Ty → Prop) (b : InferredBody) : Prop where
  locals : ∀ e ∈ b.locals, e.2.EveryUnion Q
  ret : b.ret.EveryUnion Q

/-- The unions in a typing meet the requirement. -/
structure Typing.EveryUnion (Q : List Ty → Prop) (t : Typing) : Prop where
  signature : t.signature.EveryUnion Q
  body : ∀ b ∈ t.body, b.EveryUnion Q

namespace Inference

/-- The unions in the types of a scope meet the requirement. -/
structure Scope.EveryUnion (Q : List Ty → Prop) (s : Scope) : Prop where
  locals : ∀ name t, s.locals.get? name = some t → t.EveryUnion Q
  symbols : s.symbols.EveryUnion Q
  returns : ∀ t ∈ s.returns, t.EveryUnion Q

variable {c : BodyContext} {s : Scope}

/-! ## Expressions -/

theorem ensures_attributeType (hc : c.methods.EveryUnion Q) (hs : s.EveryUnion Q) (span : Python.Span)
    (value : Ty) (name : String) :
    Ensures (attributeType c s span value name) (Ty.EveryUnion Q) fun _ => True := by
  unfold attributeType
  split
  · exact ensures_ok.mpr trivial
  · split
    next v hv => exact ensures_ok.mpr (hs.symbols name v hv)
    next sig _ hsig => exact ensures_ok.mpr (hc name sig hsig).functionType
    · exact ensures_error.mpr trivial

theorem ensures_methodCallType (hc : c.methods.EveryUnion Q) (hs : s.EveryUnion Q) (span attrSpan : Python.Span)
    (value : Ty) (name : String) (args : List Ty) :
    Ensures (methodCallType c s span attrSpan value name args) (Ty.EveryUnion Q) fun _ => True := by
  unfold methodCallType
  split
  · exact ensures_ok.mpr trivial
  · split
    next sig hsig =>
      cases checkArguments c span name sig.args args with
      | error f => exact ensures_error.mpr trivial
      | ok => exact ensures_ok.mpr (hc name sig hsig).getD_ret
    · exact (ensures_attributeType hc hs attrSpan value name).bind fun t ht =>
        ensures_ok.mpr (Ty.everyUnion_resultOfCall ht)

theorem ensures_binaryType (hQ : UnionClosed Q) (span : Python.Span) (op : Python.BinaryOp) {l r : Ty}
    (hl : l.EveryUnion Q) (hr : r.EveryUnion Q) :
    Ensures (binaryType c span op l r) (Ty.EveryUnion Q) fun _ => True := by
  unfold binaryType
  split
  next t ht => exact ensures_ok.mpr (Ty.everyUnion_binary? hQ op hl hr t ht)
  · exact ensures_error.mpr trivial

theorem ensures_nameType (hs : s.EveryUnion Q) (span : Python.Span) (id : String) :
    Ensures (nameType c s span id) (Ty.EveryUnion Q) fun _ => True := by
  unfold nameType
  split
  next t ht => exact ensures_ok.mpr (hs.locals id t ht)
  · split
    · split
      · exact ensures_error.mpr trivial
      · exact ensures_ok.mpr trivial
    · exact ensures_ok.mpr trivial

mutual

/-- **Every union in the type of an expression meets the requirement.** -/
theorem ensures_typeOf (hQ : UnionClosed Q) (hc : c.methods.EveryUnion Q) (hs : s.EveryUnion Q) (e : Expr) :
    Ensures (typeOf c s e) (Ty.EveryUnion Q) fun _ => True := by
  cases e with
  | name span id =>
    rw [typeOf]
    exact ensures_nameType hs span id
  | literal span value =>
    rw [typeOf]
    exact ensures_ok.mpr (Ty.everyUnion_ofLiteral value)
  | formatted | other =>
    rw [typeOf]
    exact ensures_ok.mpr trivial
  | «attribute» span value name =>
    rw [typeOf]
    split
    · exact ensures_ok.mpr (Ty.everyUnion_mathConstant name)
    · exact (ensures_typeOf hQ hc hs value).bind fun t _ => ensures_attributeType hc hs span t name
  | subscript span value index =>
    rw [typeOf]
    exact (ensures_typeOf hQ hc hs value).bind fun t ht => (ensures_typeOf hQ hc hs index).bind fun _ _ =>
      ensures_ok.mpr (Ty.everyUnion_subscript hQ ht)
  | binary span left op right =>
    rw [typeOf]
    exact (ensures_typeOf hQ hc hs left).bind fun l hl => (ensures_typeOf hQ hc hs right).bind fun r hr =>
      ensures_binaryType hQ span op hl hr
  | unary span op operand =>
    rw [typeOf]
    exact (ensures_typeOf hQ hc hs operand).bind fun t ht => ensures_ok.mpr (Ty.everyUnion_unary op ht)
  | boolean span operands =>
    rw [typeOf]
    exact (ensures_typesOf hQ hc hs operands).bind fun ts hts => ensures_ok.mpr (hQ ts hts)
  | compare span left others =>
    rw [typeOf]
    exact (ensures_typeOf hQ hc hs left).bind fun _ _ => (ensures_typesOf hQ hc hs others).bind fun _ _ =>
      ensures_ok.mpr trivial
  | conditional span test body orelse =>
    rw [typeOf]
    exact (ensures_typeOf hQ hc hs test).bind fun _ _ => (ensures_typeOf hQ hc hs body).bind fun b hb =>
      (ensures_typeOf hQ hc hs orelse).bind fun o ho => ensures_ok.mpr (Ty.everyUnion_join hQ hb ho)
  | call span func args keywordValues =>
    rw [typeOf]
    refine (ensures_typesOf hQ hc hs args).bind fun ts hts =>
      (ensures_typesOf hQ hc hs keywordValues).bind fun _ _ => ?_
    split
    next attrSpan value name =>
      split
      · exact ensures_ok.mpr (Ty.everyUnion_mathResult name)
      · exact (ensures_typeOf hQ hc hs value).bind fun t _ =>
          ensures_methodCallType hc hs span attrSpan t name ts
    next nameSpan id =>
      split
      next t ht => exact ensures_ok.mpr (Ty.everyUnion_resultOfCall (hs.locals id t ht))
      · split
        · exact ensures_ok.mpr trivial
        · exact ensures_ok.mpr (Ty.everyUnion_builtinResult hQ id hts)
    · exact (ensures_typeOf hQ hc hs func).bind fun t ht => ensures_ok.mpr (Ty.everyUnion_resultOfCall ht)
  | list span elems =>
    rw [typeOf]
    exact (ensures_typesOf hQ hc hs elems).bind fun ts hts => ensures_ok.mpr (Ty.everyUnion_collected hQ hts)
  | set span elems =>
    rw [typeOf]
    exact (ensures_typesOf hQ hc hs elems).bind fun ts hts => ensures_ok.mpr (Ty.everyUnion_collected hQ hts)
  | tuple span elems =>
    rw [typeOf]
    exact (ensures_typesOf hQ hc hs elems).bind fun ts hts => ensures_ok.mpr (Ty.everyUnions_iff.mpr hts)
  | dict span keys values =>
    rw [typeOf]
    exact (ensures_typesOf hQ hc hs keys).bind fun ks hks =>
      (ensures_typesOf hQ hc hs values).bind fun vs hvs =>
        ensures_ok.mpr ⟨Ty.everyUnion_collected hQ hks, Ty.everyUnion_collected hQ hvs⟩
  | comprehension span kind =>
    cases kind <;> exact ensures_ok.mpr (by simp [Ty.EveryUnion])

theorem ensures_typesOf (hQ : UnionClosed Q) (hc : c.methods.EveryUnion Q) (hs : s.EveryUnion Q)
    (es : List Expr) : Ensures (typesOf c s es) (fun ts => ∀ t ∈ ts, t.EveryUnion Q) fun _ => True := by
  cases es with
  | nil => exact ensures_ok.mpr (List.forall_mem_nil _)
  | cons e es =>
    rw [typesOf]
    exact (ensures_typeOf hQ hc hs e).bind fun t ht => (ensures_typesOf hQ hc hs es).bind fun ts hts =>
      ensures_ok.mpr (List.forall_mem_cons.mpr ⟨ht, hts⟩)

end

/-- The unions in the attributes that a walk leaves where it fails meet the requirement. -/
def Halt.EveryUnion (Q : List Ty → Prop) (h : Halt) : Prop :=
  h.symbols.EveryUnion Q

theorem ensures_attempt {α : Type} {P : α → Prop} {r : Except TypingFailure α} (hs : s.EveryUnion Q)
    (h : Ensures r P fun _ => True) : Ensures (s.attempt r) P (Halt.EveryUnion Q) := by
  cases r with
  | ok a => exact h
  | error f => exact ensures_error.mpr hs.symbols

/-! ## Stores -/

theorem everyUnion_setAttribute (hs : s.EveryUnion Q) (name : String) {v : Variable} (hv : v.ty.EveryUnion Q) :
    (s.setAttribute name v).EveryUnion Q where
  locals := hs.locals
  symbols := OrderedMap.forall_get?_insert hs.symbols hv
  returns := hs.returns

theorem everyUnion_assignLocal (hQ : UnionClosed Q) (hs : s.EveryUnion Q) (name : String) {value : Ty}
    (hv : value.EveryUnion Q) (isAnnotated : Bool) : (assignLocal c s name value isAnnotated).EveryUnion Q where
  locals := by
    refine OrderedMap.forall_get?_insert hs.locals ?_
    split
    next old hold =>
      split
      · exact hv
      · exact Ty.everyUnion_join hQ (hs.locals name old hold) hv
    · exact hv
  symbols := hs.symbols
  returns := hs.returns

theorem ensures_assignAttribute (hQ : UnionClosed Q) (hs : s.EveryUnion Q) (span : Python.Span) (name : String)
    {value : Ty} (hv : value.EveryUnion Q) (isAnnotated : Bool) :
    Ensures (assignAttribute c s span name value isAnnotated) (Scope.EveryUnion Q) fun _ => True := by
  cases h : assignAttribute c s span name value isAnnotated with
  | error f => exact ensures_error.mpr trivial
  | ok s' =>
    refine ensures_ok.mpr ?_
    cases attributeStore_of_ok h with
    | fits => exact hs
    | @widened v hget =>
      exact everyUnion_setAttribute hs name (Ty.everyUnion_join hQ (hs.symbols name v hget) hv)
    | introduced => exact everyUnion_setAttribute hs name (by cases isAnnotated <;> exact hv)

/-! ## Statements -/

theorem ensures_returnedType (hQ : UnionClosed Q) (hc : c.methods.EveryUnion Q) (hs : s.EveryUnion Q)
    (value : Option Expr) : Ensures (returnedType c s value) (Ty.EveryUnion Q) fun _ => True := by
  cases value with
  | none => exact ensures_ok.mpr trivial
  | some e => exact ensures_typeOf hQ hc hs e

theorem ensures_augmentedType (hQ : UnionClosed Q) (hc : c.methods.EveryUnion Q) (hs : s.EveryUnion Q)
    (span : Python.Span) (target : Expr) (op : Python.BinaryOp) (value : Expr) :
    Ensures (augmentedType c s span target op value) (Ty.EveryUnion Q) fun _ => True :=
  (ensures_typeOf hQ hc hs target).bind fun _ hl => (ensures_typeOf hQ hc hs value).bind fun _ hr =>
    ensures_binaryType hQ span op hl hr

theorem everyUnion_addReturn (hs : s.EveryUnion Q) {t : Ty} (ht : t.EveryUnion Q) :
    (s.addReturn t).EveryUnion Q :=
  ⟨hs.locals, hs.symbols, List.forall_mem_append.mpr ⟨hs.returns, List.forall_mem_singleton.mpr ht⟩⟩

/-! ## Visits -/

/-- The unions in the type that is stored meet the requirement. -/
def Write.EveryUnion (Q : List Ty → Prop) : Write → Prop
  | .toLocal _ value _ | .toAttribute _ _ value _ => value.EveryUnion Q
  | .elsewhere _ => True

mutual

theorem everyUnion_targetWrites (hQ : UnionClosed Q) (c : BodyContext) (target : Expr) {value : Ty}
    (hv : value.EveryUnion Q) (isAnnotated : Bool) :
    ∀ w ∈ targetWrites c target value isAnnotated, w.EveryUnion Q := by
  cases target with
  | name span id => exact List.forall_mem_singleton.mpr hv
  | tuple span elems =>
    rw [targetWrites]
    exact everyUnion_targetsWrites hQ c elems (Ty.everyUnion_unpacked hQ hv elems.length)
  | «attribute» span object attr =>
    rw [targetWrites]
    split
    · exact List.forall_mem_singleton.mpr hv
    · exact List.forall_mem_singleton.mpr trivial
  | _ => exact List.forall_mem_singleton.mpr trivial

theorem everyUnion_targetsWrites (hQ : UnionClosed Q) (c : BodyContext) (targets : List Expr) {values : List Ty}
    (hv : ∀ t ∈ values, t.EveryUnion Q) : ∀ w ∈ targetsWrites c targets values, w.EveryUnion Q := by
  cases targets with
  | nil => exact List.forall_mem_nil _
  | cons t ts =>
    cases values with
    | nil => exact List.forall_mem_nil _
    | cons v vs =>
      obtain ⟨hv, hvs⟩ := List.forall_mem_cons.mp hv
      rw [targetsWrites]
      exact List.forall_mem_append.mpr
        ⟨everyUnion_targetWrites hQ c t hv false, everyUnion_targetsWrites hQ c ts hvs⟩

end

theorem ensures_writes (hQ : UnionClosed Q) (hc : c.methods.EveryUnion Q) (hs : s.EveryUnion Q) (stmt : Stmt) :
    Ensures (writes c s stmt) (fun ws => ∀ w ∈ ws, w.EveryUnion Q) fun _ => True := by
  cases stmt with
  | assign span targets value =>
    refine (ensures_typeOf hQ hc hs value).bind fun t ht => ensures_ok.mpr fun w hw => ?_
    obtain ⟨target, -, hw⟩ := List.mem_flatMap.mp hw
    exact everyUnion_targetWrites hQ c target ht false w hw
  | annotated span target hint value =>
    have hcheck : Ensures (checkAnnotated c s span (.ofHint hint) value) (fun _ => True) fun _ => True := by
      unfold Ensures
      split <;> trivial
    exact hcheck.bind fun _ _ =>
      ensures_ok.mpr (everyUnion_targetWrites hQ c target (Ty.everyUnion_ofHint hQ hint) true)
  | augmented span target op value =>
    exact (ensures_augmentedType hQ hc hs span target op value).bind fun t ht =>
      ensures_ok.mpr (everyUnion_targetWrites hQ c target ht false)
  | forLoop span target iter body orelse =>
    exact (ensures_typeOf hQ hc hs iter).bind fun t ht =>
      ensures_ok.mpr (everyUnion_targetWrites hQ c target (Ty.everyUnion_element hQ ht) false)
  | branch _ e | whileLoop _ e | expr _ e | assertion _ e =>
    exact (ensures_typeOf hQ hc hs e).bind fun _ _ => ensures_ok.mpr (List.forall_mem_nil _)
  | ret span value =>
    exact (ensures_returnedType hQ hc hs value).bind fun _ _ => ensures_ok.mpr (List.forall_mem_nil _)
  | _ => exact ensures_ok.mpr (List.forall_mem_nil _)

theorem ensures_write (hQ : UnionClosed Q) (hs : s.EveryUnion Q) {w : Write} (hw : w.EveryUnion Q) :
    Ensures (write c s w) (Scope.EveryUnion Q) (Halt.EveryUnion Q) := by
  cases w with
  | toLocal name value isAnnotated => exact ensures_ok.mpr (everyUnion_assignLocal hQ hs name hw isAnnotated)
  | toAttribute span name value isAnnotated =>
    exact ensures_attempt hs (ensures_assignAttribute hQ hs span name hw isAnnotated)
  | elsewhere target =>
    rw [write]
    cases typeOf c s target with
    | ok => exact ensures_ok.mpr hs
    | error f => exact ensures_error.mpr hs.symbols

/-- **Every union in the scope after a statement meets the requirement.** -/
theorem ensures_visit (hQ : UnionClosed Q) (hc : c.methods.EveryUnion Q) (hs : s.EveryUnion Q) (stmt : Stmt) :
    Ensures (visit c s stmt) (Scope.EveryUnion Q) (Halt.EveryUnion Q) := by
  rcases visit_eq_foldlM c s stmt with ⟨span, value, rfl⟩ | hvisit
  · rw [visit_ret]
    exact (ensures_attempt hs (ensures_returnedType hQ hc hs value)).bind fun t ht =>
      ensures_ok.mpr (everyUnion_addReturn hs ht)
  · rw [hvisit]
    refine (ensures_attempt hs (ensures_writes hQ hc hs stmt)).bind fun ws hws => ?_
    refine ensures_foldlM (fun _ => Scope.EveryUnion Q) hs fun dealt w rest s' hsplit hs' => ?_
    exact ensures_write hQ hs' (hws w (hsplit ▸ List.mem_append_right dealt List.mem_cons_self))

/-- **Every union in the scope after a run over statements meets the requirement.** -/
theorem ensures_foldlM_visit (hQ : UnionClosed Q) (hc : c.methods.EveryUnion Q) (hs : s.EveryUnion Q)
    (stmts : List Stmt) : Ensures (stmts.foldlM (visit c) s) (Scope.EveryUnion Q) (Halt.EveryUnion Q) :=
  ensures_foldlM (fun _ => Scope.EveryUnion Q) hs fun _ stmt _ _ _ hs' => ensures_visit hQ hc hs' stmt

/-! ## Bodies -/

theorem everyUnion_initialScope {r : TypingRequest} (h : r.EveryUnion Q) : (initialScope r).EveryUnion Q where
  locals name t ht := by
    have hmem := (OrderedMap.mem_or_get?_of_get?_insertAll ht).resolve_right nofun
    rcases List.mem_append.mp hmem with hmem | hmem
    · revert hmem
      split
      · rintro hmem
        cases List.mem_singleton.mp hmem
        trivial
      · rintro hmem
        cases List.mem_singleton.mp hmem
        trivial
      · exact fun hmem => nomatch hmem
    · exact h.args t (List.of_mem_zip hmem).2
  symbols := h.symbols
  returns := List.forall_mem_nil _

theorem ensures_resolveReturn (hQ : UnionClosed Q) (hs : s.EveryUnion Q) {declared : Option Ty}
    (hd : ∀ t ∈ declared, t.EveryUnion Q) (fallsThrough isAbstract : Bool) :
    Ensures (resolveReturn c s declared fallsThrough isAbstract) (Ty.EveryUnion Q) fun _ => True := by
  unfold resolveReturn
  dsimp only
  split
  · cases declared with
    | none => exact ensures_ok.mpr trivial
    | some ty => exact ensures_ok.mpr (hd ty rfl)
  · split
    next ty =>
      split
      · exact ensures_error.mpr trivial
      · exact ensures_ok.mpr (hd ty rfl)
    · have hresults : ∀ t ∈ resultTypes s fallsThrough, t.EveryUnion Q := by
        unfold resultTypes
        split
        · exact List.forall_mem_append.mpr ⟨hs.returns, List.forall_mem_singleton.mpr trivial⟩
        · exact hs.returns
      cases hjoin : Ty.joinAll? (resultTypes s fallsThrough) c.promote with
      | none => exact ensures_ok.mpr trivial
      | some ty =>
        have hty : ((Ty.joinAll? (resultTypes s fallsThrough) c.promote).getD .any).EveryUnion Q :=
          Ty.everyUnion_joinAll? hQ hresults
        rw [hjoin] at hty
        exact ensures_ok.mpr hty

theorem everyUnion_of_mem_sortedLocals (hs : s.EveryUnion Q) : ∀ e ∈ sortedLocals s.locals, e.2.EveryUnion Q := by
  intro e he
  have hmem : e ∈ s.locals.entries := List.mem_mergeSort.mp he
  exact hs.locals e.1 e.2 (OrderedMap.get?_eq_some_iff.mpr hmem)

theorem everyUnion_typingOf {declared : Signature} (hargs : ∀ t ∈ declared.args, t.EveryUnion Q) {ret : Ty}
    (hret : ret.EveryUnion Q) {locals : List (String × Ty)} (hlocals : ∀ e ∈ locals, e.2.EveryUnion Q)
    (statements : Nat) : (typingOf declared ret locals statements).EveryUnion Q where
  signature := ⟨hargs, fun _ ht => Option.some.inj ht ▸ hret⟩
  body := by
    rintro b ⟨⟩
    exact ⟨hlocals, hret⟩

theorem ensures_walkAll (hQ : UnionClosed Q) {r : TypingRequest} (h : r.EveryUnion Q) (body : FunctionBody) :
    Ensures (walkAll (bodyContext r body.lines) (initialScope r) body.statements) (Scope.EveryUnion Q)
      (Halt.EveryUnion Q) := by
  rw [walkAll_eq_foldlM]
  exact ensures_foldlM_visit hQ h.methods (everyUnion_initialScope h) (reached body.statements)

/-- **Every union in the attributes that inference leaves meets the requirement**, also where it fails. -/
theorem everyUnion_symbols_inferMethod (hQ : UnionClosed Q) {r : TypingRequest} (h : r.EveryUnion Q) :
    (inferMethod r).symbols.EveryUnion Q := by
  unfold inferMethod
  split
  next body _ =>
    have hwalk := ensures_walkAll hQ h body
    unfold inferBody
    dsimp only
    split
    next halt hhalt => exact hwalk.of_error hhalt
    next s hs => exact (hwalk.of_ok hs).symbols
  · exact h.symbols

/-- **Every union in what inference finds out about a method meets the requirement.** -/
theorem ensures_everyUnion_inferMethod (hQ : UnionClosed Q) {r : TypingRequest} (h : r.EveryUnion Q)
    (hret : ∀ t ∈ r.declared.ret, t.EveryUnion Q) :
    Ensures (inferMethod r).result (Typing.EveryUnion Q) fun _ => True := by
  unfold inferMethod
  split
  next body _ =>
    have hwalk := ensures_walkAll hQ h body
    unfold inferBody
    dsimp only
    split
    · exact ensures_error.mpr trivial
    next s hs =>
      have hs := hwalk.of_ok hs
      have hresolved := ensures_resolveReturn (c := bodyContext r body.lines) hQ hs hret
        (!blockTerminates body.statements) r.method.func.isAbstract
      dsimp only
      cases hret : resolveReturn (bodyContext r body.lines) s r.declared.ret
          (!blockTerminates body.statements) r.method.func.isAbstract with
      | error f => exact ensures_error.mpr trivial
      | ok ty =>
        exact ensures_ok.mpr
          (everyUnion_typingOf h.args (hresolved.of_ok hret) (everyUnion_of_mem_sortedLocals hs) _)
  · have hret : (r.declared.ret.getD .noneType).EveryUnion Q := by
      cases hd : r.declared.ret with
      | none => trivial
      | some ty => exact hret ty hd
    exact ensures_ok.mpr (everyUnion_typingOf h.args hret (List.forall_mem_nil _) 0)

end Inference

end NativeClass
