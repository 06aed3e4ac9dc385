import NativeClass.Proofs.Inference.Places
/-!
# What the typing of a method depends on

A body sees the signatures of all methods, but it reads only those of the names that it mentions as attributes,
and of all others no more than that they exist. So two views that agree on the names that it mentions give it the
same typing. Nor does the typing depend on where the text of the method stands.

* `Expr.mentions`, `Function.mentions`: the names that stand after a dot.
* `MethodView.Agrees`: two views agree on some names, and they know the same ones.
* `Inference.sameValue_typeOf`, `Inference.sameValue_visit`: expressions and statements.
* **`Inference.sameValue_inferMethod`**: methods, with their texts at other places.
-/

namespace NativeClass

open Python (Expr Stmt)

/-! ## Mentioned names -/

namespace Python

mutual

/-- The names that stand after a dot in the parts of an expression that are typed. -/
def Expr.mentions : Expr → List String
  | .attribute _ value attr => attr :: value.mentions
  | .subscript _ value index => value.mentions ++ index.mentions
  | .binary _ left _ right => left.mentions ++ right.mentions
  | .unary _ _ operand => operand.mentions
  | .boolean _ elems | .list _ elems | .set _ elems | .tuple _ elems => mentionsOf elems
  | .compare _ left others => left.mentions ++ mentionsOf others
  | .conditional _ test body orelse => test.mentions ++ (body.mentions ++ orelse.mentions)
  | .call _ func args keywordValues => mentionsOf args ++ (mentionsOf keywordValues ++ func.mentions)
  | .dict _ keys values => mentionsOf keys ++ mentionsOf values
  | _ => []

/-- The names that stand after a dot in several expressions. -/
def mentionsOf : List Expr → List String
  | [] => []
  | e :: es => e.mentions ++ mentionsOf es

end

/-- The names that stand after a dot in a statement without its blocks. -/
def Stmt.mentions : Stmt → List String
  | .assign _ targets value => value.mentions ++ mentionsOf targets
  | .annotated _ target _ value => mentionsOf value.toList ++ target.mentions
  | .augmented _ target _ value => target.mentions ++ value.mentions
  | .ret _ value => mentionsOf value.toList
  | .branch _ e _ _ | .whileLoop _ e _ _ | .expr _ e | .assertion _ e => e.mentions
  | .forLoop _ target iter _ _ => iter.mentions ++ target.mentions
  | _ => []

end Python

/-- The names that stand after a dot in the statements of a function that are walked. -/
def Function.mentions (f : Function) : List String :=
  match f.body with
  | some body => (Inference.reached body.statements).flatMap Stmt.mentions
  | none => []

namespace Python

mutual

theorem Expr.mentions_unplaced (e : Expr) : e.unplaced.mentions = e.mentions := by
  cases e with
  | «attribute» span value attr | unary span op value =>
    rw [Expr.unplaced, Expr.mentions, Expr.mentions, Expr.mentions_unplaced value]
  | subscript span left right | binary span left op right =>
    rw [Expr.unplaced, Expr.mentions, Expr.mentions, Expr.mentions_unplaced left, Expr.mentions_unplaced right]
  | boolean span elems | list span elems | set span elems | tuple span elems =>
    rw [Expr.unplaced, Expr.mentions, Expr.mentions, mentionsOf_unplaced elems]
  | compare span left others =>
    rw [Expr.unplaced, Expr.mentions, Expr.mentions, Expr.mentions_unplaced left, mentionsOf_unplaced others]
  | conditional span test body orelse =>
    rw [Expr.unplaced, Expr.mentions, Expr.mentions, Expr.mentions_unplaced test, Expr.mentions_unplaced body,
      Expr.mentions_unplaced orelse]
  | call span func args keywordValues =>
    rw [Expr.unplaced, Expr.mentions, Expr.mentions, mentionsOf_unplaced args, mentionsOf_unplaced keywordValues,
      Expr.mentions_unplaced func]
  | dict span keys values =>
    rw [Expr.unplaced, Expr.mentions, Expr.mentions, mentionsOf_unplaced keys, mentionsOf_unplaced values]
  | _ => rfl

theorem mentionsOf_unplaced (es : List Expr) : mentionsOf (unplacedAll es) = mentionsOf es := by
  cases es with
  | nil => rfl
  | cons e es => rw [unplacedAll, mentionsOf, mentionsOf, Expr.mentions_unplaced e, mentionsOf_unplaced es]

end

theorem mentionsOf_unplaced_toList (value : Option Expr) :
    mentionsOf (value.map Expr.unplaced).toList = mentionsOf value.toList := by
  cases value with
  | none => rfl
  | some e => exact mentionsOf_unplaced [e]

theorem Stmt.mentions_unplaced (stmt : Stmt) : stmt.unplaced.mentions = stmt.mentions := by
  cases stmt <;>
    simp only [Stmt.unplaced, Stmt.mentions, Expr.mentions_unplaced, mentionsOf_unplaced, mentionsOf_unplaced_toList]

end Python

theorem Function.mentions_unplaced (f : Function) : f.unplaced.mentions = f.mentions := by
  cases hbody : f.body with
  | none => simp only [mentions, unplaced, hbody, Option.map_none]
  | some body =>
    simp only [mentions, unplaced, hbody, Option.map_some, Inference.reached_unplaced, List.flatMap_map,
      Stmt.mentions_unplaced]

/-! ## Views that agree -/

/-- Two views agree on the signatures of some names, and they know the same names. -/
structure MethodView.Agrees (v v' : MethodView) (names : List String) : Prop where
  get? : ∀ n ∈ names, v'.get? n = v.get? n
  known : ∀ n, (v'.get? n).isSome = (v.get? n).isSome

namespace MethodView.Agrees

variable {v v' : MethodView} {names names' : List String}

theorem mono (h : v.Agrees v' names) (hsub : names' ⊆ names) : v.Agrees v' names' :=
  ⟨fun n hn => h.get? n (hsub hn), h.known⟩

theorem left (h : v.Agrees v' (names ++ names')) : v.Agrees v' names :=
  h.mono (List.subset_append_left _ _)

theorem right (h : v.Agrees v' (names ++ names')) : v.Agrees v' names' :=
  h.mono (List.subset_append_right _ _)

theorem tail {n : String} (h : v.Agrees v' (n :: names)) : v.Agrees v' names :=
  h.mono (List.subset_cons_self _ _)

end MethodView.Agrees

namespace Inference

open Python (LineIndex)

/-- The context of a body that stands at another place and sees other signatures. -/
def BodyContext.elsewhere (c : BodyContext) (v : MethodView) (lines : LineIndex) (location : Location) :
    BodyContext :=
  { c with methods := v, lines, location }

variable {c : BodyContext} {v : MethodView} {lines : LineIndex} {location : Location} {s : Scope}

theorem isReceiver_unplaced (c : BodyContext) (e : Expr) :
    (c.elsewhere v lines location).isReceiver e.unplaced = c.isReceiver e := by
  cases e <;> rfl

theorem isMath_unplaced (s : Scope) (e : Expr) : s.isMath e.unplaced = s.isMath e := by
  cases e with
  | name span id => by_cases h : id = "math" <;> simp [Expr.unplaced, Scope.isMath, h]
  | _ => rfl

/-! ## Expressions -/

theorem sameValue_attempt {α : Type} {r r' : Except TypingFailure α} (h : SameValue r r') (s : Scope) :
    SameValue (s.attempt r) (s.attempt r') := by
  intro a
  rw [attempt_eq_ok_iff, attempt_eq_ok_iff]
  exact h a

theorem sameValue_nameType (c : BodyContext) (s : Scope) (span span' : Python.Span) (id : String) :
    SameValue (nameType (c.elsewhere v lines location) s span' id) (nameType c s span id) := by
  have horder : (c.elsewhere v lines location).order = c.order := rfl
  unfold nameType
  rw [horder]
  cases s.locals.get? id with
  | some ty => exact .refl _
  | none =>
    dsimp only
    split
    · exact .ite (.error _ _) (.refl _)
    · exact .refl _

theorem sameValue_binaryType (c : BodyContext) (span span' : Python.Span) (op : Python.BinaryOp) (left right : Ty) :
    SameValue (binaryType (c.elsewhere v lines location) span' op left right) (binaryType c span op left right) := by
  have hpromote : (c.elsewhere v lines location).promote = c.promote := rfl
  unfold binaryType
  rw [hpromote]
  split
  · exact .refl _
  · exact .error _ _

theorem sameValue_attributeType (c : BodyContext) (s : Scope) (span span' : Python.Span) (value : Ty) {name : String}
    (h : v.get? name = c.methods.get? name) :
    SameValue (attributeType (c.elsewhere v lines location) s span' value name)
      (attributeType c s span value name) := by
  have hget : (c.elsewhere v lines location).methods.get? name = c.methods.get? name := h
  have hname : (c.elsewhere v lines location).className = c.className := rfl
  unfold attributeType
  rw [hget, hname]
  refine .ite (.refl _) ?_
  split
  · exact .refl _
  · exact .refl _
  · exact .error _ _

theorem sameValue_checkArguments (c : BodyContext) (span span' : Python.Span) (name : String) (params args : List Ty) :
    SameValue (checkArguments (c.elsewhere v lines location) span' name params args)
      (checkArguments c span name params args) := by
  have hpromote : (c.elsewhere v lines location).promote = c.promote := rfl
  unfold checkArguments
  rw [hpromote]
  refine .ite (.error _ _) ?_
  split
  · exact .error _ _
  · exact .refl _

theorem sameValue_methodCallType (c : BodyContext) (s : Scope) (span span' attrSpan attrSpan' : Python.Span)
    (value : Ty) {name : String} (h : v.get? name = c.methods.get? name) (args : List Ty) :
    SameValue (methodCallType (c.elsewhere v lines location) s span' attrSpan' value name args)
      (methodCallType c s span attrSpan value name args) := by
  have hattribute : SameValue (attributeType (c.elsewhere v lines location) s attrSpan' value name)
      (attributeType c s attrSpan value name) := sameValue_attributeType c s attrSpan attrSpan' value h
  have hget : (c.elsewhere v lines location).methods.get? name = c.methods.get? name := h
  have hname : (c.elsewhere v lines location).className = c.className := rfl
  unfold methodCallType
  rw [hget, hname]
  refine .ite (.refl _) ?_
  cases c.methods.get? name with
  | some sig => exact (sameValue_checkArguments c span span' name sig.args args).bind fun _ => .refl _
  | none => exact hattribute.bind fun _ => .refl _

mutual

/-- **The type of an expression depends on the methods that it mentions only.** -/
theorem sameValue_typeOf (c : BodyContext) (s : Scope) (e : Expr) (h : c.methods.Agrees v e.mentions) :
    SameValue (typeOf (c.elsewhere v lines location) s e.unplaced) (typeOf c s e) := by
  cases e with
  | name span id => exact sameValue_nameType c s span default id
  | literal | formatted | other => exact .refl _
  | «attribute» span value name =>
    rw [Expr.mentions] at h
    rw [Expr.unplaced, typeOf, typeOf, isMath_unplaced]
    split
    · exact .refl _
    · exact (sameValue_typeOf c s value h.tail).bind fun t =>
        sameValue_attributeType c s span default t (h.get? name List.mem_cons_self)
  | subscript span value index =>
    rw [Expr.mentions] at h
    rw [Expr.unplaced, typeOf, typeOf]
    exact (sameValue_typeOf c s value h.left).bind fun _ => (sameValue_typeOf c s index h.right).bind fun _ => .refl _
  | binary span left op right =>
    rw [Expr.mentions] at h
    rw [Expr.unplaced, typeOf, typeOf]
    exact (sameValue_typeOf c s left h.left).bind fun l => (sameValue_typeOf c s right h.right).bind fun r =>
      sameValue_binaryType c span default op l r
  | unary span op operand =>
    rw [Expr.unplaced, typeOf, typeOf]
    exact (sameValue_typeOf c s operand h).bind fun _ => .refl _
  | boolean span elems | list span elems | set span elems | tuple span elems =>
    rw [Expr.unplaced, typeOf, typeOf]
    exact (sameValue_typesOf c s elems h).bind fun _ => .refl _
  | compare span left others =>
    rw [Expr.mentions] at h
    rw [Expr.unplaced, typeOf, typeOf]
    exact (sameValue_typeOf c s left h.left).bind fun _ => (sameValue_typesOf c s others h.right).bind fun _ => .refl _
  | conditional span test body orelse =>
    rw [Expr.mentions] at h
    rw [Expr.unplaced, typeOf, typeOf]
    exact (sameValue_typeOf c s test h.left).bind fun _ => (sameValue_typeOf c s body h.right.left).bind fun _ =>
      (sameValue_typeOf c s orelse h.right.right).bind fun _ => .refl _
  | call span func args keywordValues =>
    rw [Expr.mentions] at h
    have hfunc : c.methods.Agrees v func.mentions := h.right.right
    rw [Expr.unplaced, typeOf, typeOf]
    refine (sameValue_typesOf c s args h.left).bind fun ts =>
      (sameValue_typesOf c s keywordValues h.right.left).bind fun _ => ?_
    cases func with
    | «attribute» attrSpan value name =>
      rw [Expr.mentions] at hfunc
      rw [Expr.unplaced]
      dsimp only
      rw [isMath_unplaced]
      split
      · exact .refl _
      · exact (sameValue_typeOf c s value hfunc.tail).bind fun t =>
          sameValue_methodCallType c s span default attrSpan default t (hfunc.get? name List.mem_cons_self) ts
    | name nameSpan id => exact .refl _
    | _ => exact (sameValue_typeOf c s _ hfunc).bind fun _ => .refl _
  | dict span keys values =>
    rw [Expr.mentions] at h
    rw [Expr.unplaced, typeOf, typeOf]
    exact (sameValue_typesOf c s keys h.left).bind fun _ => (sameValue_typesOf c s values h.right).bind fun _ => .refl _
  | comprehension span kind => cases kind <;> exact .refl _

theorem sameValue_typesOf (c : BodyContext) (s : Scope) (es : List Expr)
    (h : c.methods.Agrees v (Python.mentionsOf es)) :
    SameValue (typesOf (c.elsewhere v lines location) s (Python.unplacedAll es)) (typesOf c s es) := by
  cases es with
  | nil => exact .refl _
  | cons e es =>
    rw [Python.mentionsOf] at h
    rw [Python.unplacedAll, typesOf, typesOf]
    exact (sameValue_typeOf c s e h.left).bind fun _ => (sameValue_typesOf c s es h.right).bind fun _ => .refl _

end

/-! ## Stores -/

theorem sameValue_assignAttribute (c : BodyContext) (s : Scope) (span span' : Python.Span) (name : String) (value : Ty)
    (isAnnotated : Bool) (h : (v.get? name).isSome = (c.methods.get? name).isSome) :
    SameValue (assignAttribute (c.elsewhere v lines location) s span' name value isAnnotated)
      (assignAttribute c s span name value isAnnotated) := by
  -- a store only asks whether there is a method of this name
  have hget : ((c.elsewhere v lines location).methods.get? name).isSome = (c.methods.get? name).isSome := h
  have hpromote : (c.elsewhere v lines location).promote = c.promote := rfl
  have hdef : (c.elsewhere v lines location).mayDefine = c.mayDefine := rfl
  unfold assignAttribute
  rw [hget, hpromote, hdef]
  split
  · exact .ite (.refl _) (.ite (.refl _) (.error _ _))
  · exact .ite (.error _ _) (.ite (.refl _) (.error _ _))

mutual

theorem sameValue_assign (c : BodyContext) (s : Scope) (target : Expr) (value : Ty) (isAnnotated : Bool)
    (h : c.methods.Agrees v target.mentions) :
    SameValue (assign (c.elsewhere v lines location) s target.unplaced value isAnnotated)
      (assign c s target value isAnnotated) := by
  have hread : SameValue (do let _ ← s.attempt (typeOf (c.elsewhere v lines location) s target.unplaced); return s)
      (do let _ ← s.attempt (typeOf c s target); return s) :=
    (sameValue_attempt (sameValue_typeOf c s target h) s).bind fun _ => .refl _
  cases target with
  | name span id => exact .refl _
  | tuple span elems =>
    rw [Expr.unplaced, assign, assign, Python.length_unplacedAll]
    exact sameValue_assignEach c s elems _ h
  | «attribute» span object attr =>
    rw [Expr.unplaced] at hread ⊢
    rw [assign, assign, isReceiver_unplaced]
    split
    · exact sameValue_attempt (sameValue_assignAttribute c s span default attr value isAnnotated (h.known attr)) s
    · exact hread
  | _ => exact hread

theorem sameValue_assignEach (c : BodyContext) (s : Scope) (targets : List Expr) (values : List Ty)
    (h : c.methods.Agrees v (Python.mentionsOf targets)) :
    SameValue (assignEach (c.elsewhere v lines location) s (Python.unplacedAll targets) values)
      (assignEach c s targets values) := by
  cases targets with
  | nil => exact .refl _
  | cons t ts =>
    cases values with
    | nil => exact .refl _
    | cons ty tys =>
      rw [Python.mentionsOf] at h
      rw [Python.unplacedAll, assignEach, assignEach]
      exact (sameValue_assign c s t ty false h.left).bind fun s' => sameValue_assignEach c s' ts tys h.right

end

theorem sameValue_assignAll (c : BodyContext) (s : Scope) (targets : List Expr) (value : Ty)
    (h : c.methods.Agrees v (Python.mentionsOf targets)) :
    SameValue (assignAll (c.elsewhere v lines location) s (Python.unplacedAll targets) value)
      (assignAll c s targets value) := by
  unfold assignAll
  induction targets generalizing s with
  | nil => exact .refl _
  | cons t ts ih =>
    rw [Python.mentionsOf] at h
    rw [Python.unplacedAll, List.foldlM_cons, List.foldlM_cons]
    exact (sameValue_assign c s t value false h.left).bind fun s' => ih s' h.right

/-! ## Statements -/

theorem sameValue_checkAnnotated (c : BodyContext) (s : Scope) (span span' : Python.Span) (hint : Ty)
    (value : Option Expr) (h : c.methods.Agrees v (Python.mentionsOf value.toList)) :
    SameValue (checkAnnotated (c.elsewhere v lines location) s span' hint (value.map Expr.unplaced))
      (checkAnnotated c s span hint value) := by
  cases value with
  | none => exact .refl _
  | some e =>
    rw [Option.toList, Python.mentionsOf] at h
    refine (sameValue_typeOf c s e h.left).bind fun ty => ?_
    exact .ite (.refl _) (.error _ _)

theorem sameValue_returnedType (c : BodyContext) (s : Scope) (value : Option Expr)
    (h : c.methods.Agrees v (Python.mentionsOf value.toList)) :
    SameValue (returnedType (c.elsewhere v lines location) s (value.map Expr.unplaced)) (returnedType c s value) := by
  cases value with
  | none => exact .refl _
  | some e =>
    rw [Option.toList, Python.mentionsOf] at h
    exact sameValue_typeOf c s e h.left

/-- **The scope after a statement depends on the methods that the statement mentions only.** -/
theorem sameValue_visit (c : BodyContext) (s : Scope) (stmt : Stmt) (h : c.methods.Agrees v stmt.mentions) :
    SameValue (visit (c.elsewhere v lines location) s stmt.unplaced) (visit c s stmt) := by
  have hread : ∀ e, c.methods.Agrees v e.mentions →
      SameValue (s.attempt (typeOf (c.elsewhere v lines location) s e.unplaced)) (s.attempt (typeOf c s e)) :=
    fun e he => sameValue_attempt (sameValue_typeOf c s e he) s
  cases stmt with
  | assign span targets value =>
    rw [Stmt.mentions] at h
    exact (hread value h.left).bind fun ty => sameValue_assignAll c s targets ty h.right
  | annotated span target hint value =>
    rw [Stmt.mentions] at h
    rw [Stmt.unplaced, visit, visit, walk, walk, Ty.ofHint_unplaced]
    · exact (sameValue_attempt (sameValue_checkAnnotated c s span default _ value h.left) s).bind fun _ =>
        sameValue_assign c s target _ true h.right
    all_goals simp
  | augmented span target op value =>
    rw [Stmt.mentions] at h
    have htype : SameValue
        (augmentedType (c.elsewhere v lines location) s default target.unplaced op value.unplaced)
        (augmentedType c s span target op value) :=
      (sameValue_typeOf c s target h.left).bind fun l => (sameValue_typeOf c s value h.right).bind fun r =>
        sameValue_binaryType c span default op l r
    exact (sameValue_attempt htype s).bind fun ty => sameValue_assign c s target ty false h.left
  | ret span value => exact (sameValue_attempt (sameValue_returnedType c s value h) s).bind fun _ => .refl _
  | branch span test body orelse | whileLoop span test body orelse => exact (hread test h).bind fun _ => .refl _
  | forLoop span target iter body orelse =>
    rw [Stmt.mentions] at h
    exact (hread iter h.left).bind fun ty => sameValue_assign c s target ty.element false h.right
  | expr span e | assertion span e => exact (hread e h).bind fun _ => .refl _
  | _ => exact .refl _

theorem sameValue_walkAll (c : BodyContext) (s : Scope) (block : List Stmt)
    (h : c.methods.Agrees v ((reached block).flatMap Stmt.mentions)) :
    SameValue (walkAll (c.elsewhere v lines location) s (Python.unplacedBlock block)) (walkAll c s block) := by
  rw [walkAll_eq_foldlM, walkAll_eq_foldlM, reached_unplaced, List.foldlM_map]
  refine SameValue.foldlM (fun stmt hstmt s => ?_) _
  exact sameValue_visit c s stmt (h.mono fun n hn => List.mem_flatMap.mpr ⟨stmt, hstmt, hn⟩)

/-! ## Methods -/

/-- The request about another function in place of that of the method, with another view of the methods. -/
def elsewhere (r : TypingRequest) (v : MethodView) (f : Function) : TypingRequest :=
  { r with methods := v, method := { r.method with func := f } }

variable {r : TypingRequest} {f g : Function}

theorem receiverName?_eq (h : f.SameText g) : receiverName? f = receiverName? g := by
  rw [receiverName?, receiverName?, h.kind, h.params]

theorem initialLocals_eq (h : f.SameText g) (className : String) (args : List Ty) :
    initialLocals className f args = initialLocals className g args := by
  simp only [initialLocals, Function.explicitParams, h.kind, h.params]

theorem bodyContext_elsewhere (h : f.SameText r.method.func) (v : MethodView) (lines lines' : LineIndex) :
    bodyContext (elsewhere r v f) lines' = (bodyContext r lines).elsewhere v lines' f.location := by
  simp only [bodyContext, elsewhere, BodyContext.elsewhere, receiverName?_eq h]

theorem initialScope_elsewhere (h : f.SameText r.method.func) (v : MethodView) :
    initialScope (elsewhere r v f) = initialScope r := by
  simp only [initialScope, elsewhere, initialLocals_eq h]

theorem sameValue_resolveReturn (c : BodyContext) (s : Scope) (declared : Option Ty) (fallsThrough isAbstract : Bool) :
    SameValue (resolveReturn (c.elsewhere v lines location) s declared fallsThrough isAbstract)
      (resolveReturn c s declared fallsThrough isAbstract) := by
  have hpromote : (c.elsewhere v lines location).promote = c.promote := rfl
  unfold resolveReturn
  rw [hpromote]
  refine .ite (.refl _) ?_
  cases declared with
  | none => exact .refl _
  | some expected =>
    dsimp only
    split
    · exact .error _ _
    · exact .refl _

theorem sameValue_walkAll_elsewhere (hf : f.SameText r.method.func) {body body' : FunctionBody}
    (hbody : r.method.func.body = some body)
    (hsame : Python.unplacedBlock body'.statements = Python.unplacedBlock body.statements)
    (h : r.methods.Agrees v r.method.func.mentions) :
    SameValue (walkAll (bodyContext (elsewhere r v f) body'.lines) (initialScope r) body'.statements)
      (walkAll (bodyContext r body.lines) (initialScope r) body.statements) := by
  have hmentions : r.methods.Agrees v ((reached body.statements).flatMap Stmt.mentions) := by
    rw [Function.mentions, hbody] at h
    exact h
  -- both texts become the same tree once all spans are dropped
  have hleft : SameValue
      (walkAll ((bodyContext (elsewhere r v f) body'.lines).elsewhere v body'.lines f.location) (initialScope r)
        (Python.unplacedBlock body'.statements))
      (walkAll (bodyContext (elsewhere r v f) body'.lines) (initialScope r) body'.statements) :=
    sameValue_walkAll _ _ _ ⟨fun _ _ => rfl, fun _ => rfl⟩
  have hright : SameValue
      (walkAll ((bodyContext r body.lines).elsewhere v body'.lines f.location) (initialScope r)
        (Python.unplacedBlock body.statements))
      (walkAll (bodyContext r body.lines) (initialScope r) body.statements) :=
    sameValue_walkAll _ _ _ hmentions
  rw [hsame] at hleft
  rw [bodyContext_elsewhere hf v body.lines body'.lines] at hleft ⊢
  exact hleft.symm.trans hright

theorem sameValue_inferBody (hf : f.SameText r.method.func) {body body' : FunctionBody}
    (hbody : r.method.func.body = some body)
    (hsame : Python.unplacedBlock body'.statements = Python.unplacedBlock body.statements)
    (h : r.methods.Agrees v r.method.func.mentions) :
    SameValue (inferBody (elsewhere r v f) body').result (inferBody r body).result ∧
      ∀ t, (inferBody r body).result = .ok t →
        (inferBody (elsewhere r v f) body').symbols = (inferBody r body).symbols := by
  have hwalk := sameValue_walkAll_elsewhere hf hbody hsame h
  unfold inferBody
  rw [initialScope_elsewhere hf]
  cases hw : walkAll (bodyContext r body.lines) (initialScope r) body.statements with
  | ok s =>
    have hlength : body'.statements.length = body.statements.length := by
      simpa only [Python.unplacedBlock_eq_map, List.length_map] using congrArg List.length hsame
    have hends : blockTerminates body'.statements = blockTerminates body.statements := by
      rw [← blockTerminates_unplaced, hsame, blockTerminates_unplaced]
    have hfunc : (elsewhere r v f).method.func = f := rfl
    simp only [(hwalk s).mpr hw, hw, hlength, hends, hfunc, hf.isAbstract]
    rw [bodyContext_elsewhere hf v body.lines body'.lines]
    exact ⟨(sameValue_resolveReturn _ s _ _ _).map _, fun _ _ => trivial⟩
  | error halt =>
    -- the walks halt together, but at different places and so with different errors
    cases hw' : walkAll (bodyContext (elsewhere r v f) body'.lines) (initialScope r) body'.statements with
    | ok s =>
      have hok := (hwalk s).mp hw'
      rw [hw] at hok
      cases hok
    | error halt' =>
      simp only [hw, hw']
      exact ⟨.error _ _, nofun⟩

/-- **The typing of a method, and the symbol table after it, depend on the methods that it mentions only**, and not
on where its text stands. -/
theorem sameValue_inferMethod (r : TypingRequest) (hf : f.SameText r.method.func)
    (h : r.methods.Agrees v r.method.func.mentions) :
    SameValue (inferMethod (elsewhere r v f)).result (inferMethod r).result ∧
      ∀ t, (inferMethod r).result = .ok t → (inferMethod (elsewhere r v f)).symbols = (inferMethod r).symbols := by
  have hbodies := hf.body
  have hfunc : (elsewhere r v f).method.func = f := rfl
  cases hbody : r.method.func.body with
  | none =>
    rw [hbody, Option.map_none, Option.map_eq_none_iff] at hbodies
    simp only [inferMethod, hfunc, hbodies, hbody]
    exact ⟨.refl _, fun _ _ => rfl⟩
  | some body =>
    rw [hbody, Option.map_some, Option.map_eq_some_iff] at hbodies
    obtain ⟨body', hbody', hsame⟩ := hbodies
    simp only [inferMethod, hfunc, hbody', hbody]
    exact sameValue_inferBody hf hbody hsame h

end Inference

end NativeClass
