import NativeClass.Proofs.Inference.EveryUnion
/-!
# The return type covers the results of a body

A body ends with a value that it returns, or with none where a path runs off its end. The resolved return type
has a place for each of them, as far as the walk over the body comes to the statement that returns.

* `StmtPath`, `BlockPath`: how a path through a body leaves a statement and a block.
* **`Inference.BlockPath.ne_falls`**: no path runs off the end of a block that terminates.
* `Inference.covers_of_resolveReturn`: the results that a walk collects.
* **`Inference.returns_inferMethod`**: the results of a body, by where they are returned.
* `Inference.statementsOf`: all statements of a body, those that a walk passes over included.
* `Inference.returns_misfit`: results without a place in the resolved type.
-/

namespace NativeClass

open Python (Expr Stmt)

/-! ## Paths -/

/-- How a path leaves a statement or a block. -/
inductive Exit where
  /-- To the next statement. -/
  | falls
  /-- Out of the function. -/
  | leaves
  | breaks
  | continues
  deriving DecidableEq

/-- The body of a loop and what follows when its test fails. -/
def Python.Stmt.loop? : Stmt → Option (List Stmt × List Stmt)
  | .whileLoop _ _ body orelse | .forLoop _ _ _ body orelse => some (body, orelse)
  | _ => none

/-- The statement has no parts that are statements of the function, and it goes on with the next one. -/
def Python.Stmt.isStraight : Stmt → Bool
  | .assign .. | .annotated .. | .augmented .. | .expr .. | .assertion .. | .simple _ | .functionDef ..
  | .classDef .. => true
  | _ => false

mutual

/-- A path through a statement leaves it in this way. A test may come out either way, a loop may make any number
of rounds, and nothing is known of a compound statement. -/
inductive StmtPath : Stmt → Exit → Prop
  | straight {stmt : Stmt} (h : stmt.isStraight) : StmtPath stmt .falls
  | ret (span : Python.Span) (value : Option Expr) : StmtPath (.ret span value) .leaves
  | raise (span : Python.Span) : StmtPath (.raise span) .leaves
  | breakLoop (span : Python.Span) : StmtPath (.breakLoop span) .breaks
  | continueLoop (span : Python.Span) : StmtPath (.continueLoop span) .continues
  | branchBody {span : Python.Span} {test : Expr} {body orelse : List Stmt} {e : Exit} (h : BlockPath body e) :
    StmtPath (.branch span test body orelse) e
  | branchElse {span : Python.Span} {test : Expr} {body orelse : List Stmt} {e : Exit}
    (h : BlockPath orelse e) : StmtPath (.branch span test body orelse) e
  /-- The last test of a loop fails. -/
  | loopElse {stmt : Stmt} {body orelse : List Stmt} {e : Exit} (hl : stmt.loop? = some (body, orelse))
    (h : BlockPath orelse e) : StmtPath stmt e
  /-- One round of a loop. -/
  | loopRound {stmt : Stmt} {body orelse : List Stmt} {x e : Exit} (hl : stmt.loop? = some (body, orelse))
    (hx : x = .falls ∨ x = .continues) (h : BlockPath body x) (hrest : StmtPath stmt e) : StmtPath stmt e
  | loopBreak {stmt : Stmt} {body orelse : List Stmt} (hl : stmt.loop? = some (body, orelse))
    (h : BlockPath body .breaks) : StmtPath stmt .falls
  | loopLeave {stmt : Stmt} {body orelse : List Stmt} (hl : stmt.loop? = some (body, orelse))
    (h : BlockPath body .leaves) : StmtPath stmt .leaves
  | compound (span : Python.Span) (body : List Stmt) (e : Exit) : StmtPath (.compound span body) e

/-- A path through a block leaves it in this way. -/
inductive BlockPath : List Stmt → Exit → Prop
  | nil : BlockPath [] .falls
  | next {stmt : Stmt} {rest : List Stmt} {e : Exit} (h : StmtPath stmt .falls) (hrest : BlockPath rest e) :
    BlockPath (stmt :: rest) e
  | stop {stmt : Stmt} {rest : List Stmt} {e : Exit} (h : StmtPath stmt e) (he : e ≠ .falls) :
    BlockPath (stmt :: rest) e

end

namespace Inference

mutual

theorem StmtPath.ne_falls {stmt : Stmt} {e : Exit} (h : terminates stmt) (hp : StmtPath stmt e) :
    e ≠ .falls := by
  cases stmt with
  | branch span test body orelse =>
    rw [terminates, Bool.and_eq_true] at h
    cases hp with
    | branchBody hp => exact BlockPath.ne_falls h.1 hp
    | branchElse hp => exact BlockPath.ne_falls h.2 hp
    | straight h => cases h
    | loopElse hl | loopRound hl | loopBreak hl | loopLeave hl => cases hl
  | ret =>
    cases hp with
    | ret => nofun
    | straight h => cases h
    | loopElse hl | loopRound hl | loopBreak hl | loopLeave hl => cases hl
  | raise =>
    cases hp with
    | raise => nofun
    | straight h => cases h
    | loopElse hl | loopRound hl | loopBreak hl | loopLeave hl => cases hl
  | _ => simp [terminates] at h

/-- **No path runs off the end of a block that terminates.** -/
theorem BlockPath.ne_falls {block : List Stmt} {e : Exit} (h : blockTerminates block) (hp : BlockPath block e) :
    e ≠ .falls := by
  cases hp with
  | nil => cases h
  | stop _ he => exact he
  | @next stmt rest _ hstmt hrest =>
    -- the last statement decides; falling through an earlier one comes to it in the end
    cases rest with
    | nil => exact absurd rfl (StmtPath.ne_falls h hstmt)
    | cons stmt' rest =>
      have hrestTerm : blockTerminates (stmt' :: rest) := h
      exact BlockPath.ne_falls hrestTerm hrest

end

/-! ## The resolved type -/

variable {c : BodyContext} {s s' : Scope} {declared : Option Ty} {ret : Ty} {fallsThrough : Bool}

/-- **The resolved return type covers the results that a walk collects.** -/
theorem covers_of_resolveReturn (h : resolveReturn c s declared fallsThrough false = .ok ret)
    (hunions : declared = none → ∀ t ∈ s.returns, t.NoEmptyUnion) :
    ∀ t ∈ resultTypes s fallsThrough, ret.Covers declared.isSome c.promote t := by
  intro t ht
  unfold resolveReturn at h
  cases declared with
  | some expected =>
    dsimp only at h
    rw [if_neg Bool.false_ne_true] at h
    split at h
    · cases h
    next hall =>
      cases h
      have hfits : ret.isAssignableFrom t c.promote := by
        simpa using List.find?_eq_none.mp hall t ht
      exact Ty.covers_of_isAssignableFrom hfits
  | none =>
    -- the resolved type is the join of the results, and there is one as `t` is among them
    have hne : ∀ t ∈ resultTypes s fallsThrough, t.NoEmptyUnion := by
      unfold resultTypes
      split
      · exact List.forall_mem_append.mpr ⟨hunions rfl, List.forall_mem_singleton.mpr trivial⟩
      · exact hunions rfl
    obtain ⟨T, hT⟩ : ∃ T, Ty.joinAll? (resultTypes s fallsThrough) c.promote = some T := by
      cases hresults : resultTypes s fallsThrough with
      | nil =>
        rw [hresults] at ht
        cases ht
      | cons a ts => exact ⟨_, rfl⟩
    have hret : T = ret := by
      dsimp only at h
      rw [if_neg Bool.false_ne_true, hT] at h
      cases h
      rfl
    have hadmits : ret.Admits c.promote t := hret ▸ Ty.admits_of_joinAll? hne hT ht
    exact hadmits.covers fun hsome => absurd hsome Bool.false_ne_true

/-! ## The results of a walk -/

theorem returns_foldlM_write {ws : List Write} (h : ws.foldlM (write c) s = .ok s') :
    s'.returns = s.returns := by
  refine (ensures_foldlM (E := fun _ => True) (fun _ (s' : Scope) => s'.returns = s.returns) rfl ?_).of_ok h
  intro dealt w rest s₁ _ hs₁
  cases w with
  | toLocal => exact ensures_ok.mpr hs₁
  | elsewhere target =>
    rw [write]
    cases typeOf c s₁ target with
    | ok => exact ensures_ok.mpr hs₁
    | error f => exact ensures_error.mpr trivial
  | toAttribute span name value isAnnotated =>
    rw [write]
    cases hassign : assignAttribute c s₁ span name value isAnnotated with
    | error f => exact ensures_error.mpr trivial
    | ok s₂ =>
      refine ensures_ok.mpr (Eq.trans ?_ hs₁)
      cases attributeStore_of_ok hassign <;> rfl

theorem returns_visit (c : BodyContext) (s : Scope) (stmt : Stmt) :
    Ensures (visit c s stmt) (fun s' => s.returns <+: s'.returns) fun _ => True := by
  rcases visit_eq_foldlM c s stmt with ⟨span, value, rfl⟩ | hvisit
  · rw [visit_ret]
    cases returnedType c s value with
    | ok ty => exact ensures_ok.mpr (List.prefix_append _ _)
    | error f => exact ensures_error.mpr trivial
  · cases hresult : visit c s stmt with
    | error halt => exact ensures_error.mpr trivial
    | ok s' =>
      rw [hvisit] at hresult
      obtain ⟨ws, -, hws⟩ := bind_eq_ok_iff.mp hresult
      exact ensures_ok.mpr (returns_foldlM_write hws ▸ List.prefix_refl _)

theorem returns_foldlM_visit {stmts : List Stmt} (h : stmts.foldlM (visit c) s = .ok s') :
    s.returns <+: s'.returns := by
  refine (ensures_foldlM (E := fun _ => True) (fun _ (s' : Scope) => s.returns <+: s'.returns)
    (List.prefix_refl _) ?_).of_ok h
  intro dealt stmt rest s₁ _ hs₁
  exact (returns_visit c s₁ stmt).mono fun _ h => hs₁.trans h

theorem mem_returns_of_walkAll {block before after : List Stmt} {span : Python.Span} {value : Option Expr}
    (h : walkAll c s block = .ok s') (hsplit : reached block = before ++ .ret span value :: after) :
    ∃ s₁ ty, before.foldlM (visit c) s = .ok s₁ ∧ returnedType c s₁ value = .ok ty ∧ ty ∈ s'.returns := by
  obtain ⟨s₁, s₂, hbefore, hvisit, hafter⟩ := exists_visit_of_walkAll h hsplit
  rw [visit_ret] at hvisit
  cases hty : returnedType c s₁ value with
  | error f =>
    rw [hty] at hvisit
    cases hvisit
  | ok ty =>
    rw [hty] at hvisit
    cases hvisit
    have hmem : ty ∈ (s₁.addReturn ty).returns := List.mem_append_right _ (List.mem_singleton_self ty)
    exact ⟨s₁, ty, hbefore, hty, (returns_foldlM_visit hafter).subset hmem⟩

/-! ## Methods -/

/-- **The resolved return type of a method covers every value that the walk sees returned, and none if some path
runs off the end of the body.** -/
theorem returns_inferMethod {r : TypingRequest} {body : FunctionBody} {t : Typing}
    (hbody : r.method.func.body = some body) (habstract : r.method.func.isAbstract = false)
    (h : (inferMethod r).result = .ok t) (hunions : r.declared.ret = none → r.EveryUnion (· ≠ [])) :
    ∃ ret, t.signature.ret = some ret ∧
      (∀ before span value after, reached body.statements = before ++ .ret span value :: after →
        ∃ s ty, before.foldlM (visit (bodyContext r body.lines)) (initialScope r) = .ok s ∧
          returnedType (bodyContext r body.lines) s value = .ok ty ∧
          ret.Covers r.declared.ret.isSome (r.flags.getBool promotionFlag true) ty) ∧
      (BlockPath body.statements .falls →
        ret.isAssignableFrom .noneType (r.flags.getBool promotionFlag true)) := by
  simp only [inferMethod, hbody, inferBody] at h
  split at h
  · cases h
  next s hwalk =>
    obtain ⟨ret, hret, rfl⟩ := map_eq_ok_iff.mp h
    rw [habstract] at hret
    have hreturns : r.declared.ret = none → ∀ t ∈ s.returns, t.NoEmptyUnion := fun hnone =>
      ((ensures_foldlM_visit unionClosed_ne_nil (hunions hnone).methods
        (everyUnion_initialScope (hunions hnone)) _).of_ok (walkAll_eq_foldlM _ _ _ ▸ hwalk)).returns
    have hcovers := covers_of_resolveReturn hret hreturns
    refine ⟨ret, rfl, fun before span value after hsplit => ?_, fun hfalls => ?_⟩
    · obtain ⟨s₁, ty, hbefore, hty, hmem⟩ := mem_returns_of_walkAll hwalk hsplit
      have hresult : ty ∈ resultTypes s !blockTerminates body.statements := by
        unfold resultTypes
        split
        · exact List.mem_append_left _ hmem
        · exact hmem
      exact ⟨s₁, ty, hbefore, hty, hcovers ty hresult⟩
    · have hend : ¬ blockTerminates body.statements := fun hterm => BlockPath.ne_falls hterm hfalls rfl
      have hresult : .noneType ∈ resultTypes s !blockTerminates body.statements := by
        rw [resultTypes, if_pos (by simpa using hend)]
        exact List.mem_append_right _ (List.mem_singleton_self _)
      exact (hcovers _ hresult).fits (Or.inr ⟨Bool.false_ne_true, by simp⟩)

end Inference

namespace Sample

/-- The question about the body of a method with the given parameters. -/
def bodyRequest (params : List (String × Ty)) (returns : Option Ty) (statements : List Stmt) : TypingRequest :=
  let func : Function :=
    { name := "measure"
      params := ⟨"self", none⟩ :: params.map fun p => ⟨p.1, some p.2⟩
      returns
      kind := .instanceMethod
      isAbstract := false
      isVariadic := false
      location := .unknown
      body := some ⟨statements, default⟩ }
  let signature : Signature := { args := params.map Prod.snd, ret := returns }
  { className := "Disc"
    method := ⟨"measure", func, signature, true⟩
    declared := signature
    flags := .empty
    symbols := .empty
    mayDefine := false
    methods := ⟨.empty, .empty⟩
    order := .asInserted }

/-- A statement that returns a literal. -/
def returnOf (value : Python.Literal) : Stmt :=
  .ret default (some (.literal default value))

/-- A body that returns a number from a loop, or a text after it, or runs off its end. -/
def scan : TypingRequest :=
  let count := Expr.name default "count"
  bodyRequest [("count", .int)] none
    [.whileLoop default count [.ret default (some count)] [],
      .branch default count [returnOf (.str "")] []]

end Sample

theorem Inference.returns_inferMethod_scan :
    ∃ t ret, (inferMethod Sample.scan).result = .ok t ∧ t.signature.ret = some ret ∧
      ∃ body, Sample.scan.method.func.body = some body ∧
        (∀ before span value after, reached body.statements = before ++ .ret span value :: after →
          ∃ s ty, before.foldlM (visit (bodyContext Sample.scan body.lines)) (initialScope Sample.scan) = .ok s ∧
            returnedType (bodyContext Sample.scan body.lines) s value = .ok ty ∧ ret.Covers false true ty) ∧
        (BlockPath body.statements .falls → ret.isAssignableFrom .noneType true) := by
  have hok : (inferMethod Sample.scan).result.isOk := by decide +kernel
  have hunions : Sample.scan.EveryUnion (· ≠ []) := by
    refine ⟨?_, nofun, nofun⟩
    intro t ht
    cases List.mem_singleton.mp ht
    trivial
  cases h : (inferMethod Sample.scan).result with
  | error f =>
    rw [h] at hok
    cases hok
  | ok t =>
    obtain ⟨ret, hret, hcovers, hfalls⟩ := returns_inferMethod rfl rfl h fun _ => hunions
    exact ⟨t, ret, rfl, hret, _, rfl, hcovers, hfalls⟩

/-! ## Results without a place -/

namespace Inference

mutual

/-- A statement and the statements inside it that belong to the same function. -/
def statementsIn : Stmt → List Stmt
  | .branch span test body orelse =>
    .branch span test body orelse :: (statementsOf body ++ statementsOf orelse)
  | .whileLoop span test body orelse =>
    .whileLoop span test body orelse :: (statementsOf body ++ statementsOf orelse)
  | .forLoop span target iter body orelse =>
    .forLoop span target iter body orelse :: (statementsOf body ++ statementsOf orelse)
  | .compound span body => .compound span body :: statementsOf body
  | stmt => [stmt]

/-- The statements of a block and of all blocks inside it, without those of nested functions and classes. -/
def statementsOf : List Stmt → List Stmt
  | [] => []
  | stmt :: rest => statementsIn stmt ++ statementsOf rest

end

/-- A method can be typed, but one of its statements returns a value that does not fit the resolved return type.
The value is typed with the locals at the start of the body. -/
def ReturnsMisfit (r : TypingRequest) (e : Expr) : Prop :=
  ∃ body ty ret, r.method.func.body = some body ∧ r.method.func.isAbstract = false ∧
    .ret default (some e) ∈ statementsOf body.statements ∧
    typeOf (bodyContext r body.lines) (initialScope r) e = .ok ty ∧
    (inferMethod r).result.map (·.signature.ret) = .ok (some ret) ∧
    ret.isAssignableFrom ty (r.flags.getBool promotionFlag true) = false

/-- A walk passes over compound statements. A join of three types forgets that integers are widened. A union
without members stands below types that are not below each other. -/
theorem returns_misfit :
    ReturnsMisfit (Sample.bodyRequest [] (some .noneType) [.compound default [Sample.returnOf .int]])
        (.literal default .int) ∧
      ReturnsMisfit (Sample.bodyRequest [] none
          [.branch default (.literal default .bool) [Sample.returnOf .int] [],
            .branch default (.literal default .bool) [Sample.returnOf .float] [], Sample.returnOf (.str "")])
        (.literal default .int) ∧
      ReturnsMisfit (Sample.bodyRequest
          [("q", .dict .never .int), ("p", .dict (.union [.never]) .int), ("v", .dict (.union []) .any)] none
          [.branch default (.literal default .bool) [.ret default (some (.name default "q"))] [],
            .branch default (.literal default .bool) [.ret default (some (.name default "p"))] [],
            .ret default (some (.name default "v"))])
        (.name default "p") := by
  refine ⟨⟨_, .int, .noneType, rfl, rfl, ?_, ?_, ?_, ?_⟩,
    ⟨_, .int, .union [.float, .str], rfl, rfl, ?_, ?_, ?_, ?_⟩,
    ⟨_, .dict (.union [.never]) .int, .dict (.union []) .any, rfl, rfl, ?_, ?_, ?_, ?_⟩⟩
  · simp [statementsOf, statementsIn, Sample.returnOf]
  · decide +kernel
  · decide +kernel
  · decide +kernel
  · simp [statementsOf, statementsIn, Sample.returnOf]
  · decide +kernel
  · decide +kernel
  · decide +kernel
  · simp [statementsOf, statementsIn]
  · decide +kernel
  · decide +kernel
  · decide +kernel

end Inference

end NativeClass
