import NativeClass.Proofs.Inference.Stores
/-!
# A walk as a run over statements

A walk passes each statement once, in the order of the text, and goes on with the blocks of branches and loops
from where the statement itself leaves the scope. So it is a run over the list of all statements that it
reaches, and what a whole walk does follows from what one visit does.

* `Inference.reached`: the statements of a block and of the blocks of its branches and loops.
* `Inference.visit`: the scope after a statement without its blocks.
* **`Inference.walkAll_eq_foldlM`**: a walk visits the reached statements one after another.
* `Inference.writes`: the stores of a statement, part by part of its targets.
* **`Inference.visit_eq_foldlM`**: a visit types what is stored and then stores it.
* `Inference.exists_visit_of_walkAll`: the scopes around a statement along a walk.
-/

namespace NativeClass.Inference

open Python (Expr Stmt)

variable {c : BodyContext} {s s' : Scope} {block : List Stmt}

/-! ## Reached statements -/

mutual

/-- A statement and the statements that a walk reaches inside it, in the order of the text. -/
def reachedIn : Stmt → List Stmt
  | .branch span test body orelse => .branch span test body orelse :: (reached body ++ reached orelse)
  | .whileLoop span test body orelse => .whileLoop span test body orelse :: (reached body ++ reached orelse)
  | .forLoop span target iter body orelse =>
    .forLoop span target iter body orelse :: (reached body ++ reached orelse)
  | stmt => [stmt]

/-- The statements that a walk over a block reaches, in the order of the text. -/
def reached : List Stmt → List Stmt
  | [] => []
  | stmt :: rest => reachedIn stmt ++ reached rest

end

/-- The scope after a statement without its blocks. -/
def visit (c : BodyContext) (s : Scope) : Stmt → Except Halt Scope
  | .branch _ test _ _ | .whileLoop _ test _ _ => do
    let _ ← s.attempt (typeOf c s test)
    return s
  | .forLoop _ target iter _ _ => do
    let ty ← s.attempt (typeOf c s iter)
    assign c s target ty.element false
  | stmt => walk c s stmt

mutual

theorem walk_eq_foldlM (c : BodyContext) (s : Scope) (stmt : Stmt) :
    walk c s stmt = (reachedIn stmt).foldlM (visit c) s := by
  cases stmt with
  | branch span test body orelse | whileLoop span test body orelse =>
    rw [walk, reachedIn, List.foldlM_cons, visit, bind_assoc]
    refine bind_congr fun _ => ?_
    rw [pure_bind, List.foldlM_append, ← walkAll_eq_foldlM c s body]
    exact bind_congr fun s' => walkAll_eq_foldlM c s' orelse
  | forLoop span target iter body orelse =>
    rw [walk, reachedIn, List.foldlM_cons, visit, bind_assoc]
    refine bind_congr fun ty => bind_congr fun s₁ => ?_
    rw [List.foldlM_append, ← walkAll_eq_foldlM c s₁ body]
    exact bind_congr fun s₂ => walkAll_eq_foldlM c s₂ orelse
  | _ =>
    rw [reachedIn, List.foldlM_cons]
    · simp only [List.foldlM_nil, bind_pure, visit]
    all_goals simp

/-- **A walk visits the reached statements one after another.** -/
theorem walkAll_eq_foldlM (c : BodyContext) (s : Scope) (block : List Stmt) :
    walkAll c s block = (reached block).foldlM (visit c) s := by
  cases block with
  | nil => rfl
  | cons stmt rest =>
    rw [walkAll, reached, List.foldlM_append, ← walk_eq_foldlM c s stmt]
    exact bind_congr fun s' => walkAll_eq_foldlM c s' rest

end

/-! ## Writes -/

/-- What a statement does to one part of a target. -/
inductive Write where
  | toLocal (name : String) (value : Ty) (isAnnotated : Bool)
  /-- A store into an attribute of the receiver. -/
  | toAttribute (span : Python.Span) (name : String) (value : Ty) (isAnnotated : Bool)
  /-- Any other target is typed only. -/
  | elsewhere (target : Expr)

mutual

/-- The stores into the parts of a target, from left to right. -/
def targetWrites (c : BodyContext) (target : Expr) (value : Ty) (isAnnotated : Bool) : List Write :=
  match target with
  | .name _ id => [.toLocal id value isAnnotated]
  | .tuple _ elems => targetsWrites c elems (value.unpacked elems.length)
  | .attribute span object attr =>
    if c.isReceiver object then [.toAttribute span attr value isAnnotated] else [.elsewhere target]
  | _ => [.elsewhere target]

/-- The stores of values into the parts of the targets at their places. -/
def targetsWrites (c : BodyContext) (targets : List Expr) (values : List Ty) : List Write :=
  match targets, values with
  | t :: ts, v :: vs => targetWrites c t v false ++ targetsWrites c ts vs
  | _, _ => []

end

/-- The scope after one store. -/
def write (c : BodyContext) (s : Scope) : Write → Except Halt Scope
  | .toLocal name value isAnnotated => .ok (assignLocal c s name value isAnnotated)
  | .toAttribute span name value isAnnotated => s.attempt (assignAttribute c s span name value isAnnotated)
  | .elsewhere target => do
    let _ ← s.attempt (typeOf c s target)
    return s

/-- The ways in which a store into an attribute ends. -/
inductive AttributeStore (c : BodyContext) (s : Scope) (name : String) (value : Ty) (isAnnotated : Bool) :
    Scope → Prop
  | fits {v : Variable} (hv : s.symbols.get? name = some v) (h : v.ty.isAssignableFrom value c.promote) :
    AttributeStore c s name value isAnnotated s
  | widened {v : Variable} (hv : s.symbols.get? name = some v) (hdef : c.mayDefine) (hopen : v.promotable) :
    AttributeStore c s name value isAnnotated
      (s.setAttribute name { v with ty := Ty.join v.ty value c.promote })
  | introduced (hnone : s.symbols.get? name = none) (hdef : c.mayDefine) :
    AttributeStore c s name value isAnnotated
      (s.setAttribute name (if isAnnotated then .declared value else .inferred value))

theorem attributeStore_of_ok {span : Python.Span} {name : String} {value : Ty} {isAnnotated : Bool}
    (h : assignAttribute c s span name value isAnnotated = .ok s') :
    AttributeStore c s name value isAnnotated s' := by
  unfold assignAttribute at h
  split at h
  next v hv =>
    split at h
    next hfits =>
      cases h
      exact .fits hv hfits
    next =>
      split at h
      next hopen =>
        cases h
        rw [Bool.and_eq_true] at hopen
        exact .widened hv hopen.1 hopen.2
      · cases h
  next hnone =>
    split at h
    · cases h
    · split at h
      next hdef =>
        cases h
        exact .introduced hnone hdef
      · cases h

theorem attempt_eq_ok_iff {α : Type} {r : Except TypingFailure α} {a : α} :
    s.attempt r = .ok a ↔ r = .ok a := by
  cases r with
  | ok a' => exact ⟨fun h => by cases h; rfl, fun h => by cases h; rfl⟩
  | error f => exact ⟨nofun, nofun⟩

theorem foldlM_write_singleton (c : BodyContext) (s : Scope) (w : Write) :
    [w].foldlM (write c) s = write c s w := by
  rw [List.foldlM_cons]
  exact bind_pure _

mutual

theorem assign_eq_foldlM (c : BodyContext) (s : Scope) (target : Expr) (value : Ty) (isAnnotated : Bool) :
    assign c s target value isAnnotated = (targetWrites c target value isAnnotated).foldlM (write c) s := by
  cases target with
  | name span id => rfl
  | tuple span elems =>
    rw [assign, targetWrites]
    exact assignEach_eq_foldlM c s elems _
  | «attribute» span object attr =>
    rw [assign, targetWrites]
    split
    · rw [foldlM_write_singleton, write]
    · rw [foldlM_write_singleton, write]
  | _ => exact (foldlM_write_singleton c s (.elsewhere _)).symm

theorem assignEach_eq_foldlM (c : BodyContext) (s : Scope) (targets : List Expr) (values : List Ty) :
    assignEach c s targets values = (targetsWrites c targets values).foldlM (write c) s := by
  cases targets with
  | nil => rfl
  | cons t ts =>
    cases values with
    | nil => rfl
    | cons v vs =>
      rw [assignEach, targetsWrites, List.foldlM_append, ← assign_eq_foldlM c s t v false]
      exact bind_congr fun s' => assignEach_eq_foldlM c s' ts vs

end

theorem assignAll_eq_foldlM (c : BodyContext) (s : Scope) (targets : List Expr) (value : Ty) :
    assignAll c s targets value = (targets.flatMap (targetWrites c · value false)).foldlM (write c) s := by
  unfold assignAll
  induction targets generalizing s with
  | nil => rfl
  | cons t ts ih =>
    rw [List.foldlM_cons, List.flatMap_cons, List.foldlM_append, ← assign_eq_foldlM]
    exact bind_congr ih

/-- The stores of a statement without its blocks, with their types in the scope before the statement. -/
def writes (c : BodyContext) (s : Scope) : Stmt → Except TypingFailure (List Write)
  | .assign _ targets value => do
    let ty ← typeOf c s value
    return targets.flatMap (targetWrites c · ty false)
  | .annotated span target hint value => do
    checkAnnotated c s span (.ofHint hint) value
    return targetWrites c target (.ofHint hint) true
  | .augmented span target op value => do
    let ty ← augmentedType c s span target op value
    return targetWrites c target ty false
  | .forLoop _ target iter _ _ => do
    let ty ← typeOf c s iter
    return targetWrites c target ty.element false
  | .branch _ e _ _ | .whileLoop _ e _ _ | .expr _ e | .assertion _ e => do
    let _ ← typeOf c s e
    return []
  | .ret _ value => do
    let _ ← returnedType c s value
    return []
  | _ => return []

theorem attempt_bind {α β : Type} (r : Except TypingFailure α) (f : α → Except TypingFailure β) :
    s.attempt (r >>= f) = s.attempt r >>= fun a => s.attempt (f a) := by
  cases r <;> rfl

/-- **A visit types what a statement stores and then stores it**, unless the statement returns a value. -/
theorem visit_eq_foldlM (c : BodyContext) (s : Scope) (stmt : Stmt) :
    (∃ span value, stmt = .ret span value) ∨
      visit c s stmt = s.attempt (writes c s stmt) >>= fun ws => ws.foldlM (write c) s := by
  cases stmt with
  | ret span value => exact Or.inl ⟨span, value, rfl⟩
  | assign span targets value =>
    right
    rw [visit, walk, writes, attempt_bind, bind_assoc]
    · exact bind_congr fun ty => assignAll_eq_foldlM c s targets ty
    all_goals simp
  | annotated span target hint value =>
    right
    rw [visit, walk, writes, attempt_bind, bind_assoc]
    · exact bind_congr fun _ => assign_eq_foldlM c s target _ true
    all_goals simp
  | augmented span target op value =>
    right
    rw [visit, walk, writes, attempt_bind, bind_assoc]
    · exact bind_congr fun ty => assign_eq_foldlM c s target ty false
    all_goals simp
  | forLoop span target iter body orelse =>
    right
    rw [visit, writes, attempt_bind, bind_assoc]
    exact bind_congr fun ty => assign_eq_foldlM c s target ty.element false
  | branch | whileLoop =>
    right
    rw [visit, writes, attempt_bind, bind_assoc]
    rfl
  | expr | assertion =>
    right
    rw [visit, walk, writes, attempt_bind, bind_assoc]
    · rfl
    all_goals simp
  | _ => exact Or.inr rfl

theorem visit_ret (c : BodyContext) (s : Scope) (span : Python.Span) (value : Option Expr) :
    visit c s (.ret span value) = s.attempt (returnedType c s value) >>= fun ty => pure (s.addReturn ty) :=
  rfl

/-! ## Scopes along a walk -/

/-- A walk that ends visits every reached statement in some scope, and it goes on from there to its end. -/
theorem exists_visit_of_walkAll {before after : List Stmt} {stmt : Stmt} {last : Scope}
    (h : walkAll c s block = .ok last) (hsplit : reached block = before ++ stmt :: after) :
    ∃ s₁ s₂, before.foldlM (visit c) s = .ok s₁ ∧ visit c s₁ stmt = .ok s₂ ∧
      after.foldlM (visit c) s₂ = .ok last := by
  rw [walkAll_eq_foldlM, hsplit, List.foldlM_append] at h
  obtain ⟨s₁, hbefore, h⟩ := bind_eq_ok_iff.mp h
  rw [List.foldlM_cons] at h
  obtain ⟨s₂, hvisit, hafter⟩ := bind_eq_ok_iff.mp h
  exact ⟨s₁, s₂, hbefore, hvisit, hafter⟩

end NativeClass.Inference
