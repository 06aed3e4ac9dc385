import NativeClass.Proofs.Inference.Visits
/-!
# Where new attributes come from

A body that may define attributes appends them to the symbol table. One whose type is fixed was declared by an
annotated store of the body, with the type of its hint; every other one may still be widened.

* `Function.declaredAttributes`: the attributes that a body declares.
* `Inference.Introduces`: what a part of a walk adds to a symbol table.
* `Inference.introduces_write`, `Inference.introduces_visit`: one store, one statement.
* **`Inference.scopeDiscipline_inferMethod`**: the symbol table after a method, whether it can be typed or not.
-/

namespace NativeClass

open Python (Expr Stmt)

/-- The attribute that a statement declares by an annotated store, with the type of the hint. -/
def declaredAttribute? (receiver : Option String) : Stmt → Option (String × Ty)
  | .annotated _ (.attribute _ (.name _ id) attr) hint _ =>
    if receiver = some id then some (attr, .ofHint hint) else none
  | _ => none

/-- The attributes of its receiver that a function declares, in the order of the text. -/
def Function.declaredAttributes (f : Function) : List (String × Ty) :=
  match f.body with
  | some body =>
    (Inference.reached body.statements).filterMap (declaredAttribute? (Inference.receiverName? f))
  | none => []

namespace Inference

/-- What a part of a walk does to a symbol table if it declares attributes of the given names and types. -/
structure Introduces (c : BodyContext) (declared : List (String × Ty)) (old new : SymbolTable) : Prop where
  keeps : c.Keeps old new
  fixed : ∀ name v, old.get? name = none → new.get? name = some v → v.promotable = false →
    (name, v.ty) ∈ declared

/-- A part of a walk that begins at `s`, whether it ends or halts. -/
def Introducing (c : BodyContext) (declared : List (String × Ty)) (s : Scope) (r : Except Halt Scope) : Prop :=
  Ensures r (fun s' => Introduces c declared s.symbols s'.symbols)
    fun halt : Halt => Introduces c declared s.symbols halt.symbols

variable {c : BodyContext} {declared : List (String × Ty)} {s : Scope} {old mid new : SymbolTable}

/-! ## Parts of a walk -/

theorem Introduces.refl (c : BodyContext) (declared : List (String × Ty)) (old : SymbolTable) :
    Introduces c declared old old where
  keeps := .refl c old
  fixed name v hnone hv := by
    rw [hnone] at hv
    cases hv

theorem Introduces.trans (h : Introduces c declared old mid) (h' : Introduces c declared mid new) :
    Introduces c declared old new where
  keeps := h.keeps.trans h'.keeps
  fixed name v hnone hv hfixed := by
    cases hmid : mid.get? name with
    | none => exact h'.fixed name v hmid hv hfixed
    | some m =>
      obtain ⟨v', hv', hw⟩ := h'.keeps.1.known name m hmid
      rw [hv, Option.some.injEq] at hv'
      subst hv'
      -- the type was fixed when the attribute came in, and so it is still the one that was declared
      have hm : m.promotable = false := hw.promotable ▸ hfixed
      exact hw.eq hm ▸ h.fixed name m hnone hmid hm

theorem introducing_foldlM {β : Type} {f : Scope → β → Except Halt Scope} {xs : List β}
    (step : ∀ x ∈ xs, ∀ s, Introducing c declared s (f s x)) : Introducing c declared s (xs.foldlM f s) := by
  refine ensures_foldlM (fun _ (s' : Scope) => Introduces c declared s.symbols s'.symbols) (.refl c declared _) ?_
  intro dealt x rest s' hxs hs'
  have hx : x ∈ xs := hxs ▸ List.mem_append_right dealt List.mem_cons_self
  exact (step x hx s').imp (fun _ => hs'.trans) fun _ => hs'.trans

/-! ## Stores -/

theorem introducing_assignAttribute (span : Python.Span) (name : String) (value : Ty) (isAnnotated : Bool)
    (h : isAnnotated → (name, value) ∈ declared) :
    Introducing c declared s (s.attempt (assignAttribute c s span name value isAnnotated)) := by
  have hkeeps := stores_assignAttribute c s span name value isAnnotated
  cases heq : assignAttribute c s span name value isAnnotated with
  | error f => exact ensures_error.mpr (.refl c declared _)
  | ok s' =>
    rw [heq] at hkeeps
    refine ensures_ok.mpr ⟨(hkeeps.of_ok rfl).1, fun k w hk hw hfixed => ?_⟩
    cases attributeStore_of_ok heq with
    | fits =>
      rw [hk] at hw
      cases hw
    | widened hv =>
      have hkn : k ≠ name := fun e => by simp [e, hv] at hk
      rw [Scope.setAttribute, OrderedMap.get?_insert, if_neg hkn, hk] at hw
      cases hw
    | introduced =>
      rw [Scope.setAttribute, OrderedMap.get?_insert] at hw
      split at hw
      next hkn =>
        cases hw
        cases isAnnotated with
        | true => exact hkn ▸ h rfl
        | false => cases hfixed
      · rw [hk] at hw
        cases hw

theorem introduces_write (w : Write)
    (h : ∀ span name value, w = .toAttribute span name value true → (name, value) ∈ declared) :
    Introducing c declared s (write c s w) := by
  cases w with
  | toLocal name value isAnnotated => exact ensures_ok.mpr (.refl c declared _)
  | toAttribute span name value isAnnotated =>
    exact introducing_assignAttribute span name value isAnnotated fun ha => h span name value (by rw [ha])
  | elsewhere target =>
    rw [write]
    cases typeOf c s target with
    | ok => exact ensures_ok.mpr (.refl c declared _)
    | error f => exact ensures_error.mpr (.refl c declared _)

/-! ## Statements -/

mutual

/-- A part of a target that has no type hint is not declared. -/
theorem not_mem_targetWrites (c : BodyContext) (target : Expr) (value : Ty) (span : Python.Span) (name : String)
    (ty : Ty) : .toAttribute span name ty true ∉ targetWrites c target value false := by
  cases target with
  | tuple tspan elems =>
    rw [targetWrites]
    exact not_mem_targetsWrites c elems _ span name ty
  | «attribute» aspan object attr =>
    rw [targetWrites]
    split <;> simp
  | _ => simp [targetWrites]

theorem not_mem_targetsWrites (c : BodyContext) (targets : List Expr) (values : List Ty) (span : Python.Span)
    (name : String) (ty : Ty) : .toAttribute span name ty true ∉ targetsWrites c targets values := by
  cases targets with
  | nil => exact List.not_mem_nil
  | cons t ts =>
    cases values with
    | nil => exact List.not_mem_nil
    | cons v vs =>
      rw [targetsWrites, List.mem_append, not_or]
      exact ⟨not_mem_targetWrites c t v span name ty, not_mem_targetsWrites c ts vs span name ty⟩

end

theorem declaredAttribute?_of_mem_targetWrites {span wspan : Python.Span} {target hint : Expr}
    {value : Option Expr} {name : String} {ty : Ty}
    (h : .toAttribute wspan name ty true ∈ targetWrites c target (.ofHint hint) true) :
    declaredAttribute? c.receiver (.annotated span target hint value) = some (name, ty) := by
  cases target with
  | tuple tspan elems =>
    rw [targetWrites] at h
    exact absurd h (not_mem_targetsWrites c elems _ wspan name ty)
  | «attribute» aspan object attr =>
    rw [targetWrites] at h
    split at h
    next hobject =>
      simp only [List.mem_singleton, Write.toAttribute.injEq, and_true] at h
      obtain ⟨-, rfl, rfl⟩ := h
      cases object <;> simp_all [BodyContext.isReceiver, declaredAttribute?]
    · simp at h
  | _ => simp [targetWrites] at h

theorem declared_writes (c : BodyContext) (s : Scope) (stmt : Stmt) :
    Ensures (writes c s stmt)
      (fun ws => ∀ span name ty, .toAttribute span name ty true ∈ ws →
        declaredAttribute? c.receiver stmt = some (name, ty)) fun _ => True := by
  have htyped : ∀ {α : Type} (r : Except TypingFailure α), Ensures r (fun _ => True) fun _ => True := by
    intro α r
    cases r <;> trivial
  cases stmt with
  | assign span targets value =>
    refine (htyped _).bind fun ty _ => ensures_ok.mpr fun wspan name ty' hmem => ?_
    obtain ⟨target, -, hmem⟩ := List.mem_flatMap.mp hmem
    exact absurd hmem (not_mem_targetWrites c target ty wspan name ty')
  | annotated span target hint value =>
    exact (htyped _).bind fun _ _ => ensures_ok.mpr fun _ _ _ => declaredAttribute?_of_mem_targetWrites
  | augmented span target op value =>
    refine (htyped _).bind fun ty _ => ensures_ok.mpr fun wspan name ty' hmem => ?_
    exact absurd hmem (not_mem_targetWrites c target ty wspan name ty')
  | forLoop span target iter body orelse =>
    refine (htyped _).bind fun ty _ => ensures_ok.mpr fun wspan name ty' hmem => ?_
    exact absurd hmem (not_mem_targetWrites c target ty.element wspan name ty')
  | branch | whileLoop | expr | assertion | ret =>
    exact (htyped _).bind fun _ _ => ensures_ok.mpr nofun
  | _ => exact ensures_ok.mpr nofun

theorem introduces_visit {stmt : Stmt} (h : ∀ x ∈ declaredAttribute? c.receiver stmt, x ∈ declared) :
    Introducing c declared s (visit c s stmt) := by
  rcases visit_eq_foldlM c s stmt with ⟨span, value, rfl⟩ | hvisit
  · rw [visit_ret]
    cases returnedType c s value with
    | ok ty => exact ensures_ok.mpr (.refl c declared _)
    | error f => exact ensures_error.mpr (.refl c declared _)
  · rw [hvisit]
    cases hwrites : writes c s stmt with
    | error f => exact ensures_error.mpr (.refl c declared _)
    | ok ws =>
      have hws := (declared_writes c s stmt).of_ok hwrites
      exact introducing_foldlM fun w hw s' => introduces_write w fun span name ty he =>
        h (name, ty) (hws span name ty (he ▸ hw))

/-! ## Methods -/

theorem introduces_inferBody (r : TypingRequest) {body : FunctionBody} (hbody : r.method.func.body = some body) :
    Introduces (bodyContext r body.lines) r.method.func.declaredAttributes r.symbols
      (inferBody r body).symbols := by
  have hwalk : Introducing (bodyContext r body.lines) r.method.func.declaredAttributes (initialScope r)
      (walkAll (bodyContext r body.lines) (initialScope r) body.statements) := by
    rw [walkAll_eq_foldlM]
    refine introducing_foldlM fun stmt hstmt s => introduces_visit fun x hx => ?_
    rw [Function.declaredAttributes, hbody]
    exact List.mem_filterMap.mpr ⟨stmt, hstmt, hx⟩
  unfold inferBody
  dsimp only
  split
  next halt heq => exact hwalk.of_error heq
  next s heq => exact hwalk.of_ok heq

/-- **The symbol table after a method, whether it can be typed or not.** A body that may not define attributes
leaves it as it is. One that may keeps every name at its place, widens only what may be widened, and appends
attributes that it declares or that may be widened. -/
theorem scopeDiscipline_inferMethod (r : TypingRequest) :
    (r.mayDefine = false → (inferMethod r).symbols = r.symbols) ∧
      r.symbols.Grows (r.flags.getBool promotionFlag true) (inferMethod r).symbols ∧
      ∀ name v, r.symbols.get? name = none → (inferMethod r).symbols.get? name = some v →
        v.origin = .declared ∧ v.promotable = false ∧ (name, v.ty) ∈ r.method.func.declaredAttributes ∨
          v.origin = .inferred ∧ v.promotable = true := by
  obtain ⟨hgrows, hread⟩ := keeps_inferMethod r
  refine ⟨hread, hgrows, fun name v hnone hv => ?_⟩
  refine (hgrows.added name v hnone hv).imp_left fun ⟨horigin, hfixed⟩ => ⟨horigin, hfixed, ?_⟩
  unfold inferMethod at hv
  split at hv
  next body hbody => exact (introduces_inferBody r hbody).fixed name v hnone hv hfixed
  · rw [hnone] at hv
    cases hv

end Inference

end NativeClass
