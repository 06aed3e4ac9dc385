import NativeClass.Proofs.Inference.Returns
import NativeClass.Proofs.Ty.NoneType
/-!
# The results that a walk collects

A walk collects the type of every value that it sees returned, and nothing else. Without a type hint these types
decide whether a method returns anything but none.

* `Inference.Collects`, `Inference.ReturnsType`: a value of a type is returned, as far as a walk comes to it.
* `Inference.returns_of_visit`: what one visit adds to the results.
* **`Inference.mem_returns_iff`**: the results of a walk.
* **`Inference.exists_ret_of_inferMethod`**: the return type of a method without a type hint for it.
-/

namespace NativeClass.Inference

open Python (Expr Stmt)

variable {c : BodyContext} {s s' : Scope} {stmts block : List Stmt} {stmt : Stmt} {ty : Ty} {r : TypingRequest}

/-- One of the statements returns a value, and the value has this type in the scope that the visits before it
leave. -/
def Collects (c : BodyContext) (s : Scope) (stmts : List Stmt) (ty : Ty) : Prop :=
  ∃ before span value after s₁, stmts = before ++ .ret span value :: after ∧
    before.foldlM (visit c) s = .ok s₁ ∧ returnedType c s₁ value = .ok ty

/-- The walk over the body of a method sees a value of the type returned. -/
def ReturnsType (r : TypingRequest) (ty : Ty) : Prop :=
  ∃ body, r.method.func.body = some body ∧
    Collects (bodyContext r body.lines) (initialScope r) (reached body.statements) ty

/-! ## Visits -/

theorem Collects.append (h : Collects c s stmts ty) (more : List Stmt) : Collects c s (stmts ++ more) ty := by
  obtain ⟨before, span, value, after, s₁, rfl, hbefore, hty⟩ := h
  exact ⟨before, span, value, after ++ more, s₁, by rw [List.append_assoc, List.cons_append], hbefore, hty⟩

/-- A visit adds the type of a returned value to the results, or it leaves them alone. -/
theorem returns_of_visit (h : visit c s stmt = .ok s') :
    s'.returns = s.returns ∨
      ∃ span value ty, stmt = .ret span value ∧ returnedType c s value = .ok ty ∧ s' = s.addReturn ty := by
  rcases visit_eq_foldlM c s stmt with ⟨span, value, rfl⟩ | hvisit
  · rw [visit_ret, bind_eq_ok_iff] at h
    obtain ⟨ty, hty, hs'⟩ := h
    exact Or.inr ⟨span, value, ty, rfl, attempt_eq_ok_iff.mp hty, (Except.ok.inj hs').symm⟩
  · rw [hvisit, bind_eq_ok_iff] at h
    obtain ⟨ws, -, hws⟩ := h
    exact Or.inl (returns_foldlM_write hws)

theorem collects_of_mem_returns (h : stmts.foldlM (visit c) s = .ok s') (hty : ty ∈ s'.returns) :
    ty ∈ s.returns ∨ Collects c s stmts ty := by
  refine ((ensures_foldlM (E := fun _ => True) (fun dealt (s₁ : Scope) =>
    dealt.foldlM (visit c) s = .ok s₁ ∧ ∀ ty ∈ s₁.returns, ty ∈ s.returns ∨ Collects c s dealt ty)
    ⟨rfl, fun _ => Or.inl⟩ ?_).of_ok h).2 ty hty
  rintro dealt stmt rest s₁ - ⟨hrun, hknown⟩
  cases hvisit : visit c s₁ stmt with
  | error halt => exact ensures_error.mpr trivial
  | ok s₂ =>
    refine ensures_ok.mpr ⟨?_, fun ty hty => ?_⟩
    · rw [List.foldlM_append, hrun, ← hvisit]
      show [stmt].foldlM (visit c) s₁ = _
      rw [List.foldlM_cons]
      exact bind_pure _
    · rcases returns_of_visit hvisit with hsame | ⟨span, value, last, rfl, hlast, rfl⟩
      · rw [hsame] at hty
        exact (hknown ty hty).imp_right fun hc => hc.append [stmt]
      · rcases List.mem_append.mp hty with hty | hty
        · exact (hknown ty hty).imp_right fun hc => hc.append _
        · rw [List.mem_singleton.mp hty]
          exact Or.inr ⟨dealt, span, value, [], s₁, rfl, hrun, hlast⟩

/-- **The results of a walk are those it starts with and the types of all values that it sees returned.** -/
theorem mem_returns_iff (h : walkAll c s block = .ok s') :
    ty ∈ s'.returns ↔ ty ∈ s.returns ∨ Collects c s (reached block) ty := by
  have hrun : (reached block).foldlM (visit c) s = .ok s' := walkAll_eq_foldlM c s block ▸ h
  constructor
  · exact collects_of_mem_returns hrun
  · rintro (hty | ⟨before, span, value, after, s₁, hsplit, hbefore, hty⟩)
    · exact (returns_foldlM_visit hrun).subset hty
    · obtain ⟨s₂, ty', hbefore', hty', hmem⟩ := mem_returns_of_walkAll h hsplit
      rw [hbefore] at hbefore'
      cases hbefore'
      rw [hty] at hty'
      cases hty'
      exact hmem

/-! ## Methods without a type hint for the result -/

theorem not_returnsType_of_body_eq_none (hbody : r.method.func.body = none) : ¬ ReturnsType r ty := by
  rintro ⟨body, hsome, -⟩
  rw [hbody] at hsome
  cases hsome

/-- The results of the whole body are the values that the walk sees returned. -/
theorem mem_returns_iff_returnsType {body : FunctionBody} (hbody : r.method.func.body = some body)
    (h : walkAll (bodyContext r body.lines) (initialScope r) body.statements = .ok s) :
    ty ∈ s.returns ↔ ReturnsType r ty := by
  rw [mem_returns_iff h]
  constructor
  · exact fun hty => ⟨body, hbody, hty.resolve_left List.not_mem_nil⟩
  · rintro ⟨body', hbody', hty⟩
    rw [hbody] at hbody'
    cases hbody'
    exact Or.inr hty

/-- Running off the end of a body adds none to its results. -/
theorem forall_mem_resultTypes_iff {P : Ty → Prop} {fallsThrough : Bool} (hnone : P .noneType) :
    (∀ ty ∈ resultTypes s fallsThrough, P ty) ↔ ∀ ty ∈ s.returns, P ty := by
  unfold resultTypes
  split
  · rw [List.forall_mem_append, List.forall_mem_singleton]
    exact and_iff_left hnone
  · rfl

/-- **Without a type hint a method returns nothing but none exactly if it is abstract or all values that it returns
are none.** It need not be `noneType` itself then, as a value of the empty type may be returned. -/
theorem exists_ret_of_inferMethod {t : Typing} (h : (inferMethod r).result = .ok t) (hnone : r.declared.ret = none) :
    ∃ ret, t.signature.ret = some ret ∧
      (ret.isSubtype .noneType ↔
        r.method.func.isAbstract ∨ ∀ ty, ReturnsType r ty → ty.isSubtype .noneType) ∧
      (r.method.func.isAbstract ∨ (∀ ty, ReturnsType r ty → ty = .noneType) → ret = .noneType) := by
  cases hbody : r.method.func.body with
  | none =>
    simp only [inferMethod, hbody] at h
    cases h
    have hquiet : ∀ ty, ReturnsType r ty → ty.isSubtype .noneType := fun ty hty =>
      absurd hty (not_returnsType_of_body_eq_none hbody)
    rw [hnone]
    exact ⟨.noneType, rfl, iff_of_true (Ty.isSubtype_refl _) (Or.inr hquiet), fun _ => rfl⟩
  | some body =>
    simp only [inferMethod, hbody, inferBody] at h
    split at h
    · cases h
    next s hwalk =>
      obtain ⟨ret, hret, rfl⟩ := map_eq_ok_iff.mp h
      refine ⟨ret, rfl, ?_⟩
      unfold resolveReturn at hret
      simp only [hnone, Option.getD_none] at hret
      split at hret
      next habstract =>
        -- the values that the body of an abstract method returns do not count
        cases hret
        exact ⟨iff_of_true (Ty.isSubtype_refl _) (Or.inl habstract), fun _ => rfl⟩
      next hconcrete =>
        cases hret
        have hreturns : ∀ ty, ty ∈ s.returns ↔ ReturnsType r ty := fun _ =>
          mem_returns_iff_returnsType hbody hwalk
        constructor
        · rw [Ty.joinAll?_isSubtype_noneType_iff, forall_mem_resultTypes_iff (Ty.isSubtype_refl _),
            or_iff_right hconcrete]
          exact forall_congr' fun ty => imp_congr_left (hreturns ty)
        · intro hall
          have hnones : ∀ ty ∈ s.returns, ty = .noneType := fun ty hty =>
            hall.resolve_left hconcrete ty ((hreturns ty).mp hty)
          exact Ty.joinAll?_eq_noneType ((forall_mem_resultTypes_iff (P := (· = .noneType)) rfl).mpr hnones)

end NativeClass.Inference
