import NativeClass.Proofs.Compilation.MethodOrder
import NativeClass.Proofs.Inference.Results
/-!
# What constructors return

A constructor must return none. The check of this rule reads the type hint of the result before any body is typed,
so it says nothing of a constructor without one: there inference takes the type from the values that the body
returns.

* `Function.constructorSignature`: the signature of a constructor before its body is typed.
* `MethodValidator.of_init`: what the check makes sure of.
* `BoundClass.exists_constructor`: the constructor of a class once all signatures are recorded.
* **`BoundClass.constructor_compile`**: the signature of the constructor in a finished type.
* **`BoundClass.constructor_returns_int`**: it need not return none.
-/

namespace NativeClass

open Inference (ReturnsType inferMethod)

/-! ## Signatures -/

/-- The signature of a constructor before its body is typed: a parameter without a type hint is `any`. -/
def Function.constructorSignature (f : Function) : Signature where
  args := f.explicitParams.map fun p => p.hint.getD .any
  ret := f.returns
  kind := f.kind
  isConstructor := true
  isAbstract := f.isAbstract

theorem Function.hint_eq_none_of_not_isAnnotated {f : Function} (h : ¬ f.isAnnotated) :
    f.returns = none ∧ ∀ p ∈ f.explicitParams, p.hint = none := by
  rw [isAnnotated, Bool.or_eq_true, not_or, List.any_eq_true] at h
  refine ⟨by simpa using h.1, fun p hp => ?_⟩
  simpa using fun hsome => h.2 ⟨p, hp, hsome⟩

/-- A constructor takes over no signature of a base, even if it has no type hints. -/
theorem Draft.signature_methodOf_initName (d : Draft) {f : Function} (hname : f.name = initName) :
    (d.methodOf initName f).signature = f.constructorSignature := by
  unfold methodOf Function.declaredSignature?
  by_cases hann : f.isAnnotated
  · rw [if_pos hann, hname]
    rfl
  · rw [if_neg hann]
    have hopen : d.adoptable? initName f = none := by
      rw [adoptable?, Option.filter_eq_none_iff]
      simp
    -- the implied signature is the open one, with `any` for every parameter
    obtain ⟨hret, hhints⟩ := Function.hint_eq_none_of_not_isAnnotated hann
    have hargs : (f.explicitParams.map fun _ => Ty.any) = f.explicitParams.map fun p => p.hint.getD .any :=
      List.map_congr_left fun p hp => by rw [hhints p hp, Option.getD_none]
    show d.impliedSignature initName f = _
    rw [impliedSignature, hopen]
    dsimp only
    rw [openSignature, hargs, Function.constructorSignature, hret]
    rfl

theorem Draft.recordedSignature_of_isConstructor {d : Draft} {m : Method} (h : m.signature.isConstructor) :
    d.recordedSignature m = m.signature := by
  have hknown : ({ d with methods := .empty } : Draft).knownSignature? m.name m.signature = none := by
    rw [knownSignature?, OrderedMap.get?_empty]
    exact if_pos h
  rw [recordedSignature, firstSignature, mergedSignature, hknown]
  rfl

/-! ## The check -/

theorem ValidatorSet.objection?_eq_none_of_mem {set : ValidatorSet} {d : Draft} {ms : List Method}
    (h : set.methodFailures d ms = []) {v : MethodValidator} (hv : v ∈ set.methods) {m : Method} (hm : m ∈ ms) :
    v.objection? m d = none :=
  Option.map_eq_none_iff.mp (List.filterMap_eq_nil_iff.mp (List.flatMap_eq_nil_iff.mp h m hm) v hv)

/-- A constructor that passes the check is an instance method, and a type hint for its result is `noneType`. -/
theorem MethodValidator.of_init {m : Method} {d : Draft} (h : init.objection? m d = none)
    (hname : m.name = initName) :
    m.signature.kind = .instanceMethod ∧ (m.signature.ret = none ∨ m.signature.ret = some .noneType) := by
  simp only [init, if_neg (not_not.mpr hname)] at h
  split at h
  · cases h
  next hkind =>
    refine ⟨not_not.mp hkind, ?_⟩
    split at h
    next hret => exact Or.inl hret
    next hret => exact Or.inr hret
    · cases h

/-! ## The constructor of a class -/

namespace BoundClass

open Compilation

variable {o : CompileOptions} {c : BoundClass} {i : Compilation} {t : NativeType} {f : Function}

/-- **The constructor of a class once all signatures are recorded.** -/
theorem exists_constructor (hv : MethodValidator.init ∈ o.validators.methods)
    (hf : c.source.members.get? initName = some (.function f)) (hname : f.name = initName)
    (hi : (ofClass c).untilMethods o = .ok i) :
    f.kind = .instanceMethod ∧ (f.returns = none ∨ f.returns = some .noneType) ∧
      i.draft.methods.get? initName = some f.constructorSignature ∧
      ∃ m, i.methods.find? (·.name = initName) = some m ∧ m.name = initName ∧ m.func = f := by
  obtain ⟨j, hj, hinstall⟩ := bind_eq_ok_iff.mp hi
  have hprep := (ensures_inferAttributes c).of_ok hj
  have hslots : j.draft.slotTypes.isFrozen = false := by
    rw [hprep.slotTypes]
    rfl
  obtain ⟨hfailures, -, rfl⟩ := (installMethods_eq_ok_iff hprep.dict hslots hprep.methods).mp hinstall
  have hn := j.draft.nodup_initialMethods c.source
  obtain ⟨m, hm, hmname, hmfunc⟩ :=
    exists_method_of_get? (d := j.draft) (Method.Refines.forall₂_refl _) hf (by decide)
  have hsig : m.signature = f.constructorSignature := by
    obtain ⟨e, -, rfl⟩ := List.mem_map.mp hm
    rw [Draft.name_methodOf] at hmname
    rw [Draft.func_methodOf] at hmfunc
    rw [hmname, hmfunc, Draft.signature_methodOf_initName _ hname]
  have hrecorded : j.draft.recordedSignature m = f.constructorSignature := by
    rw [Draft.recordedSignature_of_isConstructor (by rw [hsig]; rfl), hsig]
  obtain ⟨hkind, hret⟩ :=
    MethodValidator.of_init (ValidatorSet.objection?_eq_none_of_mem hfailures hv hm) hmname
  rw [hsig] at hkind hret
  refine ⟨hkind, hret, ?_, { m with signature := j.draft.recordedSignature m }, ?_, hmname, hmfunc⟩
  · rw [← hmname, get?_withMethods _ _ hn hm, hrecorded]
  · rw [methods_withMethods, List.nil_append]
    refine (find?_key_eq_some_iff Method.name ?_).mpr ⟨List.mem_map_of_mem hm, hmname⟩
    rw [List.map_map]
    exact hn

/-- The constructor is typed once, with its recorded signature. -/
theorem exists_typing_constructor (ho : o.backend = .reference) (hv : MethodValidator.init ∈ o.validators.methods)
    (hf : c.source.members.get? initName = some (.function f)) (hname : f.name = initName)
    (hi : (ofClass c).untilAttributes o = .ok i) :
    ∃ r ∈ c.constructorRequests o, r.method.func = f ∧ r.declared = f.constructorSignature ∧
      f.kind = .instanceMethod ∧ (f.returns = none ∨ f.returns = some .noneType) ∧
      ∃ typing, (inferMethod r).result = .ok typing ∧ i.draft.methods.get? initName = some typing.signature := by
  rw [untilAttributes_eq] at hi
  obtain ⟨j, hj, hi⟩ := bind_eq_ok_iff.mp hi
  obtain ⟨k, hinit, hi⟩ := bind_eq_ok_iff.mp hi
  obtain ⟨draft, hdraft, hi⟩ := bind_eq_ok_iff.mp hi
  obtain ⟨attributes, rfl⟩ := Draft.exists_attributes_of_buildAttributes hdraft
  cases hi
  obtain ⟨hkind, hret, hget, m, hfind, hmname, hmfunc⟩ := exists_constructor hv hf hname hj
  obtain ⟨_, slots, hslots, -⟩ := (refines_untilMethods o c).of_ok hj
  rw [typeInit, hfind] at hinit
  obtain ⟨typing, htyping, rfl⟩ := (typeMethod_eq_ok_iff ho (by rw [hslots]; rfl) (hmname ▸ hget)).mp hinit
  refine ⟨j.request o m, ?_, hmfunc, ?_, hkind, hret, typing, htyping, ?_⟩
  · rw [constructorRequests, hj]
    exact List.mem_map_of_mem (Option.mem_toList.mpr hfind)
  · rw [request, hmname, hget]
    rfl
  · exact (get?_withTyping j m typing (j.symbolsAfter o m) initName).trans (if_pos hmname.symm)

theorem get?_initName_of_typeMethods {i' : Compilation} (ho : o.backend = .reference)
    (hi : (ofClass c).untilAttributes o = .ok i) (h : i.typeMethods o = .ok i') :
    i'.draft.methods.get? initName = i.draft.methods.get? initName := by
  obtain ⟨hleaves, -⟩ := leaves_foldlM_typeMethod ho (awaits_members ho hi) ne_initName_of_mem_members h
  refine hleaves.signatures initName fun hmem => ?_
  obtain ⟨m, hm, hinit⟩ := List.mem_map.mp hmem
  exact ne_initName_of_mem_members m hm hinit

/-- **The constructor of a finished type.** It is an instance method, and its type hint for the result is none or
`noneType`. It returns nothing but none exactly if there is a type hint, or if it is abstract, or if all values that
the walk over its body sees returned are none. -/
theorem constructor_compile (ho : o.backend = .reference) (hv : MethodValidator.init ∈ o.validators.methods)
    (hf : c.source.members.get? initName = some (.function f)) (hname : f.name = initName)
    (h : (c.compile o).result = .ok t) :
    ∃ r ∈ c.constructorRequests o, r.method.func = f ∧ ∃ s ret, t.core.methods.get? initName = some s ∧
      s.kind = .instanceMethod ∧ s.isConstructor ∧ s.ret = some ret ∧
      (f.returns = none ∨ f.returns = some .noneType) ∧
      (ret.isSubtype .noneType ↔
        f.returns.isSome ∨ f.isAbstract ∨ ∀ ty, ReturnsType r ty → ty.isSubtype .noneType) ∧
      (f.returns.isSome ∨ f.isAbstract ∨ (∀ ty, ReturnsType r ty → ty = .noneType) → ret = .noneType) := by
  obtain ⟨i, hrun, -, -, hi⟩ := compile_eq_ok (ho ▸ Backend.assemblesAsGiven_reference) h
  obtain ⟨j, i', _, hj, htype, -, -, -, rfl⟩ := exists_halves_of_runInference ho hrun
  obtain ⟨r, hr, rfl, hdeclared, hkind, hret, typing, htyping, hget⟩ :=
    exists_typing_constructor ho hv hf hname hj
  have hget : t.core.methods.get? initName = some typing.signature := by
    rw [hi.methods]
    exact (get?_initName_of_typeMethods ho hj htype).trans hget
  obtain ⟨hrefines, -⟩ := (Inference.ensures_inferMethod r).of_ok htyping
  rw [hdeclared] at hrefines
  have hkind' : typing.signature.kind = .instanceMethod := hrefines.kind.trans hkind
  -- inference keeps a type hint, and looks at the body only without one
  rcases hret with hnone | hsome
  · have hopen : r.declared.ret = none := by
      rw [hdeclared]
      exact hnone
    obtain ⟨ret, hret, hiff, heq⟩ := Inference.exists_ret_of_inferMethod htyping hopen
    refine ⟨r, hr, rfl, typing.signature, ret, hget, hkind', hrefines.isConstructor, hret, Or.inl hnone, ?_, ?_⟩
    · rw [hnone, hiff]
      exact (or_iff_right Bool.false_ne_true).symm
    · exact fun hall => heq (hall.resolve_left (by simp [hnone]))
  · have hret : typing.signature.ret = some .noneType := hrefines.ret _ hsome
    have hhint : r.method.func.returns.isSome := by simp [hsome]
    exact ⟨r, hr, rfl, typing.signature, .noneType, hget, hkind', hrefines.isConstructor, hret, Or.inr hsome,
      iff_of_true (Ty.isSubtype_refl _) (Or.inl hhint), fun _ => rfl⟩

end BoundClass

/-! ## Constructors that return -/

namespace Sample

open Python (Expr Stmt)

/-- A class whose constructor may return early. -/
def gate : BoundClass :=
  classOf "Gate" [plainMethod initName
    [.branch default (.literal default .bool) [.ret default none] [],
      storeInto "width" (.literal default .int)]] []

/-- A class whose constructor returns a number. -/
def box : BoundClass :=
  classOf "Box" [plainMethod initName [returnOf .int]] []

theorem compile_gate : (gate.compile .standard).result = .ok (typeOf .standard gate) :=
  compile_eq (by decide +kernel)

theorem compile_box : (box.compile .standard).result = .ok (typeOf .standard box) :=
  compile_eq (by decide +kernel)

theorem checksConstructors : MethodValidator.init ∈ CompileOptions.standard.validators.methods := by
  simp [CompileOptions.standard, ValidationConfig.validators, MethodValidator.standard]

end Sample

namespace BoundClass

open Sample

theorem constructor_compile_gate :
    ∃ s, (typeOf .standard gate).core.methods.get? initName = some s ∧
      s.kind = .instanceMethod ∧ s.isConstructor ∧ s.ret = some .noneType := by
  obtain ⟨r, -, hfunc, s, ret, hget, hkind, hctor, hret, -, -, hnone⟩ :=
    constructor_compile (c := gate) rfl checksConstructors rfl rfl compile_gate
  refine ⟨s, hget, hkind, hctor, ?_⟩
  rw [hret, hnone (Or.inr (Or.inr fun ty hty => ?_))]
  obtain ⟨body, hbody, before, span, value, after, _, hsplit, -, htype⟩ := hty
  rw [hfunc] at hbody
  cases hbody
  -- the only `return` statement of the body returns no value
  have hmem := hsplit ▸ List.mem_append_right before List.mem_cons_self
  have hvalue : value = none := by
    simp [Inference.reached, Inference.reachedIn, storeInto] at hmem
    exact hmem.2
  rw [hvalue] at htype
  exact (Except.ok.inj htype).symm

/-- **A constructor without a type hint may return a number**, with all usual checks. -/
theorem constructor_returns_int :
    (box.compile .standard).result = .ok (typeOf .standard box) ∧
      ((typeOf .standard box).core.methods.get? initName).map Signature.ret = some (some .int) :=
  ⟨compile_box, by decide +kernel⟩

end BoundClass

end NativeClass
