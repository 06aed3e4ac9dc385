import NativeClass.Proofs.Compilation.Records
/-!
# Compilations after inference

* `Compilation.Inferred`: what a class and the compilation that its inference leaves have in common.
* **`Compilation.ensures_runInference`**: inference leaves such a compilation or rejects the class as it is
  written.
* **`Compilation.Inferred.definesSlot_iff`**: the methods of the class that get a slot.
-/

namespace NativeClass

open CompileError (RejectsSource)

namespace Compilation

variable {o : CompileOptions} {c : BoundClass} {i : Compilation} {m : Method} {name : String}

/-- What holds of a class and of the compilation that its inference leaves. -/
structure Inferred (c : BoundClass) (i : Compilation) : Prop extends Framed c i where
  /-- Every method is a later version of a function of the class body. -/
  refines : ∃ d : Draft, List.Forall₂ Method.Refines i.methods (d.initialMethods c.source.dict)
  keys : i.draft.methods.keys = i.methods.map Method.name
  signed : ∀ m ∈ i.methods, i.draft.methods.get? m.name = some m.signature
  /-- A method agrees with the slot of a base that it overrides. -/
  fits : ∀ m ∈ i.methods, m.signature.isConstructor = false → ∀ s,
    (Draft.mergeBases c.extensionBases NativeType.slotTypes).get? m.name = some s → m.signature.Fits s
  /-- No method was left out. -/
  typed : ∀ m ∈ i.methods, ∃ t, i.typings.get? m.name = some t ∧ t.signature = m.signature ∧
    m.signature.isResolved

/-! ## The stages of inference -/

variable {slots : Table.Builder Signature} {ms : List Method}

theorem ensures_typeInit (ho : o.backend = .reference) (hs : i.draft.slotTypes.isFrozen = false)
    (h : Records slots i ms) (hn : (ms.map Method.name).Nodup) :
    Ensures (i.typeInit o)
      (fun i' => Records slots i' ms ∧
        (initName ∈ ms.map Method.name → (i'.typings.get? initName).isSome))
      RejectsSource := by
  have hnames := Method.Refines.map_name h.refines
  unfold typeInit
  split
  next m hm =>
    have hmem := List.mem_of_find?_eq_some hm
    have hname : m.name = initName := by simpa using List.find?_some hm
    refine (ensures_typeMethod ho hs h.self (hnames ▸ hn) hmem).mono fun i' h' => ?_
    exact ⟨h'.1.trans h.refines, fun _ => (h'.2 initName).mpr (Or.inl hname.symm)⟩
  next hnone =>
    refine ensures_ok.mpr ⟨h, fun hinit => ?_⟩
    rw [← hnames] at hinit
    obtain ⟨m, hm, hname⟩ := List.mem_map.mp hinit
    exact absurd (decide_eq_true hname) (List.find?_eq_none.mp hnone m hm)

theorem ensures_typeMethods (ho : o.backend = .reference) (hs : i.draft.slotTypes.isFrozen = false)
    (h : Records slots i ms) (hn : (ms.map Method.name).Nodup) (hnew : newName ∉ ms.map Method.name) :
    Ensures (i.typeMethods o)
      (fun i' => Records slots i' ms ∧ ∀ name ∈ ms.map Method.name,
        name ≠ initName ∨ (i.typings.get? initName).isSome → (i'.typings.get? name).isSome)
      RejectsSource := by
  have hnames := Method.Refines.map_name h.refines
  refine (ensures_typeAll ho hs h.self (hnames ▸ hn) fun m hm => (List.mem_filter.mp hm).1).mono
    fun i' h' => ?_
  obtain ⟨hrec, hknown⟩ := h'
  refine ⟨hrec.trans h.refines, fun name hname hor => (hknown name).mpr ?_⟩
  by_cases hinit : name = initName
  · exact Or.inr (hinit ▸ hor.resolve_left (not_not.mpr hinit))
  · have hne : name ≠ newName := fun he => hnew (he ▸ hname)
    rw [← hnames] at hname
    obtain ⟨m, hm, rfl⟩ := List.mem_map.mp hname
    exact Or.inl (List.mem_map_of_mem (List.mem_filter.mpr ⟨hm, decide_eq_true ⟨hinit, hne⟩⟩))

/-! ## Inference as a whole -/

/-- Inference records all methods of the class and types each of them. -/
theorem records_runInference (ho : o.backend = .reference) (c : BoundClass) :
    Ensures ((ofClass c).runInference o)
      (fun i => ∃ d : Draft,
        Records (Draft.mergeBases c.extensionBases NativeType.slotTypes) i
          (d.initialMethods c.source.dict) ∧
        ∀ name ∈ (d.initialMethods c.source.dict).map Method.name, (i.typings.get? name).isSome)
      RejectsSource := by
  refine (ensures_inferAttributes c).bind fun i₁ h₁ => ?_
  refine ((ensures_installMethods c.source h₁.dict h₁.slotTypes h₁.typings h₁.methods).and
    (sameFrame_installMethods o i₁)).bind fun i₂ h₂ => ?_
  obtain ⟨⟨-, h₂⟩, hf₂⟩ := h₂
  have hnames := i₁.draft.map_name_initialMethods c.source
  have hn := i₁.draft.nodup_initialMethods c.source
  have hnew : newName ∉ (i₁.draft.initialMethods c.source.dict).map Method.name := by
    rw [hnames]
    exact fun h => absurd rfl (of_decide_eq_true (List.mem_filter.mp h).2)
  have hs₂ : i₂.draft.slotTypes.isFrozen = false := by
    rw [hf₂.slotTypes, h₁.slotTypes]
    rfl
  refine ((ensures_typeInit ho hs₂ h₂ hn).and (sameFrame_typeInit o i₂)).bind fun i₃ h₃ => ?_
  obtain ⟨⟨h₃, hinit⟩, hf₃⟩ := h₃
  have hf := hf₂.trans hf₃
  rw [Draft.buildAttributes_eq (hf.attributes.trans h₁.attributes)]
  -- filling the attribute table does not touch what is recorded of the methods
  have hs₃ : i₃.draft.slotTypes.isFrozen = false := by rw [hf₃.slotTypes, hs₂]
  have htype := fun attributes =>
    (ensures_typeMethods (i := { i₃ with draft := { i₃.draft with attributes } }) ho hs₃
      ⟨h₃.refines, h₃.keys, h₃.signed, h₃.fits, h₃.typed⟩ hn hnew).and (sameFrame_typeMethods o _)
  refine (htype _).bind fun i₄ h₄ => ?_
  obtain ⟨⟨h₄, hall⟩, hf₄, -⟩ := h₄
  rw [Draft.buildSlots_eq (hf₄.slotTypes.trans (hf.slotTypes.trans h₁.slotTypes))]
  refine ensures_ok.mpr ⟨i₁.draft, ⟨h₄.refines, h₄.keys, h₄.signed, h₄.fits, h₄.typed⟩,
    fun name hname => hall name hname ?_⟩
  by_cases h : name = initName
  · exact Or.inr (hinit (h ▸ hname))
  · exact Or.inl h

/-- **Inference leaves a compilation in which everything agrees, or it rejects the class as it is
written.** -/
theorem ensures_runInference (ho : o.backend = .reference) (c : BoundClass) :
    Ensures ((ofClass c).runInference o) (Inferred c) RejectsSource := by
  refine ((records_runInference ho c).and (framed_runInference o c)).mono fun i h => ?_
  obtain ⟨⟨d, hrec, hall⟩, hframed⟩ := h
  have hnames := Method.Refines.map_name hrec.refines
  refine
    { toFramed := hframed
      refines := ⟨d, hrec.refines⟩
      keys := hrec.keys.trans hnames.symm
      signed := hrec.signed
      fits := hrec.fits
      typed := fun m hm => ?_ }
  have hsome : (i.typings.get? m.name).isSome := hall m.name (hnames ▸ List.mem_map_of_mem hm)
  obtain ⟨t, ht⟩ := Option.isSome_iff_exists.mp hsome
  exact ⟨t, ht, hrec.typed m hm t ht⟩

/-! ## Methods after inference -/

variable {ms : List Method}

theorem get?_of_refines {d : Draft} (h : List.Forall₂ Method.Refines ms (d.initialMethods c.source.dict))
    (hm : m ∈ ms) : c.source.members.get? m.name = some (.function m.func) := by
  obtain ⟨old, hold, hrefines⟩ := exists_of_forall₂_of_mem h hm
  obtain ⟨e, he, rfl⟩ := List.mem_map.mp hold
  rw [hrefines.name, hrefines.func, d.name_methodOf, d.func_methodOf]
  exact ClassSource.get?_of_mem_methodFunctions he

theorem exists_method_of_get? {d : Draft} (h : List.Forall₂ Method.Refines ms (d.initialMethods c.source.dict))
    {name : String} {f : Function} (hf : c.source.members.get? name = some (.function f)) (hnew : name ≠ newName) :
    ∃ m ∈ ms, m.name = name ∧ m.func = f := by
  have hname : name ∈ ms.map Method.name := by
    rw [Method.Refines.map_name h, d.map_name_initialMethods]
    refine List.mem_filter.mpr ⟨?_, decide_eq_true hnew⟩
    exact List.mem_map_of_mem (f := Prod.fst)
      (List.mem_filter.mpr ⟨OrderedMap.get?_eq_some_iff.mp hf, rfl⟩)
  obtain ⟨m, hm, rfl⟩ := List.mem_map.mp hname
  have hget := get?_of_refines h hm
  rw [hf, Option.some.injEq, Declaration.function.injEq] at hget
  exact ⟨m, hm, rfl, hget.symm⟩

namespace Inferred

variable {s : Signature}

theorem map_name (h : Inferred c i) : i.methods.map Method.name = c.source.methodNames := by
  obtain ⟨d, hrefines⟩ := h.refines
  rw [Method.Refines.map_name hrefines, d.map_name_initialMethods]

theorem mem_slotMethods_iff (h : Inferred c i) :
    (name, s) ∈ i.draft.slotMethods ↔
      ∃ m ∈ i.methods, m.name = name ∧ m.signature = s ∧ s.isConstructor = false := by
  have hctor : ∀ e : String × Signature,
      e ∈ i.draft.slotMethods ↔ e ∈ i.draft.methods.entries ∧ e.2.isConstructor = false := by
    intro e
    rw [Draft.slotMethods, List.mem_filter, Bool.not_eq_true']
  rw [hctor, ← OrderedMap.get?_eq_some_iff]
  constructor
  · rintro ⟨hget, hs⟩
    have hname := OrderedMap.mem_keys_of_get? hget
    rw [h.keys] at hname
    obtain ⟨m, hm, rfl⟩ := List.mem_map.mp hname
    rw [h.signed m hm, Option.some.injEq] at hget
    exact ⟨m, hm, rfl, hget, hs⟩
  · rintro ⟨m, hm, rfl, rfl, hs⟩
    exact ⟨h.signed m hm, hs⟩

theorem lookup_slotMethods_iff (h : Inferred c i) :
    i.draft.slotMethods.lookup name = some s ↔
      ∃ m ∈ i.methods, m.name = name ∧ m.signature = s ∧ s.isConstructor = false := by
  rw [OrderedMap.lookup_eq_some_iff i.draft.nodup_slotMethods, h.mem_slotMethods_iff]

theorem isConstructor_eq (h : Inferred c i) (hm : m ∈ i.methods) :
    m.signature.isConstructor = m.func.isConstructorUnder m.name := by
  obtain ⟨d, hrefines⟩ := h.refines
  obtain ⟨old, hold, hr⟩ := exists_of_forall₂_of_mem hrefines hm
  obtain ⟨⟨name, f⟩, -, rfl⟩ := List.mem_map.mp hold
  rw [hr.signature.isConstructor, d.isConstructor_methodOf, hr.func, d.func_methodOf, hr.name, d.name_methodOf]

/-- **The methods that get a slot** are the functions of the body that are not taken for constructors. -/
theorem definesSlot_iff (h : Inferred c i) :
    c.source.DefinesSlot name ↔ ∃ m ∈ i.methods, m.name = name ∧ m.signature.isConstructor = false := by
  obtain ⟨d, hrefines⟩ := h.refines
  constructor
  · rintro ⟨f, hf, hnew, hctor⟩
    obtain ⟨m, hm, rfl, rfl⟩ := exists_method_of_get? hrefines hf hnew
    exact ⟨m, hm, rfl, (h.isConstructor_eq hm).trans hctor⟩
  · rintro ⟨m, hm, rfl, hctor⟩
    have hname : m.name ∈ c.source.methodNames := h.map_name ▸ List.mem_map_of_mem hm
    exact ⟨m.func, get?_of_refines hrefines hm, (ClassSource.mem_methodNames_iff.mp hname).2,
      (h.isConstructor_eq hm).symm.trans hctor⟩

theorem mem_map_fst_slotMethods_iff (h : Inferred c i) :
    name ∈ i.draft.slotMethods.map Prod.fst ↔ c.source.DefinesSlot name := by
  rw [h.definesSlot_iff, List.mem_map]
  constructor
  · rintro ⟨⟨name, s⟩, hmem, rfl⟩
    obtain ⟨m, hm, hname, rfl, hctor⟩ := h.mem_slotMethods_iff.mp hmem
    exact ⟨m, hm, hname, hctor⟩
  · rintro ⟨m, hm, rfl, hctor⟩
    exact ⟨(m.name, m.signature), h.mem_slotMethods_iff.mpr ⟨m, hm, rfl, rfl, hctor⟩, rfl⟩

end Inferred

end Compilation

end NativeClass
