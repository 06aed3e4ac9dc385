import NativeClass.Proofs.Compilation.StoredValues
import NativeClass.Proofs.Draft.Validation
import NativeClass.Proofs.NativeType.SlotOrigin
/-!
# Abstract methods

A signature is copied several times before its slot is fixed: from the type hints or from an inherited slot, then
by reconciliation with what is recorded, then by inference. Whether it is abstract always follows the function.

* `Draft.isAbstract_methodOf`: the method of a function is abstract exactly if the function is.
* `Compilation.Inferred.isAbstract_iff`: so is the signature that inference leaves.
* `Compilation.Completes.isAbstract_iff`: and so is the slot, if it is the class's own.
* **`BoundClass.isAbstract_slot_iff`**: which slots of a finished type are abstract.
-/

namespace NativeClass

/-- The class body defines a function under the name and marks it as abstract. -/
def ClassSource.DefinesAbstract (c : ClassSource) (name : String) : Prop :=
  ∃ f, c.members.get? name = some (.function f) ∧ f.isAbstract

/-- The last base with a slot of the name has an abstract one. -/
def LastIsAbstract (bases : List NativeType) (name : String) : Prop :=
  ∃ b, LastWithSlot bases name b ∧ ∃ s ∈ b.vtable.slots, s.name = name ∧ s.signature.isAbstract

/-- A function without type hints takes over a signature of a base, but not whether it is abstract. -/
theorem Draft.isAbstract_methodOf (d : Draft) (name : String) (f : Function) :
    (d.methodOf name f).signature.isAbstract = f.isAbstract := by
  unfold methodOf
  split
  next s hs =>
    unfold Function.declaredSignature? at hs
    split at hs <;> cases hs
    rfl
  · show (d.impliedSignature name f).isAbstract = _
    unfold impliedSignature
    split <;> rfl

/-! ## After inference -/

namespace Compilation

variable {c : BoundClass} {i : Compilation} {t : NativeType} {name : String} {s : Signature}

/-- **The signature that inference leaves is abstract exactly if the function of the class body is.** -/
theorem Inferred.isAbstract_iff (h : Inferred c i) (hs : i.draft.methods.get? name = some s) :
    s.isAbstract ↔ c.source.DefinesAbstract name := by
  have hname := OrderedMap.mem_keys_of_get? hs
  rw [h.keys] at hname
  obtain ⟨m, hm, rfl⟩ := List.mem_map.mp hname
  rw [h.signed m hm, Option.some.injEq] at hs
  subst hs
  obtain ⟨d, hrefines⟩ := h.refines
  have hfunc : c.source.members.get? m.name = some (.function m.func) := get?_of_refines hrefines hm
  -- reconciliation and inference keep the mark that the method was made with
  have habstract : m.signature.isAbstract = m.func.isAbstract := by
    obtain ⟨old, hold, hr⟩ := exists_of_forall₂_of_mem hrefines hm
    obtain ⟨e, -, rfl⟩ := List.mem_map.mp hold
    rw [hr.signature.isAbstract, d.isAbstract_methodOf, hr.func, d.func_methodOf]
  rw [habstract]
  refine ⟨fun hm => ⟨m.func, hfunc, hm⟩, fun ⟨f, hf, habs⟩ => ?_⟩
  rw [hfunc, Option.some.injEq, Declaration.function.injEq] at hf
  exact hf ▸ habs

/-- A class whose methods are concrete passes the check of abstract methods only if no slot is abstract. -/
theorem Completes.isAbstract_eq_false (h : Completes c i t)
    (hv : DraftValidator.abstractMethod.objection? i.draft = none)
    (hown : ∀ name, name ≠ newName → ¬ c.source.DefinesAbstract name) {slot : VTableSlot}
    (hs : slot ∈ t.vtable.slots) : slot.signature.isAbstract = false := by
  have hget : i.draft.slotTypes.get? slot.name = some slot.signature := by
    have hslot := h.get?_of_mem_slots hs
    rwa [h.slotTypes_eq] at hslot
  refine Draft.isAbstract_eq_false_of_abstractMethod hv (fun s hs => ?_) hget
  obtain ⟨e, he, rfl⟩ := List.mem_map.mp hs
  have hsigned : i.draft.methods.get? e.1 = some e.2 := OrderedMap.get?_eq_some_iff.mpr he
  have hname := OrderedMap.mem_keys_of_get? hsigned
  rw [h.inferred.keys, h.inferred.map_name, ClassSource.mem_methodNames_iff] at hname
  rw [Bool.eq_false_iff, ne_eq, h.inferred.isAbstract_iff hsigned]
  exact hown e.1 hname.2

/-- A slot of the class is abstract exactly if the class body marks its method, any other one if that of the last base
is. -/
theorem Completes.isAbstract_iff (h : Completes c i t) (hb : ∀ b ∈ c.extensionBases, b.Finished) {slot : VTableSlot}
    (hs : slot ∈ t.vtable.slots) : slot.signature.isAbstract ↔
      c.source.DefinesSlot slot.name ∧ c.source.DefinesAbstract slot.name ∨
        ¬ c.source.DefinesSlot slot.name ∧ LastIsAbstract c.extensionBases slot.name := by
  by_cases hd : c.source.DefinesSlot slot.name
  · have hown := (h.isOwn hs hd).signature
    rw [h.methods] at hown
    rw [h.inferred.isAbstract_iff hown, and_iff_right hd]
    exact (or_iff_left fun hbase => hbase.1 hd).symm
  · obtain ⟨b, hlast, ⟨s', hs', hname, hsig⟩, -⟩ := h.exists_inheritsSignature hb hs hd
    constructor
    · exact fun habstract => Or.inr ⟨hd, b, hlast, s', hs', hname, hsig ▸ habstract⟩
    · rintro (⟨hslot, -⟩ | ⟨-, b', hlast', s'', hmem, hname', habstract⟩)
      · exact absurd hslot hd
      · -- there is only one last base, and it has only one slot of the name
        obtain rfl := hlast.unique hlast'
        obtain ⟨before, after, hsplit, -⟩ := hlast
        have hfin : b.Finished := hb b (hsplit ▸ List.mem_append_right before List.mem_cons_self)
        obtain rfl := hfin.eq_of_name hs' hmem (hname.trans hname'.symm)
        exact hsig ▸ habstract

end Compilation

/-! ## Slots -/

namespace BoundClass

open Compilation

variable {c : BoundClass} {o : CompileOptions} {t : NativeType}

/-- **Which slots are abstract.** A slot is abstract exactly if the class body marks its method as abstract, or if
the body does not define the method and the last base that has it has an abstract one; a function that is taken for a
constructor does not count as a definition. If abstract methods are checked and the body marks none, then no slot is
abstract. -/
theorem isAbstract_slot_iff (ho : o.backend = .reference) (hb : ∀ b ∈ c.extensionBases, b.Finished)
    (h : (c.compile o).result = .ok t) :
    (∀ s ∈ t.vtable.slots, s.signature.isAbstract ↔
      c.source.DefinesSlot s.name ∧ c.source.DefinesAbstract s.name ∨
        ¬ c.source.DefinesSlot s.name ∧ LastIsAbstract c.extensionBases s.name) ∧
      (DraftValidator.abstractMethod ∈ o.validators.drafts →
        (∀ name, name ≠ newName → ¬ c.source.DefinesAbstract name) →
          ∀ s ∈ t.vtable.slots, s.signature.isAbstract = false) := by
  obtain ⟨i, hi, hvalid⟩ := exists_completes ho h
  refine ⟨fun s hs => hi.isAbstract_iff hb hs, fun hv hown s hs => ?_⟩
  exact hi.isAbstract_eq_false (ValidatorSet.objection?_eq_none hvalid hv) hown hs

end BoundClass

/-! ## Classes with abstract methods -/

namespace Sample

/-- A declaration with its function marked as abstract. -/
def marked : String × Declaration → String × Declaration
  | (name, .function f) => (name, .function { f with isAbstract := true })
  | e => e

/-- A class with an abstract method. -/
def figure : BoundClass :=
  classOf "Figure" [marked (method "area" [] (some .float)), method "label" [] (some .str)] []

/-- A class that implements the one method and marks the other one as abstract. -/
def polygon : BoundClass :=
  classOf "Polygon" [method "area" [] none, marked (method "label" [] none)] [.extension (typeOf options figure)]

/-- A class that implements what is left. -/
def triangle : BoundClass :=
  classOf "Triangle" [method "label" [] none] [.extension (typeOf options polygon)]

theorem compile_figure : (figure.compile options).result = .ok (typeOf options figure) :=
  compile_eq (by decide +kernel)

theorem compile_polygon : (polygon.compile options).result = .ok (typeOf options polygon) :=
  compile_eq (by decide +kernel)

theorem compile_triangle : (triangle.compile options).result = .ok (typeOf options triangle) :=
  compile_eq (by decide +kernel)

theorem finished_figure : (typeOf options figure).Finished :=
  .ofCompile rfl (List.forall_mem_nil _) compile_figure

theorem finished_polygon : (typeOf options polygon).Finished :=
  .ofCompile (c := polygon) rfl (List.forall_mem_singleton.mpr finished_figure) compile_polygon

end Sample

open Sample in
/-- Of the two slots one is inherited and the other one was abstract in the base. -/
theorem BoundClass.isAbstract_slot_iff_triangle :
    (typeOf options polygon).vtable.slots.map (fun s => (s.name, s.signature.isAbstract)) =
        [("area", false), ("label", true)] ∧
      (typeOf options triangle).vtable.slots.map VTableSlot.name = ["area", "label"] ∧
      ∀ s ∈ (typeOf options triangle).vtable.slots, s.signature.isAbstract = false := by
  have h := isAbstract_slot_iff (c := triangle) rfl (List.forall_mem_singleton.mpr finished_polygon) compile_triangle
  refine ⟨by decide +kernel, by decide +kernel, h.2 (by simp [options, ValidationConfig.validators]) ?_⟩
  rintro name - ⟨f, hf, habstract⟩
  have hall : ∀ e ∈ triangle.source.members.entries, e.2.function?.all (!·.isAbstract) := by decide
  have hconcrete := hall _ (OrderedMap.get?_eq_some_iff.mp hf)
  rw [Declaration.function?, Option.all_some, habstract] at hconcrete
  cases hconcrete

namespace Sample

/-- The engines of this library without the check of abstract methods. -/
def lenient : CompileOptions :=
  { options with validators := ValidationConfig.validators { abstractMethods := false } }

/-- A class with a function `__init__` that is not abstract, under the name of an abstract slot. -/
def prism : BoundClass :=
  classOf "Prism" [underName "area" (method "__init__" [] (some .float))] [.extension (typeOf options figure)]

theorem compile_prism : (prism.compile lenient).result = .ok (typeOf lenient prism) :=
  compile_eq (by decide +kernel)

end Sample

open Sample in
/-- **A slot can stay abstract although the class defines its method.** -/
theorem BoundClass.abstractSlot_prism :
    (∀ b ∈ prism.extensionBases, b.Finished) ∧ (prism.compile lenient).result = .ok (typeOf lenient prism) ∧
      prism.source.DefinesMethod "area" ∧ ¬ prism.source.DefinesAbstract "area" ∧
      ∃ s ∈ (typeOf lenient prism).vtable.slots, s.name = "area" ∧ s.signature.isAbstract := by
  refine ⟨List.forall_mem_singleton.mpr finished_figure, compile_prism, ⟨_, rfl⟩, ?_, by decide +kernel⟩
  rintro ⟨f, hf, habstract⟩
  cases hf
  cases habstract

end NativeClass
