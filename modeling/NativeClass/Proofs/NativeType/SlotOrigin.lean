import NativeClass.Proofs.Compilation.Attributes
import NativeClass.Proofs.NativeType.Finished
/-!
# Where a slot comes from

Signatures are merged through the tables of the bases, entry points through a map made from their dispatch
tables. Both merges take a slot from the same class.

* `VTableSlot.IsOwn`, `VTableSlot.InheritsSignature`: the slot of a type is that of its class, or has the signature
  of a base's slot.
* `LastWithSlot`: the last base whose dispatch table has a slot.
* `Compilation.Completes.isOwn`, `Compilation.Completes.exists_lastWithSlot`: the two ways to a slot.
* **`BoundClass.slots_of_one_class`**: signature, entry point and origin of every slot come from one class, unless a
  function is taken for a constructor over a slot.
-/

namespace NativeClass

/-- The slot of the type has the signature and the code of the type's own class. -/
structure VTableSlot.IsOwn (s : VTableSlot) (t : NativeType) : Prop where
  signature : t.core.methods.get? s.name = some s.signature
  resolved : s.signature.isResolved
  entry : (t.compiled? s.name).map CompiledMethod.entry = some s.entry
  origin : t.slotTypes.entries.get? s.name = some ⟨s.signature, .own⟩

/-- The slot of the type has the signature of the base's slot of its name, and its origin names the base. -/
structure VTableSlot.InheritsSignature (s : VTableSlot) (t b : NativeType) : Prop where
  signature : ∃ s' ∈ b.vtable.slots, s'.name = s.name ∧ s'.signature = s.signature
  origin : t.slotTypes.entries.get? s.name = some ⟨s.signature, .inherited b.name⟩

/-- The base is the last one whose dispatch table has a slot of the name. -/
def LastWithSlot (bases : List NativeType) (name : String) (b : NativeType) : Prop :=
  ∃ before after, bases = before ++ b :: after ∧ name ∈ b.vtable.slots.map VTableSlot.name ∧
    ∀ later ∈ after, name ∉ later.vtable.slots.map VTableSlot.name

namespace LastWithSlot

variable {bases : List NativeType} {name : String} {b b' : NativeType}

theorem eq_find? (h : LastWithSlot bases name b) :
    bases.reverse.find? (fun b => name ∈ b.vtable.slots.map VTableSlot.name) = some b := by
  obtain ⟨before, after, rfl, hb, hafter⟩ := h
  have hnone : after.reverse.find? (fun b => name ∈ b.vtable.slots.map VTableSlot.name) = none := by
    rw [List.find?_eq_none]
    exact fun later hlater => mt of_decide_eq_true (hafter later (List.mem_reverse.mp hlater))
  rw [List.reverse_append, List.reverse_cons, List.find?_append, List.find?_append, hnone, Option.none_or,
    List.find?_singleton, if_pos (decide_eq_true hb), Option.some_or]

theorem unique (h : LastWithSlot bases name b) (h' : LastWithSlot bases name b') : b = b' :=
  Option.some.inj (h.eq_find?.symm.trans h'.eq_find?)

end LastWithSlot

namespace NativeType.Finished

variable {b : NativeType} {s : VTableSlot} {name : String} {entry : EntryPoint}

theorem nodup_entryPoints (h : b.Finished) : (b.vtable.entryPoints.map Prod.fst).Nodup := by
  rw [VTable.map_fst_entryPoints]
  exact h.nodup_name_slots

theorem lookup_entryPoints_eq_some_iff (h : b.Finished) :
    b.vtable.entryPoints.lookup name = some entry ↔ ∃ s ∈ b.vtable.slots, s.name = name ∧ s.entry = entry := by
  rw [OrderedMap.lookup_eq_some_iff h.nodup_entryPoints, VTable.entryPoints, List.mem_map]
  simp only [Prod.mk.injEq]

end NativeType.Finished

namespace Compilation.Completes

variable {c : BoundClass} {i : Compilation} {t : NativeType} {s : VTableSlot}

/-- The entry of a slot in the table of slots: that of the class, then that of the last base that has one. -/
theorem get?_slotEntries (h : Completes c i t) (name : String) :
    t.slotTypes.entries.get? name = ((i.draft.slotMethods.lookup name).map (⟨·, .own⟩)).or
      (c.extensionBases.reverse.findSome? fun b =>
        (b.slotTypes.get? name).map (⟨·, .inherited b.name⟩)) := by
  rw [h.slotTypes, ← Draft.get?_mergeBases]
  exact Table.Builder.get?_insertOwns _ i.draft.nodup_slotMethods

theorem map_entry_compiled? (h : Completes c i t) (hs : s ∈ t.vtable.slots) (hd : c.source.DefinesMethod s.name)
    (hnew : s.name ≠ newName) : (t.compiled? s.name).map CompiledMethod.entry = some s.entry := by
  have hname : s.name ∈ i.methods.map Method.name := by
    rw [h.inferred.map_name]
    exact ClassSource.mem_methodNames_iff.mpr ⟨hd, hnew⟩
  obtain ⟨m, hm, hname⟩ := List.mem_map.mp hname
  have hentry := h.entry_eq hs
  rw [← hname, h.compiled?_of_mem hm] at hentry ⊢
  exact hentry

/-- A slot of a method that the class defines and that is not taken for a constructor. -/
theorem isOwn (h : Completes c i t) (hs : s ∈ t.vtable.slots) (hd : c.source.DefinesSlot s.name) : s.IsOwn t := by
  obtain ⟨m, hm, hname, hctor⟩ := h.inferred.definesSlot_iff.mp hd
  obtain ⟨-, -, -, hresolved⟩ := h.inferred.typed m hm
  have hown : i.draft.slotMethods.lookup s.name = some m.signature :=
    h.inferred.lookup_slotMethods_iff.mpr ⟨m, hm, hname, rfl, hctor⟩
  have hsig : m.signature = s.signature := by
    have hslot := h.get?_of_mem_slots hs
    rw [h.get?_slotTypes, hown] at hslot
    exact Option.some.inj hslot
  obtain ⟨f, hf, hnew, -⟩ := hd
  refine ⟨?_, hsig ▸ hresolved, h.map_entry_compiled? hs ⟨f, hf⟩ hnew, ?_⟩
  · rw [h.methods, ← hname, h.inferred.signed m hm, hsig]
  · rw [h.get?_slotEntries, hown, hsig]
    rfl

/-- The signature of any other slot is that of the last base that has one. -/
theorem exists_inheritsSignature (h : Completes c i t) (hb : ∀ b ∈ c.extensionBases, b.Finished)
    (hs : s ∈ t.vtable.slots) (hd : ¬ c.source.DefinesSlot s.name) :
    ∃ b, LastWithSlot c.extensionBases s.name b ∧ s.InheritsSignature t b := by
  have hown : i.draft.slotMethods.lookup s.name = none := by
    rw [OrderedMap.lookup_eq_none_iff]
    exact fun hmem => hd (h.inferred.mem_map_fst_slotMethods_iff.mp hmem)
  obtain ⟨entry, hentry, hsig⟩ := Table.get?_eq_some_iff.mp (h.get?_of_mem_slots hs)
  have hfirst := hentry
  rw [h.get?_slotEntries, hown, Option.map_none, Option.none_or] at hfirst
  obtain ⟨before, b, after, hsplit, hbase, hafter⟩ := findSome?_reverse_eq_some_iff.mp hfirst
  have hfin : ∀ b' ∈ b :: after, b'.Finished := fun b' hmem =>
    hb b' (hsplit ▸ List.mem_append_right before hmem)
  obtain ⟨signature, hget, rfl⟩ := Option.map_eq_some_iff.mp hbase
  cases hsig
  obtain ⟨s', hs', hname, hsig'⟩ := (hfin b List.mem_cons_self).exists_slot_of_get? hget
  refine ⟨b, ⟨before, after, hsplit, hname ▸ List.mem_map_of_mem hs', fun later hmem hslot => ?_⟩,
    ⟨s', hs', hname, hsig'⟩, hentry⟩
  obtain ⟨s'', hs'', hname''⟩ := List.mem_map.mp hslot
  have hlater := hafter later hmem
  rw [← hname'', (hfin later (List.mem_cons_of_mem b hmem)).get?_of_mem_slots hs''] at hlater
  cases hlater

/-- The entry point of a slot whose method the class does not define is that of the last base that has one. -/
theorem entry_eq_of_lastWithSlot (h : Completes c i t) (hb : ∀ b ∈ c.extensionBases, b.Finished)
    (hs : s ∈ t.vtable.slots) (hd : ¬ c.source.DefinesMethod s.name) {b : NativeType}
    (hlast : LastWithSlot c.extensionBases s.name b) {s' : VTableSlot} (hs' : s' ∈ b.vtable.slots)
    (hname : s'.name = s.name) : s'.entry = s.entry := by
  have hmethod : s.name ∉ c.source.methodNames := fun hm => hd (ClassSource.mem_methodNames_iff.mp hm).1
  have hentry := h.entry_eq hs
  rw [h.compiled?_eq_none (h.source ▸ hmethod), Option.map_none, Option.none_or,
    OrderedMap.lookup_reverse_flatMap fun b hmem => (hb b hmem).nodup_entryPoints] at hentry
  obtain ⟨before, after, hsplit, -, hafter⟩ := hlast
  have hfin : b.Finished := hb b (hsplit ▸ List.mem_append_right before List.mem_cons_self)
  have hlookup : b.vtable.entryPoints.lookup s.name = some s'.entry :=
    hfin.lookup_entryPoints_eq_some_iff.mpr ⟨s', hs', hname, rfl⟩
  have hlater : ∀ later ∈ after, later.vtable.entryPoints.lookup s.name = none := by
    intro later hmem
    rw [OrderedMap.lookup_eq_none_iff, VTable.map_fst_entryPoints]
    exact hafter later hmem
  have hfirst : c.extensionBases.reverse.findSome? (fun b => b.vtable.entryPoints.lookup s.name) = some s'.entry :=
    findSome?_reverse_eq_some_iff.mpr ⟨before, b, after, hsplit, hlookup, hlater⟩
  exact Option.some.inj (hfirst.symm.trans hentry)

/-- **Where a slot that is not the class's own comes from**: as a whole from the last base that has one, except that
the class's own code takes the place of the base's if the class defines the method. -/
theorem exists_lastWithSlot (h : Completes c i t) (ht : t.Finished) (hb : ∀ b ∈ c.extensionBases, b.Finished)
    (hs : s ∈ t.vtable.slots) (hd : ¬ c.source.DefinesSlot s.name) :
    ∃ b, LastWithSlot c.extensionBases s.name b ∧ s.InheritsSignature t b ∧
      (¬ c.source.DefinesMethod s.name → s ∈ b.vtable.slots) ∧
      (c.source.DefinesMethod s.name → (t.compiled? s.name).map CompiledMethod.entry = some s.entry) := by
  obtain ⟨b, hlast, hsig⟩ := h.exists_inheritsSignature hb hs hd
  refine ⟨b, hlast, hsig, fun hmethod => ?_, fun hmethod => ?_⟩
  · obtain ⟨s', hs', hname, hsig⟩ := hsig.signature
    have hentry := h.entry_eq_of_lastWithSlot hb hs hmethod hlast hs' hname
    obtain ⟨name, entry, signature⟩ := s
    obtain ⟨name', entry', signature'⟩ := s'
    cases hname
    cases hsig
    cases hentry
    exact hs'
  · exact h.map_entry_compiled? hs hmethod (ht.slot (h.get?_of_mem_slots hs)).2.2

end Compilation.Completes

namespace BoundClass

variable {c : BoundClass} {o : CompileOptions} {t : NativeType}

theorem nodup_name_extensionBases (h : (c.compile o).result = .ok t) :
    (c.extensionBases.map NativeType.name).Nodup := by
  rw [result_compile] at h
  obtain ⟨i, hi, -⟩ := bind_eq_ok_iff.mp h
  obtain ⟨j, hj, -⟩ := bind_eq_ok_iff.mp hi
  obtain ⟨d, hd, -⟩ := bind_eq_ok_iff.mp hj
  exact ((Draft.inherit_eq_ok_iff rfl rfl).mp hd).1

/-- **Signature and code of a slot come from the same class.** A slot whose method the class body defines has the
resolved signature and the code of the class, if the function is not taken for a constructor. Any other slot has the
signature of the last base that has one, and no other base has the name that its origin gives. It is the slot of that
base as a whole if the body does not define the method; a function that is taken for a constructor leaves its code
there. -/
theorem slots_of_one_class (ho : o.backend = .reference) (hb : ∀ b ∈ c.extensionBases, b.Finished)
    (h : (c.compile o).result = .ok t) :
    (c.extensionBases.map NativeType.name).Nodup ∧ ∀ s ∈ t.vtable.slots,
      (c.source.DefinesSlot s.name → s.IsOwn t) ∧
      (¬ c.source.DefinesSlot s.name →
        ∃ b, LastWithSlot c.extensionBases s.name b ∧ s.InheritsSignature t b ∧
          (¬ c.source.DefinesMethod s.name → s ∈ b.vtable.slots) ∧
          (c.source.DefinesMethod s.name →
            (t.compiled? s.name).map CompiledMethod.entry = some s.entry)) := by
  obtain ⟨i, hi, -⟩ := exists_completes ho h
  have ht : t.Finished := .ofCompile ho hb h
  exact ⟨nodup_name_extensionBases h, fun s hs =>
    ⟨fun hd => hi.isOwn hs hd, fun hd => hi.exists_lastWithSlot ht hb hs hd⟩⟩

end BoundClass

/-! ## A diamond -/

namespace Sample

/-- A class over a class and over that class's own base, with a method of its own. -/
def badge : BoundClass :=
  classOf "Badge" [method "label" [] (some .str)]
    [.extension (typeOf options circle), .extension (typeOf options shape)]

theorem compile_badge : (badge.compile options).result = .ok (typeOf options badge) :=
  compile_eq (by decide +kernel)

theorem forall_mem_bases_badge {P : NativeType → Prop} (hcircle : P (typeOf options circle))
    (hshape : P (typeOf options shape)) : ∀ b ∈ badge.extensionBases, P b :=
  List.forall_mem_cons.mpr ⟨hcircle, List.forall_mem_singleton.mpr hshape⟩

end Sample

open Sample in
/-- The first slot is inherited, from the second base, and the second one is the class's own. -/
theorem BoundClass.slots_of_one_class_badge :
    (typeOf options badge).vtable.slots.map VTableSlot.name = ["area", "label"] ∧
      (badge.extensionBases.map NativeType.name).Nodup ∧ ∀ s ∈ (typeOf options badge).vtable.slots,
        (badge.source.DefinesSlot s.name → s.IsOwn (typeOf options badge)) ∧
        (¬ badge.source.DefinesSlot s.name →
          ∃ b, LastWithSlot badge.extensionBases s.name b ∧ s.InheritsSignature (typeOf options badge) b ∧
            (¬ badge.source.DefinesMethod s.name → s ∈ b.vtable.slots) ∧
            (badge.source.DefinesMethod s.name →
              ((typeOf options badge).compiled? s.name).map CompiledMethod.entry = some s.entry)) :=
  ⟨by decide +kernel, slots_of_one_class rfl (forall_mem_bases_badge finished_circle finished_shape) compile_badge⟩

open Sample in
/-- **A slot can have the signature of a base and the code of the class.** -/
theorem BoundClass.mixedSlot_cube :
    (∀ b ∈ cube.extensionBases, b.Finished) ∧ (cube.compile options).result = .ok (typeOf options cube) ∧
      cube.source.DefinesMethod "area" ∧ ∃ s ∈ (typeOf options cube).vtable.slots, s.name = "area" ∧
        ((typeOf options cube).slotTypes.entries.get? "area").map Entry.origin = some (.inherited "Shape") ∧
        s.signature.args = [.int] ∧
        s.entry = .ofSymbol (qualifiedName "Cube" "area") "(float) -> float" := by
  refine ⟨List.forall_mem_singleton.mpr finished_shape, compile_cube, ⟨_, rfl⟩, ?_⟩
  decide +kernel

end NativeClass
