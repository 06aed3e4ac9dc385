import NativeClass.Proofs.Layout
import NativeClass.Proofs.NativeType.Finished
/-!
# Well-formed types

* `NativeType.WellFormed`: the tables, the layout, the accessors, the dispatch table and the code of a type
  agree with each other.
* **`NativeType.Finished.wellFormed`**: every finished type is well formed.
-/

namespace NativeClass.NativeType

/-- The parts of a type agree with each other. -/
structure WellFormed (t : NativeType) : Prop where
  distinctAttributes : t.attributes.names.Nodup
  layout : t.layout = .ofTable t.attributes
  /-- There is one accessor for each slot of the layout, in slot order. -/
  descriptors : t.core.descriptors = t.layout.slots.map Slot.descriptor
  /-- The dispatch table has the names, the order and the signatures of the table of slots. -/
  slots : t.vtable.slots.map (fun s => (s.name, s.signature)) =
    t.slotTypes.entries.entries.map fun e => (e.1, e.2.value)
  resolved : ∀ s ∈ t.vtable.slots, s.signature.isResolved
  notConstructor : ∀ s ∈ t.vtable.slots, s.signature.isConstructor = false
  ne_newName : ∀ s ∈ t.vtable.slots, s.name ≠ newName
  /-- A slot has the name of the constructor only if a function with type hints and another name stands under that
  name, in the class or in an ancestor. -/
  initSlot : (∃ s ∈ t.vtable.slots, s.name = initName) ↔ ∃ a : NativeType, a.IsAncestor t ∧
    ∃ f, a.core.source.members.get? initName = some (.function f) ∧ f.isAnnotated ∧ f.name ≠ initName
  /-- There is code for every function of the class body but the allocator, in the order of the body. -/
  compiled : t.core.compiled.map CompiledMethod.name = t.core.source.methodNames
  distinctCompiled : (t.core.compiled.map CompiledMethod.name).Nodup
  /-- The same functions have a signature. -/
  methods : t.core.methods.keys = t.core.source.methodNames
  /-- The slot of a method of the class leads to that method, compiled for the signature of the slot. -/
  entry : ∀ name signature, t.core.methods.get? name = some signature →
    signature.isConstructor = false →
      ∃ s ∈ t.vtable.slots, s.name = name ∧ s.signature = signature ∧
        s.entry = .ofSymbol (qualifiedName t.name name) s.signature.text

variable {t : NativeType}

/-- **Every finished type is well formed.** -/
theorem Finished.wellFormed (h : t.Finished) : t.WellFormed := by
  obtain ⟨c, i, hi, -⟩ := h.exists_completes
  have hget : ∀ s ∈ t.vtable.slots, t.slotTypes.get? s.name = some s.signature :=
    fun s hs => h.get?_of_mem_slots hs
  have hkeys : t.core.methods.keys = i.methods.map Method.name := by rw [hi.methods, hi.inferred.keys]
  refine
    { distinctAttributes := t.attributes.nodup_names
      layout := hi.layout
      descriptors := ?_
      slots := ?_
      resolved := fun s hs => (h.slot (hget s hs)).1
      notConstructor := fun s hs => (h.slot (hget s hs)).2.1
      ne_newName := fun s hs => (h.slot (hget s hs)).2.2
      initSlot := ?_
      compiled := hi.map_name_compiled
      distinctCompiled := ?_
      methods := ?_
      entry := fun name signature hname hctor => ?_ }
  · rw [hi.descriptors, hi.layout, Layout.descriptors_ofTable]
  · exact hi.map_slots
  · rw [← List.mem_map, h.map_name_slots, h.mem_names_iff]
    exact exists_congr fun a => and_congr_right fun _ => ClassSource.definesSlot_initName_iff
  · rw [hi.map_name_compiled]
    exact ClassSource.nodup_methodNames _
  · rw [hkeys, hi.inferred.map_name, hi.source]
  · have hmem := OrderedMap.mem_keys_of_get? hname
    rw [hkeys] at hmem
    obtain ⟨m, hm, rfl⟩ := List.mem_map.mp hmem
    rw [hi.methods, hi.inferred.signed m hm, Option.some.injEq] at hname
    subst hname
    obtain ⟨s, hs, hsname, hsig, hentry⟩ := hi.exists_slot_of_mem hm hctor
    exact ⟨s, hs, hsname, hsig, hsig ▸ hentry⟩

theorem wellFormed_disc :
    (Sample.typeOf Sample.options Sample.disc).Finished ∧ (Sample.typeOf Sample.options Sample.disc).WellFormed := by
  have h : (Sample.typeOf Sample.options Sample.disc).Finished :=
    .ofCompile (c := Sample.disc) rfl (List.forall_mem_singleton.mpr Sample.finished_circle)
      Sample.compile_disc
  exact ⟨h, h.wellFormed⟩

end NativeClass.NativeType

/-! ## A slot with the name of the constructor -/

namespace NativeClass.Sample

/-- A class with a function `setup` under the name of the constructor. -/
def rig : BoundClass :=
  classOf "Rig" [underName initName (method "setup" [some .int] none)] []

theorem compile_rig : (rig.compile options).result = .ok (typeOf options rig) :=
  compile_eq (by decide +kernel)

end NativeClass.Sample

open NativeClass.Sample in
/-- **A slot can have the name of the constructor.** -/
theorem NativeClass.NativeType.initSlot_rig :
    (typeOf options rig).Finished ∧ ∃ s ∈ (typeOf options rig).vtable.slots, s.name = initName :=
  ⟨.ofCompile rfl (List.forall_mem_nil _) compile_rig, by decide +kernel⟩
