import NativeClass.Proofs.Compilation.Finish
/-!
# The code of a class

What the engines of this library add to a finished type.

* `Compilation.generateMethods_eq`: after inference there is code for every method.
* `Compilation.Completes`: a type made from an inferred class with the code of its methods.
* **`Compilation.Completes.entry_eq`**: where the entry point of a slot comes from.
* **`BoundClass.exists_completes`**: the finished types of this library are of that kind.
* `Compilation.isSome_entry`: no slot lacks an entry point, over bases whose dispatch tables are full.
-/

namespace NativeClass

/-- The code of a method whose signature is known. -/
def Method.code (className : String) (m : Method) : CompiledMethod :=
  let symbol := qualifiedName className m.name
  ⟨m.name, symbol, .ofSymbol symbol m.signature.text⟩

/-- The code of a method that the class itself defines. -/
def NativeType.compiled? (t : NativeType) (name : String) : Option CompiledMethod :=
  t.core.compiled.find? (·.name = name)

namespace Compilation

variable {o : CompileOptions} {c : BoundClass} {i : Compilation} {t : NativeType}

theorem generateMethods_eq (ho : o.backend = .reference) (h : Inferred c i) :
    i.finalized.generateMethods o = .ok (i.methods.map (Method.code c.name)) := by
  refine mapM_eq_ok fun m hm => ?_
  obtain ⟨t, ht, hsig, hresolved⟩ := h.typed m hm
  have hget : i.finalized.typings.get? m.name = some t := ht
  rw [← hsig] at hresolved
  rw [generateMethod, hget, ho]
  dsimp only [Backend.reference]
  rw [compileMethod, if_pos hresolved, hsig, ← h.name]
  rfl

/-- The type is made from the inferred class with the code of its methods. -/
structure Completes (c : BoundClass) (i : Compilation) (t : NativeType) : Prop extends Finishes c i t where
  inferred : Inferred c i
  compiled : t.core.compiled = i.methods.map (Method.code t.name)

namespace Completes

variable {s : VTableSlot} {m : Method}

theorem slot_cases (h : Completes c i t) {name : String} {s : Signature}
    (hs : t.slotTypes.get? name = some s) :
    (∃ m ∈ i.methods, m.name = name ∧ m.signature = s ∧ s.isConstructor = false) ∨
      ∃ b ∈ c.extensionBases, b.slotTypes.get? name = some s := by
  rw [h.get?_slotTypes, Option.or_eq_some_iff] at hs
  rcases hs with hown | ⟨-, hbase⟩
  · exact Or.inl (h.inferred.lookup_slotMethods_iff.mp hown)
  · exact Or.inr (Draft.exists_base_of_get? NativeType.slotTypes c.extensionBases hbase)

theorem mem_names_iff (h : Completes c i t) {name : String} :
    name ∈ t.slotTypes.names ↔ (∃ b ∈ c.extensionBases, name ∈ b.slotTypes.names) ∨ c.source.DefinesSlot name := by
  rw [h.names_slotTypes, mem_extendKeys, Draft.mergedNames, mem_extendKeys, List.mem_flatMap,
    h.inferred.mem_map_fst_slotMethods_iff]
  simp only [List.not_mem_nil, false_or]

/-! ## Entry points -/

theorem map_name_compiled (h : Completes c i t) :
    t.core.compiled.map CompiledMethod.name = t.core.source.methodNames := by
  rw [h.compiled, List.map_map, h.source, ← h.inferred.map_name]
  rfl

theorem nodup_name_compiled (h : Completes c i t) : (t.core.compiled.map CompiledMethod.name).Nodup := by
  rw [h.map_name_compiled]
  exact ClassSource.nodup_methodNames _

theorem compiled?_of_mem (h : Completes c i t) (hm : m ∈ i.methods) :
    t.compiled? m.name = some (m.code t.name) := by
  rw [NativeType.compiled?, find?_key_eq_some_iff CompiledMethod.name h.nodup_name_compiled, h.compiled]
  exact ⟨List.mem_map_of_mem hm, rfl⟩

theorem compiled?_eq_none {name : String} (h : Completes c i t) (hname : name ∉ t.core.source.methodNames) :
    t.compiled? name = none := by
  rw [NativeType.compiled?, List.find?_eq_none]
  intro m hm
  rw [decide_eq_true_eq]
  rintro rfl
  exact hname (h.map_name_compiled ▸ List.mem_map_of_mem hm)

/-- **The entry point of a slot is that of the class, then that of the last base that has one.** -/
theorem entry_eq (h : Completes c i t) (hs : s ∈ t.vtable.slots) :
    ((t.compiled? s.name).map CompiledMethod.entry).or
      ((c.extensionBases.flatMap (·.vtable.entryPoints)).reverse.lookup s.name) = some s.entry := by
  obtain ⟨⟨name, e⟩, -, rfl, -, hentry⟩ := exists_of_forall₂_of_mem h.fills hs
  have hn : ((entriesOf t.core.compiled).map Prod.fst).Nodup := by
    rw [map_fst_entriesOf]
    exact h.nodup_name_compiled
  rw [Draft.get?_resolveEntries _ hn, h.framed.bases, entriesOf, OrderedMap.lookup_map_pair] at hentry
  exact hentry

/-- A method of the class that is not a constructor has a slot, with its own signature and code. -/
theorem exists_slot_of_mem (h : Completes c i t) (hm : m ∈ i.methods)
    (hctor : m.signature.isConstructor = false) :
    ∃ s ∈ t.vtable.slots, s.name = m.name ∧ s.signature = m.signature ∧
      s.entry = .ofSymbol (qualifiedName t.name m.name) m.signature.text := by
  have hown : i.draft.slotMethods.lookup m.name = some m.signature :=
    h.inferred.lookup_slotMethods_iff.mpr ⟨m, hm, rfl, rfl, hctor⟩
  have hget : t.slotTypes.get? m.name = some m.signature := by
    rw [h.get?_slotTypes, hown]
    rfl
  obtain ⟨s, hs, hname, hsig⟩ := h.exists_slot_of_get? hget
  refine ⟨s, hs, hname, hsig, ?_⟩
  have hentry := h.entry_eq hs
  rw [hname, h.compiled?_of_mem hm] at hentry
  exact (Option.some.inj hentry).symm

end Completes

/-! ## Full dispatch tables -/

/-- Every slot has an entry point, if the dispatch tables of the bases have all their slots. -/
theorem isSome_entry (h : Inferred c i)
    (hb : ∀ b ∈ c.extensionBases, b.vtable.slots.map VTableSlot.name = b.slotTypes.names)
    {e : String × Entry Signature} (he : e ∈ i.draft.slotTypes.entries.entries) (className : String) :
    ((i.draft.resolveEntries (entriesOf (i.methods.map (Method.code className)))).get? e.1).isSome := by
  rw [Draft.resolveEntries, OrderedMap.ofList, OrderedMap.get?_isSome_iff,
    OrderedMap.mem_keys_insertAll, List.map_append, List.mem_append]
  have hkey : e.1 ∈ i.draft.slotTypes.entries.keys := List.mem_map_of_mem he
  rw [h.slotTypes, TableState.entries, Table.Builder.keys_insertOwns, mem_extendKeys,
    Draft.keys_mergeBases, Draft.mergedNames, mem_extendKeys] at hkey
  rcases hkey with (hnil | hbase) | hown
  · cases hnil
  · obtain ⟨b, hmem, hname⟩ := List.mem_flatMap.mp hbase
    rw [← hb b hmem, ← VTable.map_fst_entryPoints] at hname
    rw [List.map_flatMap, h.bases]
    exact Or.inr (Or.inl (List.mem_flatMap.mpr ⟨b, hmem, hname⟩))
  · obtain ⟨own, hmem, hname⟩ := List.mem_map.mp hown
    obtain ⟨m, hm, hmname, -, -⟩ := h.mem_slotMethods_iff.mp hmem
    rw [map_fst_entriesOf, List.map_map, ← hname, ← hmname]
    exact Or.inr (Or.inr (List.mem_map_of_mem hm))

end Compilation

open Compilation

/-- **The finished types of this library.** -/
theorem BoundClass.exists_completes {c : BoundClass} {o : CompileOptions} {t : NativeType}
    (ho : o.backend = .reference) (h : (c.compile o).result = .ok t) :
    ∃ i, Completes c i t ∧ o.validators.validate i.draft = .ok () := by
  obtain ⟨i, hi, hv, hcompiled, hfinishes⟩ := compile_eq_ok (ho ▸ Backend.assemblesAsGiven_reference) h
  have hinf := (ensures_runInference ho c).of_ok hi
  rw [generateMethods_eq ho hinf, ← hfinishes.name] at hcompiled
  exact ⟨i, ⟨hfinishes, hinf, (Except.ok.inj hcompiled).symm⟩, hv⟩

end NativeClass
