import NativeClass.Proofs.Compilation.Inference
import NativeClass.Proofs.Dispatch
/-!
# From inference to the finished type

* `Backend.AssemblesAsGiven`: the type factory makes the type from the parts that it is handed.
* `BoundClass.result_compile`: all stages in a row.
* `Compilation.Finishes`: a type made from what inference leaves, with its tables and its slots.
* **`BoundClass.compile_eq_ok`**: every finished type is of that kind, whatever the other engines do.
-/

namespace NativeClass

/-- If the type factory makes a type, it makes it from the parts that it is handed. -/
def Backend.AssemblesAsGiven (b : Backend) : Prop :=
  ∀ core bases t, b.assemble core bases = .ok t → t = .mk core bases

theorem Backend.assemblesAsGiven_reference : reference.AssemblesAsGiven := by
  intro core bases t h
  exact (Except.ok.inj h).symm

namespace Compilation

variable {o : CompileOptions} {c : BoundClass} {i : Compilation} {t : NativeType}
  {compiled : List CompiledMethod}

/-! ## The last stage -/

/-- An inferred compilation with its tables frozen. -/
def finalized (i : Compilation) : Compilation :=
  { i with draft := i.draft.freezeAttributes.freezeSlots, stage := .finalized }

/-- The entry points of compiled methods by name. -/
def entriesOf (compiled : List CompiledMethod) : List (String × EntryPoint) :=
  compiled.map fun m => (m.name, m.entry)

theorem map_fst_entriesOf (compiled : List CompiledMethod) :
    (entriesOf compiled).map Prod.fst = compiled.map CompiledMethod.name := by
  rw [entriesOf, List.map_map]
  rfl

/-- The dispatch table of an inferred compilation with the code of its methods. -/
def vtableOf (i : Compilation) (compiled : List CompiledMethod) : Except CompileError VTable :=
  VTable.build i.draft.name i.draft.slotTypes.toTable (i.draft.resolveEntries (entriesOf compiled))

/-- The parts of the finished type of an inferred compilation. -/
def finishedCore (i : Compilation) (compiled : List CompiledMethod) (vtable : VTable) : TypeCore :=
  let layout := Layout.ofTable i.draft.attributes.toTable
  { name := i.draft.name
    source := i.target.source
    members := ClassDict.withDescriptors (i.dict.insert originKey (.origin i.target.source))
      layout.descriptors
    symbols := i.draft.symbols
    methods := i.draft.methods
    attributes := i.draft.attributes.toTable
    slotTypes := i.draft.slotTypes.toTable
    layout
    descriptors := layout.descriptors
    compiled
    vtable }

theorem assembleCore_eq (h : Framed c i) (compiled : List CompiledMethod) :
    i.finalized.assembleCore compiled = (i.vtableOf compiled).map (i.finishedCore compiled) := by
  have hlayout : i.finalized.draft.layout = some (.ofTable i.draft.attributes.toTable) := by
    show i.draft.layout.or _ = _
    rw [h.layout]
    rfl
  have hdescriptors : i.finalized.draft.descriptors =
      .ok (Layout.ofTable i.draft.attributes.toTable).descriptors := by
    rw [Draft.descriptors, hlayout]
  have hvtable : i.finalized.draft.buildVTable (i.finalized.draft.resolveEntries
      (compiled.map fun m => (m.name, m.entry))) = i.vtableOf compiled := rfl
  rw [assembleCore, hvtable, hdescriptors, hlayout]
  cases i.vtableOf compiled with
  | error e => rfl
  | ok vtable => rfl

theorem compile_finalized (h : Framed c i) :
    (i.finalized.compile o).result =
      i.finalized.generateMethods o >>= fun compiled =>
        (i.vtableOf compiled).map (i.finishedCore compiled) >>= (o.backend.assemble · c.bases) := by
  have hstage : i.finalized.stage = .finalized := rfl
  rw [compile, if_pos hstage, ← h.target]
  cases i.finalized.generateMethods o with
  | error e => rfl
  | ok compiled =>
    dsimp only
    rw [assembleCore_eq h]
    rfl

/-! ## Finished types -/

/-- The type is made from what the inference of the class left. -/
structure Finishes (c : BoundClass) (i : Compilation) (t : NativeType) : Prop where
  framed : Framed c i
  vtable : i.vtableOf t.core.compiled = .ok t.vtable
  eq : t = .mk (i.finishedCore t.core.compiled t.vtable) c.bases

namespace Finishes

variable {s : VTableSlot}

theorem name (h : Finishes c i t) : t.name = c.name := by
  rw [h.eq]
  exact h.framed.name

theorem bases (h : Finishes c i t) : t.bases = c.bases := by
  rw [h.eq]
  rfl

theorem source (h : Finishes c i t) : t.core.source = c.source := by
  rw [h.eq, ← h.framed.target]
  rfl

theorem methods (h : Finishes c i t) : t.core.methods = i.draft.methods := by
  rw [h.eq]
  rfl

/-! ### Tables -/

theorem attributes (h : Finishes c i t) :
    t.attributes =
      ((Draft.mergeBases c.extensionBases NativeType.attributes).insertOwns i.draft.ownSymbols).freeze := by
  rw [h.eq]
  show i.draft.attributes.toTable = _
  rw [h.framed.attributes]
  rfl

theorem slotTypes_eq (h : Finishes c i t) : t.slotTypes = i.draft.slotTypes.toTable := by
  rw [h.eq]
  rfl

theorem slotTypes (h : Finishes c i t) :
    t.slotTypes =
      ((Draft.mergeBases c.extensionBases NativeType.slotTypes).insertOwns i.draft.slotMethods).freeze := by
  rw [h.slotTypes_eq, h.framed.slotTypes]
  rfl

theorem names_attributes (h : Finishes c i t) :
    t.attributes.names = extendKeys (Draft.mergedNames NativeType.attributes c.extensionBases)
      (i.draft.ownSymbols.map Prod.fst) := by
  rw [h.attributes, ← Draft.keys_mergeBases]
  exact Table.Builder.keys_insertOwns _ _

theorem get?_attributes (h : Finishes c i t) (name : String) :
    t.attributes.get? name = (i.draft.ownSymbols.lookup name).or
      ((Draft.mergeBases c.extensionBases NativeType.attributes).get? name) := by
  rw [h.attributes]
  exact Table.Builder.get?_freeze_insertOwns _ i.draft.nodup_ownSymbols

theorem names_slotTypes (h : Finishes c i t) :
    t.slotTypes.names = extendKeys (Draft.mergedNames NativeType.slotTypes c.extensionBases)
      (i.draft.slotMethods.map Prod.fst) := by
  rw [h.slotTypes, ← Draft.keys_mergeBases]
  exact Table.Builder.keys_insertOwns _ _

theorem get?_slotTypes (h : Finishes c i t) (name : String) :
    t.slotTypes.get? name = (i.draft.slotMethods.lookup name).or
      ((Draft.mergeBases c.extensionBases NativeType.slotTypes).get? name) := by
  rw [h.slotTypes]
  exact Table.Builder.get?_freeze_insertOwns _ i.draft.nodup_slotMethods

theorem layout (h : Finishes c i t) : t.layout = .ofTable t.attributes := by
  rw [h.eq]
  rfl

theorem descriptors (h : Finishes c i t) : t.core.descriptors = t.layout.descriptors := by
  rw [h.eq]
  rfl

/-! ### Slots -/

theorem fills (h : Finishes c i t) :
    List.Forall₂ (VTableSlot.Fills (i.draft.resolveEntries (entriesOf t.core.compiled))) t.vtable.slots
      t.slotTypes.entries.entries := by
  rw [h.slotTypes_eq]
  exact VTable.fills_of_build h.vtable

theorem map_name_slots (h : Finishes c i t) : t.vtable.slots.map VTableSlot.name = t.slotTypes.names :=
  map_eq_of_forall₂ h.fills fun _ _ hs => hs.name

theorem map_slots (h : Finishes c i t) :
    t.vtable.slots.map (fun s => (s.name, s.signature)) =
      t.slotTypes.entries.entries.map fun e => (e.1, e.2.value) :=
  map_eq_of_forall₂ h.fills fun _ _ hs => Prod.ext hs.name hs.signature

theorem get?_of_mem_slots (h : Finishes c i t) (hs : s ∈ t.vtable.slots) :
    t.slotTypes.get? s.name = some s.signature := by
  obtain ⟨⟨name, e⟩, he, rfl, hsig, -⟩ := exists_of_forall₂_of_mem h.fills hs
  exact Table.get?_eq_some_iff.mpr ⟨e, OrderedMap.get?_eq_some_iff.mpr he, hsig.symm⟩

theorem exists_slot_of_get? (h : Finishes c i t) {name : String} {signature : Signature}
    (hget : t.slotTypes.get? name = some signature) :
    ∃ s ∈ t.vtable.slots, s.name = name ∧ s.signature = signature := by
  have hname := Table.mem_names_of_get? hget
  rw [← h.map_name_slots] at hname
  obtain ⟨s, hs, rfl⟩ := List.mem_map.mp hname
  rw [h.get?_of_mem_slots hs, Option.some.injEq] at hget
  exact ⟨s, hs, rfl, hget⟩

end Finishes

end Compilation

/-! ## All stages in a row -/

namespace Compilation

variable {o : CompileOptions} {c : BoundClass} {i : Compilation}

theorem Step.result_andThen (s : Step) (next : Compilation → Finish) :
    (s.andThen next).result = s.result >>= fun _ => (next s.after).result := by
  rw [andThen]
  cases s.result with
  | error e => rfl
  | ok _ => rfl

/-- An inferred compilation that is due for validation. -/
def awaitingValidation (i : Compilation) : Compilation :=
  { i with stage := .inferred }

theorem infer_ofClass (h : (ofClass c).runInference o = .ok i) :
    (ofClass c).infer o = ⟨.ok (), [.timed "infer"], i.awaitingValidation⟩ := by
  have hcreated : (ofClass c).stage = .created := rfl
  rw [infer, if_pos hcreated, h]
  rfl

theorem infer_ofClass_error {e : CompileError} (h : (ofClass c).runInference o = .error e) :
    ((ofClass c).infer o).result = .error e := by
  have hcreated : (ofClass c).stage = .created := rfl
  rw [infer, if_pos hcreated, h]

theorem validate_awaiting (h : o.validators.validate i.draft = .ok ()) :
    (i.awaitingValidation.validate o).result = .ok () ∧
      (i.awaitingValidation.validate o).after.finalize.result = .ok () ∧
      (i.awaitingValidation.validate o).after.finalize.after = i.finalized := by
  have hinferred : i.awaitingValidation.stage = .inferred := rfl
  have hdraft : o.validators.validate i.awaitingValidation.draft = .ok () := h
  rw [validate, if_pos hinferred, hdraft]
  exact ⟨rfl, rfl, rfl⟩

theorem validate_awaiting_error {e : CompileError} (h : o.validators.validate i.draft = .error e) :
    (i.awaitingValidation.validate o).result = .error e := by
  have hinferred : i.awaitingValidation.stage = .inferred := rfl
  have hdraft : o.validators.validate i.awaitingValidation.draft = .error e := h
  rw [validate, if_pos hinferred, hdraft]

end Compilation

namespace BoundClass

open Compilation

variable {o : CompileOptions} {c : BoundClass} {t : NativeType}

theorem result_compile (c : BoundClass) (o : CompileOptions) :
    (c.compile o).result =
      (ofClass c).runInference o >>= fun i =>
        o.validators.validate i.draft >>= fun _ => (i.finalized.compile o).result := by
  rw [BoundClass.compile, run, Step.result_andThen]
  cases hi : (ofClass c).runInference o with
  | error e =>
    rw [infer_ofClass_error hi]
    rfl
  | ok i =>
    rw [infer_ofClass hi]
    show (Step.andThen (i.awaitingValidation.validate o) _).result = _
    rw [Step.result_andThen]
    cases hv : o.validators.validate i.draft with
    | error e =>
      rw [validate_awaiting_error hv]
      show _ = (o.validators.validate i.draft >>= fun _ => (i.finalized.compile o).result)
      rw [hv]
      rfl
    | ok _ =>
      obtain ⟨hresult, hfinal, hafter⟩ := validate_awaiting hv
      rw [hresult]
      show (Step.andThen _ _).result = (o.validators.validate i.draft >>= fun _ => _)
      rw [Step.result_andThen, hfinal, hafter, hv]

/-- **Every finished type is made from what inference left, once it was validated.** -/
theorem compile_eq_ok (ho : o.backend.AssemblesAsGiven) (h : (c.compile o).result = .ok t) :
    ∃ i, (ofClass c).runInference o = .ok i ∧ o.validators.validate i.draft = .ok () ∧
      i.finalized.generateMethods o = .ok t.core.compiled ∧ Finishes c i t := by
  rw [result_compile, bind_eq_ok_iff] at h
  obtain ⟨i, hi, h⟩ := h
  obtain ⟨_, hv, h⟩ := bind_eq_ok_iff.mp h
  have hframed := (framed_runInference o c).of_ok hi
  rw [compile_finalized hframed, bind_eq_ok_iff] at h
  obtain ⟨compiled, hcompiled, h⟩ := h
  obtain ⟨core, hcore, h⟩ := bind_eq_ok_iff.mp h
  obtain ⟨vtable, hvtable, rfl⟩ := map_eq_ok_iff.mp hcore
  obtain rfl := ho _ _ _ h
  exact ⟨i, hi, hv, hcompiled, hframed, hvtable, rfl⟩

end BoundClass

end NativeClass
