import NativeClass.Proofs.NativeType.Finished
/-!
# No failure after validation

Once the methods of a class are typed and its validators content, a finished type follows. So a class fails
only for what it says, never for the order in which it is built or for want of code.

* `Compilation.exists_compile`: code generation after inference, over bases whose dispatch tables are full.
* `BoundClass.ensures_compile`: all stages in a row.
* **`BoundClass.no_failure_after_validation`**: both, stage by stage.
-/

namespace NativeClass

open CompileError (RejectsSource)

variable {o : CompileOptions} {c : BoundClass} {i : Compilation}

theorem Compilation.exists_compile (ho : o.backend = .reference) (hi : Inferred c i)
    (hnames : ∀ b ∈ c.extensionBases, b.vtable.slots.map VTableSlot.name = b.slotTypes.names) :
    ∃ t, (i.finalized.compile o).result = .ok t := by
  obtain ⟨vtable, hbuild⟩ := VTable.exists_build i.draft.name i.draft.slotTypes.toTable
    fun e he => isSome_entry hi hnames he c.name
  rw [compile_finalized hi.toFramed, generateMethods_eq ho hi, ho]
  refine ⟨.mk (i.finishedCore (i.methods.map (Method.code c.name)) vtable) c.bases, ?_⟩
  show (i.vtableOf _).map _ >>= _ = _
  rw [vtableOf, hbuild]
  rfl

namespace BoundClass

open Compilation

/-- The validation of a class after its inference. -/
def validation (c : BoundClass) (o : CompileOptions) : Step :=
  ((ofClass c).infer o).after.validate o

/-- The freezing of the tables of a class after its validation. -/
def finalization (c : BoundClass) (o : CompileOptions) : Step :=
  (c.validation o).after.finalize

/-- A class over finished bases has a finished type, or it is rejected as it is written. -/
theorem ensures_compile (ho : o.backend = .reference) (hb : ∀ b ∈ c.extensionBases, b.Finished) :
    Ensures (c.compile o).result (fun _ => True) RejectsSource := by
  rw [result_compile]
  refine (ensures_runInference ho c).bind fun i hi => ?_
  refine (ValidatorSet.ensures_accept _ _).bind fun _ _ => ?_
  obtain ⟨t, ht⟩ := exists_compile ho hi fun b hmem => (hb b hmem).map_name_slots
  rw [ht]
  exact ensures_ok.mpr trivial

/-- **No failure after validation.** If inference and validation succeed, the tables are frozen and a finished
type is made. So all stages in a row never fail with an error about the order of building or about code
generation. -/
theorem no_failure_after_validation (ho : o.backend = .reference)
    (hb : ∀ b ∈ c.extensionBases, b.Finished) :
    (((ofClass c).infer o).result = .ok () → (c.validation o).result = .ok () →
      (c.finalization o).result = .ok () ∧
        ∃ t, ((c.finalization o).after.compile o).result = .ok t ∧ (c.compile o).result = .ok t) ∧
    ∀ e, (c.compile o).result = .error e →
      (∀ className cause, e ≠ .layout className cause) ∧
        ∀ className methodName message, e ≠ .codegen className methodName message := by
  constructor
  · intro hinfer hvalidate
    cases hi : (ofClass c).runInference o with
    | error e =>
      rw [infer_ofClass_error hi] at hinfer
      cases hinfer
    | ok i =>
      rw [validation, infer_ofClass hi] at hvalidate
      cases hv : o.validators.validate i.draft with
      | error e =>
        rw [validate_awaiting_error hv] at hvalidate
        cases hvalidate
      | ok _ =>
        obtain ⟨-, hfinal, hafter⟩ := validate_awaiting hv
        obtain ⟨t, ht⟩ := exists_compile ho ((ensures_runInference ho c).of_ok hi) fun b hmem =>
          (hb b hmem).map_name_slots
        have hcompile : (c.compile o).result = .ok t := by
          rw [result_compile, hi]
          show (o.validators.validate i.draft >>= fun _ => (i.finalized.compile o).result) = .ok t
          rw [hv, ← ht]
          rfl
        rw [finalization, validation, infer_ofClass hi]
        exact ⟨hfinal, t, by rw [hafter, ht], hcompile⟩
  · intro e he
    have hrejects : e.RejectsSource := (ensures_compile ho hb).of_error he
    constructor
    · rintro className cause rfl
      exact hrejects
    · rintro className methodName message rfl
      exact hrejects

theorem no_failure_after_validation_disc :
    (Sample.disc.finalization Sample.options).result = .ok () ∧
      ∃ t, ((Sample.disc.finalization Sample.options).after.compile Sample.options).result = .ok t := by
  have hb : ∀ b ∈ Sample.disc.extensionBases, b.Finished :=
    List.forall_mem_singleton.mpr Sample.finished_circle
  have hinfer : ((ofClass Sample.disc).infer Sample.options).result = .ok () := by decide +kernel
  have hvalidate : (Sample.disc.validation Sample.options).result = .ok () := by decide +kernel
  obtain ⟨hfinal, t, ht, -⟩ := (no_failure_after_validation rfl hb).1 hinfer hvalidate
  exact ⟨hfinal, t, ht⟩

end BoundClass

end NativeClass
