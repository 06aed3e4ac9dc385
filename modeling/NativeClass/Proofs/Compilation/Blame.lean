import NativeClass.Proofs.Compilation.Finish
/-!
# What a class alone fails for

Over bases that are given, a compilation never says that a base failed, is missing or lies on a cycle: of its
bases it only finds out that two have one name.

* `CompileError.IsOwn`: an error of a class by itself.
* `Backend.IsRegular`: what is asked of a type factory.
* **`BoundClass.ensures_isOwn`**: a finished type has the name of its class, and every error is the class's
  own.
-/

namespace NativeClass

/-- An error of a class by itself: of its bases it says at most that one is named twice. -/
def CompileError.IsOwn : CompileError → Prop
  | .base _ _ message => message = BaseProblem.duplicate.message
  | _ => True

instance : DecidablePred CompileError.IsOwn
  | .base _ _ message => inferInstanceAs (Decidable (message = BaseProblem.duplicate.message))
  | .signature _ _ _ | .inference _ _ _ _ _ | .validation _ _ | .layout _ _ | .codegen _ _ _ | .parse _ =>
    isTrue trivial

/-- A type factory that names each type after its class and leaves it to the compiler to reject bases. -/
structure Backend.IsRegular (b : Backend) : Prop where
  name : ∀ core bases t, b.assemble core bases = .ok t → t.name = core.name
  error : ∀ core bases e, b.assemble core bases = .error e → e.IsOwn

theorem Backend.isRegular_reference : reference.IsRegular where
  name core bases t h := by
    rw [assemblesAsGiven_reference core bases t h]
    rfl
  error core bases e h := nomatch h

open CompileError (IsOwn)

/-- The computation fails for the class's own reasons only. -/
abbrev FailsOwn {α : Type} (r : Except CompileError α) : Prop :=
  Ensures r (fun _ => True) IsOwn

theorem FailsOwn.bind {α β : Type} {r : Except CompileError α} {f : α → Except CompileError β}
    (h : FailsOwn r) (hf : ∀ a, FailsOwn (f a)) : FailsOwn (r >>= f) :=
  Ensures.bind h fun a _ => hf a

theorem FailsOwn.foldlM {α β : Type} {f : β → α → Except CompileError β} (hf : ∀ b a, FailsOwn (f b a))
    (l : List α) (b : β) : FailsOwn (l.foldlM f b) :=
  ensures_foldlM (fun _ _ => True) trivial fun _ a _ b _ _ => hf b a

theorem FailsOwn.mapM {α β : Type} {f : α → Except CompileError β} (hf : ∀ a, FailsOwn (f a))
    (l : List α) : FailsOwn (l.mapM f) := by
  induction l with
  | nil => exact ensures_ok.mpr trivial
  | cons a l ih =>
    rw [List.mapM_cons]
    exact (hf a).bind fun _ => ih.bind fun _ => ensures_ok.mpr trivial

/-! ## The parts of a draft -/

theorem ValidatorSet.failsOwn_accept (className : String) (failures : List ValidationFailure) :
    FailsOwn (accept className failures) := by
  unfold accept
  split <;> trivial

namespace Draft

variable (d : Draft)

theorem failsOwn_inherit : FailsOwn d.inherit := by
  unfold inherit
  split
  · trivial
  · split
    · trivial
    · split
      · exact ensures_error.mpr rfl
      · trivial

theorem failsOwn_addMethod (name : String) (s : Signature) : FailsOwn (d.addMethod name s) := by
  unfold addMethod
  split
  · trivial
  · have hmerged : FailsOwn (d.mergedSignature name s) := by
      unfold mergedSignature
      split
      · trivial
      · split <;> trivial
    exact hmerged.bind fun _ => ensures_ok.mpr trivial

theorem failsOwn_addAttribute (name : String) (ty : Ty) : FailsOwn (d.addAttribute name ty) := by
  unfold addAttribute
  split <;> trivial

theorem failsOwn_buildSlots : FailsOwn d.buildSlots := by
  unfold buildSlots
  split <;> trivial

end Draft

namespace Compilation

/-! ## Inference -/

variable (o : CompileOptions) (i : Compilation)

theorem failsOwn_installMethods : FailsOwn (i.installMethods o) := by
  have hmethods : FailsOwn (i.draft.methodsOf o.validators i.dict) :=
    (ValidatorSet.failsOwn_accept _ _).bind fun _ => ensures_ok.mpr trivial
  exact hmethods.bind fun ms =>
    .foldlM (fun i m => (i.draft.failsOwn_addMethod _ _).bind fun _ => ensures_ok.mpr trivial) ms _

theorem failsOwn_typeMethod (m : Method) : FailsOwn (i.typeMethod o m) := by
  unfold typeMethod
  dsimp only
  split
  · trivial
  · exact (Draft.failsOwn_addMethod _ _ _).bind fun _ => ensures_ok.mpr trivial

theorem failsOwn_typeInit : FailsOwn (i.typeInit o) := by
  unfold typeInit
  split
  · exact failsOwn_typeMethod o i _
  · trivial

theorem failsOwn_runInference : FailsOwn (i.runInference o) := by
  have hattributes : FailsOwn i.inferAttributes :=
    i.draft.failsOwn_inherit.bind fun _ => ensures_ok.mpr trivial
  refine hattributes.bind fun i => (failsOwn_installMethods o i).bind fun i =>
    (failsOwn_typeInit o i).bind fun i => ?_
  have hbuild : FailsOwn i.draft.buildAttributes :=
    .foldlM (fun d e => d.failsOwn_addAttribute e.1 e.2) _ _
  refine hbuild.bind fun d => ?_
  have htype : FailsOwn (typeMethods o { i with draft := d }) := .foldlM (failsOwn_typeMethod o) _ _
  exact htype.bind fun i => i.draft.failsOwn_buildSlots.bind fun _ => ensures_ok.mpr trivial

/-! ## Code generation -/

theorem failsOwn_generateMethods : FailsOwn (i.generateMethods o) := by
  refine .mapM (fun m => ?_) _
  unfold generateMethod
  split
  · trivial
  · split <;> trivial

theorem failsOwn_vtableOf (compiled : List CompiledMethod) : FailsOwn (i.vtableOf compiled) := by
  unfold vtableOf VTable.build
  split <;> trivial

end Compilation

open Compilation

/-- **A finished type has the name of its class, and every error is the class's own.** -/
theorem BoundClass.ensures_isOwn {o : CompileOptions} (ho : o.backend.IsRegular) (c : BoundClass) :
    Ensures (c.compile o).result (fun t => t.name = c.name) IsOwn := by
  rw [result_compile]
  refine ((failsOwn_runInference o _).and (framed_runInference o c)).bind fun i h => ?_
  obtain ⟨-, hframed⟩ := h
  refine Ensures.bind (ValidatorSet.failsOwn_accept _ _) fun _ _ => ?_
  rw [compile_finalized hframed]
  refine Ensures.bind (failsOwn_generateMethods o i.finalized) fun compiled _ => ?_
  have hcore : Ensures ((i.vtableOf compiled).map (i.finishedCore compiled))
      (fun core => core.name = c.name) IsOwn := by
    have hvtable := failsOwn_vtableOf i compiled
    cases hv : i.vtableOf compiled with
    | ok vtable => exact ensures_ok.mpr hframed.name
    | error e => exact ensures_error.mpr (hvtable.of_error hv)
  refine hcore.bind fun core hname => ?_
  cases ha : o.backend.assemble core c.bases with
  | ok t => exact ensures_ok.mpr ((ho.name core c.bases t ha).trans hname)
  | error e => exact ensures_error.mpr (ho.error core c.bases e ha)

end NativeClass
