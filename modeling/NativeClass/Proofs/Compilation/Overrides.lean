import NativeClass.Proofs.Compilation.Steps
import NativeClass.Proofs.Compilation.StoredValues
import NativeClass.Proofs.NativeType.Finished
/-!
# Overridden methods

A method that overrides a slot has to match the signature of the slot. Inference checks this once, before it
looks at any body, and every body is typed against a signature that fits the slot.

* `BoundClass.inheritedSlot?`, `Function.signatureOver`: the two signatures that meet.
* `BoundClass.Conflicts`: the two do not match.
* `BoundClass.untilMethods_eq_error_iff`: the error of the check is that of the first conflict.
* `Compilation.ensures_isInference_runInference`: after the check only bodies can fail.
* **`BoundClass.reportsOverrides_infer`**: inference reports the first conflict, and no other signature error.
-/

namespace NativeClass

open Compilation

/-! ## The two signatures -/

/-- The signature that the last base with a slot of the name has for it. -/
def BoundClass.inheritedSlot? (c : BoundClass) (name : String) : Option Signature :=
  c.extensionBases.reverse.findSome? fun b => b.slotTypes.get? name

/-- The signature with which a function meets a slot of its name: the declared one, that of the slot if it takes as
many arguments, and otherwise the one in which every parameter is `any`. -/
def Function.signatureOver (f : Function) (name : String) (old : Signature) : Signature :=
  match f.declaredSignature? with
  | some s => s
  | none =>
    if old.args.length = f.explicitParams.length then { old with kind := f.kind, isAbstract := f.isAbstract }
    else Draft.openSignature name f

/-- The function is not taken for a constructor and overrides a slot that its signature does not match. -/
def BoundClass.Conflicts (c : BoundClass) (e : String × Function) : Prop :=
  e.2.isConstructorUnder e.1 = false ∧
    ∃ old, c.inheritedSlot? e.1 = some old ∧ ¬ (e.2.signatureOver e.1 old).Matches old

/-- The function overrides a slot, and the disagreement of the two signatures is the given one. -/
def BoundClass.HasConflict (c : BoundClass) (e : String × Function) (conflict : Signature.Conflict) : Prop :=
  e.2.isConstructorUnder e.1 = false ∧ ∃ old, c.inheritedSlot? e.1 = some old ∧
    (e.2.signatureOver e.1 old).reconcile old = .error conflict

namespace BoundClass

/-- The draft of a class with what its bases and its declarations bring. -/
def preparedDraft (c : BoundClass) : Draft :=
  (Draft.ofClass c).inherited.declareAttributes c.source.dict

/-- No check of methods objects to a method of the class. -/
def PassesMethodChecks (o : CompileOptions) (c : BoundClass) : Prop :=
  o.validators.methodFailures c.preparedDraft (c.preparedDraft.initialMethods c.source.dict) = []

variable {o : CompileOptions} {c : BoundClass} {name : String} {f : Function} {old : Signature} {e : CompileError}

theorem conflicts_iff {e : String × Function} : c.Conflicts e ↔ ∃ conflict, c.HasConflict e conflict := by
  constructor
  · rintro ⟨hinit, old, hold, hmatch⟩
    obtain ⟨conflict, hrec⟩ := Signature.exists_reconcile_eq_error_iff.mpr hmatch
    exact ⟨conflict, hinit, old, hold, hrec⟩
  · rintro ⟨conflict, hinit, old, hold, hrec⟩
    exact ⟨hinit, old, hold, Signature.exists_reconcile_eq_error_iff.mp ⟨conflict, hrec⟩⟩

theorem get?_slotTypes_preparedDraft (c : BoundClass) (name : String) :
    c.preparedDraft.slotTypes.get? name = c.inheritedSlot? name :=
  Draft.value_mergeBases NativeType.slotTypes c.extensionBases name

theorem slot_of_inheritedSlot? (hb : ∀ b ∈ c.extensionBases, b.Finished) (h : c.inheritedSlot? name = some old) :
    old.isResolved ∧ old.isConstructor = false := by
  obtain ⟨b, hmem, hget⟩ := List.exists_of_findSome?_eq_some h
  obtain ⟨hresolved, hctor, -⟩ := (hb b (List.mem_reverse.mp hmem)).slot hget
  exact ⟨hresolved, hctor⟩

theorem signature_methodOf (hinit : f.isConstructorUnder name = false) (hold : c.inheritedSlot? name = some old)
    (hctor : old.isConstructor = false) :
    (c.preparedDraft.methodOf name f).signature = f.signatureOver name old := by
  rw [Draft.methodOf, Function.signatureOver]
  cases hdeclared : f.declaredSignature? with
  | some s => rfl
  | none =>
    have hinit : name ≠ initName := by
      unfold Function.declaredSignature? at hdeclared
      unfold Function.isConstructorUnder at hinit
      split at hdeclared
      · cases hdeclared
      next hbare => exact of_decide_eq_false ((if_neg hbare).symm.trans hinit)
    have hadopt : c.preparedDraft.adoptable? name f =
        if old.args.length = f.explicitParams.length then some old else none := by
      rw [Draft.adoptable?, get?_slotTypes_preparedDraft, hold]
      by_cases hlen : old.args.length = f.explicitParams.length <;> simp [hlen, hctor, hinit, Option.filter]
    dsimp only
    rw [Draft.impliedSignature, hadopt]
    by_cases hlen : old.args.length = f.explicitParams.length
    · rw [if_pos hlen, if_pos hlen]
    · rw [if_neg hlen, if_neg hlen]

/-! ## Recording one signature -/

theorem knownSignature?_methodOf (c : BoundClass) (name : String) (f : Function) :
    { c.preparedDraft with methods := .empty }.knownSignature? name (c.preparedDraft.methodOf name f).signature =
      if f.isConstructorUnder name then none else c.inheritedSlot? name := by
  have hslot : { c.preparedDraft with methods := .empty }.slotTypes.get? name = c.inheritedSlot? name :=
    c.get?_slotTypes_preparedDraft name
  rw [Draft.knownSignature?, OrderedMap.get?_empty, Draft.isConstructor_methodOf, hslot]

/-- **Recording a signature fails exactly for a conflict**, with the message of the conflict. -/
theorem firstSignature_eq_error_iff (hb : ∀ b ∈ c.extensionBases, b.Finished) :
    c.preparedDraft.firstSignature (c.preparedDraft.methodOf name f) = .error e ↔
      ∃ conflict, c.HasConflict (name, f) conflict ∧ e = .signature c.name name conflict.message := by
  unfold HasConflict
  rw [Draft.firstSignature, Draft.name_methodOf, Draft.mergedSignature, knownSignature?_methodOf]
  cases hinit : f.isConstructorUnder name with
  | true => simp
  | false =>
    rw [if_neg Bool.false_ne_true]
    cases hold : c.inheritedSlot? name with
    | none => simp
    | some old =>
      have hctor := (slot_of_inheritedSlot? hb hold).2
      dsimp only
      rw [signature_methodOf hinit hold hctor]
      cases hrec : (f.signatureOver name old).reconcile old with
      | ok s => simp [hrec]
      | error conflict =>
        have hclass : c.preparedDraft.name = c.name := rfl
        simp [hrec, hclass, eq_comm]

theorem exists_firstSignature_eq_ok_iff (hb : ∀ b ∈ c.extensionBases, b.Finished) :
    (∃ s, c.preparedDraft.firstSignature (c.preparedDraft.methodOf name f) = .ok s) ↔
      ¬ c.Conflicts (name, f) := by
  rw [conflicts_iff]
  constructor
  · rintro ⟨s, hs⟩ ⟨conflict, hconflict⟩
    have herror := (firstSignature_eq_error_iff hb).mpr ⟨conflict, hconflict, rfl⟩
    rw [hs] at herror
    cases herror
  · intro hnone
    cases hsig : c.preparedDraft.firstSignature (c.preparedDraft.methodOf name f) with
    | ok s => exact ⟨s, rfl⟩
    | error e =>
      obtain ⟨conflict, hconflict, -⟩ := (firstSignature_eq_error_iff hb).mp hsig
      exact absurd ⟨conflict, hconflict⟩ hnone

/-! ## Recording all signatures -/

theorem inferAttributes_eq (hn : (c.extensionBases.map NativeType.name).Nodup) :
    (ofClass c).inferAttributes = .ok { ofClass c with draft := c.preparedDraft } := by
  have hinherit : (ofClass c).draft.inherit = .ok (Draft.ofClass c).inherited :=
    (Draft.inherit_eq_ok_iff rfl rfl).mpr ⟨hn, rfl⟩
  rw [inferAttributes, hinherit]
  rfl

theorem untilMethods_eq (hn : (c.extensionBases.map NativeType.name).Nodup) (hv : c.PassesMethodChecks o) :
    (ofClass c).untilMethods o =
      (Draft.methodFunctions c.source.dict).mapM
          (fun e => c.preparedDraft.firstSignature (c.preparedDraft.methodOf e.1 e.2)) >>= fun _ =>
        .ok (withMethods { ofClass c with draft := c.preparedDraft } c.preparedDraft.recordedSignature
          (c.preparedDraft.initialMethods c.source.dict)) := by
  have hmethods : c.preparedDraft.methodsOf o.validators c.source.dict =
      .ok (c.preparedDraft.initialMethods c.source.dict) := methodsOf_eq_ok_iff.mpr ⟨hv, rfl⟩
  have hnew : ∀ m ∈ c.preparedDraft.initialMethods c.source.dict,
      c.preparedDraft.methods.get? m.name = none := fun m _ => OrderedMap.get?_empty m.name
  have hrun := foldlM_installMethod_eq (i := { ofClass c with draft := c.preparedDraft }) rfl
    (c.preparedDraft.nodup_initialMethods c.source) hnew
  have hmap : (c.preparedDraft.initialMethods c.source.dict).mapM c.preparedDraft.firstSignature =
      (Draft.methodFunctions c.source.dict).mapM fun e =>
        c.preparedDraft.firstSignature (c.preparedDraft.methodOf e.1 e.2) := List.mapM_map
  rw [untilMethods, inferAttributes_eq hn, ← hmap, ← hrun]
  show (c.preparedDraft.methodsOf o.validators c.source.dict >>= _) = _
  rw [hmethods]
  rfl

variable (hb : ∀ b ∈ c.extensionBases, b.Finished) (hn : (c.extensionBases.map NativeType.name).Nodup)
  (hv : c.PassesMethodChecks o)

include hb hn hv

/-- **The error of recording all signatures is that of the first conflict.** -/
theorem untilMethods_eq_error_iff :
    (ofClass c).untilMethods o = .error e ↔
      ∃ before name f after conflict, Draft.methodFunctions c.source.dict = before ++ (name, f) :: after ∧
        (∀ e' ∈ before, ¬ c.Conflicts e') ∧ c.HasConflict (name, f) conflict ∧
        e = .signature c.name name conflict.message := by
  have hrun : (ofClass c).untilMethods o = .error e ↔ (Draft.methodFunctions c.source.dict).mapM
      (fun e => c.preparedDraft.firstSignature (c.preparedDraft.methodOf e.1 e.2)) = .error e := by
    rw [untilMethods_eq hn hv]
    cases (Draft.methodFunctions c.source.dict).mapM
      (fun e => c.preparedDraft.firstSignature (c.preparedDraft.methodOf e.1 e.2)) with
    | ok ss => exact ⟨nofun, nofun⟩
    | error e' => exact ⟨fun h => congrArg _ (Except.error.inj h), fun h => congrArg _ (Except.error.inj h)⟩
  -- each step records a signature or reports the conflict of its own function
  have hstep : ∀ e' ∈ Draft.methodFunctions c.source.dict,
      (∃ s, c.preparedDraft.firstSignature (c.preparedDraft.methodOf e'.1 e'.2) = .ok s) ↔ ¬ c.Conflicts e' :=
    fun _ _ => exists_firstSignature_eq_ok_iff hb
  rw [hrun, mapM_eq_error_iff]
  constructor
  · rintro ⟨before, ⟨name, f⟩, after, hsplit, hbefore, he⟩
    rw [hsplit, List.forall_mem_append] at hstep
    obtain ⟨conflict, hconflict, he⟩ := (firstSignature_eq_error_iff hb).mp he
    exact ⟨before, name, f, after, conflict, hsplit, fun e' he' => (hstep.1 e' he').mp (hbefore e' he'),
      hconflict, he⟩
  · rintro ⟨before, name, f, after, conflict, hsplit, hbefore, hconflict, he⟩
    rw [hsplit, List.forall_mem_append] at hstep
    exact ⟨before, (name, f), after, hsplit, fun e' he' => (hstep.1 e' he').mpr (hbefore e' he'),
      (firstSignature_eq_error_iff hb).mpr ⟨conflict, hconflict, he⟩⟩

theorem exists_untilMethods_eq_error (h : ∃ e ∈ Draft.methodFunctions c.source.dict, c.Conflicts e) :
    ∃ e, (ofClass c).untilMethods o = .error e := by
  obtain ⟨e, hmem, hconflict⟩ := h
  cases hrun : (ofClass c).untilMethods o with
  | error e => exact ⟨e, rfl⟩
  | ok i =>
    rw [untilMethods_eq hn hv, bind_eq_ok_iff] at hrun
    obtain ⟨ss, hss, -⟩ := hrun
    have hok := exists_mapM_eq_ok_iff.mp ⟨ss, hss⟩ e hmem
    exact absurd hconflict ((exists_firstSignature_eq_ok_iff hb).mp hok)

end BoundClass

/-! ## After the check -/

/-- The error is about a body that cannot be typed. -/
def CompileError.IsInference : CompileError → Prop
  | .inference .. => True
  | _ => False

open CompileError (IsInference)

namespace Compilation

variable {o : CompileOptions} {c : BoundClass} {i : Compilation} {m : Method} {ms : List Method}

theorem ensures_isInference_typeMethod (ho : o.backend = .reference) (hi : Awaits ms i) (hm : m ∈ ms) :
    Ensures (i.typeMethod o m) (Awaits ms) IsInference := by
  obtain ⟨old, hold⟩ := hi.signed m hm
  rw [typeMethod_eq ho hi.slots hold]
  cases (Inference.inferMethod (i.request o m)).result with
  | error failure => exact ensures_error.mpr trivial
  | ok t => exact ensures_ok.mpr (hi.withTyping m t _)

theorem ensures_isInference_typeMethods (ho : o.backend = .reference) (hi : Awaits i.methods i) :
    Ensures (i.typeMethods o) (fun _ => True) IsInference := by
  refine (ensures_foldlM (fun _ => Awaits i.methods) hi fun dealt m rest i' hsplit hi' => ?_).mono
    fun _ _ => trivial
  have hm : m ∈ i.methods.filter fun m => m.name ≠ initName ∧ m.name ≠ newName :=
    hsplit ▸ List.mem_append_right dealt List.mem_cons_self
  exact ensures_isInference_typeMethod ho hi' (List.mem_of_mem_filter hm)

theorem Records.awaits {slots : Table.Builder Signature} (h : Records slots i ms)
    (hs : i.draft.slotTypes.isFrozen = false) : Awaits i.methods i :=
  ⟨hs, fun m hm => ⟨m.signature, h.signed m hm⟩⟩

theorem ensures_isInference_typeInit (ho : o.backend = .reference) (hi : Awaits i.methods i) :
    Ensures (i.typeInit o) (fun _ => True) IsInference := by
  unfold typeInit
  split
  next m hm =>
    exact (ensures_isInference_typeMethod ho hi (List.mem_of_find?_eq_some hm)).mono fun _ _ => trivial
  · exact ensures_ok.mpr trivial

/-- **Once all signatures are recorded, only a body can stop inference.** -/
theorem ensures_isInference_runInference (ho : o.backend = .reference) (hi : (ofClass c).untilMethods o = .ok i) :
    Ensures ((ofClass c).runInference o) (fun _ => True) IsInference := by
  obtain ⟨d, slots, hslots, hrec⟩ := (refines_untilMethods o c).of_ok hi
  have hattr := (attributes_untilMethods o c).of_ok hi
  have hs : i.draft.slotTypes.isFrozen = false := by
    rw [hslots]
    rfl
  have hinit := ((ensures_isInference_typeInit ho (hrec.awaits hs)).and
    (ensures_typeInit ho hs hrec (d.nodup_initialMethods c.source))).and (sameFrame_typeInit o i)
  rw [runInference_eq, untilAttributes_eq, hi]
  refine Ensures.bind (P := fun j => Awaits j.methods j ∧ j.draft.slotTypes = .building slots)
    (hinit.bind fun j hj => ?_) fun j hj => ?_
  · obtain ⟨⟨-, hrec', -⟩, hframe⟩ := hj
    have hslots' : j.draft.slotTypes = .building slots := hframe.slotTypes.trans hslots
    have hawaits := hrec'.awaits (by rw [hslots']; rfl)
    rw [Draft.buildAttributes_eq (hframe.attributes.trans hattr)]
    exact ensures_ok.mpr ⟨⟨hawaits.slots, hawaits.signed⟩, hslots'⟩
  · obtain ⟨hawaits, hslots'⟩ := hj
    refine ((ensures_isInference_typeMethods ho hawaits).and (sameFrame_typeMethods o j)).bind fun k hk => ?_
    rw [Draft.buildSlots_eq (hk.2.1.slotTypes.trans hslots')]
    exact ensures_ok.mpr trivial

end Compilation

/-! ## What inference reports -/

namespace BoundClass

variable {o : CompileOptions} {c : BoundClass}

/-- How the inference of a class ends, as far as overridden slots go. -/
structure ReportsOverrides (o : CompileOptions) (c : BoundClass) : Prop where
  fails_iff : (∃ className name message,
      ((ofClass c).infer o).result = .error (.signature className name message)) ↔
    ∃ e ∈ Draft.methodFunctions c.source.dict, c.Conflicts e
  /-- The error names the first function with a conflict, and says what the conflict is. -/
  first : ∀ className name message,
    ((ofClass c).infer o).result = .error (.signature className name message) →
      className = c.name ∧ ∃ before f after conflict,
        Draft.methodFunctions c.source.dict = before ++ (name, f) :: after ∧
        (∀ e ∈ before, ¬ c.Conflicts e) ∧ c.Conflicts (name, f) ∧
        c.HasConflict (name, f) conflict ∧ message = conflict.message
  /-- It is the error of the step that records the signatures. -/
  early : ∀ className name message,
    ((ofClass c).infer o).result = .error (.signature className name message) →
      (ofClass c).untilMethods o = .error (.signature className name message)
  /-- Otherwise every overriding method that is not taken for a constructor ends with the signature of the slot. -/
  agrees : ((ofClass c).infer o).result = .ok () → ∀ e ∈ Draft.methodFunctions c.source.dict,
    e.2.isConstructorUnder e.1 = false → ∀ old, c.inheritedSlot? e.1 = some old →
      ∃ s, ((ofClass c).infer o).after.draft.methods.get? e.1 = some s ∧
        ((ofClass c).infer o).after.draft.slotTypes.get? e.1 = some s ∧
        s.args = old.args ∧ s.kind = old.kind ∧ s.ret = old.ret

theorem result_infer_eq_error_iff {e : CompileError} :
    ((ofClass c).infer o).result = .error e ↔ (ofClass c).runInference o = .error e := by
  cases hrun : (ofClass c).runInference o with
  | ok i =>
    rw [infer_ofClass hrun]
    exact ⟨nofun, nofun⟩
  | error e' =>
    rw [infer_ofClass_error hrun]
    exact ⟨fun h => congrArg _ (Except.error.inj h), fun h => congrArg _ (Except.error.inj h)⟩

theorem runInference_eq_error_of_untilMethods {e : CompileError} (h : (ofClass c).untilMethods o = .error e) :
    (ofClass c).runInference o = .error e := by
  rw [runInference_eq, untilAttributes_eq, h]
  rfl

/-- An overriding method ends with the signature of the slot. -/
theorem agrees_of_runInference (ho : o.backend = .reference) (hb : ∀ b ∈ c.extensionBases, b.Finished)
    {i : Compilation} (hi : (ofClass c).runInference o = .ok i) {e : String × Function}
    (he : e ∈ Draft.methodFunctions c.source.dict) (hinit : e.2.isConstructorUnder e.1 = false)
    {old : Signature} (hold : c.inheritedSlot? e.1 = some old) :
    ∃ s, i.draft.methods.get? e.1 = some s ∧ i.draft.slotTypes.get? e.1 = some s ∧
      s.args = old.args ∧ s.kind = old.kind ∧ s.ret = old.ret := by
  have hinf := (ensures_runInference ho c).of_ok hi
  have hnew : e.1 ≠ newName := of_decide_eq_true (List.mem_filter.mp he).2
  obtain ⟨m, hm, hname, hctor⟩ :=
    hinf.definesSlot_iff.mp ⟨e.2, ClassSource.get?_of_mem_methodFunctions he, hnew, hinit⟩
  have hmerged : (Draft.mergeBases c.extensionBases NativeType.slotTypes).get? m.name = some old := by
    rw [Draft.value_mergeBases, hname]
    exact hold
  have hfits : m.signature.Fits old := hinf.fits m hm hctor old hmerged
  have hslot : i.draft.slotTypes.get? m.name = some m.signature := by
    have hown := hinf.lookup_slotMethods_iff.mpr ⟨m, hm, rfl, rfl, hctor⟩
    rw [hinf.slotTypes]
    refine (Table.Builder.get?_freeze_insertOwns _ i.draft.nodup_slotMethods).trans ?_
    rw [hown]
    rfl
  refine ⟨m.signature, ?_, ?_, hfits.args, hfits.kind, hfits.ret_eq (slot_of_inheritedSlot? hb hold).1⟩
  · rw [← hname, hinf.signed m hm]
  · rw [← hname, hslot]

/-- **What inference reports of overridden slots.** A class over finished bases with different names, whose methods
pass all checks, fails with a signature error exactly if one of its functions conflicts with a slot. -/
theorem reportsOverrides_infer (ho : o.backend = .reference) (hb : ∀ b ∈ c.extensionBases, b.Finished)
    (hn : (c.extensionBases.map NativeType.name).Nodup) (hv : c.PassesMethodChecks o) : c.ReportsOverrides o := by
  have hearly : ∀ className name message,
      ((ofClass c).infer o).result = .error (.signature className name message) →
        (ofClass c).untilMethods o = .error (.signature className name message) := by
    intro className name message h
    rw [result_infer_eq_error_iff] at h
    cases huntil : (ofClass c).untilMethods o with
    | error e => rw [← h, runInference_eq_error_of_untilMethods huntil]
    | ok i => exact ((ensures_isInference_runInference ho huntil).of_error h).elim
  refine ⟨⟨?_, ?_⟩, ?_, hearly, ?_⟩
  · rintro ⟨className, name, message, h⟩
    obtain ⟨before, name', f, after, conflict, hsplit, -, hconflict, -⟩ :=
      (untilMethods_eq_error_iff hb hn hv).mp (hearly _ _ _ h)
    exact ⟨(name', f), hsplit ▸ List.mem_append_right before List.mem_cons_self,
      conflicts_iff.mpr ⟨conflict, hconflict⟩⟩
  · intro h
    obtain ⟨e, he⟩ := exists_untilMethods_eq_error hb hn hv h
    obtain ⟨before, name, f, after, conflict, -, -, -, hsig⟩ := (untilMethods_eq_error_iff hb hn hv).mp he
    rw [hsig] at he
    exact ⟨_, _, _, result_infer_eq_error_iff.mpr (runInference_eq_error_of_untilMethods he)⟩
  · intro className name message h
    obtain ⟨before, name', f, after, conflict, hsplit, hbefore, hconflict, he⟩ :=
      (untilMethods_eq_error_iff hb hn hv).mp (hearly _ _ _ h)
    cases he
    exact ⟨rfl, before, f, after, conflict, hsplit, hbefore, conflicts_iff.mpr ⟨conflict, hconflict⟩, hconflict, rfl⟩
  · intro h e he hinit old hold
    cases hrun : (ofClass c).runInference o with
    | error e =>
      rw [infer_ofClass_error hrun] at h
      cases h
    | ok i =>
      rw [infer_ofClass hrun]
      exact agrees_of_runInference ho hb hrun he hinit hold

end BoundClass

/-! ## A conflict -/

namespace Sample

/-- A class whose second method takes another argument than the slot that it overrides. -/
def square : BoundClass :=
  classOf "Square" [method "label" [] (some .str), method "area" [some .float] (some .float)]
    [.extension (typeOf options shape)]

theorem passesMethodChecks_square : square.PassesMethodChecks options := by
  unfold BoundClass.PassesMethodChecks
  decide +kernel

end Sample

open Sample in
theorem BoundClass.reportsOverrides_infer_square :
    ((ofClass square).infer options).result = .error (.signature "Square" "area"
        "argument types (float) do not match existing signature (int)") ∧
      square.ReportsOverrides options :=
  ⟨by decide +kernel, reportsOverrides_infer rfl (List.forall_mem_singleton.mpr finished_shape) (by decide)
    passesMethodChecks_square⟩

open Sample in
/-- **A method that is taken for a constructor is not compared with the slot that it overrides.** -/
theorem BoundClass.unreported_cube :
    (∀ b ∈ cube.extensionBases, b.Finished) ∧ (cube.extensionBases.map NativeType.name).Nodup ∧
      cube.PassesMethodChecks options ∧ ((ofClass cube).infer options).result = .ok () ∧
      ∃ f old, ("area", f) ∈ Draft.methodFunctions cube.source.dict ∧ "area" ≠ initName ∧
        cube.inheritedSlot? "area" = some old ∧ ¬ (f.signatureOver "area" old).Matches old := by
  have hchecks : cube.PassesMethodChecks options := by
    unfold BoundClass.PassesMethodChecks
    decide +kernel
  refine ⟨List.forall_mem_singleton.mpr finished_shape, by decide, hchecks, by decide +kernel, _,
    { args := [.int], ret := some .float }, List.mem_cons_self, by decide, by decide +kernel, ?_⟩
  rintro ⟨-, hargs, -⟩
  revert hargs
  decide +kernel

end NativeClass
