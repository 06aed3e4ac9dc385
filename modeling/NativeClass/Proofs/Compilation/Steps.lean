import NativeClass.Proofs.Compilation.EveryUnion
/-!
# The steps of inference as functions

What recording signatures and typing bodies make of a compilation, when they succeed.

* `Draft.firstSignature`: the signature that is recorded for a method when its class has none under its name.
* **`Compilation.installMethods_eq_ok_iff`**: recording the signatures of a class.
* **`Compilation.typeMethod_eq`**: typing one method.
* `Compilation.Awaits`: a compilation that can type some methods.
* **`Compilation.exists_of_foldlM_typeMethod`**: what each method of a run is typed against.
-/

namespace NativeClass

open Inference (inferMethod)

/-! ## Signatures before any body is typed -/

/-- The signature that is recorded for a method when the class has none under its name. -/
def Draft.firstSignature (d : Draft) (m : Method) : Except CompileError Signature :=
  { d with methods := .empty }.mergedSignature m.name m.signature

/-- The same, where it can be recorded. -/
def Draft.recordedSignature (d : Draft) (m : Method) : Signature :=
  (d.firstSignature m).toOption.getD m.signature

theorem Draft.mergedSignature_of_get?_eq_none {d : Draft} {m : Method} (h : d.methods.get? m.name = none) :
    d.mergedSignature m.name m.signature = d.firstSignature m := by
  simp only [firstSignature, mergedSignature, knownSignature?, h, OrderedMap.get?_empty]

namespace Compilation

variable {o : CompileOptions} {i i' : Compilation} {m : Method} {ms : List Method}

theorem installMethod_eq (hs : i.draft.slotTypes.isFrozen = false) (h : i.draft.methods.get? m.name = none) :
    i.installMethod m = i.draft.firstSignature m >>= fun s => .ok (i.withMethod m s) := by
  rw [installMethod, Draft.addMethod, hs, if_neg Bool.false_ne_true, Draft.mergedSignature_of_get?_eq_none h,
    bind_assoc]
  rfl

/-- The compilation with the signatures of several methods recorded. -/
def withMethods (i : Compilation) (sig : Method → Signature) (ms : List Method) : Compilation :=
  ms.foldl (fun i m => i.withMethod m (sig m)) i

theorem withMethods_cons (i : Compilation) (sig : Method → Signature) (m : Method) (ms : List Method) :
    i.withMethods sig (m :: ms) = (i.withMethod m (sig m)).withMethods sig ms := rfl

theorem sameFrame_withMethods (i : Compilation) (sig : Method → Signature) (ms : List Method) :
    SameFrame i (i.withMethods sig ms) ∧ (i.withMethods sig ms).draft.symbols = i.draft.symbols := by
  induction ms generalizing i with
  | nil => exact ⟨.refl i, rfl⟩
  | cons m ms ih =>
    obtain ⟨hframe, hsymbols⟩ := ih (i.withMethod m (sig m))
    have hstep : SameFrame i (i.withMethod m (sig m)) := ⟨rfl, rfl, rfl, rfl, rfl, rfl⟩
    exact ⟨hstep.trans hframe, hsymbols⟩

theorem methods_withMethods (i : Compilation) (sig : Method → Signature) (ms : List Method) :
    (i.withMethods sig ms).methods = i.methods ++ ms.map fun m => { m with signature := sig m } := by
  induction ms generalizing i with
  | nil => exact (List.append_nil _).symm
  | cons m ms ih =>
    rw [withMethods_cons, ih, List.map_cons, ← List.singleton_append, ← List.append_assoc]
    rfl

theorem get?_withMethods_of_not_mem (i : Compilation) (sig : Method → Signature) {name : String}
    (h : name ∉ ms.map Method.name) : (i.withMethods sig ms).draft.methods.get? name = i.draft.methods.get? name := by
  induction ms generalizing i with
  | nil => rfl
  | cons m ms ih =>
    rw [List.map_cons, List.mem_cons, not_or] at h
    rw [withMethods_cons, ih _ h.2]
    exact (OrderedMap.get?_insert ..).trans (if_neg h.1)

theorem get?_withMethods (i : Compilation) (sig : Method → Signature) (hn : (ms.map Method.name).Nodup)
    (hm : m ∈ ms) : (i.withMethods sig ms).draft.methods.get? m.name = some (sig m) := by
  induction ms generalizing i with
  | nil => cases hm
  | cons x ms ih =>
    obtain ⟨hx, hn⟩ := List.nodup_cons.mp hn
    rw [withMethods_cons]
    rcases List.mem_cons.mp hm with rfl | hm
    · rw [get?_withMethods_of_not_mem _ _ hx]
      exact OrderedMap.get?_insert_self ..
    · exact ih _ hn hm

/-- **Recording the signatures of several methods**: each is worked out from the slots alone. -/
theorem foldlM_installMethod_eq (hs : i.draft.slotTypes.isFrozen = false) (hn : (ms.map Method.name).Nodup)
    (hnew : ∀ m ∈ ms, i.draft.methods.get? m.name = none) :
    ms.foldlM installMethod i =
      ms.mapM i.draft.firstSignature >>= fun _ => .ok (i.withMethods i.draft.recordedSignature ms) := by
  induction ms generalizing i with
  | nil => rfl
  | cons m ms ih =>
    obtain ⟨hm, hms⟩ := List.forall_mem_cons.mp hnew
    obtain ⟨hfresh, hn⟩ := List.nodup_cons.mp hn
    have hrest : ∀ s, ∀ x ∈ ms, (i.withMethod m s).draft.methods.get? x.name = none := fun s x hx => by
      have hne : x.name ≠ m.name := fun e => hfresh (e ▸ List.mem_map_of_mem hx)
      exact ((OrderedMap.get?_insert ..).trans (if_neg hne)).trans (hms x hx)
    rw [List.foldlM_cons, List.mapM_cons, installMethod_eq hs hm, withMethods_cons, Draft.recordedSignature]
    cases i.draft.firstSignature m with
    | error e => rfl
    | ok s =>
      -- recording a signature changes no signature that is recorded later
      refine (ih (i := i.withMethod m s) hs hn (hrest s)).trans ?_
      show ms.mapM i.draft.firstSignature >>= _ = _
      cases ms.mapM i.draft.firstSignature with
      | error e => rfl
      | ok ss => rfl

theorem foldlM_installMethod_eq_ok_iff (hs : i.draft.slotTypes.isFrozen = false) (hn : (ms.map Method.name).Nodup)
    (hnew : ∀ m ∈ ms, i.draft.methods.get? m.name = none) :
    ms.foldlM installMethod i = .ok i' ↔
      (∀ m ∈ ms, i.draft.firstSignature m = .ok (i.draft.recordedSignature m)) ∧
        i' = i.withMethods i.draft.recordedSignature ms := by
  rw [foldlM_installMethod_eq hs hn hnew, bind_eq_ok_iff]
  constructor
  · rintro ⟨ss, hss, hi'⟩
    refine ⟨fun m hm => ?_, (Except.ok.inj hi').symm⟩
    obtain ⟨s, hsig⟩ := exists_mapM_eq_ok_iff.mp ⟨ss, hss⟩ m hm
    rw [Draft.recordedSignature, hsig]
    rfl
  · rintro ⟨hsig, rfl⟩
    exact ⟨_, mapM_eq_ok hsig, rfl⟩

theorem methodsOf_eq_ok_iff {d : Draft} {v : ValidatorSet} {dict : ClassDict} :
    d.methodsOf v dict = .ok ms ↔ v.methodFailures d (d.initialMethods dict) = [] ∧ ms = d.initialMethods dict := by
  rw [Draft.methodsOf, bind_eq_ok_iff]
  unfold ValidatorSet.accept
  constructor
  · rintro ⟨u, hu, hms⟩
    cases hms
    split at hu
    next h => exact ⟨List.isEmpty_iff.mp h, rfl⟩
    · cases hu
  · rintro ⟨hfailures, rfl⟩
    exact ⟨(), if_pos (List.isEmpty_iff.mpr hfailures), rfl⟩

/-- **Recording the signatures of a class succeeds if no check objects to a method and each signature can be
recorded.** -/
theorem installMethods_eq_ok_iff {source : ClassSource} (hdict : i.dict = source.dict)
    (hs : i.draft.slotTypes.isFrozen = false) (hm : i.draft.methods = .empty) :
    i.installMethods o = .ok i' ↔
      o.validators.methodFailures i.draft (i.draft.initialMethods source.dict) = [] ∧
        (∀ m ∈ i.draft.initialMethods source.dict, i.draft.firstSignature m = .ok (i.draft.recordedSignature m)) ∧
          i' = withMethods { i with methods := [] } i.draft.recordedSignature (i.draft.initialMethods source.dict) := by
  have hn := i.draft.nodup_initialMethods source
  have hnew : ∀ m ∈ i.draft.initialMethods source.dict,
      ({ i with methods := [] } : Compilation).draft.methods.get? m.name = none := fun m _ => by
    rw [show ({ i with methods := [] } : Compilation).draft.methods = .empty from hm, OrderedMap.get?_empty]
  have hinstall : (i.draft.initialMethods source.dict).foldlM installMethod { i with methods := [] } = .ok i' ↔ _ :=
    foldlM_installMethod_eq_ok_iff hs hn hnew
  rw [← hdict] at hinstall ⊢
  rw [installMethods, bind_eq_ok_iff]
  constructor
  · rintro ⟨ms, hms, hrun⟩
    obtain ⟨hfailures, rfl⟩ := methodsOf_eq_ok_iff.mp hms
    exact ⟨hfailures, hinstall.mp hrun⟩
  · rintro ⟨hfailures, hrun⟩
    exact ⟨_, methodsOf_eq_ok_iff.mpr ⟨hfailures, rfl⟩, hinstall.mpr hrun⟩

/-! ## Typing one method -/

/-- The symbol table after the typing of a method. -/
def symbolsAfter (o : CompileOptions) (i : Compilation) (m : Method) : SymbolTable :=
  if m.name = initName then (inferMethod (i.request o m)).symbols else i.draft.symbols

/-- **Typing one method whose signature is recorded.** Recording the outcome cannot fail. -/
theorem typeMethod_eq (ho : o.backend = .reference) (hs : i.draft.slotTypes.isFrozen = false) {old : Signature}
    (hold : i.draft.methods.get? m.name = some old) :
    i.typeMethod o m =
      match (inferMethod (i.request o m)).result with
      | .error f => .error (typingError i.draft.name m f)
      | .ok t => .ok (i.withTyping m t (i.symbolsAfter o m)) := by
  have hdeclared : (i.request o m).declared = old := by
    rw [request, hold]
    rfl
  have hinfer := Inference.ensures_inferMethod (i.request o m)
  have hsymbols : (if (i.request o m).mayDefine then (inferMethod (i.request o m)).symbols else i.draft.symbols) =
      i.symbolsAfter o m := by
    unfold symbolsAfter request
    simp only [decide_eq_true_eq]
  unfold typeMethod
  rw [ho]
  dsimp only [Backend.reference]
  rw [hsymbols]
  cases hresult : (inferMethod (i.request o m)).result with
  | error f => rfl
  | ok t =>
    obtain ⟨htyped, hresolved⟩ := hinfer.of_ok hresult
    rw [hdeclared] at htyped
    -- the recorded signature is that of the typing
    have hadd := Draft.addMethod_of_fits (d := { i.draft with symbols := i.symbolsAfter o m }) hs hold
      htyped.toFits hresolved
    dsimp only
    rw [recordTyping, hadd]
    rfl

theorem typeMethod_eq_ok_iff (ho : o.backend = .reference) (hs : i.draft.slotTypes.isFrozen = false)
    {old : Signature} (hold : i.draft.methods.get? m.name = some old) :
    i.typeMethod o m = .ok i' ↔
      ∃ t, (inferMethod (i.request o m)).result = .ok t ∧ i' = i.withTyping m t (i.symbolsAfter o m) := by
  rw [typeMethod_eq ho hs hold]
  cases (inferMethod (i.request o m)).result with
  | error f => exact ⟨nofun, nofun⟩
  | ok t => exact ⟨fun h => ⟨t, rfl, (Except.ok.inj h).symm⟩, fun ⟨t', ht', hi'⟩ => by cases ht'; rw [hi']⟩

/-- A signature that is resolved before its method is typed stays as it is. -/
theorem signature_eq_of_resolved {t : Typing} (h : (inferMethod (i.request o m)).result = .ok t) {old : Signature}
    (hold : i.draft.methods.get? m.name = some old) (hresolved : old.isResolved) : t.signature = old := by
  have hdeclared : (i.request o m).declared = old := by
    rw [request, hold]
    rfl
  obtain ⟨htyped, -⟩ := (Inference.ensures_inferMethod (i.request o m)).of_ok h
  rw [hdeclared] at htyped
  have hret : t.signature.ret = old.ret := htyped.toFits.ret_eq hresolved
  obtain ⟨args, ret, kind, isConstructor, isAbstract⟩ := old
  cases hsig : t.signature
  rw [hsig] at htyped hret
  cases htyped.kind
  cases htyped.args
  cases htyped.isConstructor
  cases htyped.isAbstract
  cases hret
  rfl

/-! ## Typing several methods -/

/-- The signatures of some methods are recorded, and the table of slots can still be filled. -/
structure Awaits (ms : List Method) (i : Compilation) : Prop where
  slots : i.draft.slotTypes.isFrozen = false
  signed : ∀ m ∈ ms, ∃ s, i.draft.methods.get? m.name = some s

theorem get?_withTyping (i : Compilation) (m : Method) (t : Typing) (symbols : SymbolTable) (name : String) :
    (i.withTyping m t symbols).draft.methods.get? name =
      if name = m.name then some t.signature else i.draft.methods.get? name :=
  OrderedMap.get?_insert ..

theorem Awaits.withTyping (h : Awaits ms i) (m : Method) (t : Typing) (symbols : SymbolTable) :
    Awaits ms (i.withTyping m t symbols) where
  slots := h.slots
  signed x hx := by
    rw [get?_withTyping]
    split
    · exact ⟨t.signature, rfl⟩
    · exact h.signed x hx

theorem Awaits.of_sublist {ms' : List Method} (h : Awaits ms i) (hsub : ∀ m ∈ ms', m ∈ ms) : Awaits ms' i :=
  ⟨h.slots, fun m hm => h.signed m (hsub m hm)⟩

/-- What a run of typings leaves alone: the signatures of all other methods, the name, the slots, and the symbol
table if the constructor is not among the methods. -/
structure Leaves (ms : List Method) (i i' : Compilation) : Prop where
  signatures : ∀ name, name ∉ ms.map Method.name → i'.draft.methods.get? name = i.draft.methods.get? name
  name : i'.draft.name = i.draft.name
  slotTypes : i'.draft.slotTypes = i.draft.slotTypes
  symbols : i'.draft.symbols = i.draft.symbols

theorem leaves_foldlM_typeMethod (ho : o.backend = .reference) (hi : Awaits ms i)
    (hms : ∀ m ∈ ms, m.name ≠ initName) (h : ms.foldlM (typeMethod o) i = .ok i') :
    Leaves ms i i' ∧ ∀ all, Awaits all i → Awaits all i' := by
  induction ms generalizing i with
  | nil =>
    cases h
    exact ⟨⟨fun _ _ => rfl, rfl, rfl, rfl⟩, fun _ h => h⟩
  | cons m ms ih =>
    obtain ⟨hm, hms⟩ := List.forall_mem_cons.mp hms
    obtain ⟨old, hold⟩ := hi.signed m List.mem_cons_self
    rw [List.foldlM_cons] at h
    obtain ⟨j, hj, h⟩ := bind_eq_ok_iff.mp h
    obtain ⟨t, -, rfl⟩ := (typeMethod_eq_ok_iff ho hi.slots hold).mp hj
    obtain ⟨hleaves, hawaits⟩ :=
      ih ((hi.withTyping m t _).of_sublist fun x hx => List.mem_cons_of_mem m hx) hms h
    have hsymbols : i.symbolsAfter o m = i.draft.symbols := if_neg hm
    refine ⟨⟨fun name hname => ?_, hleaves.name, hleaves.slotTypes, hleaves.symbols.trans hsymbols⟩,
      fun all hall => hawaits all (hall.withTyping m t _)⟩
    rw [List.map_cons, List.mem_cons, not_or] at hname
    rw [hleaves.signatures name hname.2, get?_withTyping, if_neg hname.1]

/-- **What each method of a run is typed against**: the signatures that the run finds for the methods before it, and
those that were there at the beginning for all others. -/
theorem exists_of_foldlM_typeMethod (ho : o.backend = .reference) {before after : List Method}
    (hn : ((before ++ m :: after).map Method.name).Nodup) (hi : Awaits (before ++ m :: after) i)
    (hms : ∀ x ∈ before ++ m :: after, x.name ≠ initName)
    (h : (before ++ m :: after).foldlM (typeMethod o) i = .ok i') :
    ∃ j t, (inferMethod (j.request o m)).result = .ok t ∧ i'.draft.methods.get? m.name = some t.signature ∧
      Leaves before i j ∧
      ∀ name ∈ before.map Method.name, j.draft.methods.get? name = i'.draft.methods.get? name := by
  obtain ⟨hbefore, hrest⟩ := List.forall_mem_append.mp hms
  obtain ⟨hm, hafter⟩ := List.forall_mem_cons.mp hrest
  rw [List.map_append, List.map_cons] at hn
  obtain ⟨-, hn', hdisj⟩ := List.nodup_append.mp hn
  rw [List.foldlM_append] at h
  obtain ⟨j, hj, h⟩ := bind_eq_ok_iff.mp h
  obtain ⟨hleaves, hawaits⟩ := leaves_foldlM_typeMethod ho
    (hi.of_sublist fun x hx => List.mem_append_left _ hx) hbefore hj
  have hj' := hawaits _ hi
  rw [List.foldlM_cons] at h
  obtain ⟨k, hk, h⟩ := bind_eq_ok_iff.mp h
  obtain ⟨old, hold⟩ := hj'.signed m (List.mem_append_right _ List.mem_cons_self)
  obtain ⟨t, ht, rfl⟩ := (typeMethod_eq_ok_iff ho hj'.slots hold).mp hk
  obtain ⟨hleaves', -⟩ := leaves_foldlM_typeMethod ho
    ((hj'.withTyping m t _).of_sublist fun x hx => List.mem_append_right _ (List.mem_cons_of_mem m hx)) hafter h
  refine ⟨j, t, ht, ?_, hleaves, fun name hname => ?_⟩
  · rw [hleaves'.signatures _ (List.nodup_cons.mp hn').1, get?_withTyping, if_pos rfl]
  · have hne := hdisj name hname
    rw [hleaves'.signatures name fun hmem => hne name (List.mem_cons_of_mem _ hmem) rfl, get?_withTyping,
      if_neg (hne m.name List.mem_cons_self)]

end Compilation

end NativeClass
