import NativeClass.Proofs.Compilation.Attributes
import NativeClass.Proofs.Inference.EveryUnion
/-!
# Requirements on unions that a compilation keeps

A requirement that unions of types meet holds of every union in the types that the inference of a class finds,
if it holds of the type hints of the class and of the tables of its bases.

* `BoundClass.EveryUnion`: the unions in the types of a class and of its bases.
* `Compilation.EveryUnion`: the unions in what a compilation knows of attributes and methods.
* **`Compilation.everyUnion_installMethods`**, **`Compilation.everyUnion_typeMethod`**: what the steps of
  inference keep.
* `BoundClass.requests`: all that the engine is asked about a class.
* **`BoundClass.everyUnion_of_mem_requests`**: the types that the engine is given.
-/

namespace NativeClass

variable {Q : List Ty → Prop}

/-! ## What a class brings -/

/-- The unions in the tables of a finished type meet the requirement. -/
structure NativeType.EveryUnion (Q : List Ty → Prop) (t : NativeType) : Prop where
  attributes : ∀ name ty, t.attributes.get? name = some ty → ty.EveryUnion Q
  slotTypes : ∀ name s, t.slotTypes.get? name = some s → s.EveryUnion Q

/-- The unions in the type hints of a function meet the requirement. -/
structure Function.EveryUnion (Q : List Ty → Prop) (f : Function) : Prop where
  params : ∀ p ∈ f.params, ∀ t ∈ p.hint, t.EveryUnion Q
  returns : ∀ t ∈ f.returns, t.EveryUnion Q

/-- The unions in the type hints of a class and in the tables of its bases meet the requirement. -/
structure BoundClass.EveryUnion (Q : List Ty → Prop) (c : BoundClass) : Prop where
  attributes : ∀ e ∈ c.source.declaredAttributes, e.2.EveryUnion Q
  functions : ∀ name f, c.source.members.get? name = some (.function f) → f.EveryUnion Q
  bases : ∀ b ∈ c.extensionBases, b.EveryUnion Q

/-! ## Signatures -/

theorem Function.EveryUnion.explicitParams {f : Function} (h : f.EveryUnion Q) :
    ∀ p ∈ f.explicitParams, ∀ t ∈ p.hint, t.EveryUnion Q := by
  intro p hp
  refine h.params p ?_
  unfold Function.explicitParams at hp
  split at hp
  · exact hp
  · exact List.mem_of_mem_tail hp
  · exact List.mem_of_mem_tail hp

theorem Signature.everyUnion_reconcile {new old s : Signature} (hnew : new.EveryUnion Q) (hold : old.EveryUnion Q)
    (h : new.reconcile old = .ok s) : s.EveryUnion Q := by
  unfold reconcile at h
  split at h
  · cases h
  · split at h
    · cases h
    · split at h
      · split at h
        · cases h
          exact hnew
        · cases h
      · cases h
        exact hnew
      next hret =>
        cases h
        exact ⟨hnew.args, hold.ret⟩

namespace Draft

variable {d : Draft}

theorem everyUnion_openSignature (name : String) (f : Function) : (openSignature name f).EveryUnion Q := by
  refine ⟨fun t ht => ?_, nofun⟩
  obtain ⟨_, -, rfl⟩ := List.mem_map.mp ht
  trivial

theorem exists_attributes_of_buildAttributes {d' : Draft} (h : d.buildAttributes = .ok d') :
    ∃ attributes, d' = { d with attributes } := by
  refine (ensures_foldlM (E := fun _ => True) (fun _ (d' : Draft) => ∃ attributes, d' = { d with attributes })
    ⟨d.attributes, rfl⟩ ?_).of_ok h
  rintro dealt e rest d' - ⟨attributes, rfl⟩
  unfold addAttribute
  split
  · exact ensures_ok.mpr ⟨_, rfl⟩
  · exact ensures_error.mpr trivial

theorem everyUnion_methodOf (hslots : ∀ name s, d.slotTypes.get? name = some s → s.EveryUnion Q) (name : String)
    {f : Function} (hf : f.EveryUnion Q) : (d.methodOf name f).signature.EveryUnion Q := by
  unfold methodOf
  split
  next s hs =>
    unfold Function.declaredSignature? at hs
    split at hs
    · cases hs
      refine ⟨fun t ht => ?_, hf.returns⟩
      obtain ⟨p, hp, rfl⟩ := List.mem_map.mp ht
      cases hhint : p.hint with
      | none => trivial
      | some ty => exact hf.explicitParams p hp ty hhint
    · cases hs
  · show (d.impliedSignature name f).EveryUnion Q
    unfold impliedSignature
    split
    next s hs =>
      have hslot := hslots name s (Option.filter_eq_some_iff.mp hs).1
      exact ⟨hslot.args, hslot.ret⟩
    · exact everyUnion_openSignature name f

theorem everyUnion_addMethod (hmethods : ∀ name s, d.methods.get? name = some s → s.EveryUnion Q)
    (hslots : ∀ name s, d.slotTypes.get? name = some s → s.EveryUnion Q) (name : String) {s : Signature}
    (hs : s.EveryUnion Q) :
    Ensures (d.addMethod name s)
      (fun r => r.1.EveryUnion Q ∧ r.2 = { d with methods := d.methods.insert name r.1 }) fun _ => True := by
  have hknown : ∀ old, d.knownSignature? name s = some old → old.EveryUnion Q := by
    intro old hold
    unfold knownSignature? at hold
    split at hold
    next own hown => exact Option.some.inj hold ▸ hmethods name own hown
    · split at hold
      · cases hold
      · exact hslots name old hold
  unfold addMethod mergedSignature
  split
  · exact ensures_error.mpr trivial
  · split
    · exact ensures_ok.mpr ⟨hs, rfl⟩
    next old hold =>
      split
      next merged hmerged =>
        exact ensures_ok.mpr ⟨Signature.everyUnion_reconcile hs (hknown old hold) hmerged, rfl⟩
      · exact ensures_error.mpr trivial

end Draft

theorem BoundClass.EveryUnion.initialSymbols {c : BoundClass} (h : c.EveryUnion Q) :
    SymbolTable.EveryUnion Q (Draft.initialSymbols c) := by
  intro name v hv
  rw [Draft.get?_initialSymbols, Option.or_eq_some_iff] at hv
  rcases hv with hdeclared | ⟨-, hinherited⟩
  · obtain ⟨ty, hty, rfl⟩ := Option.map_eq_some_iff.mp hdeclared
    exact h.attributes (name, ty) (OrderedMap.mem_of_lookup hty)
  · obtain ⟨e, he, rfl⟩ := Option.map_eq_some_iff.mp hinherited
    have hget : (Draft.mergeBases c.extensionBases NativeType.attributes).get? name = some e.value := by
      rw [Table.Builder.get?, he]
      rfl
    obtain ⟨b, hb, hty⟩ := Draft.exists_base_of_get? _ _ hget
    exact (h.bases b hb).attributes name e.value hty

/-! ## Steps of inference -/

namespace Compilation

variable {o : CompileOptions} {c : BoundClass} {i i' : Compilation} {m : Method} {ms : List Method}

/-- The unions in what a compilation knows of attributes and methods meet the requirement. -/
structure EveryUnion (Q : List Ty → Prop) (i : Compilation) : Prop where
  symbols : i.draft.symbols.EveryUnion Q
  signatures : ∀ name s, i.draft.methods.get? name = some s → s.EveryUnion Q
  slots : ∀ name s, i.draft.slotTypes.get? name = some s → s.EveryUnion Q
  methods : ∀ m ∈ i.methods, m.signature.EveryUnion Q

theorem EveryUnion.request (h : i.EveryUnion Q) (hm : m.signature.EveryUnion Q) :
    (i.request o m).EveryUnion Q ∧ ∀ t ∈ (i.request o m).declared.ret, t.EveryUnion Q := by
  have hdeclared : (i.request o m).declared.EveryUnion Q := by
    show ((i.draft.methods.get? m.name).getD m.signature).EveryUnion Q
    cases hget : i.draft.methods.get? m.name with
    | none => exact hm
    | some s => exact h.signatures m.name s hget
  refine ⟨⟨hdeclared.args, h.symbols, fun name s hs => ?_⟩, hdeclared.ret⟩
  rcases Option.or_eq_some_iff.mp hs with hown | ⟨-, hslot⟩
  · exact h.signatures name s hown
  · exact h.slots name s hslot

theorem everyUnion_installMethod (h : i.EveryUnion Q) (hm : m.signature.EveryUnion Q) :
    Ensures (i.installMethod m) (EveryUnion Q) fun _ => True := by
  refine (Draft.everyUnion_addMethod h.signatures h.slots m.name hm).bind fun r hr => ?_
  obtain ⟨s, draft⟩ := r
  obtain ⟨hs, hdraft⟩ := hr
  dsimp only at hdraft
  subst hdraft
  refine ensures_ok.mpr ⟨h.symbols, OrderedMap.forall_get?_insert h.signatures hs, h.slots, ?_⟩
  exact List.forall_mem_append.mpr ⟨h.methods, List.forall_mem_singleton.mpr hs⟩

/-- **Recording the signatures of a class.** -/
theorem everyUnion_installMethods (hc : c.EveryUnion Q) (hi : Prepared c i) (hsymbols : i.draft.symbols.EveryUnion Q) :
    Ensures (i.installMethods o) (EveryUnion Q) fun _ => True := by
  have hslots : ∀ name s, i.draft.slotTypes.get? name = some s → s.EveryUnion Q := by
    intro name s hs
    rw [hi.slotTypes] at hs
    obtain ⟨b, hb, hget⟩ := Draft.exists_base_of_get? _ _ hs
    exact (hc.bases b hb).slotTypes name s hget
  refine (Draft.ensures_methodsOf i.draft o.validators i.dict).of_any.bind fun ms hms => ?_
  have hmethods : ∀ m ∈ ms, m.signature.EveryUnion Q := by
    intro m hm
    rw [hms, hi.dict] at hm
    obtain ⟨e, he, rfl⟩ := List.mem_map.mp hm
    exact Draft.everyUnion_methodOf hslots e.1 (hc.functions e.1 e.2 (ClassSource.get?_of_mem_methodFunctions he))
  refine ensures_foldlM (fun _ => EveryUnion Q) ⟨hsymbols, fun name s hs => ?_, hslots, List.forall_mem_nil _⟩ ?_
  · rw [show ({ i with methods := [] } : Compilation).draft.methods = .empty from hi.methods,
      OrderedMap.get?_empty] at hs
    cases hs
  · intro dealt m rest i' hsplit hi'
    exact everyUnion_installMethod hi' (hmethods m (hsplit ▸ List.mem_append_right dealt List.mem_cons_self))

/-- **Typing one method.** -/
theorem everyUnion_typeMethod (hQ : UnionClosed Q) (ho : o.backend = .reference) (h : i.EveryUnion Q)
    (hm : m.signature.EveryUnion Q) : Ensures (i.typeMethod o m) (EveryUnion Q) fun _ => True := by
  obtain ⟨hrequest, hret⟩ := h.request (o := o) hm
  have hinfer := Inference.ensures_everyUnion_inferMethod hQ hrequest hret
  have hafter := Inference.everyUnion_symbols_inferMethod hQ hrequest
  unfold typeMethod
  rw [ho]
  dsimp only [Backend.reference]
  split
  · exact ensures_error.mpr trivial
  next t ht =>
  have htyping := (hinfer.of_ok ht).signature
  have hsymbols : SymbolTable.EveryUnion Q (if (i.request o m).mayDefine
      then (Inference.inferMethod (i.request o m)).symbols else i.draft.symbols) := by
    split
    · exact hafter
    · exact h.symbols
  generalize (if (i.request o m).mayDefine = true then (Inference.inferMethod (i.request o m)).symbols
    else i.draft.symbols) = symbols at hsymbols ⊢
  have hadd := Draft.everyUnion_addMethod (d := { i.draft with symbols }) h.signatures h.slots m.name htyping
  refine hadd.bind fun r hr => ?_
  obtain ⟨s, draft⟩ := r
  obtain ⟨hs, hdraft⟩ := hr
  dsimp only at hdraft
  subst hdraft
  refine ensures_ok.mpr ⟨hsymbols, OrderedMap.forall_get?_insert h.signatures hs, h.slots, fun x hx => ?_⟩
  rcases mem_replaceMethod hx with rfl | ⟨hx, -⟩
  · exact hs
  · exact h.methods x hx

theorem everyUnion_typeInit (hQ : UnionClosed Q) (ho : o.backend = .reference) (h : i.EveryUnion Q) :
    Ensures (i.typeInit o) (EveryUnion Q) fun _ => True := by
  unfold typeInit
  split
  next m hm => exact everyUnion_typeMethod hQ ho h (h.methods m (List.mem_of_find?_eq_some hm))
  · exact ensures_ok.mpr h

theorem everyUnion_of_mem_typingRequests (hQ : UnionClosed Q) (ho : o.backend = .reference) (h : i.EveryUnion Q)
    (hms : ∀ m ∈ ms, m.signature.EveryUnion Q) : ∀ r ∈ i.typingRequests o ms, r.EveryUnion Q := by
  induction ms generalizing i with
  | nil => exact List.forall_mem_nil _
  | cons m ms ih =>
    obtain ⟨hm, hms⟩ := List.forall_mem_cons.mp hms
    rw [typingRequests]
    refine List.forall_mem_cons.mpr ⟨(h.request hm).1, ?_⟩
    cases hstep : i.typeMethod o m with
    | error e => exact List.forall_mem_nil _
    | ok i' => exact ih ((everyUnion_typeMethod hQ ho h hm).of_ok hstep) hms

/-! ## What the engine is asked -/

/-- The compilation with the attributes of the bases and of the body known, and with the signatures of all methods
recorded. -/
def untilMethods (o : CompileOptions) (i : Compilation) : Except CompileError Compilation := do
  let i ← i.inferAttributes
  i.installMethods o

theorem untilAttributes_eq (o : CompileOptions) (i : Compilation) :
    i.untilAttributes o = i.untilMethods o >>= fun i' => do
      let j ← i'.typeInit o
      return { j with draft := ← j.draft.buildAttributes } := by
  simp only [untilAttributes, untilMethods, bind_assoc]

theorem everyUnion_untilMethods (hc : c.EveryUnion Q) :
    Ensures ((ofClass c).untilMethods o) (EveryUnion Q) fun _ => True :=
  ((ensures_inferAttributes c).of_any.and (symbols_inferAttributes c)).bind fun _ hi =>
    everyUnion_installMethods hc hi.1 (hi.2 ▸ hc.initialSymbols)

theorem everyUnion_untilAttributes (hQ : UnionClosed Q) (ho : o.backend = .reference) (hc : c.EveryUnion Q) :
    Ensures ((ofClass c).untilAttributes o) (EveryUnion Q) fun _ => True := by
  rw [untilAttributes_eq]
  refine (everyUnion_untilMethods hc).bind fun _ hi => (everyUnion_typeInit hQ ho hi).bind fun i' hi' => ?_
  cases hbuild : i'.draft.buildAttributes with
  | error e => exact ensures_error.mpr trivial
  | ok d =>
    obtain ⟨attributes, rfl⟩ := Draft.exists_attributes_of_buildAttributes hbuild
    exact ensures_ok.mpr ⟨hi'.symbols, hi'.signatures, hi'.slots, hi'.methods⟩

end Compilation

namespace BoundClass

open Compilation

variable {o : CompileOptions} {c : BoundClass}

/-- What the engine is asked about the constructor of a class, if it has one. -/
def constructorRequests (o : CompileOptions) (c : BoundClass) : List TypingRequest :=
  match (ofClass c).untilMethods o with
  | .ok i => (i.methods.find? (·.name = initName)).toList.map (i.request o)
  | .error _ => []

/-- What the engine is asked about the methods of a class, in this order. -/
def requests (o : CompileOptions) (c : BoundClass) : List TypingRequest :=
  c.constructorRequests o ++ c.memberRequests o

/-- **The types that the engine is given.** -/
theorem everyUnion_of_mem_requests (hQ : UnionClosed Q) (ho : o.backend = .reference) (hc : c.EveryUnion Q) :
    ∀ r ∈ c.requests o, r.EveryUnion Q := by
  refine List.forall_mem_append.mpr ⟨?_, ?_⟩
  · unfold constructorRequests
    split
    next i hi =>
      have hunions := (everyUnion_untilMethods hc).of_ok hi
      intro r hr
      obtain ⟨m, hm, rfl⟩ := List.mem_map.mp hr
      have hmem := List.mem_of_find?_eq_some (Option.mem_toList.mp hm)
      exact (hunions.request (hunions.methods m hmem)).1
    · exact List.forall_mem_nil _
  · unfold memberRequests
    split
    next i hi =>
      have hunions := (everyUnion_untilAttributes hQ ho hc).of_ok hi
      exact everyUnion_of_mem_typingRequests hQ ho hunions fun m hm =>
        hunions.methods m (List.mem_filter.mp hm).1
    · exact List.forall_mem_nil _

end BoundClass

end NativeClass
