import NativeClass.Draft.Signatures
import NativeClass.Proofs.ClassSource
import NativeClass.Proofs.Draft.Merge
import NativeClass.Proofs.Signature
/-!
# What the operations of a draft do

An operation on a draft whose tables are still being filled succeeds, or it fails with an error about the
class as it is written (`CompileError.RejectsSource`).

* `Draft.ensures_inherit`, `Draft.buildAttributes_eq`, `Draft.buildSlots_eq`: the tables.
* **`Draft.ensures_addMethod`**: the recorded signature refines the new one and fits the known one.
* `Draft.addMethod_of_fits`: a signature that fits the known one is recorded as it is.
* `Draft.initialMethods`, `Draft.ensures_methodsOf`: the methods of a class before inference.
-/

namespace NativeClass

/-- The error is about the class as it is written: not about the order in which it is built, and not about
code generation. -/
def CompileError.RejectsSource : CompileError → Prop
  | .signature .. | .inference .. | .validation .. | .base .. => True
  | .layout .. | .codegen .. | .parse .. => False

open CompileError (RejectsSource)

theorem ValidatorSet.ensures_accept (className : String) (failures : List ValidationFailure) :
    Ensures (accept className failures) (fun _ => failures = []) RejectsSource := by
  unfold accept
  split
  next h => exact ensures_ok.mpr (List.isEmpty_iff.mp h)
  · exact ensures_error.mpr trivial

namespace Draft

variable {d : Draft} {name : String} {s old : Signature}

/-! ## Tables -/

/-- The draft with fresh tables that hold the merge of all bases, and with the inherited symbols. -/
def inherited (d : Draft) : Draft :=
  { d with
    symbols := d.symbols.insertAll (inheritedSymbols (mergeBases d.bases NativeType.attributes))
    attributes := .building (mergeBases d.bases NativeType.attributes)
    slotTypes := .building (mergeBases d.bases NativeType.slotTypes) }

theorem ensures_inherit (ha : d.attributes.isFrozen = false) (hs : d.slotTypes.isFrozen = false) :
    Ensures d.inherit
      (fun d' => ∃ symbols, d' = { d with
        symbols
        attributes := .building (mergeBases d.bases NativeType.attributes)
        slotTypes := .building (mergeBases d.bases NativeType.slotTypes) })
      RejectsSource := by
  unfold inherit
  rw [ha, hs, if_neg Bool.false_ne_true, if_neg Bool.false_ne_true]
  split
  · exact ensures_error.mpr trivial
  · exact ensures_ok.mpr ⟨_, rfl⟩

theorem firstRepeated?_eq_none_iff {seen names : List String} :
    firstRepeated? seen names = none ↔ names.Nodup ∧ ∀ name ∈ names, name ∉ seen := by
  induction names generalizing seen with
  | nil => simp [firstRepeated?]
  | cons name names ih =>
    rw [firstRepeated?]
    by_cases h : name ∈ seen
    · simp [h]
    · rw [if_neg h, ih, List.nodup_cons, List.forall_mem_cons]
      constructor
      · rintro ⟨hn, hseen⟩
        have hnew : name ∉ names := fun hm => hseen name hm List.mem_cons_self
        exact ⟨⟨hnew, hn⟩, h, fun k hk hks => hseen k hk (List.mem_cons_of_mem name hks)⟩
      · rintro ⟨⟨hnew, hn⟩, -, hseen⟩
        refine ⟨hn, fun k hk hks => ?_⟩
        rcases List.mem_cons.mp hks with rfl | hks
        · exact hnew hk
        · exact hseen k hk hks

theorem inherit_eq_ok_iff {d' : Draft} (ha : d.attributes.isFrozen = false) (hs : d.slotTypes.isFrozen = false) :
    d.inherit = .ok d' ↔ (d.bases.map NativeType.name).Nodup ∧ d' = d.inherited := by
  have hnone : firstRepeated? [] (d.bases.map NativeType.name) = none ↔ (d.bases.map NativeType.name).Nodup := by
    rw [firstRepeated?_eq_none_iff]
    exact and_iff_left fun _ _ => List.not_mem_nil
  unfold inherit
  rw [ha, hs, if_neg Bool.false_ne_true, if_neg Bool.false_ne_true, ← hnone]
  cases firstRepeated? [] (d.bases.map NativeType.name) with
  | some name => exact ⟨nofun, nofun⟩
  | none => exact ⟨fun h => ⟨rfl, (Except.ok.inj h).symm⟩, fun h => h.2 ▸ rfl⟩

theorem buildAttributes_eq {b : Table.Builder Ty} (h : d.attributes = .building b) :
    d.buildAttributes = .ok { d with attributes := .building (b.insertOwns d.ownSymbols) } := by
  suffices hrun : ∀ (own : List (String × Ty)) (d : Draft) (b : Table.Builder Ty),
      d.attributes = .building b →
      own.foldlM (fun d e => d.addAttribute e.1 e.2) d =
        (.ok { d with attributes := .building (b.insertOwns own) } : Except CompileError Draft) from
    hrun d.ownSymbols d b h
  intro own
  induction own with
  | nil =>
    intro d b h
    cases d
    cases h
    rfl
  | cons e own ih =>
    intro d b h
    have hadd : d.addAttribute e.1 e.2 =
        .ok { d with attributes := .building (b.insertOwn e.1 e.2) } := by
      rw [addAttribute, h]
    rw [List.foldlM_cons, hadd]
    exact ih { d with attributes := .building (b.insertOwn e.1 e.2) } _ rfl

theorem buildAttributes_of_frozen {t : Table Ty} (h : d.attributes = .frozen t) :
    d.buildAttributes =
      match d.ownSymbols with
      | [] => .ok d
      | e :: _ => .error (.ofFrozen d.name .attributes e.1) := by
  rw [buildAttributes]
  cases d.ownSymbols with
  | nil => rfl
  | cons e own =>
    have hadd : d.addAttribute e.1 e.2 = .error (.ofFrozen d.name .attributes e.1) := by
      rw [addAttribute, h]
    rw [List.foldlM_cons, hadd]
    rfl

theorem buildSlots_eq {b : Table.Builder Signature} (h : d.slotTypes = .building b) :
    d.buildSlots = .ok { d with slotTypes := .building (b.insertOwns d.slotMethods) } := by
  rw [buildSlots, h]
  rfl

theorem nodup_slotMethods (d : Draft) : (d.slotMethods.map Prod.fst).Nodup :=
  d.methods.nodup.sublist (List.filter_sublist.map Prod.fst)

theorem nodup_ownSymbols (d : Draft) : (d.ownSymbols.map Prod.fst).Nodup := by
  rw [ownSymbols, List.map_map]
  exact d.symbols.nodup.sublist (List.filter_sublist.map Prod.fst)

/-! ## Signatures -/

theorem ensures_mergedSignature (d : Draft) (name : String) (s : Signature) :
    Ensures (d.mergedSignature name s)
      (fun s' => s'.Refines s ∧ ∀ old, d.knownSignature? name s = some old → s'.Fits old)
      RejectsSource := by
  unfold mergedSignature
  split
  next hknown =>
    refine ensures_ok.mpr ⟨.refl s, fun old hold => ?_⟩
    rw [hknown] at hold
    cases hold
  next old hknown =>
    have h := Signature.ensures_reconcile s old
    split
    next s' hs' =>
      obtain ⟨hnew, hold⟩ := h.of_ok hs'
      refine ensures_ok.mpr ⟨hnew, fun old' hold' => ?_⟩
      rw [hknown, Option.some.injEq] at hold'
      exact hold' ▸ hold
    · exact ensures_error.mpr trivial

/-- **The recorded signature refines the new one and fits the known one.** -/
theorem ensures_addMethod (hs : d.slotTypes.isFrozen = false) (name : String) (s : Signature) :
    Ensures (d.addMethod name s)
      (fun r => r.2 = { d with methods := d.methods.insert name r.1 } ∧ r.1.Refines s ∧
        ∀ old, d.knownSignature? name s = some old → r.1.Fits old)
      RejectsSource := by
  unfold addMethod
  rw [hs, if_neg Bool.false_ne_true]
  exact (ensures_mergedSignature d name s).bind fun s' h => ensures_ok.mpr ⟨rfl, h⟩

theorem addMethod_methods (d : Draft) (name : String) (s : Signature) :
    Ensures (d.addMethod name s) (fun r => ∃ methods, r.2 = { d with methods }) fun _ => True := by
  unfold addMethod
  split
  · exact ensures_error.mpr trivial
  · exact (ensures_mergedSignature d name s).of_any.bind fun s' _ => ensures_ok.mpr ⟨_, rfl⟩

/-- A signature with a known return type that fits the one recorded for the class is recorded as it is. -/
theorem addMethod_of_fits (hs : d.slotTypes.isFrozen = false) (hold : d.methods.get? name = some old)
    (hfits : s.Fits old) (hr : s.isResolved) :
    d.addMethod name s = .ok (s, { d with methods := d.methods.insert name s }) := by
  have hknown : d.knownSignature? name s = some old := by rw [knownSignature?, hold]
  have hmerged : d.mergedSignature name s = .ok s := by
    rw [mergedSignature, hknown]
    dsimp only
    rw [Signature.reconcile_of_fits hfits hr]
  rw [addMethod, hs, if_neg Bool.false_ne_true, hmerged]
  rfl

end Draft

/-! ## The methods of a class -/

namespace Draft

variable {d : Draft}

/-- The methods of a class dictionary before any signature is recorded. -/
def initialMethods (d : Draft) (dict : ClassDict) : List Method :=
  (methodFunctions dict).map fun e => d.methodOf e.1 e.2

theorem name_methodOf (d : Draft) (name : String) (f : Function) : (d.methodOf name f).name = name := by
  unfold methodOf
  split <;> rfl

theorem func_methodOf (d : Draft) (name : String) (f : Function) : (d.methodOf name f).func = f := by
  unfold methodOf
  split <;> rfl

theorem map_name_initialMethods (d : Draft) (c : ClassSource) :
    (d.initialMethods c.dict).map Method.name = c.methodNames := by
  rw [initialMethods, List.map_map, ← c.map_fst_methodFunctions]
  exact List.map_congr_left fun e _ => d.name_methodOf e.1 e.2

theorem nodup_initialMethods (d : Draft) (c : ClassSource) :
    ((d.initialMethods c.dict).map Method.name).Nodup :=
  d.map_name_initialMethods c ▸ c.nodup_methodNames

theorem isConstructor_methodOf (d : Draft) (name : String) (f : Function) :
    (d.methodOf name f).signature.isConstructor = f.isConstructorUnder name := by
  unfold methodOf Function.isConstructorUnder Function.declaredSignature?
  by_cases hf : f.isAnnotated
  · rw [if_pos hf, if_pos hf]
  · rw [if_neg hf, if_neg hf]
    dsimp only
    unfold impliedSignature
    split
    next s hs =>
      obtain ⟨-, hp⟩ := Option.filter_eq_some_iff.mp hs
      simp only [Bool.and_eq_true, Bool.not_eq_true', decide_eq_true_eq] at hp
      rw [hp.1.1]
      exact (decide_eq_false hp.1.2).symm
    · rfl

theorem ensures_methodsOf (d : Draft) (v : ValidatorSet) (dict : ClassDict) :
    Ensures (d.methodsOf v dict) (fun ms => ms = d.initialMethods dict) RejectsSource :=
  (ValidatorSet.ensures_accept d.name _).bind fun _ _ => ensures_ok.mpr rfl

end Draft

end NativeClass
