import NativeClass.Compilation.Basic
import NativeClass.Proofs.Draft.Operations
/-!
# What inference leaves alone

Whatever engines a compilation works with, recording signatures and typing bodies touch neither the bases of
the class nor its two tables. So the tables that inference leaves are known from the bases and from what the
class itself brings.

* `Compilation.SameFrame`: two compilations that agree in these parts.
* `Compilation.Prepared`: a compilation once its attributes are known.
* **`Compilation.framed_runInference`**: the tables after inference (`Compilation.Framed`).
-/

namespace NativeClass

open CompileError (RejectsSource)

theorem Draft.ownSymbols_congr {d d' : Draft} (h : d.symbols = d'.symbols) : d.ownSymbols = d'.ownSymbols := by
  rw [ownSymbols, ownSymbols, h]

namespace Compilation

variable {o : CompileOptions} {c : BoundClass} {i i' i'' : Compilation}

/-! ## Agreement -/

/-- The parts of a compilation that recording signatures and typing bodies leave alone. -/
structure SameFrame (i i' : Compilation) : Prop where
  target : i'.target = i.target
  name : i'.draft.name = i.draft.name
  bases : i'.draft.bases = i.draft.bases
  attributes : i'.draft.attributes = i.draft.attributes
  slotTypes : i'.draft.slotTypes = i.draft.slotTypes
  layout : i'.draft.layout = i.draft.layout

namespace SameFrame

theorem refl (i : Compilation) : SameFrame i i :=
  ⟨rfl, rfl, rfl, rfl, rfl, rfl⟩

theorem trans (h : SameFrame i i') (h' : SameFrame i' i'') : SameFrame i i'' :=
  ⟨h'.target.trans h.target, h'.name.trans h.name, h'.bases.trans h.bases,
    h'.attributes.trans h.attributes, h'.slotTypes.trans h.slotTypes, h'.layout.trans h.layout⟩

end SameFrame

/-! ## Recording and typing -/

theorem sameFrame_installMethod (i : Compilation) (m : Method) :
    Ensures (i.installMethod m) (SameFrame i) fun _ => True := by
  refine (i.draft.addMethod_methods m.name m.signature).bind fun r hr => ?_
  obtain ⟨s, draft⟩ := r
  obtain ⟨methods, hdraft⟩ := hr
  dsimp only at hdraft
  subst hdraft
  exact ensures_ok.mpr ⟨rfl, rfl, rfl, rfl, rfl, rfl⟩

theorem sameFrame_installMethods (o : CompileOptions) (i : Compilation) :
    Ensures (i.installMethods o) (SameFrame i) fun _ => True := by
  refine (Draft.ensures_methodsOf i.draft o.validators i.dict).of_any.bind fun ms _ => ?_
  refine ensures_foldlM (fun _ i' => SameFrame i i') ⟨rfl, rfl, rfl, rfl, rfl, rfl⟩ ?_
  intro _ m _ i' _ h
  exact (sameFrame_installMethod i' m).mono fun _ h' => h.trans h'

/-- Only the constructor may change the symbol table. -/
theorem sameFrame_typeMethod (o : CompileOptions) (i : Compilation) (m : Method) :
    Ensures (i.typeMethod o m)
      (fun i' => SameFrame i i' ∧ (m.name ≠ initName → i'.draft.symbols = i.draft.symbols))
      fun _ => True := by
  unfold typeMethod
  dsimp only
  split
  · exact ensures_error.mpr trivial
  next t _ =>
  generalize hsym : (if (i.request o m).mayDefine = true
    then (o.backend.infer (i.request o m)).symbols else i.draft.symbols) = symbols
  refine (Draft.addMethod_methods { i.draft with symbols } m.name t.signature).bind fun r hr => ?_
  obtain ⟨s, draft⟩ := r
  obtain ⟨methods, hdraft⟩ := hr
  dsimp only at hdraft
  subst hdraft
  refine ensures_ok.mpr ⟨⟨rfl, rfl, rfl, rfl, rfl, rfl⟩, fun hne => ?_⟩
  have hread : (i.request o m).mayDefine = false := decide_eq_false hne
  rw [hread, if_neg Bool.false_ne_true] at hsym
  exact hsym.symm

theorem sameFrame_typeInit (o : CompileOptions) (i : Compilation) :
    Ensures (i.typeInit o) (SameFrame i) fun _ => True := by
  unfold typeInit
  split
  · exact (sameFrame_typeMethod o i _).mono fun _ h => h.1
  · exact ensures_ok.mpr (.refl i)

theorem sameFrame_typeMethods (o : CompileOptions) (i : Compilation) :
    Ensures (i.typeMethods o) (fun i' => SameFrame i i' ∧ i'.draft.symbols = i.draft.symbols)
      fun _ => True := by
  refine ensures_foldlM (fun _ i' => SameFrame i i' ∧ i'.draft.symbols = i.draft.symbols)
    ⟨.refl i, rfl⟩ ?_
  rintro dealt m rest i' hsplit ⟨h, hsym⟩
  have hm := (List.mem_filter.mp (hsplit ▸ List.mem_append_right dealt List.mem_cons_self)).2
  rw [decide_eq_true_eq] at hm
  exact (sameFrame_typeMethod o i' m).mono fun _ h' => ⟨h.trans h'.1, (h'.2 hm.1).trans hsym⟩

/-! ## Inference as a whole -/

/-- The compilation of a class once its attributes are known. -/
structure Prepared (c : BoundClass) (i : Compilation) : Prop where
  target : i.target = c
  dict : i.dict = c.source.dict
  name : i.draft.name = c.name
  bases : i.draft.bases = c.extensionBases
  layout : i.draft.layout = none
  attributes : i.draft.attributes = .building (Draft.mergeBases c.extensionBases NativeType.attributes)
  slotTypes : i.draft.slotTypes = .building (Draft.mergeBases c.extensionBases NativeType.slotTypes)
  methods : i.draft.methods = .empty
  typings : i.typings = .empty

theorem ensures_inferAttributes (c : BoundClass) :
    Ensures (ofClass c).inferAttributes (Prepared c) RejectsSource := by
  refine (Draft.ensures_inherit (d := (ofClass c).draft) rfl rfl).bind fun d hd => ?_
  obtain ⟨symbols, rfl⟩ := hd
  exact ensures_ok.mpr ⟨rfl, rfl, rfl, rfl, rfl, rfl, rfl, rfl, rfl⟩

/-- What inference leaves, as far as the bases and the two tables go. -/
structure Framed (c : BoundClass) (i : Compilation) : Prop where
  target : i.target = c
  name : i.draft.name = c.name
  bases : i.draft.bases = c.extensionBases
  layout : i.draft.layout = none
  attributes : i.draft.attributes = .building
    ((Draft.mergeBases c.extensionBases NativeType.attributes).insertOwns i.draft.ownSymbols)
  slotTypes : i.draft.slotTypes = .building
    ((Draft.mergeBases c.extensionBases NativeType.slotTypes).insertOwns i.draft.slotMethods)

/-- **After inference both tables hold the merge of the bases and then what the class itself brings.** -/
theorem framed_runInference (o : CompileOptions) (c : BoundClass) :
    Ensures ((ofClass c).runInference o) (Framed c) fun _ => True := by
  refine (ensures_inferAttributes c).of_any.bind fun i₁ h₁ => ?_
  refine (sameFrame_installMethods o i₁).bind fun i₂ h₂ => ?_
  refine (sameFrame_typeInit o i₂).bind fun i₃ h₃ => ?_
  have hf := h₂.trans h₃
  rw [Draft.buildAttributes_eq (hf.attributes.trans h₁.attributes)]
  refine (sameFrame_typeMethods o _).bind fun i₄ h₄ => ?_
  obtain ⟨hf₄, hsym⟩ := h₄
  rw [Draft.buildSlots_eq (hf₄.slotTypes.trans (hf.slotTypes.trans h₁.slotTypes))]
  refine ensures_ok.mpr
    { target := hf₄.target.trans (hf.target.trans h₁.target)
      name := hf₄.name.trans (hf.name.trans h₁.name)
      bases := hf₄.bases.trans (hf.bases.trans h₁.bases)
      layout := hf₄.layout.trans (hf.layout.trans h₁.layout)
      attributes := ?_
      slotTypes := rfl }
  have hown : i₄.draft.ownSymbols = i₃.draft.ownSymbols := Draft.ownSymbols_congr hsym
  refine hf₄.attributes.trans ?_
  show _ = TableState.building (Table.Builder.insertOwns _ i₄.draft.ownSymbols)
  rw [hown]

end Compilation

end NativeClass
