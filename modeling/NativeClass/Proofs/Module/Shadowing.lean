import NativeClass.Proofs.Module.Driver
/-!
# Registered names that matter for a module

A base is looked for among the marked classes of the module first. Only a name that none of them has is looked up
in the registry, even if an unmarked class of the module has it.

* `LooksUp`: the registered names that a class needs, for itself or for its ancestors.
* **`outcome_eq_iff`**: a compiled class has the same outcome exactly under the registries that agree on them.
* **`report_eq_of_agree`**: hence the classes of a source text shadow the registry, unless a marked class
  has an unmarked one as a base.
-/

namespace NativeClass

namespace Module

open Relation (ReflTransGen)

variable {o o' : CompileOptions} {registry registry' : Registry NativeType} {decls : List ClassDecl} {d : ClassDecl}
  {outs outs' : Nat → Outcome} {i j k : Nat} {name path source : String} {t : NativeType}

/-! ## Names that are looked up -/

/-- A base of the class or of one of its ancestors that no class of the module has. -/
def LooksUp (decls : List ClassDecl) (i : Nat) (name : String) : Prop :=
  ∃ k d, ReflTransGen (Derives decls) i k ∧ decls[k]? = some d ∧ name ∈ d.baseNames ∧ position? decls name = none

theorem sameAncestry_of_agree (h : ∀ name, LooksUp decls i name → registry'.get? name = registry.get? name) :
    SameAncestry registry registry' decls decls id i :=
  .ofRegistered fun k d name hk hd hname hnone => h name ⟨k, d, hk, hd, hname, hnone⟩

theorem rel_outcome_of_agree (ho : o.backend.IsRegular) (hb : o.backend.IgnoresOrder)
    (h : ∀ name, LooksUp decls i name → registry'.get? name = registry.get? name) (order : LocalOrder) :
    Option.Rel Outcome.UpToHint (compileClasses (o.inOrder order) registry' decls).outcomes[i]?
      (compileClasses o registry decls).outcomes[i]? :=
  (sameAncestry_of_agree h).rel_compileClasses ho hb order

/-- Outcomes that differ at most in a hint are the same if there is a type. -/
theorem eq_ok_iff_of_rel {out out' : Option Outcome} (h : Option.Rel Outcome.UpToHint out out') :
    out = some (.ok t) ↔ out' = some (.ok t) := by
  cases h with
  | none => exact Iff.rfl
  | some h => rw [Option.some.injEq, Option.some.injEq, h.eq_ok_iff]

/-! ## Compiled classes keep their bases -/

theorem HasOutcome.exists_mapM_baseOf (ha : o.backend.AssemblesAsGiven)
    (h : HasOutcome o registry decls k (.ok t)) (hd : decls[k]? = some d) :
    ∃ outs, (∀ j, Derives decls k j → HasOutcome o registry decls j (outs j)) ∧
      d.baseNames.mapM (baseOf registry decls outs d) = .ok t.bases := by
  generalize hout : (.ok t : Outcome) = out at h
  cases h with
  | onCycle => cases hout
  | @overBases _ d' outs hd' _ hbases =>
    cases hd.symm.trans hd'
    obtain ⟨bases, hmap, hresult⟩ := bind_eq_ok_iff.mp hout.symm
    obtain ⟨i, -, -, -, hfinishes⟩ := BoundClass.compile_eq_ok (o := o.part k) ha hresult
    exact ⟨outs, hbases, by rw [hmap, hfinishes.bases]⟩

theorem outs_eq_of_baseOf {base : Base} (hj : position? decls name = some j)
    (h : baseOf registry decls outs d name = .ok base) (h' : baseOf registry' decls outs' d name = .ok base) :
    ∃ t, outs j = .ok t ∧ outs' j = .ok t := by
  rw [baseOf, hj] at h h'
  cases hout : outs j with
  | error e => simp [hout] at h
  | ok t =>
    cases hout' : outs' j with
    | error e => simp [hout'] at h'
    | ok t' =>
      simp only [hout, hout', Except.ok.injEq] at h h'
      cases h.trans h'.symm
      exact ⟨t, rfl, rfl⟩

theorem get?_eq_of_baseOf {base : Base} (hnone : position? decls name = none)
    (h : baseOf registry decls outs d name = .ok base) (h' : baseOf registry' decls outs' d name = .ok base) :
    registry'.get? name = registry.get? name := by
  rw [baseOf, hnone] at h h'
  cases hget : registry.get? name <;> cases hget' : registry'.get? name <;>
    simp only [hget, hget', Except.ok.injEq] at h h' <;> cases h.trans h'.symm <;> rfl

theorem HasOutcome.exists_base (ha : o.backend.AssemblesAsGiven) (ha' : o'.backend.AssemblesAsGiven)
    (h : HasOutcome o registry decls k (.ok t)) (h' : HasOutcome o' registry' decls k (.ok t))
    (hd : decls[k]? = some d) (hname : name ∈ d.baseNames) :
    (∀ j, position? decls name = some j → ∃ u, HasOutcome o registry decls j (.ok u) ∧
      HasOutcome o' registry' decls j (.ok u)) ∧
      (position? decls name = none → registry'.get? name = registry.get? name) := by
  obtain ⟨outs, houts, hbases⟩ := h.exists_mapM_baseOf ha hd
  obtain ⟨outs', houts', hbases'⟩ := h'.exists_mapM_baseOf ha' hd
  obtain ⟨base, hbase, hbase'⟩ := exists_of_mapM_eq_mapM hbases hbases' hname
  refine ⟨fun j hj => ?_, fun hnone => get?_eq_of_baseOf hnone hbase hbase'⟩
  obtain ⟨u, hu, hu'⟩ := outs_eq_of_baseOf hj hbase hbase'
  have hderives : Derives decls k j := ⟨d, name, hd, hname, hj⟩
  exact ⟨u, hu ▸ houts j hderives, hu' ▸ houts' j hderives⟩

/-- **A compiled class has the same outcome exactly under the registries that agree on the names that it looks
up.** -/
theorem outcome_eq_iff (ho : o.backend.IsRegular) (ha : o.backend.AssemblesAsGiven) (hb : o.backend.IgnoresOrder)
    (ht : (compileClasses o registry decls).outcomes[i]? = some (.ok t)) (order : LocalOrder) :
    (compileClasses (o.inOrder order) registry' decls).outcomes[i]? = some (.ok t) ↔
      ∀ name, LooksUp decls i name → registry'.get? name = registry.get? name := by
  have ho' : (o.inOrder order).backend.IsRegular := ho
  have ha' : (o.inOrder order).backend.AssemblesAsGiven := ha
  refine ⟨fun ht' => ?_, fun h => (eq_ok_iff_of_rel (rel_outcome_of_agree ho hb h order)).mpr ht⟩
  rw [getElem?_compileClasses_iff ho] at ht
  rw [getElem?_compileClasses_iff ho'] at ht'
  rintro name ⟨k, d, hpath, hd, hname, hnone⟩
  -- the outcomes of all ancestors are kept inside the type
  have hsame : ∃ u, HasOutcome o registry decls k (.ok u) ∧ HasOutcome (o.inOrder order) registry' decls k (.ok u) := by
    clear hd hname hnone
    induction hpath with
    | refl => exact ⟨t, ht, ht'⟩
    | tail _ hj ih =>
      obtain ⟨u, hu, hu'⟩ := ih
      obtain ⟨d, name, hd, hname, hposition⟩ := hj
      exact (hu.exists_base ha ha' hu' hd hname).1 _ hposition
  obtain ⟨u, hu, hu'⟩ := hsame
  exact (hu.exists_base ha ha' hu' hd hname).2 hnone

/-! ## Source texts -/

/-- The class statements of a source text, marked or not. -/
def classStatements (source : String) : List ClassDecl :=
  (ClassDecl.parse source).toOption.getD []

theorem markedClasses_eq (path source : String) :
    (∃ e, markedClasses path source = .error e) ∨
      markedClasses path source = .ok ((classStatements source).filter (·.isJit)) := by
  unfold markedClasses classStatements
  cases ClassDecl.parse source with
  | error e => exact Or.inl ⟨_, rfl⟩
  | ok statements => exact Or.inr rfl

/-- A name that is looked up is that of no class statement, unless it is that of an unmarked one. -/
theorem not_mem_of_looksUp {statements : List ClassDecl}
    (hmarked : ∀ d ∈ statements, d.isJit → ∀ name ∈ d.baseNames, (∃ e ∈ statements, e.name = name) →
      ∃ e ∈ statements, e.isJit ∧ e.name = name)
    (h : LooksUp (statements.filter (·.isJit)) i name) : ∀ d ∈ statements, d.name ≠ name := by
  obtain ⟨k, d, -, hd, hname, hnone⟩ := h
  obtain ⟨hd, hjit⟩ := List.mem_filter.mp (List.mem_of_getElem? hd)
  intro e he heq
  obtain ⟨e', he', hjit', heq'⟩ := hmarked d hd hjit name hname ⟨e, he, heq⟩
  have hall := List.findIdx?_eq_none_iff.mp hnone e' (List.mem_filter.mpr ⟨he', hjit'⟩)
  simp [heq'] at hall

/-- Two reports that differ at most in hints. -/
structure Report.UpToHint (r r' : Report) : Prop where
  path : r.path = r'.path
  classes : List.Forall₂ (fun e e' => e.1 = e'.1 ∧ Outcome.UpToHint e.2 e'.2) r.classes r'.classes

/-- Reports that differ at most in hints, or the same error of a text that is not well formed. -/
inductive ReportsAlike : Except CompileError Report → Except CompileError Report → Prop
  | error (e : CompileError) : ReportsAlike (.error e) (.error e)
  | ok {r r' : Report} (h : r.UpToHint r') : ReportsAlike (.ok r) (.ok r')

theorem upToHint_zip {names : List String} {outs outs' : List Outcome} (hlen : outs.length = outs'.length)
    (h : ∀ i : Nat, Option.Rel Outcome.UpToHint outs[i]? outs'[i]?) :
    List.Forall₂ (fun e e' => e.1 = e'.1 ∧ Outcome.UpToHint e.2 e'.2) (names.zip outs) (names.zip outs') := by
  refine List.forall₂_iff_get.mpr ⟨by rw [List.length_zip, List.length_zip, hlen], fun i hi hi' => ?_⟩
  rw [List.length_zip, lt_min_iff] at hi hi'
  have hout := h i
  rw [List.getElem?_eq_getElem hi.2, List.getElem?_eq_getElem hi'.2] at hout
  cases hout with
  | some hout => simpa using hout

/-- **The classes of a source text shadow the registry, unless a marked class has an unmarked one as a base.** In
general a compiled class has the same outcome exactly under the registries that agree on the names of bases, its
own or its ancestors', that no marked class has. The order of local names decides on hints only. -/
theorem report_eq_of_agree (ho : o.backend.IsRegular) (ha : o.backend.AssemblesAsGiven) (hb : o.backend.IgnoresOrder)
    (registry registry' : Registry NativeType) (order : LocalOrder) :
    (∀ path source, (∀ name, (∀ d ∈ classStatements source, d.name ≠ name) →
        registry'.get? name = registry.get? name) →
      (∀ d ∈ classStatements source, d.isJit → ∀ name ∈ d.baseNames,
        (∃ e ∈ classStatements source, e.name = name) →
          ∃ e ∈ classStatements source, e.isJit ∧ e.name = name) →
      ReportsAlike (compileSource (o.inOrder order) registry' path source).report
        (compileSource o registry path source).report) ∧
    (∀ decls i, (∀ name, LooksUp decls i name → registry'.get? name = registry.get? name) →
      Option.Rel Outcome.UpToHint (compileClasses (o.inOrder order) registry' decls).outcomes[i]?
        (compileClasses o registry decls).outcomes[i]?) ∧
    ∀ decls i t, (compileClasses o registry decls).outcomes[i]? = some (.ok t) →
      ((compileClasses (o.inOrder order) registry' decls).outcomes[i]? = some (.ok t) ↔
        ∀ name, LooksUp decls i name → registry'.get? name = registry.get? name) := by
  have ho' : (o.inOrder order).backend.IsRegular := ho
  refine ⟨fun path source hagree hmarked => ?_, fun decls i h => rel_outcome_of_agree ho hb h order,
    fun decls i t ht => outcome_eq_iff ho ha hb ht order⟩
  rcases markedClasses_eq path source with ⟨e, he⟩ | hdecls
  · rw [compileSource, compileSource, he]
    exact .error e
  · rw [compileSource, compileSource, hdecls]
    let decls := (classStatements source).filter (·.isJit)
    have hlen : (compileClasses (o.inOrder order) registry' decls).outcomes.length =
        (compileClasses o registry decls).outcomes.length := by
      rw [length_compileClasses ho', length_compileClasses ho]
    refine .ok ⟨rfl, upToHint_zip hlen fun i => ?_⟩
    exact rel_outcome_of_agree ho hb (fun name hname => hagree name (not_mem_of_looksUp hmarked hname)) order

end Module

namespace Sample

/-- A registry with a type of the name `Shape`. -/
def shapes : Registry NativeType :=
  (Registry.empty.register "Shape" (typeOf options shape)).2

/-- A marked class over a marked one. -/
def markedSource : String :=
  "@jit\nclass Shape:\n    pass\n\n@jit\nclass Circle(Shape):\n    pass\n"

/-- A marked class over an unmarked one. -/
def unmarkedSource : String :=
  "class Shape:\n    pass\n\n@jit\nclass Circle(Shape):\n    pass\n"

theorem get?_shapes {name : String} (h : name ≠ "Shape") : shapes.get? name = Registry.empty.get? name := by
  rw [shapes, Registry.get?_register, if_neg h]

end Sample

namespace Module

open Sample (options shapes markedSource unmarkedSource get?_shapes)

theorem report_eq_of_agree_markedSource :
    options.backend.IsRegular ∧ options.backend.AssemblesAsGiven ∧ options.backend.IgnoresOrder ∧
      ReportsAlike (compileSource (options.inOrder .reversed) shapes "m.py" markedSource).report
        (compileSource options .empty "m.py" markedSource).report := by
  obtain ⟨hreport, -, -⟩ := report_eq_of_agree (o := options) Backend.isRegular_reference
    Backend.assemblesAsGiven_reference Backend.ignoresOrder_reference .empty shapes .reversed
  have hshape : ∃ d ∈ classStatements markedSource, d.name = "Shape" := by decide +kernel
  refine ⟨Backend.isRegular_reference, Backend.assemblesAsGiven_reference, Backend.ignoresOrder_reference,
    hreport "m.py" markedSource (fun name hname => get?_shapes ?_) (by decide +kernel)⟩
  rintro rfl
  obtain ⟨d, hd, heq⟩ := hshape
  exact hname d hd heq

/-- An unmarked class does not shadow the registry. -/
theorem report_ne_unmarkedSource :
    ¬ ∀ (o : CompileOptions) (registry registry' : Registry NativeType) (path source : String),
      (∀ name, (∀ d ∈ classStatements source, d.name ≠ name) → registry'.get? name = registry.get? name) →
        (compileSource o registry' path source).report = (compileSource o registry path source).report := by
  intro h
  have hshape : ∃ d ∈ classStatements unmarkedSource, d.name = "Shape" := by decide +kernel
  have hsame := h options .empty shapes "m.py" unmarkedSource fun name hname => get?_shapes <| by
    rintro rfl
    obtain ⟨d, hd, heq⟩ := hshape
    exact hname d hd heq
  let attributes (registry : Registry NativeType) : Option (List (List String)) :=
    (compileSource options registry "m.py" unmarkedSource).report.toOption.map fun r =>
      r.compiled.map (·.attributes.names)
  have hempty : attributes .empty = some [[]] := by decide +kernel
  have hshapes : attributes shapes = some [["x", "visible"]] := by decide +kernel
  simp only [attributes] at hempty hshapes
  rw [hsame, hempty] at hshapes
  exact absurd hshapes (by decide)

end Module

end NativeClass
