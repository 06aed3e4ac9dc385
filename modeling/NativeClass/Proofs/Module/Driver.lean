import NativeClass.Proofs.Module.Components
import NativeClass.Proofs.Module.Interleaving
/-!
# The outcomes of a module

* `Interleaves.getElem?_reported_iff`: what is reported of a class is its outcome by recursion over its bases.
* `compileInComponents`: the layers found component by component.
* **`compileClasses_followsRecursion`**: the layers end with the outcomes of the recursion, and an outcome
  depends on no class but the ancestors.
* **`Interleaves.reported_alike`**: the order of the steps within the layers does not matter, and that of the local
  names decides on hints only.
-/

namespace NativeClass

/-! ## A module with cycles -/

namespace Sample

/-- A class statement. -/
def declOf (name : String) (members : List (String × Declaration)) (baseNames : List String) : ClassDecl :=
  ⟨⟨name, .ofList members, .unknown⟩, baseNames, true⟩

def leaf : ClassDecl := declOf "Leaf" [method "size" [] (some .int)] ["Node"]

/-- A module with a misspelt name. -/
def hinted : List ClassDecl :=
  [⟨panel.source, [], true⟩]

def node : ClassDecl := declOf "Node" [("left", .attr .int)] []

/-- A module with a class before its base, cycles, a class over failed ones and a name that stands twice. -/
def family : List ClassDecl :=
  [leaf, node, declOf "Ping" [] ["Pong"], declOf "Pong" [] ["Ping"], declOf "Loop" [] ["Loop"],
    declOf "Mixed" [] ["Node", "Ping", "Loop"], declOf "Node" [("right", .attr .float)] ["Drawable"]]

end Sample

namespace Module

open Relation (ReflTransGen)
open Sample (options family hinted leaf node)

variable {o : CompileOptions} {registry : Registry NativeType} {decls : List ClassDecl} {p q : Progress}
  {d : ClassDecl} {i : Nat} {out : Outcome}

/-! ## What is reported -/

/-- The outcomes in the order of the module. -/
def Progress.reported (decls : List ClassDecl) (p : Progress) : List Outcome :=
  (decls.zip p.outcomes).map fun e => finalOutcome e.1 e.2

theorem Progress.getElem?_reported (hd : decls[i]? = some d) (hp : p.outcomes[i]? = some (some out)) :
    (p.reported decls)[i]? = some out := by
  have hzip : (decls.zip p.outcomes)[i]? = some (d, some out) :=
    List.getElem?_zip_eq_some.mpr ⟨hd, hp⟩
  rw [reported, List.getElem?_map, hzip]
  rfl

namespace Interleaves

theorem exists_reported (ho : o.backend.IsRegular)
    (h : Interleaves o decls (start registry decls) (layers (baseGraph decls)) q) (hi : i < decls.length) :
    ∃ out, (q.reported decls)[i]? = some out ∧ HasOutcome o registry decls i out := by
  obtain ⟨out, hq, hout⟩ := (h.hasOutcome ho).2 i hi
  exact ⟨out, Progress.getElem?_reported (List.getElem?_eq_getElem hi) hq, hout⟩

theorem length_reported (ho : o.backend.IsRegular)
    (h : Interleaves o decls (start registry decls) (layers (baseGraph decls)) q) :
    (q.reported decls).length = decls.length := by
  simp [Progress.reported, (h.hasOutcome ho).1]

/-- What is reported of a class is its outcome by recursion over its bases. -/
theorem getElem?_reported_iff (ho : o.backend.IsRegular)
    (h : Interleaves o decls (start registry decls) (layers (baseGraph decls)) q) :
    (q.reported decls)[i]? = some out ↔ HasOutcome o registry decls i out := by
  constructor
  · intro hi
    have hlt : i < decls.length := by
      rw [← h.length_reported ho]
      exact (List.getElem?_eq_some_iff.mp hi).1
    obtain ⟨out', hi', hout⟩ := h.exists_reported ho hlt
    cases hi.symm.trans hi'
    exact hout
  · intro hout
    obtain ⟨d, hd⟩ := hout.exists_decl
    obtain ⟨out', hi', hout'⟩ := h.exists_reported ho (List.getElem?_eq_some_iff.mp hd).1
    rw [hi', hout'.eq hout]

end Interleaves

/-- One class after another, layer by layer, is an order of steps. -/
theorem interleaves_compileClasses (o : CompileOptions) (registry : Registry NativeType)
    (decls : List ClassDecl) :
    ∃ q, Interleaves o decls (start registry decls) (layers (baseGraph decls)) q ∧
      compileClasses o registry decls = ⟨q.reported decls, q.registry, q.events⟩ :=
  ⟨_, interleaves_compileLayers (basesFirst_layers (inRange_baseGraph decls))
    (List.forall₂_same.mpr fun _ _ => .refl _) o _, rfl⟩

theorem length_compileClasses (ho : o.backend.IsRegular) :
    (compileClasses o registry decls).outcomes.length = decls.length := by
  obtain ⟨q, h, hq⟩ := interleaves_compileClasses o registry decls
  rw [hq]
  exact h.length_reported ho

theorem getElem?_compileClasses_iff (ho : o.backend.IsRegular) :
    (compileClasses o registry decls).outcomes[i]? = some out ↔ HasOutcome o registry decls i out := by
  obtain ⟨q, h, hq⟩ := interleaves_compileClasses o registry decls
  rw [hq]
  exact h.getElem?_reported_iff ho

/-! ## Components -/

/-- The module compiled with the classes on cycles and the depths that the components give. -/
def compileInComponents (o : CompileOptions) (registry : Registry NativeType) (decls : List ClassDecl)
    (components : List (List Nat)) : List Outcome :=
  let graph := baseGraph decls
  let placement := Placement.ofComponents graph components
  let first : Progress := {
    outcomes := decls.zipIdx.map fun e =>
      if placement.cyclic.contains e.2 then some (.error (cycleError decls e.1)) else none
    registry
    events := [] }
  let order := (List.range (placement.depths.foldl max 0 + 1)).map fun depth =>
    (List.range graph.length).filter fun i => !placement.cyclic.contains i && placement.depths[i]? = some depth
  (compileLayers o decls first order).reported decls

theorem compileInComponents_eq {components : List (List Nat)} (h : IsComponentOrder (baseGraph decls) components) :
    compileInComponents o registry decls components = (compileClasses o registry decls).outcomes := by
  have hr := inRange_baseGraph decls
  have hcyclic : ∀ i, (Placement.ofComponents (baseGraph decls) components).cyclic.contains i =
      (cyclicClasses (baseGraph decls)).contains i := fun i => by
    simp [Placement.mem_cyclic_ofComponents hr h]
  simp only [compileInComponents, hcyclic, Placement.depths_ofComponents hr h]
  rfl

/-! ## The layers and the recursion -/

/-- The outcomes are those of the recursion over the bases. -/
structure FollowsRecursion (o : CompileOptions) (registry : Registry NativeType) (decls : List ClassDecl)
    (outcomes : List Outcome) : Prop where
  length : outcomes.length = decls.length
  outcome : ∀ i out, outcomes[i]? = some out ↔ HasOutcome o registry decls i out
  /-- The error of a cycle is that of the classes on cycles. -/
  cycle : ∀ i, OnCycle decls i ↔ ∃ c base, outcomes[i]? = some (.error (.ofBase c base .cycle))
  /-- Any other class fails for the first of its bases that failed. -/
  blocked : ∀ i d before name after j cause, decls[i]? = some d → ¬OnCycle decls i →
    d.baseNames = before ++ name :: after → position? decls name = some j →
    outcomes[j]? = some (.error cause) →
    (∀ n ∈ before, ∀ k, position? decls n = some k → ∃ t, outcomes[k]? = some (.ok t)) →
    outcomes[i]? = some (.error (.ofBase d.name name (.failed cause.kind)))
  /-- No base is missing, and every class has its place in the order. -/
  settled : ∀ (i : Nat) (c base : String) (problem : BaseProblem), problem = .pending ∨ problem = .unordered →
    outcomes[i]? ≠ some (.error (.ofBase c base problem))

/-- Outcomes that are those of the recursion blame the first base that failed. -/
theorem getElem?_of_failed {outcomes : List Outcome} (hlen : outcomes.length = decls.length)
    (houtcome : ∀ i out, outcomes[i]? = some out ↔ HasOutcome o registry decls i out)
    {before after : List String} {name : String} {cause : CompileError} {j : Nat} (hd : decls[i]? = some d)
    (hc : ¬OnCycle decls i) (hnames : d.baseNames = before ++ name :: after)
    (hj : position? decls name = some j) (hcause : outcomes[j]? = some (.error cause))
    (hbefore : ∀ n ∈ before, ∀ k, position? decls n = some k → ∃ t, outcomes[k]? = some (.ok t)) :
    outcomes[i]? = some (.error (.ofBase d.name name (.failed cause.kind))) := by
  -- all bases have an outcome, also those after the one that counts
  let outs (k : Nat) : Outcome := (outcomes[k]?).getD default
  have houts : ∀ k, Derives decls i k → HasOutcome o registry decls k (outs k) := fun k hk => by
    have hlt : k < outcomes.length := hlen ▸ hk.lt
    have hk' := List.getElem?_eq_getElem hlt
    simp only [outs, hk', Option.getD_some]
    exact (houtcome _ _).mp hk'
  have hfails : outcomeOver (o.part i) registry decls outs d = .error (.ofBase d.name name (.failed cause.kind)) := by
    refine outcomeOver_of_failed hnames hj (by simp only [outs, hcause, Option.getD_some]) fun n hn k hk => ?_
    obtain ⟨t, ht⟩ := hbefore n hn k hk
    exact ⟨t, by simp only [outs, ht, Option.getD_some]⟩
  rw [houtcome, ← hfails]
  exact .overBases hd hc houts

theorem followsRecursion_of_outcome {outcomes : List Outcome} (ho : o.backend.IsRegular)
    (hlen : outcomes.length = decls.length)
    (houtcome : ∀ i out, outcomes[i]? = some out ↔ HasOutcome o registry decls i out) :
    FollowsRecursion o registry decls outcomes where
  length := hlen
  outcome := houtcome
  cycle i := by
    constructor
    · intro hc
      obtain ⟨d, hd⟩ := hc.exists_decl
      exact ⟨_, _, (houtcome _ _).mpr (.onCycle hd hc)⟩
    · rintro ⟨c, base, hi⟩
      exact (((houtcome _ _).mp hi).eq_cycle ho (Or.inl rfl)).2
  blocked _ _ _ _ _ _ _ hd hc hnames hj hcause hbefore :=
    getElem?_of_failed hlen houtcome hd hc hnames hj hcause hbefore
  settled i c base problem hp hi := by
    obtain ⟨rfl, -⟩ := ((houtcome _ _).mp hi).eq_cycle ho (Or.inr hp)
    simp at hp

/-- Up to the hint a class has the same outcome in every module in which it has the same ancestors. -/
theorem SameAncestry.rel_compileClasses {registry' : Registry NativeType} {decls' : List ClassDecl} {f : Nat → Nat}
    (ho : o.backend.IsRegular) (hb : o.backend.IgnoresOrder) (order : LocalOrder)
    (h : SameAncestry registry registry' decls decls' f i) :
    Option.Rel Outcome.UpToHint (compileClasses (o.inOrder order) registry' decls').outcomes[f i]?
      (compileClasses o registry decls).outcomes[i]? := by
  have ho' : (o.inOrder order).backend.IsRegular := ho
  -- without a class at this place both modules report nothing there
  by_cases hi : i < decls.length
  · have hd := List.getElem?_eq_getElem hi
    have hlt : i < (compileClasses o registry decls).outcomes.length := (length_compileClasses ho).symm ▸ hi
    have hlt' : f i < (compileClasses (o.inOrder order) registry' decls').outcomes.length :=
      (length_compileClasses ho').symm ▸ (List.getElem?_eq_some_iff.mp ((h.decl i .refl).trans hd)).1
    have hout := List.getElem?_eq_getElem hlt
    have hout' := List.getElem?_eq_getElem hlt'
    rw [hout, hout']
    exact .some (((getElem?_compileClasses_iff ho).mp hout).upToHint hb h ((getElem?_compileClasses_iff ho').mp hout'))
  · have hdecls : decls[i]? = none := List.getElem?_eq_none (by omega)
    have hdecls' : decls'[f i]? = none := (h.decl i .refl).trans hdecls
    rw [List.getElem?_eq_none_iff, ← length_compileClasses ho, ← List.getElem?_eq_none_iff] at hdecls
    rw [List.getElem?_eq_none_iff, ← length_compileClasses ho', ← List.getElem?_eq_none_iff] at hdecls'
    rw [hdecls, hdecls']
    exact .none

/-- **The layers and the recursion agree**, also when the layers are found component by component. Besides, an
outcome depends on no class but the ancestors, and on the order of local names for no more than a hint. -/
theorem compileClasses_followsRecursion (ho : o.backend.IsRegular) (registry : Registry NativeType)
    (decls : List ClassDecl) :
    FollowsRecursion o registry decls (compileClasses o registry decls).outcomes ∧
      (∀ components, IsComponentOrder (baseGraph decls) components →
        compileInComponents o registry decls components = (compileClasses o registry decls).outcomes) ∧
      ∀ registry' decls' f i order, o.backend.IgnoresOrder → SameAncestry registry registry' decls decls' f i →
        Option.Rel Outcome.UpToHint (compileClasses (o.inOrder order) registry' decls').outcomes[f i]?
          (compileClasses o registry decls).outcomes[i]? := by
  refine ⟨?_, fun components hc => compileInComponents_eq hc,
    fun _ _ _ _ order hb hs => hs.rel_compileClasses ho hb order⟩
  exact followsRecursion_of_outcome ho (length_compileClasses ho) fun _ _ => getElem?_compileClasses_iff ho

theorem sameAncestry_leaf : SameAncestry .empty .empty family [node, leaf] (1 - ·) 0 := by
  have hgraph : baseGraph family = [[1], [], [3], [2], [4], [1, 2, 4], []] := by decide +kernel
  have hreach : ∀ k, ReflTransGen (Derives family) 0 k → k = 0 ∨ k = 1 := fun k hk => by
    induction hk with
    | refl => exact Or.inl rfl
    | tail _ hj ih =>
      obtain ⟨bases, hbases, hmem⟩ := isBase_baseGraph.mpr hj
      rw [hgraph] at hbases
      rcases ih with rfl | rfl
      · cases hbases
        exact Or.inr (List.mem_singleton.mp hmem)
      · cases hbases
        cases hmem
  refine ⟨fun k hk => ?_, fun k d name hk hd hname => ?_, fun _ _ _ _ _ _ _ => rfl, fun k l hk hl h => ?_⟩
  · rcases hreach k hk with rfl | rfl <;> rfl
  · rcases hreach k hk with rfl | rfl
    · cases hd
      cases List.mem_singleton.mp hname
      decide +kernel
    · cases hd
      cases hname
  · have hk' := hreach k hk
    have hl' := hreach l hl
    omega

theorem isComponentOrder_family :
    IsComponentOrder (baseGraph family) [[1], [0], [3, 2], [4], [5], [6]] := by
  refine .of_ancestors (inRange_baseGraph family) ?_ ?_ ?_ ?_ ?_ <;> decide +kernel

theorem compileClasses_followsRecursion_family :
    options.backend.IsRegular ∧
      FollowsRecursion options .empty family (compileClasses options .empty family).outcomes ∧
      compileInComponents options .empty family [[1], [0], [3, 2], [4], [5], [6]] =
        (compileClasses options .empty family).outcomes ∧
      Option.Rel Outcome.UpToHint (compileClasses (options.inOrder .reversed) .empty [node, leaf]).outcomes[1]?
        (compileClasses options .empty family).outcomes[0]? := by
  obtain ⟨hfollows, hcomponents, hsame⟩ :=
    compileClasses_followsRecursion (o := options) Backend.isRegular_reference .empty family
  have hleaf := hsame .empty [node, leaf] (1 - ·) 0 .reversed Backend.ignoresOrder_reference sameAncestry_leaf
  exact ⟨Backend.isRegular_reference, hfollows, hcomponents _ isComponentOrder_family, hleaf⟩

example : (compileClasses options .empty family).outcomes.map Report.error? =
    [none, none, some (.ofBase "Ping" "Pong" .cycle), some (.ofBase "Pong" "Ping" .cycle),
      some (.ofBase "Loop" "Loop" .cycle), some (.ofBase "Mixed" "Ping" (.failed "BaseClassError")), none] := by
  decide +kernel

/-! ## Any order of steps -/

/-- **The order of the steps within the layers does not matter**, and that of the local names decides on hints
only. -/
theorem Interleaves.reported_alike (ho : o.backend.IsRegular) (hb : o.backend.IgnoresOrder) {order : LocalOrder}
    (h : Interleaves (o.inOrder order) decls (start registry decls) (layers (baseGraph decls)) q) :
    q.reported decls = (compileClasses (o.inOrder order) registry decls).outcomes ∧
      List.Forall₂ Outcome.UpToHint (q.reported decls) (compileClasses o registry decls).outcomes := by
  have ho' : (o.inOrder order).backend.IsRegular := ho
  have heq : q.reported decls = (compileClasses (o.inOrder order) registry decls).outcomes := by
    refine List.ext_getElem? fun i => Option.ext fun out => ?_
    rw [h.getElem?_reported_iff ho', getElem?_compileClasses_iff ho']
  refine ⟨heq, List.forall₂_iff_get.mpr ⟨?_, fun i hi hi' => ?_⟩⟩
  · rw [h.length_reported ho', length_compileClasses ho]
  · have hrel := (SameAncestry.refl registry decls i).rel_compileClasses ho hb order
    rw [id, ← heq, List.getElem?_eq_getElem hi, List.getElem?_eq_getElem hi'] at hrel
    cases hrel with
    | some hout => exact hout

/-- The classes of both layers take turns, and the second class of a name is registered before the first. -/
theorem reported_alike_family :
    options.backend.IsRegular ∧ options.backend.IgnoresOrder ∧
      ∃ q, Interleaves (options.inOrder .reversed) family (start .empty family) (layers (baseGraph family)) q ∧
        List.Forall₂ Outcome.UpToHint (q.reported family) (compileClasses options .empty family).outcomes := by
  have hlayers : layers (baseGraph family) = [[1, 6], [0, 5]] := by decide +kernel
  obtain ⟨q, h⟩ : ∃ q, Interleaves (options.inOrder .reversed) family (start .empty family) [[1, 6], [0, 5]] q :=
    ⟨_, .cons [6, 6, 1, 6, 1] rfl (by decide +kernel) (.cons [5, 0, 0, 5, 0] rfl (by decide +kernel) (.nil _))⟩
  rw [← hlayers] at h
  exact ⟨Backend.isRegular_reference, Backend.ignoresOrder_reference, q, h,
    (h.reported_alike Backend.isRegular_reference Backend.ignoresOrder_reference).2⟩

theorem hasOutcome_hinted (order : LocalOrder) {near : String}
    (h : ((order.part 0).names ["self", "aab", "aac"]).find? (editDistance "aaa" · = 1) = some near) :
    HasOutcome (options.inOrder order) .empty hinted 0
      (.error (Compilation.typingError "Panel" Sample.area (Sample.misspelt near))) := by
  have hd : hinted[0]? = some ⟨Sample.panel.source, [], true⟩ := rfl
  have hc : ¬OnCycle hinted 0 := by
    rw [← mem_cyclicClasses_baseGraph]
    decide +kernel
  have hbases : ∀ j, Derives hinted 0 j → HasOutcome (options.inOrder order) .empty hinted j (default : Outcome) := by
    rintro j ⟨d, name, hd', hname, -⟩
    cases hd.symm.trans hd'
    cases hname
  rw [← Sample.compile_panel h]
  exact .overBases hd hc hbases

/-- Two runs suggest different names for one that is misspelt. -/
theorem reported_ne_hinted :
    ¬ ∀ (o : CompileOptions) (order : LocalOrder) (registry : Registry NativeType) (decls : List ClassDecl)
        (q : Progress), o.backend.IsRegular → o.backend.IgnoresOrder →
      Interleaves (o.inOrder order) decls (start registry decls) (layers (baseGraph decls)) q →
        q.reported decls = (compileClasses o registry decls).outcomes := by
  intro h
  obtain ⟨q, hq, -⟩ := interleaves_compileClasses (options.inOrder .reversed) .empty hinted
  have heq := h options .reversed .empty hinted q Backend.isRegular_reference Backend.ignoresOrder_reference hq
  have hlast := (hq.getElem?_reported_iff Backend.isRegular_reference).mpr
    (hasOutcome_hinted .reversed (by decide +kernel : _ = some "aac"))
  have hfirst := (getElem?_compileClasses_iff Backend.isRegular_reference).mpr
    (hasOutcome_hinted .asInserted (by decide +kernel : _ = some "aab"))
  rw [heq] at hlast
  have hsame := hlast.symm.trans hfirst
  simp [Compilation.typingError, Sample.misspelt, TypingFailure.suggestions] at hsame

end Module

end NativeClass
