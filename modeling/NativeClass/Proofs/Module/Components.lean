import NativeClass.Proofs.Module.Dependency
/-!
# Classes by components

The classes on cycles and the depths can be found in one pass, if the classes come in strongly connected
components and bases come first.

* `IsComponentOrder`: what is asked of the components and of their order.
* `Placement.ofComponents`: the pass over the components.
* **`Placement.isSound_ofComponents`**: it finds the classes on cycles and the depths.
* `Placement.depths_ofComponents`, `Placement.mem_cyclic_ofComponents`: they are those of the layers.
-/

namespace NativeClass.Module

open Relation (TransGen)

variable {graph : List (List Nat)} {component placed : List Nat} {i b : Nat}

/-- The classes that are ancestors of each other. -/
structure IsComponent (graph : List (List Nat)) (component : List Nat) : Prop where
  nodup : component.Nodup
  strong : ∀ i ∈ component, ∀ j,
    j ∈ component ↔ j = i ∨ TransGen (IsBase graph) i j ∧ TransGen (IsBase graph) j i

/-- All classes by components. The bases of a class are in its component or in an earlier one. -/
structure IsComponentOrder (graph : List (List Nat)) (components : List (List Nat)) : Prop where
  component : ∀ c ∈ components, IsComponent graph c
  covers : ∀ i, i ∈ components.flatten ↔ i < graph.length
  basesFirst : ∀ k c, components[k]? = some c →
    ∀ i ∈ c, ∀ b, IsBase graph i b → b ∈ (components.take (k + 1)).flatten

/-- A class that stands alone is on a cycle only if it is its own base. -/
theorem IsComponent.mem_cyclicClasses_iff_of_singleton (hr : InRange graph) (h : IsComponent graph [i]) :
    i ∈ cyclicClasses graph ↔ IsBase graph i i := by
  rw [mem_cyclicClasses_iff hr]
  constructor
  · intro hcycle
    obtain ⟨b, hb, hpath⟩ := TransGen.head'_iff.mp hcycle
    rcases Relation.reflTransGen_iff_eq_or_transGen.mp hpath with rfl | hpath
    · exact hb
    · have hmem : b ∈ [i] := (h.strong i List.mem_cons_self b).mpr (Or.inr ⟨.single hb, hpath⟩)
      exact List.mem_singleton.mp hmem ▸ hb
  · exact .single

/-- Of a component of several classes all are on cycles. -/
theorem IsComponent.mem_cyclicClasses {j : Nat} (hr : InRange graph) (h : IsComponent graph component)
    (hi : i ∈ component) (hj : j ∈ component) (hne : j ≠ i) : i ∈ cyclicClasses graph := by
  obtain ⟨hij, hji⟩ := ((h.strong i hi j).mp hj).resolve_left hne
  exact (mem_cyclicClasses_iff hr).mpr (hij.trans hji)

/-- What is asked of the components can be read off the ancestors of the classes. -/
theorem IsComponentOrder.of_ancestors {components : List (List Nat)} (hr : InRange graph)
    (hnodup : ∀ c ∈ components, c.Nodup)
    (hmutual : ∀ c ∈ components, ∀ i ∈ c, ∀ j ∈ c, j ≠ i → j ∈ ((ancestors graph)[i]?).getD [])
    (hmaximal : ∀ c ∈ components, ∀ i ∈ c, ∀ j ∈ ((ancestors graph)[i]?).getD [],
      i ∈ ((ancestors graph)[j]?).getD [] → j ∈ c)
    (hcovers : (∀ i ∈ components.flatten, i < graph.length) ∧ ∀ i < graph.length, i ∈ components.flatten)
    (hbases : ∀ k < components.length, ∀ i ∈ (components[k]?).getD [], ∀ b ∈ (graph[i]?).getD [],
      b ∈ (components.take (k + 1)).flatten) : IsComponentOrder graph components where
  component c hc := by
    refine ⟨hnodup c hc, fun i hi j => ?_⟩
    rw [← mem_ancestors_iff hr, ← mem_ancestors_iff hr]
    constructor
    · intro hj
      by_cases hji : j = i
      · exact Or.inl hji
      · exact Or.inr ⟨hmutual c hc i hi j hj hji, hmutual c hc j hj i hi (Ne.symm hji)⟩
    · rintro (rfl | ⟨hij, hji⟩)
      · exact hi
      · exact hmaximal c hc i hi j hij hji
  covers i := ⟨hcovers.1 i, hcovers.2 i⟩
  basesFirst k c hk i hi b hb := by
    have hlt : k < components.length := (List.getElem?_eq_some_iff.mp hk).1
    exact hbases k hlt i (by rwa [hk]) b (isBase_iff.mp hb)

/-! ## The pass over the components -/

/-- What is known of the classes after some components. -/
structure Placement where
  depths : List Nat
  cyclic : List Nat

/-- One more component. A class that stands alone and is not its own base is placed above its bases. -/
def Placement.place (graph : List (List Nat)) (p : Placement) : List Nat → Placement
  | [i] =>
    let bases := (graph[i]?).getD []
    if bases.contains i then { p with cyclic := p.cyclic ++ [i] }
    else { p with depths := p.depths.set i (depthAbove p.depths bases) }
  | component => { p with cyclic := p.cyclic ++ component }

/-- All components, in the given order. -/
def Placement.ofComponents (graph components : List (List Nat)) : Placement :=
  components.foldl (place graph) ⟨graph.map fun _ => 0, []⟩

namespace Placement

variable {p : Placement}

/-- The depths of the classes placed so far are right, and so are the classes on cycles among them. -/
structure IsSound (graph : List (List Nat)) (placed : List Nat) (p : Placement) : Prop where
  length : p.depths.length = graph.length
  depths : ∀ i, i < graph.length → p.depths[i]? = some (if i ∈ placed then depth graph i else 0)
  cyclic : ∀ i, i ∈ p.cyclic ↔ i ∈ placed ∧ i ∈ cyclicClasses graph

theorem IsSound.append_cyclic (h : p.IsSound graph placed) (hc : ∀ i ∈ component, i ∈ cyclicClasses graph) :
    ({ p with cyclic := p.cyclic ++ component } : Placement).IsSound graph (placed ++ component) where
  length := h.length
  depths i hi := by
    have hdepth : i ∈ component → depth graph i = 0 := fun hmem => depthWithin_of_cyclic (hc i hmem)
    rw [h.depths i hi]
    by_cases hplaced : i ∈ placed <;> by_cases hmem : i ∈ component <;> simp [hplaced, hmem, hdepth]
  cyclic i := by
    rw [List.mem_append, List.mem_append, h.cyclic]
    by_cases hmem : i ∈ component <;> simp [hmem, hc]

theorem IsSound.set_depth (hr : InRange graph) (h : p.IsSound graph placed) (hi : i ∉ cyclicClasses graph)
    (hbases : ∀ b, IsBase graph i b → b ∈ placed) :
    ({ p with depths := p.depths.set i (depthAbove p.depths ((graph[i]?).getD [])) } : Placement).IsSound graph
      (placed ++ [i]) where
  length := by simp [h.length]
  depths j hj := by
    have habove : depthAbove p.depths ((graph[i]?).getD []) = depth graph i := by
      rw [depth_eq hr hi, depthAbove]
      congr 1
      refine List.map_congr_left fun b hb => ?_
      have hbase := isBase_iff.mpr hb
      rw [h.depths b (hr i b hbase), if_pos (hbases b hbase), Option.getD_some]
    rw [List.getElem?_set, habove]
    by_cases hij : i = j
    · simp [hij, h.length, hj]
    · simp [hij, h.depths j hj, Ne.symm hij]
  cyclic j := by
    rw [List.mem_append, h.cyclic]
    by_cases hij : j = i <;> simp [hij, hi]

/-- **One component.** -/
theorem IsSound.place (hr : InRange graph) (h : p.IsSound graph placed) (hc : IsComponent graph component)
    (hbases : ∀ i ∈ component, ∀ b, IsBase graph i b → b ∈ placed ∨ b ∈ component) :
    (p.place graph component).IsSound graph (placed ++ component) := by
  match component with
  | [] => exact h.append_cyclic fun _ hi => nomatch hi
  | [i] =>
    simp only [Placement.place]
    have hcyclic := hc.mem_cyclicClasses_iff_of_singleton hr
    split
    next hself =>
      refine h.append_cyclic fun j hj => ?_
      rw [List.mem_singleton.mp hj, hcyclic, isBase_iff]
      exact List.contains_iff_mem.mp hself
    next hself =>
      have hnot : ¬IsBase graph i i := fun hi => hself (List.contains_iff_mem.mpr (isBase_iff.mp hi))
      refine h.set_depth hr (mt hcyclic.mp hnot) fun b hb => ?_
      refine (hbases i List.mem_cons_self b hb).resolve_right fun hmem => hnot ?_
      exact List.mem_singleton.mp hmem ▸ hb
  | i :: j :: rest =>
    -- each class of the component has another one beside it
    have hij : i ≠ j := fun e => (List.nodup_cons.mp hc.nodup).1 (e ▸ List.mem_cons_self)
    refine h.append_cyclic fun k hk => ?_
    by_cases hki : k = i
    · exact hki ▸ hc.mem_cyclicClasses hr (by simp) (by simp) hij.symm
    · exact hc.mem_cyclicClasses hr hk (List.mem_cons_self) (Ne.symm hki)

/-- **All components.** -/
theorem isSound_ofComponents {components : List (List Nat)} (hr : InRange graph)
    (h : IsComponentOrder graph components) :
    (ofComponents graph components).IsSound graph components.flatten := by
  -- by induction on the components that are left; those in front are placed
  have hrun : ∀ rest before p, components = before ++ rest → IsSound graph before.flatten p →
      (rest.foldl (Placement.place graph) p).IsSound graph components.flatten := by
    intro rest
    induction rest with
    | nil =>
      intro before p hcomponents hp
      rw [List.append_nil] at hcomponents
      exact hcomponents ▸ hp
    | cons c rest ih =>
      intro before p hcomponents hp
      have hmem : c ∈ components := hcomponents ▸ List.mem_append_right before List.mem_cons_self
      refine ih (before ++ [c]) _ (by simp [hcomponents]) ?_
      rw [List.flatten_append, List.flatten_singleton]
      refine hp.place hr (h.component c hmem) fun i hi b hb => ?_
      have hfirst : components.take (before.length + 1) = before ++ [c] := by
        rw [hcomponents, List.take_length_add_append]
        rfl
      have hbase := h.basesFirst before.length c (by simp [hcomponents]) i hi b hb
      rwa [hfirst, List.flatten_append, List.flatten_singleton, List.mem_append] at hbase
  exact hrun components [] _ rfl ⟨by simp, fun i hi => by simp [hi], by simp⟩

theorem depths_ofComponents {components : List (List Nat)} (hr : InRange graph)
    (h : IsComponentOrder graph components) : (ofComponents graph components).depths = Module.depths graph := by
  have hsound := isSound_ofComponents hr h
  refine List.ext_getElem? fun i => ?_
  by_cases hi : i < graph.length
  · rw [hsound.depths i hi, if_pos ((h.covers i).mpr hi), getElem?_depths hi]
  · rw [List.getElem?_eq_none (by rw [hsound.length]; omega),
      List.getElem?_eq_none (by rw [length_depths]; omega)]

theorem mem_cyclic_ofComponents {components : List (List Nat)} (hr : InRange graph)
    (h : IsComponentOrder graph components) :
    i ∈ (ofComponents graph components).cyclic ↔ i ∈ cyclicClasses graph := by
  rw [(isSound_ofComponents hr h).cyclic, h.covers, and_iff_right_iff_imp]
  intro hi
  exact List.mem_range.mp (List.mem_filter.mp hi).1

end Placement

end NativeClass.Module
