import Mathlib.Data.Finset.Card
import Mathlib.Logic.Relation
import Mathlib.Order.Monotone.Basic
import NativeClass.Module.Dependency
/-!
# The order of the classes of a module

* `IsBase`: a class and one of its bases, in a graph of classes.
* `mem_ancestors_iff`: the ancestors are found by following bases as often as there are classes.
* **`mem_cyclicClasses_iff`**: the classes on cycles are those that are among their own ancestors.
* **`depth_lt_depth`**: a base that is not on a cycle is less deep than the classes over it.
* **`basesFirst_layers`**: every layer comes after the bases of its classes.
-/

namespace NativeClass.Module

open Relation (TransGen)

variable {graph : List (List Nat)} {i j b k : Nat}

/-- In a graph of classes `b` is a base of `i`. -/
def IsBase (graph : List (List Nat)) (i b : Nat) : Prop :=
  ∃ bases, graph[i]? = some bases ∧ b ∈ bases

theorem isBase_iff : IsBase graph i b ↔ b ∈ (graph[i]?).getD [] := by
  cases hi : graph[i]? <;> simp [IsBase, hi]

/-- All bases are classes of the graph. -/
def InRange (graph : List (List Nat)) : Prop :=
  ∀ i b, IsBase graph i b → b < graph.length

theorem IsBase.lt (h : IsBase graph i b) : i < graph.length := by
  obtain ⟨bases, hi, -⟩ := h
  exact (List.getElem?_eq_some_iff.mp hi).1

theorem iterate_succ {α : Type} (step : α → α) (n : Nat) (a : α) :
    iterate step (n + 1) a = step (iterate step n a) := by
  induction n generalizing a with
  | zero => rfl
  | succ n ih =>
    rw [iterate, ih]
    rfl

/-! ## Ancestors -/

/-- The ancestors of a class that are reached by at most `k` steps. -/
def ancestorsWithin (graph : List (List Nat)) (k i : Nat) : List Nat :=
  ((iterate (ancestorStep graph) k (graph.map fun _ => []))[i]?).getD []

theorem ancestorsWithin_zero : ancestorsWithin graph 0 i = [] := by
  show ((graph.map fun _ => [])[i]?).getD [] = []
  rw [List.getElem?_map]
  cases graph[i]? <;> rfl

/-- The first step leads to a base. -/
theorem mem_ancestorsWithin_succ :
    j ∈ ancestorsWithin graph (k + 1) i ↔
      ∃ b, IsBase graph i b ∧ (j = b ∨ j ∈ ancestorsWithin graph k b) := by
  rw [ancestorsWithin, iterate_succ, ancestorStep, List.getElem?_map]
  cases hi : graph[i]? with
  | none => simp [IsBase, hi]
  | some bases =>
    simp only [Option.map_some, Option.getD_some, List.mem_eraseDups, List.mem_append, List.mem_flatMap,
      IsBase, hi, Option.some.injEq, exists_eq_left']
    constructor
    · rintro (hj | ⟨b, hb, hj⟩)
      · exact ⟨j, hj, Or.inl rfl⟩
      · exact ⟨b, hb, Or.inr hj⟩
    · rintro ⟨b, hb, rfl | hj⟩
      · exact Or.inl hb
      · exact Or.inr ⟨b, hb, hj⟩

/-- The last step leads from an ancestor to one of its bases. -/
theorem mem_ancestorsWithin_succ' :
    j ∈ ancestorsWithin graph (k + 1) i ↔
      IsBase graph i j ∨ ∃ b ∈ ancestorsWithin graph k i, IsBase graph b j := by
  induction k generalizing i with
  | zero => simp [mem_ancestorsWithin_succ, ancestorsWithin_zero]
  | succ k ih =>
    rw [mem_ancestorsWithin_succ]
    constructor
    · rintro ⟨b, hb, rfl | hj⟩
      · exact Or.inl hb
      · rcases ih.mp hj with hj | ⟨b', hb', hj⟩
        · exact Or.inr ⟨b, mem_ancestorsWithin_succ.mpr ⟨b, hb, Or.inl rfl⟩, hj⟩
        · exact Or.inr ⟨b', mem_ancestorsWithin_succ.mpr ⟨b, hb, Or.inr hb'⟩, hj⟩
    · rintro (hj | ⟨b', hb', hj⟩)
      · exact ⟨j, hj, Or.inl rfl⟩
      · obtain ⟨b, hb, rfl | hb'⟩ := mem_ancestorsWithin_succ.mp hb'
        · exact ⟨b', hb, Or.inr (ih.mpr (Or.inl hj))⟩
        · exact ⟨b, hb, Or.inr (ih.mpr (Or.inr ⟨b', hb', hj⟩))⟩

theorem ancestorsWithin_subset : ancestorsWithin graph k i ⊆ ancestorsWithin graph (k + 1) i := by
  induction k with
  | zero => simp [ancestorsWithin_zero]
  | succ k ih =>
    intro j hj
    rcases mem_ancestorsWithin_succ'.mp hj with hj | ⟨b, hb, hj⟩
    · exact mem_ancestorsWithin_succ'.mpr (Or.inl hj)
    · exact mem_ancestorsWithin_succ'.mpr (Or.inr ⟨b, ih hb, hj⟩)

theorem transGen_of_mem_ancestorsWithin (h : j ∈ ancestorsWithin graph k i) :
    TransGen (IsBase graph) i j := by
  induction k generalizing i with
  | zero => simp [ancestorsWithin_zero] at h
  | succ k ih =>
    obtain ⟨b, hb, rfl | hj⟩ := mem_ancestorsWithin_succ.mp h
    · exact .single hb
    · exact .head hb (ih hj)

theorem card_ancestorsWithin_le (hr : InRange graph) :
    (ancestorsWithin graph k i).toFinset.card ≤ graph.length := by
  have hsub : (ancestorsWithin graph k i).toFinset ⊆ Finset.range graph.length := fun j hj => by
    obtain ⟨b, -, hb⟩ :=
      TransGen.tail'_iff.mp (transGen_of_mem_ancestorsWithin (List.mem_toFinset.mp hj))
    exact Finset.mem_range.mpr (hr b j hb)
  simpa using Finset.card_le_card hsub

/-- After as many steps as there are classes no further ancestor is found. -/
theorem ancestorsWithin_stable (hr : InRange graph) :
    (ancestorsWithin graph (graph.length + 1) i).toFinset =
      (ancestorsWithin graph graph.length i).toFinset := by
  let S k := (ancestorsWithin graph k i).toFinset
  have hmono : ∀ k, S k ⊆ S (k + 1) := fun k j hj =>
    List.mem_toFinset.mpr (ancestorsWithin_subset (List.mem_toFinset.mp hj))
  have heq : ∀ k, (S k).card = (S (k + 1)).card → S (k + 1) = S k := fun k h =>
    (Finset.eq_of_subset_of_card_le (hmono k) h.ge).symm
  -- a step that finds nothing new is followed by none that does
  have hstab : ∀ k, (S k).card = (S (k + 1)).card → (S (k + 1)).card = (S (k + 2)).card := by
    intro k h
    congr 1
    ext j
    have hmem : ∀ b, b ∈ ancestorsWithin graph (k + 1) i ↔ b ∈ ancestorsWithin graph k i := fun b => by
      rw [← List.mem_toFinset, ← List.mem_toFinset]
      exact Finset.ext_iff.mp (heq k h) b
    simp only [S, List.mem_toFinset]
    rw [mem_ancestorsWithin_succ' (k := k + 1), mem_ancestorsWithin_succ' (k := k)]
    simp only [hmem]
  refine heq _ (Nat.stabilises_of_monotone (f := fun k => (S k).card) ?_
    (fun _ => card_ancestorsWithin_le hr) hstab ?_).symm
  · exact monotone_nat_of_le_succ fun k => Finset.card_le_card (hmono k)
  · omega

/-- **The ancestors of a class** are reached from it by steps to bases. -/
theorem mem_ancestors_iff (hr : InRange graph) :
    j ∈ ((ancestors graph)[i]?).getD [] ↔ TransGen (IsBase graph) i j := by
  show j ∈ ancestorsWithin graph graph.length i ↔ _
  refine ⟨transGen_of_mem_ancestorsWithin, fun h => ?_⟩
  have hstable : ∀ b, b ∈ ancestorsWithin graph (graph.length + 1) i →
      b ∈ ancestorsWithin graph graph.length i := fun b hb => by
    rw [← List.mem_toFinset, ← ancestorsWithin_stable hr, List.mem_toFinset]
    exact hb
  induction h with
  | single hb => exact hstable _ (mem_ancestorsWithin_succ'.mpr (Or.inl hb))
  | tail _ hb ih => exact hstable _ (mem_ancestorsWithin_succ'.mpr (Or.inr ⟨_, ih, hb⟩))

/-- **The classes on cycles are those that are among their own ancestors.** -/
theorem mem_cyclicClasses_iff (hr : InRange graph) :
    i ∈ cyclicClasses graph ↔ TransGen (IsBase graph) i i := by
  rw [cyclicClasses, List.mem_filter, List.contains_iff_mem, mem_ancestors_iff hr, List.mem_range,
    and_iff_right_iff_imp]
  intro h
  obtain ⟨b, hb, -⟩ := TransGen.head'_iff.mp h
  exact hb.lt

/-! ## Depths -/

/-- The depth of a class as far as chains of bases are followed `k` steps. -/
def depthWithin (graph : List (List Nat)) (k i : Nat) : Nat :=
  ((iterate (depthStep graph (cyclicClasses graph)) k (graph.map fun _ => 0))[i]?).getD 0

/-- The length of the longest chain of bases below a class. -/
def depth (graph : List (List Nat)) (i : Nat) : Nat :=
  depthWithin graph graph.length i

theorem depthWithin_zero : depthWithin graph 0 i = 0 := by
  show ((graph.map fun _ => 0)[i]?).getD 0 = 0
  rw [List.getElem?_map]
  cases graph[i]? <;> rfl

theorem depthWithin_succ :
    depthWithin graph (k + 1) i =
      if i ∈ cyclicClasses graph then 0
      else (((graph[i]?).getD []).map fun b => depthWithin graph k b + 1).foldl max 0 := by
  rw [depthWithin, iterate_succ, depthStep, List.getElem?_map, List.getElem?_zipIdx]
  cases graph[i]? <;> simp [depthAbove, depthWithin]

theorem depthWithin_of_cyclic (h : i ∈ cyclicClasses graph) : depthWithin graph k i = 0 := by
  cases k with
  | zero => exact depthWithin_zero
  | succ k => rw [depthWithin_succ, if_pos h]

theorem le_foldl_max {l : List Nat} {a x : Nat} (h : x ≤ a ∨ x ∈ l) : x ≤ l.foldl max a := by
  induction l generalizing a with
  | nil => simpa using h
  | cons y l ih =>
    refine ih ?_
    rcases h with h | h
    · exact Or.inl (h.trans (le_max_left a y))
    · rcases List.mem_cons.mp h with rfl | h
      · exact Or.inl (le_max_right a x)
      · exact Or.inr h

/-- The ancestors of a class, as a set. -/
def ancestorSet (graph : List (List Nat)) (i : Nat) : Finset Nat :=
  (((ancestors graph)[i]?).getD []).toFinset

theorem mem_ancestorSet_iff (hr : InRange graph) :
    j ∈ ancestorSet graph i ↔ TransGen (IsBase graph) i j := by
  rw [ancestorSet, List.mem_toFinset, mem_ancestors_iff hr]

/-- A base that is not on a cycle has fewer ancestors. -/
theorem card_ancestorSet_lt (hr : InRange graph) (h : IsBase graph i b)
    (hb : b ∉ cyclicClasses graph) : (ancestorSet graph b).card < (ancestorSet graph i).card := by
  refine Finset.card_lt_card ((Finset.ssubset_iff_of_subset fun j hj => ?_).mpr ⟨b, ?_, ?_⟩)
  · rw [mem_ancestorSet_iff hr] at hj ⊢
    exact .head h hj
  · rw [mem_ancestorSet_iff hr]
    exact .single h
  · rw [mem_ancestorSet_iff hr, ← mem_cyclicClasses_iff hr]
    exact hb

/-- Once chains are followed as far as a class has ancestors, its depth does not change any more. -/
theorem depthWithin_stable (hr : InRange graph) (hi : i ∉ cyclicClasses graph)
    (hk : (ancestorSet graph i).card ≤ k) : depthWithin graph (k + 1) i = depthWithin graph k i := by
  induction k generalizing i with
  | zero =>
    have hnone : (graph[i]?).getD [] = [] := List.eq_nil_iff_forall_not_mem.mpr fun b hb => by
      have hmem : b ∈ ancestorSet graph i := (mem_ancestorSet_iff hr).mpr (.single (isBase_iff.mpr hb))
      simp [Finset.card_eq_zero.mp (Nat.le_zero.mp hk)] at hmem
    rw [depthWithin_succ, hnone, depthWithin_zero]
    simp
  | succ k ih =>
    rw [depthWithin_succ, depthWithin_succ, if_neg hi, if_neg hi]
    congr 1
    refine List.map_congr_left fun b hb => ?_
    by_cases hcyc : b ∈ cyclicClasses graph
    · rw [depthWithin_of_cyclic hcyc, depthWithin_of_cyclic hcyc]
    · have hlt := card_ancestorSet_lt hr (isBase_iff.mpr hb) hcyc
      rw [ih hcyc (by omega)]

theorem depth_eq (hr : InRange graph) (hi : i ∉ cyclicClasses graph) :
    depth graph i = (((graph[i]?).getD []).map fun b => depth graph b + 1).foldl max 0 := by
  rw [depth, ← depthWithin_stable hr hi (card_ancestorsWithin_le hr), depthWithin_succ, if_neg hi]
  rfl

/-- **A base is less deep than the classes over it.** -/
theorem depth_lt_depth (hr : InRange graph) (h : IsBase graph i b) (hi : i ∉ cyclicClasses graph) :
    depth graph b < depth graph i := by
  rw [depth_eq hr hi]
  exact le_foldl_max (Or.inr (List.mem_map_of_mem (isBase_iff.mp h)))

/-! ## Layers -/

/-- Each layer of classes comes after the bases of its classes: a base is ready in the beginning or in an
earlier layer. -/
def BasesFirst (graph : List (List Nat)) (ready : Nat → Prop) : List (List Nat) → Prop
  | [] => True
  | layer :: rest =>
    layer.Nodup ∧
      (∀ i ∈ layer, i < graph.length ∧ i ∉ cyclicClasses graph ∧ ∀ b, IsBase graph i b → ready b) ∧
      BasesFirst graph (fun b => ready b ∨ b ∈ layer) rest

/-- The classes of one depth that can be compiled. -/
def layerAt (graph : List (List Nat)) (k : Nat) : List Nat :=
  (List.range graph.length).filter fun i =>
    !(cyclicClasses graph).contains i && (depths graph)[i]? = some k

theorem length_depths : (depths graph).length = graph.length := by
  have hlen : ∀ k, (iterate (depthStep graph (cyclicClasses graph)) k (graph.map fun _ => 0)).length =
      graph.length := fun k => by
    cases k with
    | zero => simp [iterate]
    | succ k => simp [iterate_succ, depthStep]
  exact hlen graph.length

theorem getElem?_depths (hi : i < graph.length) : (depths graph)[i]? = some (depth graph i) := by
  have hlt : i < (depths graph).length := length_depths.symm ▸ hi
  show _ = some (((depths graph)[i]?).getD 0)
  rw [List.getElem?_eq_getElem hlt]
  rfl

theorem mem_layerAt_iff :
    i ∈ layerAt graph k ↔ i < graph.length ∧ i ∉ cyclicClasses graph ∧ depth graph i = k := by
  rw [layerAt, List.mem_filter, List.mem_range]
  refine and_congr_right fun hi => ?_
  rw [getElem?_depths hi]
  simp

theorem layers_eq : layers graph = (List.range' 0 ((depths graph).foldl max 0 + 1)).map (layerAt graph) := by
  rw [← List.range_eq_range']
  rfl

theorem mem_flatten_layers (hi : i < graph.length) (hc : i ∉ cyclicClasses graph) :
    i ∈ (layers graph).flatten := by
  have hmax : depth graph i ≤ (depths graph).foldl max 0 :=
    le_foldl_max (Or.inr (List.mem_of_getElem? (getElem?_depths hi)))
  have hdepth : depth graph i ∈ List.range' 0 ((depths graph).foldl max 0 + 1) := by
    rw [List.mem_range'_1]
    omega
  rw [layers_eq, List.mem_flatten]
  exact ⟨_, List.mem_map_of_mem hdepth, mem_layerAt_iff.mpr ⟨hi, hc, rfl⟩⟩

theorem mem_flatten_layers_iff : i ∈ (layers graph).flatten ↔ i < graph.length ∧ i ∉ cyclicClasses graph := by
  refine ⟨fun hi => ?_, fun hi => mem_flatten_layers hi.1 hi.2⟩
  rw [layers_eq, List.mem_flatten] at hi
  obtain ⟨layer, hlayer, hi⟩ := hi
  obtain ⟨k, -, rfl⟩ := List.mem_map.mp hlayer
  obtain ⟨hlt, hc, -⟩ := mem_layerAt_iff.mp hi
  exact ⟨hlt, hc⟩

theorem nodup_flatten_layers : (layers graph).flatten.Nodup := by
  rw [layers_eq, List.nodup_flatten, List.pairwise_map]
  refine ⟨fun layer hlayer => ?_, List.Pairwise.imp (fun hlt i hi hj => ?_) List.pairwise_lt_range'⟩
  · obtain ⟨k, -, rfl⟩ := List.mem_map.mp hlayer
    exact List.nodup_range.filter _
  · rw [mem_layerAt_iff] at hi hj
    omega

/-- Every class is in one layer or on a cycle. -/
theorem perm_flatten_layers_append_cyclicClasses (graph : List (List Nat)) :
    ((layers graph).flatten ++ cyclicClasses graph).Perm (List.range graph.length) := by
  have hcyclic : (cyclicClasses graph).Nodup := List.nodup_range.filter _
  have hlt : ∀ i ∈ cyclicClasses graph, i < graph.length := fun i hi => List.mem_range.mp (List.mem_filter.mp hi).1
  have hnodup := List.nodup_append'.mpr ⟨nodup_flatten_layers, hcyclic, fun i hi =>
    (mem_flatten_layers_iff.mp hi).2⟩
  refine (List.perm_ext_iff_of_nodup hnodup List.nodup_range).mpr fun i => ?_
  have := hlt i
  rw [List.mem_append, mem_flatten_layers_iff, List.mem_range]
  tauto

theorem BasesFirst.mono {ready ready' : Nat → Prop} {rest : List (List Nat)}
    (h : BasesFirst graph ready rest) (hmono : ∀ b, ready b → ready' b) : BasesFirst graph ready' rest := by
  induction rest generalizing ready ready' with
  | nil => trivial
  | cons layer rest ih =>
    obtain ⟨hnodup, hlayer, hrest⟩ := h
    refine ⟨hnodup, fun i hi => ?_, ih hrest fun b hb => hb.imp_left (hmono b)⟩
    obtain ⟨hlt, hc, hbases⟩ := hlayer i hi
    exact ⟨hlt, hc, fun b hb => hmono b (hbases b hb)⟩

/-- **Every layer comes after the bases of its classes.** -/
theorem basesFirst_layers (hr : InRange graph) :
    BasesFirst graph (· ∈ cyclicClasses graph) (layers graph) := by
  -- when the layer of depth `k` is due, all less deep classes are ready
  suffices h : ∀ count k, BasesFirst graph
      (fun b => b ∈ cyclicClasses graph ∨ b < graph.length ∧ depth graph b < k)
      ((List.range' k count).map (layerAt graph)) by
    rw [layers_eq]
    exact (h _ 0).mono fun b hb => hb.resolve_right (by omega)
  intro count
  induction count with
  | zero => exact fun _ => trivial
  | succ count ih =>
    intro k
    rw [List.range'_succ, List.map_cons]
    refine ⟨List.nodup_range.filter _, fun i hi => ?_, (ih (k + 1)).mono fun b hb => ?_⟩
    · obtain ⟨hlt, hc, rfl⟩ := mem_layerAt_iff.mp hi
      exact ⟨hlt, hc, fun b hb => Or.inr ⟨hr i b hb, depth_lt_depth hr hb hc⟩⟩
    · by_cases hc : b ∈ cyclicClasses graph
      · exact Or.inl (Or.inl hc)
      · obtain ⟨hlt, hdepth⟩ := hb.resolve_left hc
        by_cases hk : depth graph b = k
        · exact Or.inr (mem_layerAt_iff.mpr ⟨hlt, hc, hk⟩)
        · exact Or.inl (Or.inr ⟨hlt, by omega⟩)

/-! ## The classes of a module -/

/-- In a module a base of a class is the first class that has the name of the base. -/
def Derives (decls : List ClassDecl) (i b : Nat) : Prop :=
  ∃ d name, decls[i]? = some d ∧ name ∈ d.baseNames ∧ position? decls name = some b

theorem isBase_baseGraph {decls : List ClassDecl} : IsBase (baseGraph decls) i b ↔ Derives decls i b := by
  rw [isBase_iff, baseGraph, List.getElem?_map, Derives]
  cases decls[i]? with
  | none => simp
  | some d => simp [List.mem_filterMap]

theorem Derives.lt {decls : List ClassDecl} (h : Derives decls i b) : b < decls.length := by
  obtain ⟨_, name, -, -, hname⟩ := h
  exact (List.findIdx?_eq_some_iff_getElem.mp hname).1

theorem inRange_baseGraph (decls : List ClassDecl) : InRange (baseGraph decls) := by
  intro i b h
  rw [baseGraph, List.length_map]
  exact (isBase_baseGraph.mp h).lt

/-- The class is among its own ancestors. -/
def OnCycle (decls : List ClassDecl) (i : Nat) : Prop :=
  TransGen (Derives decls) i i

theorem OnCycle.exists_decl {decls : List ClassDecl} (h : OnCycle decls i) : ∃ d, decls[i]? = some d := by
  obtain ⟨b, ⟨d, name, hd, -⟩, -⟩ := TransGen.head'_iff.mp h
  exact ⟨d, hd⟩

theorem mem_cyclicClasses_baseGraph {decls : List ClassDecl} :
    i ∈ cyclicClasses (baseGraph decls) ↔ OnCycle decls i := by
  have hderives : IsBase (baseGraph decls) = Derives decls :=
    funext fun i => funext fun b => propext isBase_baseGraph
  rw [mem_cyclicClasses_iff (inRange_baseGraph decls), hderives]
  rfl

end NativeClass.Module
