import NativeClass.Proofs.Module.Trace
/-!
# What a module registers

A name keeps the type that is registered first. So among the classes of a name that compile one of the least deep
is registered: the first one in the module if the classes are compiled in a row, any one otherwise.

* `FirstToRegister`: the registry after the classes of a module have been registered in an order.
* `IsLeastDeep`: the classes of a name whose registration may be the first.
* **`registry_of_interleaves`**: what a module registers, and when that depends on the order of the steps.
-/

namespace NativeClass

namespace Module

variable {o : CompileOptions} {registry after : Registry NativeType} {decls : List ClassDecl} {p q : Progress}
  {outs : Nat → Outcome} {outcomes : List Outcome} {name : String} {t : NativeType} {i j k : Nat}
  {order : List Nat} {orders : List (List Nat)}

/-! ## The classes of a name -/

/-- A class of the name, compiled to a type. -/
def CompilesTo (decls : List ClassDecl) (outcomes : List Outcome) (name : String) (i : Nat) (t : NativeType) : Prop :=
  (∃ d, decls[i]? = some d ∧ d.name = name) ∧ outcomes[i]? = some (.ok t)

/-- The registry after the classes of a module have been registered in an order: nothing is overwritten, and a new
name has the type of the first one of its classes that compiled. -/
structure FirstToRegister (decls : List ClassDecl) (before : Registry NativeType) (outcomes : List Outcome)
    (order : List Nat) (after : Registry NativeType) : Prop where
  kept : ∀ name t, before.get? name = some t → after.get? name = some t
  present : ∀ name, before.get? name = none →
    ((after.get? name).isSome ↔ ∃ i t, CompilesTo decls outcomes name i t)
  first : ∀ name t, before.get? name = none → (after.get? name = some t ↔
    ∃ earlier i later, order = earlier ++ i :: later ∧ CompilesTo decls outcomes name i t ∧
      ∀ j ∈ earlier, ∀ t', ¬CompilesTo decls outcomes name j t')

/-- A class of the name that compiled, and none of these is less deep. -/
def IsLeastDeep (decls : List ClassDecl) (outcomes : List Outcome) (name : String) (i : Nat) (t : NativeType) : Prop :=
  CompilesTo decls outcomes name i t ∧
    ∀ j t', CompilesTo decls outcomes name j t' → depth (baseGraph decls) i ≤ depth (baseGraph decls) j

theorem CompilesTo.lt_length (h : CompilesTo decls outcomes name i t) : i < decls.length := by
  obtain ⟨⟨d, hd, -⟩, -⟩ := h
  exact (List.getElem?_eq_some_iff.mp hd).1

/-! ## Orders within the layers -/

theorem mem_flatten_orders_iff (horders : List.Forall₂ List.Perm orders (layers (baseGraph decls))) :
    i ∈ orders.flatten ↔ i < decls.length ∧ ¬OnCycle decls i := by
  rw [(List.Perm.flatten_congr horders).mem_iff, mem_flatten_layers_iff, mem_cyclicClasses_baseGraph]
  simp [baseGraph]

theorem pairwise_depth_flatten_map_layerAt {graph : List (List Nat)} {count : Nat}
    (h : List.Forall₂ List.Perm orders ((List.range' k count).map (layerAt graph))) :
    (∀ i ∈ orders.flatten, k ≤ depth graph i) ∧
      orders.flatten.Pairwise fun i j => depth graph i ≤ depth graph j := by
  induction count generalizing k orders with
  | zero =>
    cases h
    simp
  | succ count ih =>
    rw [List.range'_succ, List.map_cons] at h
    cases h with
    | @cons order _ orders _ horder hrest =>
    obtain ⟨hle, hpair⟩ := ih hrest
    have hdepth : ∀ i ∈ order, depth graph i = k := fun i hi =>
      (mem_layerAt_iff.mp (horder.mem_iff.mp hi)).2.2
    rw [List.flatten_cons, List.pairwise_append]
    refine ⟨List.forall_mem_append.mpr ⟨fun i hi => (hdepth i hi).ge, fun i hi => ?_⟩, ?_, hpair, fun i hi j hj => ?_⟩
    · exact Nat.le_of_succ_le (hle i hi)
    · exact List.pairwise_of_forall_mem_list fun i hi j hj => (hdepth i hi).trans_le (hdepth j hj).ge
    · rw [hdepth i hi]
      exact Nat.le_of_succ_le (hle j hj)

theorem pairwise_depth_flatten {graph : List (List Nat)} (horders : List.Forall₂ List.Perm orders (layers graph)) :
    orders.flatten.Pairwise fun i j => depth graph i ≤ depth graph j := by
  rw [layers_eq] at horders
  exact (pairwise_depth_flatten_map_layerAt horders).2

/-- Any class may be the first one of its depth. -/
theorem exists_orders_of_mem {graph : List (List Nat)} (hi : i ∈ (layers graph).flatten) :
    ∃ orders earlier later, List.Forall₂ List.Perm orders (layers graph) ∧ orders.flatten = earlier ++ i :: later ∧
      ∀ j ∈ earlier, depth graph j < depth graph i := by
  rw [layers_eq] at hi ⊢
  obtain ⟨layer, hlayer, hi⟩ := List.mem_flatten.mp hi
  obtain ⟨k, hk, rfl⟩ := List.mem_map.mp hlayer
  obtain ⟨pre, post, hsplit⟩ := List.append_of_mem hk
  have hdepth := (mem_layerAt_iff.mp hi).2.2
  have hpre : ∀ x ∈ pre, x < k := fun x hx => by
    have hsorted := List.pairwise_lt_range' (s := 0) (n := (depths graph).foldl max 0 + 1)
    rw [hsplit] at hsorted
    exact (List.pairwise_append.mp hsorted).2.2 x hx k List.mem_cons_self
  refine ⟨pre.map (layerAt graph) ++ (i :: (layerAt graph k).erase i) :: post.map (layerAt graph),
    (pre.map (layerAt graph)).flatten, (layerAt graph k).erase i ++ (post.map (layerAt graph)).flatten, ?_, ?_, ?_⟩
  · rw [hsplit, List.map_append, List.map_cons]
    have hsame : ∀ ls : List (List Nat), List.Forall₂ List.Perm ls ls := fun ls =>
      List.forall₂_same.mpr fun _ _ => .refl _
    exact List.rel_append (hsame _) (.cons (List.perm_cons_erase hi).symm (hsame _))
  · simp
  · intro j hj
    obtain ⟨layer, hlayer, hj⟩ := List.mem_flatten.mp hj
    obtain ⟨x, hx, rfl⟩ := List.mem_map.mp hlayer
    rw [(mem_layerAt_iff.mp hj).2.2, hdepth]
    exact hpre x hx

/-! ## The classes of a module in an order -/

section

variable (houtcomes : ∀ i out, outcomes[i]? = some out ↔ HasOutcome o registry decls i out)

include houtcomes

theorem registers_outcomeAt_iff (ho : o.backend.IsRegular) (hi : i < decls.length) :
    registers name (outcomeAt o registry decls i) = some t ↔ CompilesTo decls outcomes name i t := by
  have hd := List.getElem?_eq_getElem hi
  have hout : HasOutcome o registry decls i (outcomeAt o registry decls i) := hasOutcome_outcomeAt ho hi
  rw [CompilesTo, (houtcomes i _).mpr hout, hd]
  generalize outcomeAt o registry decls i = out at hout
  cases out with
  | error e => simp [registers]
  | ok t' =>
    have hname := hout.name_eq ho hd
    simp only [registers, hname]
    split <;> simp [*]

theorem CompilesTo.not_onCycle (h : CompilesTo decls outcomes name i t) : ¬OnCycle decls i := by
  have hout := (houtcomes i _).mp h.2
  generalize hok : (.ok t : Outcome) = out at hout
  cases hout with
  | onCycle => cases hok
  | overBases _ hc _ => exact hc

theorem firstToRegister_registerAll (ho : o.backend.IsRegular)
    (horder : ∀ i, i ∈ order ↔ i < decls.length ∧ ¬OnCycle decls i) :
    FirstToRegister decls registry outcomes order (registerAll (outcomeAt o registry decls) registry order) := by
  have hregisters : ∀ i ∈ order, ∀ name t, registers name (outcomeAt o registry decls i) = some t ↔
      CompilesTo decls outcomes name i t := fun i hi name t =>
    registers_outcomeAt_iff houtcomes ho ((horder i).mp hi).1
  refine ⟨fun name t hget => ?_, fun name hnone => ?_, fun name t hnone => ?_⟩
  · rw [get?_registerAll, hget]
    rfl
  · rw [get?_registerAll, hnone, Option.none_or, List.findSome?_isSome_iff]
    constructor
    · rintro ⟨i, hi, hsome⟩
      obtain ⟨t, ht⟩ := Option.isSome_iff_exists.mp hsome
      exact ⟨i, t, (hregisters i hi name t).mp ht⟩
    · rintro ⟨i, t, ht⟩
      have hi := (horder i).mpr ⟨ht.lt_length, ht.not_onCycle houtcomes⟩
      exact ⟨i, hi, by rw [(hregisters i hi name t).mpr ht]; rfl⟩
  · rw [get?_registerAll, hnone, Option.none_or, List.findSome?_eq_some_iff]
    constructor
    · rintro ⟨earlier, i, later, rfl, ht, hearlier⟩
      refine ⟨earlier, i, later, rfl, (hregisters i (by simp) name t).mp ht, fun j hj t' ht' => ?_⟩
      have hj' := (hregisters j (by simp [hj]) name t').mpr ht'
      simp [hearlier j hj] at hj'
    · rintro ⟨earlier, i, later, rfl, ht, hearlier⟩
      refine ⟨earlier, i, later, rfl, (hregisters i (by simp) name t).mpr ht, fun j hj => ?_⟩
      refine Option.eq_none_iff_forall_ne_some.mpr fun t' ht' => ?_
      exact hearlier j hj t' ((hregisters j (by simp [hj]) name t').mp ht')

/-- The class that registers a name is least deep. -/
theorem FirstToRegister.isLeastDeep (horders : List.Forall₂ List.Perm orders (layers (baseGraph decls)))
    (h : FirstToRegister decls registry outcomes orders.flatten after) (hnone : registry.get? name = none)
    (ht : after.get? name = some t) : ∃ i, IsLeastDeep decls outcomes name i t := by
  obtain ⟨earlier, i, later, horder, hcompiles, hearlier⟩ := (h.first name t hnone).mp ht
  have hsorted := pairwise_depth_flatten horders
  rw [horder] at hsorted
  refine ⟨i, hcompiles, fun j t' hj => ?_⟩
  have hmem : j ∈ orders.flatten :=
    (mem_flatten_orders_iff horders).mpr ⟨hj.lt_length, hj.not_onCycle houtcomes⟩
  rw [horder, List.mem_append, List.mem_cons] at hmem
  rcases hmem with hmem | rfl | hmem
  · exact absurd hj (hearlier j hmem t')
  · exact Nat.le_refl _
  · exact (List.pairwise_cons.mp (List.pairwise_append.mp hsorted).2.1).1 j hmem

/-- Every least deep class of a name may be the one that is registered. -/
theorem IsLeastDeep.exists_orders (h : IsLeastDeep decls outcomes name i t) :
    ∃ orders, List.Forall₂ List.Perm orders (layers (baseGraph decls)) ∧
      ∀ after, FirstToRegister decls registry outcomes orders.flatten after → registry.get? name = none →
        after.get? name = some t := by
  have hmem : i ∈ (layers (baseGraph decls)).flatten := by
    rw [mem_flatten_layers_iff, mem_cyclicClasses_baseGraph]
    exact ⟨by simpa [baseGraph] using h.1.lt_length, h.1.not_onCycle houtcomes⟩
  obtain ⟨orders, earlier, later, horders, horder, hless⟩ := exists_orders_of_mem hmem
  refine ⟨orders, horders, fun after hafter hnone => (hafter.first name t hnone).mpr ?_⟩
  refine ⟨earlier, i, later, horder, h.1, fun j hj t' ht' => ?_⟩
  exact Nat.not_le_of_lt (hless j hj) (h.2 j t' ht')

theorem Interleaves.exists_firstToRegister (ho : o.backend.IsRegular)
    (h : Interleaves o decls (start registry decls) (layers (baseGraph decls)) q) :
    ∃ orders, List.Forall₂ List.Perm orders (layers (baseGraph decls)) ∧
      FirstToRegister decls registry outcomes orders.flatten q.registry := by
  obtain ⟨-, orders, -, horders, -, hregistry⟩ := h.traced ho (awaits_start o registry decls)
  rw [hregistry]
  exact ⟨orders, horders, firstToRegister_registerAll houtcomes ho fun i => mem_flatten_orders_iff horders⟩

theorem firstToRegister_compileLayers (ho : o.backend.IsRegular)
    (horders : List.Forall₂ List.Perm orders (layers (baseGraph decls))) :
    FirstToRegister decls registry outcomes orders.flatten
      (compileLayers o decls (start registry decls) orders).registry := by
  rw [compileLayers_registry ho horders (awaits_start o registry decls)]
  exact firstToRegister_registerAll houtcomes ho fun i => mem_flatten_orders_iff horders

end

/-! ## What a module registers -/

/-- **What a module registers.** In whatever order the steps come, no entry is overwritten, and a new name has the
type of the first of its classes that compiled; layers come one after another, and every order within the layers
occurs. If the classes are compiled in a row, it is the order of the module. So the order of the steps matters for
a name exactly if least deep classes of that name compile to different types. -/
theorem registry_of_interleaves (ho : o.backend.IsRegular) (registry : Registry NativeType)
    (decls : List ClassDecl) :
    (∀ q, Interleaves o decls (start registry decls) (layers (baseGraph decls)) q →
      ∃ orders, List.Forall₂ List.Perm orders (layers (baseGraph decls)) ∧
        FirstToRegister decls registry (q.reported decls) orders.flatten q.registry) ∧
    (∀ orders, List.Forall₂ List.Perm orders (layers (baseGraph decls)) →
      ∃ q, Interleaves o decls (start registry decls) (layers (baseGraph decls)) q ∧
        FirstToRegister decls registry (q.reported decls) orders.flatten q.registry) ∧
    FirstToRegister decls registry (compileClasses o registry decls).outcomes (layers (baseGraph decls)).flatten
      (compileClasses o registry decls).registry ∧
    ∀ name, registry.get? name = none →
      ((∀ q, Interleaves o decls (start registry decls) (layers (baseGraph decls)) q →
          q.registry.get? name = (compileClasses o registry decls).registry.get? name) ↔
        ∀ i j t t', IsLeastDeep decls (compileClasses o registry decls).outcomes name i t →
          IsLeastDeep decls (compileClasses o registry decls).outcomes name j t' → t = t') := by
  have hinterleaves : ∀ orders, List.Forall₂ List.Perm orders (layers (baseGraph decls)) →
      Interleaves o decls (start registry decls) (layers (baseGraph decls))
        (compileLayers o decls (start registry decls) orders) := fun orders horders =>
    interleaves_compileLayers (awaits_start o registry decls).basesFirst horders o _
  have hself : List.Forall₂ List.Perm (layers (baseGraph decls)) (layers (baseGraph decls)) :=
    List.forall₂_same.mpr fun _ _ => .refl _
  have houtcomes : ∀ i out, (compileClasses o registry decls).outcomes[i]? = some out ↔
      HasOutcome o registry decls i out := fun i out => getElem?_compileClasses_iff ho
  have hrow := firstToRegister_compileLayers houtcomes ho hself
  refine ⟨fun q h => ?_, fun orders horders => ?_, hrow, fun name hnone => ⟨fun hsame i j t t' hi hj => ?_, ?_⟩⟩
  · exact h.exists_firstToRegister (fun i out => h.getElem?_reported_iff ho) ho
  · have h := hinterleaves orders horders
    exact ⟨_, h, firstToRegister_compileLayers (fun i out => h.getElem?_reported_iff ho) ho horders⟩
  · -- both of the least deep classes are the registered one in some order
    have hrow : ∀ i t, IsLeastDeep decls (compileClasses o registry decls).outcomes name i t →
        (compileClasses o registry decls).registry.get? name = some t := fun i t hi => by
      obtain ⟨orders, horders, hfirst⟩ := hi.exists_orders houtcomes
      rw [← hsame _ (hinterleaves orders horders)]
      exact hfirst _ (firstToRegister_compileLayers houtcomes ho horders) hnone
    exact Option.some.inj ((hrow i t hi).symm.trans (hrow j t' hj))
  · intro hleast q h
    obtain ⟨orders, horders, hq⟩ := h.exists_firstToRegister houtcomes ho
    have hpresent := (hq.present name hnone).trans (hrow.present name hnone).symm
    cases hget : q.registry.get? name with
    | none =>
      rw [hget, Option.isSome_none, Bool.false_eq_true, false_iff, Option.not_isSome_iff_eq_none] at hpresent
      exact hpresent.symm
    | some t =>
      obtain ⟨t', ht'⟩ := Option.isSome_iff_exists.mp (hpresent.mp (by rw [hget]; rfl))
      obtain ⟨i, hi⟩ := hq.isLeastDeep houtcomes horders hnone hget
      obtain ⟨j, hj⟩ := hrow.isLeastDeep houtcomes hself hnone ht'
      rw [hleast i j t t' hi hj]
      exact ht'.symm

end Module

namespace Sample

/-- Two classes of a name, of which the first one has a base in the module. -/
def twins : List ClassDecl :=
  [declOf "Node" [("left", .attr .int)] ["Leaf"], declOf "Leaf" [] [], declOf "Node" [("right", .attr .float)] []]

end Sample

namespace Module

open Sample (options family twins)

/-- The attributes of a compiled class. -/
def attributesAt (outcomes : List Outcome) (i : Nat) : Option (List String) :=
  (outcomes[i]?).bind fun out => out.toOption.map fun t => t.attributes.names

theorem exists_of_attributesAt {names : List String} (h : attributesAt outcomes i = some names) :
    ∃ t, outcomes[i]? = some (.ok t) ∧ t.attributes.names = names := by
  obtain ⟨out, hout, ht⟩ := Option.bind_eq_some_iff.mp h
  obtain ⟨t, hok, hnames⟩ := Option.map_eq_some_iff.mp ht
  cases out with
  | error e => cases hok
  | ok t' =>
    cases hok
    exact ⟨t, hout, hnames⟩

/-- Two classes of a name in one layer. -/
theorem registry_of_interleaves_family :
    options.backend.IsRegular ∧
      ¬ ∀ q, Interleaves options family (start .empty family) (layers (baseGraph family)) q →
        q.registry.get? "Node" = (compileClasses options .empty family).registry.get? "Node" := by
  refine ⟨Backend.isRegular_reference, fun hsame => ?_⟩
  obtain ⟨-, -, -, hiff⟩ := registry_of_interleaves (o := options) Backend.isRegular_reference .empty family
  have hleft : attributesAt (compileClasses options .empty family).outcomes 1 = some ["left"] := by decide +kernel
  have hright : attributesAt (compileClasses options .empty family).outcomes 6 = some ["right"] := by decide +kernel
  have hdepth : depth (baseGraph family) 1 = 0 ∧ depth (baseGraph family) 6 = 0 := by decide +kernel
  obtain ⟨t, ht, hnames⟩ := exists_of_attributesAt hleft
  obtain ⟨t', ht', hnames'⟩ := exists_of_attributesAt hright
  have heq := (hiff "Node" rfl).mp hsame 1 6 t t' ⟨⟨⟨_, rfl, rfl⟩, ht⟩, fun _ _ _ => hdepth.1 ▸ Nat.zero_le _⟩
    ⟨⟨⟨_, rfl, rfl⟩, ht'⟩, fun _ _ _ => hdepth.2 ▸ Nat.zero_le _⟩
  rw [heq, hnames'] at hnames
  exact absurd hnames (by decide)

/-- Of two classes of a name the later one is registered if it is less deep. -/
theorem not_firstToRegister_range :
    ¬ ∀ (o : CompileOptions) (registry : Registry NativeType) (decls : List ClassDecl) (q : Progress),
      Interleaves o decls (start registry decls) (layers (baseGraph decls)) q →
        FirstToRegister decls registry (q.reported decls) (List.range decls.length) q.registry := by
  intro h
  obtain ⟨q, hq, hresult⟩ := interleaves_compileClasses options .empty twins
  have hfirst := h _ _ _ _ hq
  have hleft : attributesAt (compileClasses options .empty twins).outcomes 0 = some ["left"] := by decide +kernel
  have hright : ((compileClasses options .empty twins).registry.get? "Node").map (·.attributes.names) =
      some ["right"] := by decide +kernel
  rw [hresult] at hleft hright
  obtain ⟨t, ht, hnames⟩ := exists_of_attributesAt hleft
  have hnode : q.registry.get? "Node" = some t :=
    (hfirst.first "Node" t rfl).mpr ⟨[], 0, [1, 2], rfl, ⟨⟨_, rfl, rfl⟩, ht⟩, nofun⟩
  simp only [hnode, Option.map_some, hnames] at hright
  exact absurd hright (by decide)

end Module

end NativeClass
