import NativeClass.Proofs.Compilation.Reordering
/-!
# The order of the methods

Methods are typed once each, in the order of the class body, and each sees the return types that have been found
before. So the order matters to a method that mentions one whose return type is still to be found, and to no
other: classes in which such pairs keep their order are accepted together, with the same signatures.

* `BoundClass.isOpen`: the return type of a method has to be found.
* `BoundClass.KeepsCallOrder`: mentions of such methods keep their order.
* `Compilation.Midway`: a run of typings halfway.
* **`Compilation.exists_foldlM_of_alike`**: the same methods typed in another order.
* **`BoundClass.methodOrder_infer`**: classes with their methods in another order.
-/

namespace NativeClass

open Inference (inferMethod elsewhere)

/-! ## Before and after -/

/-- One name stands before another one among the methods of the class body. -/
def ClassSource.Precedes (c : ClassSource) (n m : String) : Prop :=
  n ∈ c.methodNames.takeWhile (· ≠ m)

instance (c : ClassSource) (n m : String) : Decidable (c.Precedes n m) :=
  inferInstanceAs (Decidable (n ∈ c.methodNames.takeWhile (· ≠ m)))

/-- What stands before an element of a filtered list is what stands before it in the list itself. -/
theorem mem_takeWhile_ne_iff {α : Type} [DecidableEq α] {l before after : List α} {x y : α} {p : α → Bool}
    (hn : l.Nodup) (hsplit : l.filter p = before ++ x :: after) (hy : p y) :
    y ∈ l.takeWhile (· ≠ x) ↔ y ∈ before := by
  obtain ⟨l₁, l₂, rfl, rfl, hrest⟩ := List.filter_eq_append_iff.mp hsplit
  obtain ⟨u, v, rfl, hu, -, -⟩ := List.filter_eq_cons_iff.mp hrest
  rw [← List.append_assoc] at hn ⊢
  -- `takeWhile` goes past all of `l₁ ++ u`, as `x` stands in the list only once
  have hne : ∀ z ∈ l₁ ++ u, decide (z ≠ x) = true := fun z hz =>
    decide_eq_true ((List.nodup_append.mp hn).2.2 z hz x List.mem_cons_self)
  rw [List.takeWhile_append_of_pos hne, List.takeWhile_cons_of_neg (by simp), List.append_nil, List.mem_append,
    List.mem_filter]
  exact ⟨fun h => ⟨h.resolve_right fun hyu => hu y hyu hy, hy⟩, fun h => Or.inl h.1⟩

namespace BoundClass

/-- The return type of a method other than the constructor is known neither from a type hint nor from an inherited
signature, so it has to be found. -/
def isOpen (o : CompileOptions) (c : BoundClass) (name : String) : Bool :=
  match (Compilation.ofClass c).untilMethods o with
  | .ok i => name ≠ initName && (i.draft.methods.get? name).any (!·.isResolved)
  | .error _ => false

/-- A method that mentions another one whose return type has to be found stands on the same side of it in both
classes. The constructor may stand anywhere. -/
def KeepsCallOrder (o : CompileOptions) (c c' : BoundClass) : Prop :=
  ∀ e ∈ c.source.members.entries, ∀ f ∈ e.2.function?, ∀ n ∈ f.mentions,
    c.isOpen o n → n ≠ e.1 → e.1 ≠ initName → (c.source.Precedes n e.1 ↔ c'.source.Precedes n e.1)

instance (o : CompileOptions) (c c' : BoundClass) : Decidable (c.KeepsCallOrder o c') := by
  unfold KeepsCallOrder
  infer_instance

variable {o : CompileOptions} {c c' : BoundClass}

theorem isOpen_of_reorders (h : c.Reorders c') (hv : ∀ v ∈ o.validators.methods, v.IgnoresPlaces) {name : String}
    (hopen : c.isOpen o name) : c'.isOpen o name := by
  unfold isOpen at hopen
  split at hopen
  next i hi =>
    obtain ⟨i', hi', halike⟩ := Compilation.alike_untilMethods h hv hi
    rw [isOpen, hi']
    dsimp only
    rwa [halike.signatures]
  · cases hopen

theorem KeepsCallOrder.symm (h : c.KeepsCallOrder o c') (hc : c.Reorders c')
    (hv : ∀ v ∈ o.validators.methods, v.IgnoresPlaces) : c'.KeepsCallOrder o c := by
  rintro ⟨name, decl⟩ he f' hf' n hn hopen hne hname
  have hget : c'.source.members.get? name = some (.function f') := by
    rw [OrderedMap.get?_eq_some_iff]
    cases decl with
    | function g => cases hf'; exact he
    | _ => cases hf'
  obtain ⟨f, hf, heq⟩ := hc.exists_function hget
  rw [← f'.mentions_unplaced, heq, f.mentions_unplaced] at hn
  exact (h _ (OrderedMap.get?_eq_some_iff.mp hf) f rfl n hn (isOpen_of_reorders hc.symm hv hopen) hne hname).symm

end BoundClass

namespace Compilation

variable {o : CompileOptions} {c c' : BoundClass} {i i' j j' k : Compilation} {m m' : Method}
  {xs xs' before after dealt rest : List Method}

/-! ## Typing in another order -/

/-- The signature of a method while several are being typed: the last one once the method is among those dealt with,
the first one before. -/
def signatureAmid (i k : Compilation) (dealt : List Method) (name : String) : Option Signature :=
  if name ∈ dealt.map Method.name then k.draft.methods.get? name else i.draft.methods.get? name

/-- A run of typings that began at `i` and comes to the signatures of `k`, after some of the methods. -/
structure Midway (i k : Compilation) (dealt : List Method) (j : Compilation) : Prop where
  name : j.draft.name = i.draft.name
  symbols : j.draft.symbols = i.draft.symbols
  slotTypes : j.draft.slotTypes = i.draft.slotTypes
  signatures : ∀ n, j.draft.methods.get? n = signatureAmid i k dealt n

theorem exists_midway_of_foldlM (ho : o.backend = .reference) (hn : (xs.map Method.name).Nodup) (hi : Awaits xs i)
    (hinit : ∀ x ∈ xs, x.name ≠ initName) (h : xs.foldlM (typeMethod o) i = .ok k)
    (hsplit : xs = before ++ m :: after) :
    ∃ j t, Midway i k before j ∧ (inferMethod (j.request o m)).result = .ok t ∧
      k.draft.methods.get? m.name = some t.signature := by
  subst hsplit
  obtain ⟨j, t, ht, hlast, hleaves, hdealt⟩ := exists_of_foldlM_typeMethod ho hn hi hinit h
  refine ⟨j, t, ⟨hleaves.name, hleaves.symbols, hleaves.slotTypes, fun n => ?_⟩, ht, hlast⟩
  unfold signatureAmid
  split
  next hmem => exact hdealt n hmem
  next hmem => exact hleaves.signatures n hmem

/-- Each of the methods has a signature in both compilations, and a resolved one is the same. -/
def Settles (xs : List Method) (i k : Compilation) : Prop :=
  ∀ n ∈ xs.map Method.name, ∃ s s', i.draft.methods.get? n = some s ∧ k.draft.methods.get? n = some s' ∧
    (s.isResolved → s' = s)

theorem settles_of_foldlM (ho : o.backend = .reference) (hn : (xs.map Method.name).Nodup) (hi : Awaits xs i)
    (hinit : ∀ x ∈ xs, x.name ≠ initName) (h : xs.foldlM (typeMethod o) i = .ok k) : Settles xs i k := by
  intro n hmem
  obtain ⟨m, hm, rfl⟩ := List.mem_map.mp hmem
  obtain ⟨before, after, hsplit⟩ := List.append_of_mem hm
  obtain ⟨j, t, hmid, ht, hlast⟩ := exists_midway_of_foldlM ho hn hi hinit h hsplit
  obtain ⟨s, hs⟩ := hi.signed m hm
  have hfirst : j.draft.methods.get? m.name = some s := by
    rw [hmid.signatures, signatureAmid, if_neg (Method.name_not_mem_of_nodup hn hsplit), hs]
  exact ⟨s, t.signature, hs, hlast, signature_eq_of_resolved ht hfirst⟩

theorem Settles.isSome_signatureAmid (h : Settles xs i k) (hsub : dealt.map Method.name ⊆ xs.map Method.name)
    (n : String) : (signatureAmid i k dealt n).isSome = (i.draft.methods.get? n).isSome := by
  unfold signatureAmid
  split
  next hmem =>
    obtain ⟨s, s', hs, hs', -⟩ := h n (hsub hmem)
    rw [hs, hs']
    rfl
  · rfl

/-- A signature is the same halfway of two runs if both have dealt with its method, or none has, or it does not
change. -/
theorem Settles.signatureAmid_eq (h : Settles xs i k) (hsub : before.map Method.name ⊆ xs.map Method.name)
    (hsub' : dealt.map Method.name ⊆ xs.map Method.name) {n : String}
    (hopen : ∀ s, i.draft.methods.get? n = some s → s.isResolved = false →
      (n ∈ dealt.map Method.name ↔ n ∈ before.map Method.name)) :
    signatureAmid i k dealt n = signatureAmid i k before n := by
  unfold signatureAmid
  by_cases hmem : n ∈ xs.map Method.name
  · obtain ⟨s, s', hs, hs', hresolved⟩ := h n hmem
    cases hr : s.isResolved with
    | true => rw [hs, hs', hresolved hr, ite_self, ite_self]
    | false => simp only [hopen s hs hr]
  · rw [if_neg fun hd => hmem (hsub' hd), if_neg fun hb => hmem (hsub hb)]

/-- A method that is typed halfway of one run can be typed halfway of another one, and with the same typing, if both
have dealt with the same ones among those that it mentions and whose signatures change. -/
theorem Midway.typeMethod (ho : o.backend = .reference) (hj : Midway i k before j) (hj' : Midway i k dealt j')
    (hs : i.draft.slotTypes.isFrozen = false) (hm : m'.unplaced = m.unplaced) (hinit : m.name ≠ initName)
    (hbefore : m.name ∉ before.map Method.name) (hdealt : m.name ∉ dealt.map Method.name)
    {old : Signature} (hold : i.draft.methods.get? m.name = some old)
    (hmentions : ∀ n ∈ m.func.mentions, signatureAmid i k dealt n = signatureAmid i k before n)
    (hknown : ∀ n, (signatureAmid i k dealt n).isSome = (signatureAmid i k before n).isSome)
    {t : Typing} (ht : (inferMethod (j.request o m)).result = .ok t)
    (hlast : k.draft.methods.get? m.name = some t.signature) :
    ∃ j'', j'.typeMethod o m' = .ok j'' ∧ Midway i k (dealt ++ [m']) j'' := by
  have hname := Method.name_eq hm
  have hfirst : j.draft.methods.get? m.name = some old := by
    rw [hj.signatures, signatureAmid, if_neg hbefore, hold]
  have hfirst' : j'.draft.methods.get? m.name = some old := by
    rw [hj'.signatures, signatureAmid, if_neg hdealt, hold]
  have hviews : ∀ n, (⟨j'.draft.methods, j'.draft.slotTypes⟩ : MethodView).get? n =
      (signatureAmid i k dealt n).or (i.draft.slotTypes.get? n) := fun n => by
    rw [MethodView.get?, hj'.signatures, hj'.slotTypes]
  have hviews' : ∀ n, (j.request o m).methods.get? n =
      (signatureAmid i k before n).or (i.draft.slotTypes.get? n) := fun n => by
    rw [request, MethodView.get?, hj.signatures, hj.slotTypes]
  -- so what the method mentions looks the same from both places
  have hagrees : (j.request o m).methods.Agrees ⟨j'.draft.methods, j'.draft.slotTypes⟩ m.func.mentions :=
    ⟨fun n hn => by rw [hviews, hviews', hmentions n hn],
      fun n => by rw [hviews, hviews', Option.isSome_or, Option.isSome_or, hknown]⟩
  have hsame := (Inference.sameValue_inferMethod (j.request o m)
    (Function.sameText_of_unplaced (Method.func_eq hm)) hagrees).1
  rw [← request_eq_elsewhere (hj'.name.trans hj.name.symm) (hj'.symbols.trans hj.symbols.symm) hm
    (hfirst'.trans hfirst.symm)] at hsame
  refine ⟨_, (typeMethod_eq_ok_iff ho (hj'.slotTypes ▸ hs) (hname ▸ hfirst')).mpr ⟨t, (hsame t).mpr ht, rfl⟩,
    hj'.name, ?_, hj'.slotTypes, fun n => ?_⟩
  · exact (if_neg (hname ▸ hinit)).trans hj'.symbols
  · rw [get?_withTyping, hj'.signatures, hname]
    simp only [signatureAmid, List.map_append, List.mem_append, List.map_singleton, List.mem_singleton, hname]
    by_cases hnm : n = m.name
    · rw [if_pos hnm, if_pos (Or.inr hnm), hnm, hlast]
    · simp only [hnm, or_false, if_false]

/-- **The same methods typed in another order** get the same signatures, if a method that mentions one whose
signature is not resolved stands on the same side of it in both orders. -/
theorem exists_foldlM_of_alike (ho : o.backend = .reference) (h : Alike i i')
    (hxs : (xs'.map Method.unplaced).Perm (xs.map Method.unplaced)) (hn : (xs.map Method.name).Nodup)
    (hi : Awaits xs i) (hinit : ∀ x ∈ xs, x.name ≠ initName)
    (horder : ∀ before m after dealt m' rest, xs = before ++ m :: after → xs' = dealt ++ m' :: rest →
      m'.unplaced = m.unplaced → ∀ n ∈ m.func.mentions, n ≠ m.name →
        ∀ s, i.draft.methods.get? n = some s → s.isResolved = false →
          (n ∈ dealt.map Method.name ↔ n ∈ before.map Method.name))
    (hk : xs.foldlM (typeMethod o) i = .ok k) :
    ∃ k', xs'.foldlM (typeMethod o) i' = .ok k' ∧ Midway i k xs' k' := by
  have hnames := Method.perm_map_name hxs
  have hsettles := settles_of_foldlM ho hn hi hinit hk
  have hrun : Ensures (xs'.foldlM (typeMethod o) i') (Midway i k xs') fun _ => False := by
    refine ensures_foldlM (Midway i k) ⟨h.name, h.symbols, h.slotTypes, h.signatures⟩ ?_
    intro dealt m' rest j' hsplit' hj'
    -- the method is typed halfway of the first run, too
    obtain ⟨m, hm, heq⟩ := Method.exists_of_perm hxs (hsplit' ▸ List.mem_append_right dealt List.mem_cons_self)
    obtain ⟨before, after, hsplit⟩ := List.append_of_mem hm
    obtain ⟨j, t, hj, ht, hlast⟩ := exists_midway_of_foldlM ho hn hi hinit hk hsplit
    obtain ⟨old, hold⟩ := hi.signed m hm
    have hbefore := Method.name_not_mem_of_nodup hn hsplit
    have hdealt : m.name ∉ dealt.map Method.name :=
      Method.name_eq heq ▸ Method.name_not_mem_of_nodup (hnames.nodup_iff.mpr hn) hsplit'
    have hsub : before.map Method.name ⊆ xs.map Method.name := by
      rw [hsplit, List.map_append]
      exact List.subset_append_left _ _
    have hsub' : dealt.map Method.name ⊆ xs.map Method.name := fun n hmem => hnames.subset <| by
      rw [hsplit', List.map_append]
      exact List.mem_append_left _ hmem
    have hmentions : ∀ n ∈ m.func.mentions, signatureAmid i k dealt n = signatureAmid i k before n := by
      refine fun n hmention => hsettles.signatureAmid_eq hsub hsub' fun s hs hopen => ?_
      by_cases hself : n = m.name
      · exact hself ▸ iff_of_false hdealt hbefore
      · exact horder before m after dealt m' rest hsplit hsplit' heq n hmention hself s hs hopen
    have hknown : ∀ n, (signatureAmid i k dealt n).isSome = (signatureAmid i k before n).isSome := fun n => by
      rw [hsettles.isSome_signatureAmid hsub', hsettles.isSome_signatureAmid hsub]
    obtain ⟨j'', hj'', hmid⟩ :=
      hj.typeMethod ho hj' hi.slots heq (hinit m hm) hbefore hdealt hold hmentions hknown ht hlast
    exact hj'' ▸ ensures_ok.mpr hmid
  cases hfold : xs'.foldlM (typeMethod o) i' with
  | ok k' => exact ⟨k', rfl, hrun.of_ok hfold⟩
  | error e => exact (hrun.of_error hfold).elim

/-! ## Classes in another order -/

theorem get?_untilAttributes (ho : o.backend = .reference) (hi : (ofClass c).untilMethods o = .ok i)
    (hj : (ofClass c).untilAttributes o = .ok j) {n : String} (hn : n ≠ initName) :
    j.draft.methods.get? n = i.draft.methods.get? n := by
  rw [untilAttributes_eq] at hj
  obtain ⟨i₀, hi₀, hrest⟩ := bind_eq_ok_iff.mp hj
  obtain ⟨i₁, hi₁, hlast⟩ := bind_eq_ok_iff.mp hrest
  obtain ⟨d, hd, heq⟩ := bind_eq_ok_iff.mp hlast
  rw [hi] at hi₀
  cases hi₀
  cases heq
  obtain ⟨attributes, rfl⟩ := Draft.exists_attributes_of_buildAttributes hd
  obtain ⟨_, slots, hslots, hrec⟩ := (refines_untilMethods o c).of_ok hi
  cases hfind : i.methods.find? (·.name = initName) with
  | none =>
    rw [typeInit, hfind] at hi₁
    cases hi₁
    rfl
  | some m =>
    have hname : m.name = initName := by simpa using List.find?_some hfind
    have hsigned := hrec.signed m (List.mem_of_find?_eq_some hfind)
    rw [typeInit, hfind] at hi₁
    obtain ⟨t, -, rfl⟩ := (typeMethod_eq_ok_iff ho (by rw [hslots]; rfl) hsigned).mp hi₁
    exact (get?_withTyping i m t (i.symbolsAfter o m) n).trans (if_neg (hname ▸ hn))

/-- The methods that are typed after the attribute table has been built. -/
def members (i : Compilation) : List Method :=
  i.methods.filter fun m => m.name ≠ initName ∧ m.name ≠ newName

theorem map_name_members (h : Attributed o c i) :
    i.members.map Method.name = c.source.methodNames.filter fun n => n ≠ initName ∧ n ≠ newName := by
  rw [← h.methods, List.filter_map]
  rfl

theorem ne_initName_of_mem_members : ∀ m ∈ i.members, m.name ≠ initName :=
  fun _ hm => (of_decide_eq_true (List.mem_filter.mp hm).2).1

theorem awaits_members (ho : o.backend = .reference) (hi : (ofClass c).untilAttributes o = .ok i) :
    Awaits i.members i := by
  have hattr := (ensures_untilAttributes ho c).of_ok hi
  refine ⟨by rw [hattr.slotTypes]; rfl, fun m hm => ?_⟩
  obtain ⟨i₁, hi₁, -⟩ := bind_eq_ok_iff.mp (untilAttributes_eq o _ ▸ hi)
  obtain ⟨d, slots, -, hrec⟩ := (refines_untilMethods o c).of_ok hi₁
  have hname : m.name ∈ i₁.draft.methods.keys := by
    rw [hrec.keys, d.map_name_initialMethods, ← hattr.methods]
    exact List.mem_map_of_mem (List.mem_filter.mp hm).1
  rw [get?_untilAttributes ho hi₁ hi (ne_initName_of_mem_members m hm)]
  exact OrderedMap.exists_get?_of_mem_keys hname

theorem Alike.perm_members (h : Alike i i') :
    (i'.members.map Method.unplaced).Perm (i.members.map Method.unplaced) := by
  have heq : ∀ i : Compilation, i.members.map Method.unplaced =
      (i.methods.map Method.unplaced).filter fun m => m.name ≠ initName ∧ m.name ≠ newName := fun i => by
    rw [List.filter_map]
    rfl
  rw [heq, heq]
  exact h.methods.filter _

/-- Methods that mention open ones stand on the same side of them in both classes when they are typed. -/
theorem mem_dealt_iff_of_keepsCallOrder (ho : o.backend = .reference) (horder : c.KeepsCallOrder o c')
    (hi : (ofClass c).untilAttributes o = .ok i) (hi' : (ofClass c').untilAttributes o = .ok i')
    (hsplit : i.members = before ++ m :: after) (hsplit' : i'.members = dealt ++ m' :: rest)
    (hm : m'.unplaced = m.unplaced) {n : String} (hmention : n ∈ m.func.mentions) (hne : n ≠ m.name)
    {s : Signature} (hs : i.draft.methods.get? n = some s) (hopen : s.isResolved = false) :
    n ∈ dealt.map Method.name ↔ n ∈ before.map Method.name := by
  have hnames := map_name_members ((ensures_untilAttributes ho c).of_ok hi)
  have hnames' := map_name_members ((ensures_untilAttributes ho c').of_ok hi')
  rw [hsplit, List.map_append, List.map_cons] at hnames
  rw [hsplit', List.map_append, List.map_cons, Method.name_eq hm] at hnames'
  by_cases hn : decide (n ≠ initName ∧ n ≠ newName) = true
  · have hmem : m ∈ i.members := hsplit ▸ List.mem_append_right before List.mem_cons_self
    obtain ⟨d, hrefines⟩ := (refines_untilAttributes ho c).of_ok hi
    have hget := get?_of_refines hrefines (List.mem_filter.mp hmem).1
    obtain ⟨i₁, hi₁, -⟩ := bind_eq_ok_iff.mp (untilAttributes_eq o _ ▸ hi)
    -- typing the constructor has not changed the signature, so it was open before
    have hisOpen : c.isOpen o n := by
      rw [BoundClass.isOpen, hi₁]
      dsimp only
      rw [← get?_untilAttributes ho hi₁ hi (of_decide_eq_true hn).1, hs, Option.any_some, hopen,
        decide_eq_true (of_decide_eq_true hn).1]
      rfl
    have hsides := horder _ (OrderedMap.get?_eq_some_iff.mp hget) m.func rfl n hmention hisOpen hne
      (ne_initName_of_mem_members m hmem)
    have hbefore := mem_takeWhile_ne_iff c.source.nodup_methodNames hnames.symm hn
    have hdealt := mem_takeWhile_ne_iff c'.source.nodup_methodNames hnames'.symm hn
    exact hdealt.symm.trans (hsides.symm.trans hbefore)
  · -- the constructor and the allocator are not among the methods typed here
    refine iff_of_false (fun hmem => hn ?_) fun hmem => hn ?_
    · have hmem' := hnames' ▸ List.mem_append_left _ hmem
      exact (List.mem_filter.mp hmem').2
    · have hmem' := hnames ▸ List.mem_append_left _ hmem
      exact (List.mem_filter.mp hmem').2

theorem exists_runInference_of_reorders (ho : o.backend = .reference) (h : c.Reorders c')
    (hv : ∀ v ∈ o.validators.methods, v.IgnoresPlaces) (horder : c.KeepsCallOrder o c')
    (hk : (ofClass c).runInference o = .ok k) :
    ∃ k', (ofClass c').runInference o = .ok k' ∧
      ∀ name, k'.draft.methods.get? name = k.draft.methods.get? name := by
  rw [runInference_eq] at hk
  obtain ⟨i, hi, hk⟩ := bind_eq_ok_iff.mp hk
  obtain ⟨k₁, hk₁, hk⟩ := bind_eq_ok_iff.mp hk
  obtain ⟨i', hi', halike⟩ := alike_untilAttributes ho h hv hi
  have hattr := (ensures_untilAttributes ho c).of_ok hi
  have hn : (i.members.map Method.name).Nodup := map_name_members hattr ▸ c.source.nodup_methodNames.filter _
  have hawaits := awaits_members ho hi
  obtain ⟨k₁', hk₁', hmid⟩ := exists_foldlM_of_alike ho halike halike.perm_members hn hawaits
    ne_initName_of_mem_members (fun _ _ _ _ _ _ hsplit hsplit' hm _ hmention hne _ hs hopen =>
      mem_dealt_iff_of_keepsCallOrder ho horder hi hi' hsplit hsplit' hm hmention hne hs hopen) hk₁
  obtain ⟨hleaves, -⟩ := leaves_foldlM_typeMethod ho hawaits ne_initName_of_mem_members hk₁
  -- the slots are built from the slots of the bases, which no typing touches
  rw [Draft.buildSlots_eq (hleaves.slotTypes.trans hattr.slotTypes)] at hk
  cases hk
  have hbuild := Draft.buildSlots_eq (hmid.slotTypes.trans hattr.slotTypes)
  have hrun : (ofClass c').runInference o = .ok { k₁' with draft := { k₁'.draft with
      slotTypes := .building
        ((Draft.mergeBases c.extensionBases NativeType.slotTypes).insertOwns k₁'.draft.slotMethods) } } := by
    rw [runInference_eq]
    exact bind_eq_ok_iff.mpr
      ⟨i', hi', bind_eq_ok_iff.mpr ⟨k₁', hk₁', bind_eq_ok_iff.mpr ⟨_, hbuild, rfl⟩⟩⟩
  refine ⟨_, hrun, fun name => (hmid.signatures name).trans ?_⟩
  unfold signatureAmid
  split
  · rfl
  next hname =>
    have hperm := Method.perm_map_name halike.perm_members
    exact (hleaves.signatures name fun hmem => hname (hperm.symm.subset hmem)).symm

end Compilation

namespace BoundClass

open Compilation

variable {o : CompileOptions} {c c' : BoundClass}

theorem result_infer_of_reorders (ho : o.backend = .reference) (h : c.Reorders c')
    (hv : ∀ v ∈ o.validators.methods, v.IgnoresPlaces) (horder : c.KeepsCallOrder o c')
    (hinfer : ((ofClass c).infer o).result = .ok ()) :
    ((ofClass c').infer o).result = .ok () ∧ ∀ name, ((ofClass c').infer o).after.draft.methods.get? name =
      ((ofClass c).infer o).after.draft.methods.get? name := by
  cases hrun : (ofClass c).runInference o with
  | error e =>
    rw [infer_ofClass_error hrun] at hinfer
    cases hinfer
  | ok k =>
    obtain ⟨k', hk', hsignatures⟩ := exists_runInference_of_reorders ho h hv horder hrun
    rw [infer_ofClass hrun, infer_ofClass hk']
    exact ⟨rfl, hsignatures⟩

/-- **The order of the methods does not matter**, if a method that mentions one whose return type has to be found
keeps its place before or after it: then inference accepts both classes or none, and it finds the same signatures. -/
theorem methodOrder_infer (ho : o.backend = .reference) (h : c.Reorders c')
    (hv : ∀ v ∈ o.validators.methods, v.IgnoresPlaces) (horder : c.KeepsCallOrder o c') :
    (((ofClass c').infer o).result = .ok () ↔ ((ofClass c).infer o).result = .ok ()) ∧
      (((ofClass c).infer o).result = .ok () → ∀ name, ((ofClass c').infer o).after.draft.methods.get? name =
        ((ofClass c).infer o).after.draft.methods.get? name) :=
  ⟨⟨fun hinfer => (result_infer_of_reorders ho h.symm hv (horder.symm h hv) hinfer).1,
      fun hinfer => (result_infer_of_reorders ho h hv horder hinfer).1⟩,
    fun hinfer => (result_infer_of_reorders ho h hv horder hinfer).2⟩

end BoundClass

/-! ## Classes whose methods call each other -/

namespace Sample

open Python (Expr)

/-- A method that returns one value and begins in some line of its text. -/
def methodAt (line : Nat) (name : String) (returns : Option Ty) (value : Expr) : String × Declaration :=
  (name, .function {
    name
    params := [⟨"self", none⟩]
    returns
    kind := .instanceMethod
    isAbstract := false
    isVariadic := false
    location := ⟨line, 4, line + 1, 0⟩
    body := some ⟨[.ret ⟨40 * line, 40 * line + 20⟩ (some value)], ⟨[0, 40 * line]⟩⟩ })

/-- A call of a method of the receiver. -/
def selfCall (name : String) : Expr :=
  .call default (selfAttribute name) [] []

/-- A class in which one method calls an annotated one, and another method calls the first. -/
def counter : BoundClass :=
  classOf "Counter" [methodAt 2 "limit" (some .int) (.literal default .int),
    methodAt 4 "step" none (selfCall "limit"), methodAt 6 "total" none (selfCall "step")] []

/-- The same class with the annotated method after the one that calls it. -/
def counterMoved : BoundClass :=
  classOf "Counter" [methodAt 2 "step" none (selfCall "limit"),
    methodAt 4 "limit" (some .int) (.literal default .int), methodAt 6 "total" none (selfCall "step")] []

/-- A class in which a method calls one that stands after it and has no type hint. -/
def relay (returns : Option Ty) : BoundClass :=
  classOf "Relay" [methodAt 2 "first" returns (selfCall "second"),
    methodAt 4 "second" none (.literal default .int)] []

/-- The same class with the two methods exchanged. -/
def relayMoved (returns : Option Ty) : BoundClass :=
  classOf "Relay" [methodAt 2 "second" none (.literal default .int),
    methodAt 4 "first" returns (selfCall "second")] []

theorem reorders_counter : counter.Reorders counterMoved where
  name := rfl
  bases := rfl
  members := .swap _ _ _
  others := rfl

theorem reorders_relay (returns : Option Ty) : (relay returns).Reorders (relayMoved returns) where
  name := rfl
  bases := rfl
  members := .swap _ _ _
  others := rfl

end Sample

namespace BoundClass

open Compilation

theorem methodOrder_infer_counter :
    Sample.counter.Reorders Sample.counterMoved ∧ Sample.counter.KeepsCallOrder Sample.options Sample.counterMoved ∧
      ((ofClass Sample.counter).infer Sample.options).result = .ok () ∧
      (((ofClass Sample.counterMoved).infer Sample.options).result = .ok () ↔
        ((ofClass Sample.counter).infer Sample.options).result = .ok ()) ∧
      ∀ name, ((ofClass Sample.counterMoved).infer Sample.options).after.draft.methods.get? name =
        ((ofClass Sample.counter).infer Sample.options).after.draft.methods.get? name := by
  have horder : Sample.counter.KeepsCallOrder Sample.options Sample.counterMoved := by decide +kernel
  have hinfer : ((ofClass Sample.counter).infer Sample.options).result = .ok () := by decide +kernel
  obtain ⟨hiff, hsignatures⟩ :=
    methodOrder_infer rfl Sample.reorders_counter MethodValidator.ignoresPlaces_standard horder
  exact ⟨Sample.reorders_counter, horder, hinfer, hiff, hsignatures hinfer⟩

/-- A method that calls a later one without a type hint returns `any`, and in the other order what that one
returns. So the two orders lead to different signatures, and if the method promises an integer, to different
verdicts. -/
theorem methodOrder_misfit :
    ((Sample.relay none).Reorders (Sample.relayMoved none) ∧
      ((ofClass (Sample.relay none)).infer Sample.options).result = .ok () ∧
      ((ofClass (Sample.relayMoved none)).infer Sample.options).result = .ok () ∧
      (((ofClass (Sample.relay none)).infer Sample.options).after.draft.methods.get? "first").map Signature.ret =
        some (some .any) ∧
      (((ofClass (Sample.relayMoved none)).infer Sample.options).after.draft.methods.get? "first").map
        Signature.ret = some (some .int)) ∧
    (Sample.relay (some .int)).Reorders (Sample.relayMoved (some .int)) ∧
      ((ofClass (Sample.relay (some .int))).infer Sample.options).result ≠ .ok () ∧
      ((ofClass (Sample.relayMoved (some .int))).infer Sample.options).result = .ok () := by
  refine ⟨⟨Sample.reorders_relay none, ?_, ?_, ?_, ?_⟩, Sample.reorders_relay (some .int), ?_, ?_⟩
  all_goals decide +kernel

end BoundClass

end NativeClass
