import NativeClass.Proofs.Layout
import NativeClass.Proofs.NativeType.InheritedTypes
/-!
# Substitution along single inheritance

Code compiled for a type works on the instances of every type derived from it, as long as each class has one
finished base and keeps the types of its attributes.

* `NativeType.Derives`: one step of single inheritance.
* **`NativeType.Derives.substitutes`**: one step keeps attributes, accessors and slots in place.
* `NativeType.Derives.entry_of_defines`, `NativeType.Derives.entry_of_not_defines`: where the code of a slot
  comes from.
* **`NativeType.substitution_along_chain`**: the same for a chain of any length.
-/

namespace NativeClass

open Compilation (Completes)

/-- The slot is called like the other one: by the same name, with the same arguments and the same kind of
receiver, for a result of the same type. -/
structure VTableSlot.Agrees (s' s : VTableSlot) : Prop where
  name : s'.name = s.name
  args : s'.signature.args = s.signature.args
  kind : s'.signature.kind = s.signature.kind
  ret : s'.signature.ret = s.signature.ret

namespace NativeType

variable {t b u : NativeType} {s s' : VTableSlot} {name : String}

/-! ## Types that can stand for others -/

/-- The type can stand for the other one. -/
structure Substitutes (t b : NativeType) : Prop where
  layout : b.layout.slots <+: t.layout.slots
  slots : ∀ (i : Nat) (s : VTableSlot), b.vtable.slots[i]? = some s →
    ∃ s' : VTableSlot, t.vtable.slots[i]? = some s' ∧ s'.Agrees s
  descriptor : ∀ name d, b.descriptor? name = some d → t.descriptor? name = some d

namespace Substitutes

theorem refl (t : NativeType) : t.Substitutes t :=
  ⟨List.prefix_refl _, fun _ s hs => ⟨s, hs, rfl, rfl, rfl, rfl⟩, fun _ _ h => h⟩

theorem trans (h : t.Substitutes u) (h' : u.Substitutes b) : t.Substitutes b := by
  refine ⟨h'.layout.trans h.layout, fun i s hs => ?_,
    fun name d hd => h.descriptor name d (h'.descriptor name d hd)⟩
  obtain ⟨s', hs', hagrees'⟩ := h'.slots i s hs
  obtain ⟨s'', hs'', hagrees''⟩ := h.slots i s' hs'
  exact ⟨s'', hs'', hagrees''.name.trans hagrees'.name, hagrees''.args.trans hagrees'.args,
    hagrees''.kind.trans hagrees'.kind, hagrees''.ret.trans hagrees'.ret⟩

end Substitutes

/-- The class of the type defines the method. -/
def Defines (t : NativeType) (name : String) : Prop :=
  name ∈ t.core.source.methodNames

instance (t : NativeType) (name : String) : Decidable (t.Defines name) :=
  inferInstanceAs (Decidable (name ∈ t.core.source.methodNames))

theorem Finished.descriptor?_eq (h : t.Finished) (name : String) :
    t.descriptor? name = (t.layout.slot? name).map Slot.descriptor := by
  obtain ⟨c, i, hi, -⟩ := h.exists_completes
  rw [descriptor?, hi.descriptors, hi.layout, Layout.find?_descriptors]

theorem Finished.entry_of_defines (h : t.Finished) (hs : s ∈ t.vtable.slots) (hd : t.Defines s.name) :
    ∃ m ∈ t.core.compiled, m.name = s.name ∧ s.entry = m.entry := by
  obtain ⟨c, i, hi, -⟩ := h.exists_completes
  have hentry := hi.entry_eq hs
  rw [Defines, hi.source, ← hi.inferred.map_name] at hd
  obtain ⟨m, hm, hname⟩ := List.mem_map.mp hd
  rw [← hname, hi.compiled?_of_mem hm] at hentry
  refine ⟨m.code t.name, ?_, hname, (Option.some.inj hentry).symm⟩
  rw [hi.compiled]
  exact List.mem_map_of_mem hm

/-! ## One step -/

/-- The type was compiled from a class with `b` as its only finished base, and with a check of the types of
attributes. -/
def Derives (t b : NativeType) : Prop :=
  ∃ (c : BoundClass) (o : CompileOptions), o.backend = .reference ∧
    DraftValidator.attributeType ∈ o.validators.drafts ∧ c.extensionBases = [b] ∧
    (c.compile o).result = .ok t

namespace Derives

theorem finished (h : t.Derives b) (hb : b.Finished) : t.Finished := by
  obtain ⟨c, o, ho, -, hbases, hresult⟩ := h
  refine .ofCompile ho ?_ hresult
  rw [hbases]
  exact List.forall_mem_singleton.mpr hb

theorem exists_completes (h : t.Derives b) :
    ∃ c i, Completes c i t ∧ c.extensionBases = [b] ∧
      DraftValidator.attributeType.objection? i.draft = none := by
  obtain ⟨c, o, ho, hv, hbases, hresult⟩ := h
  obtain ⟨i, hi, hvalid⟩ := BoundClass.exists_completes ho hresult
  exact ⟨c, i, hi, hbases, ValidatorSet.objection?_eq_none hvalid hv⟩

theorem get?_attributes (h : t.Derives b) {ty : Ty} (hty : b.attributes.get? name = some ty) :
    t.attributes.get? name = some ty := by
  obtain ⟨c, i, hi, hbases, hvalid⟩ := h.exists_completes
  by_cases hown : t.OwnsAttribute name
  · exact hi.eq_of_ownsAttribute hvalid hown (hbases ▸ List.mem_singleton_self b) hty
  · have hlast : lastType? ([] ++ b :: []) name = some ty := lastType?_append_cons [] [] hty
    rw [hi.get?_attributes_of_not_ownsAttribute hown, hbases]
    exact hlast

theorem prefix_layout (h : t.Derives b) (hb : b.Finished) : b.layout.slots <+: t.layout.slots := by
  rw [hb.layout_eq, (h.finished hb).layout_eq]
  refine Layout.prefix_slots ?_ fun name ty hty => h.get?_attributes hty
  obtain ⟨c, i, hi, hbases, -⟩ := h.exists_completes
  rw [hi.names_attributes, hbases, Draft.mergedNames_singleton]
  exact prefix_extendKeys _ _

theorem prefix_names (h : t.Derives b) : b.slotTypes.names <+: t.slotTypes.names := by
  obtain ⟨c, i, hi, hbases, -⟩ := h.exists_completes
  rw [hi.names_slotTypes, hbases, Draft.mergedNames_singleton]
  exact prefix_extendKeys _ _

theorem agrees (h : t.Derives b) (hb : b.Finished) (hs : s ∈ b.vtable.slots) (hs' : s' ∈ t.vtable.slots)
    (hname : s'.name = s.name) : s'.Agrees s := by
  obtain ⟨c, i, hi, hbases, -⟩ := h.exists_completes
  have hold := hb.get?_of_mem_slots hs
  have hnew := hi.get?_of_mem_slots hs'
  rw [hname, hi.get?_slotTypes, hbases, Draft.get?_mergeBases_singleton, hold] at hnew
  cases hown : i.draft.slotMethods.lookup s.name with
  | none =>
    rw [hown] at hnew
    have hsig : s.signature = s'.signature := Option.some.inj hnew
    exact ⟨hname, by rw [hsig], by rw [hsig], by rw [hsig]⟩
  | some own =>
    rw [hown] at hnew
    have hsig : own = s'.signature := Option.some.inj hnew
    -- the overriding method was recorded against the slot of the base
    obtain ⟨m, hm, hmname, rfl, hctor⟩ := hi.inferred.lookup_slotMethods_iff.mp hown
    have hfits : m.signature.Fits s.signature := by
      refine hi.inferred.fits m hm hctor s.signature ?_
      rw [hbases, Draft.get?_mergeBases_singleton, hmname, hold]
    rw [hsig] at hfits
    exact ⟨hname, hfits.args, hfits.kind, hfits.ret_eq (hb.slot hold).1⟩

theorem exists_slot (h : t.Derives b) (hb : b.Finished) {i : Nat} (hs : b.vtable.slots[i]? = some s) :
    ∃ s', t.vtable.slots[i]? = some s' ∧ s'.Agrees s := by
  have hname : t.slotTypes.names[i]? = some s.name := by
    refine getElem?_of_prefix h.prefix_names ?_
    rw [← hb.map_name_slots, List.getElem?_map, hs]
    rfl
  rw [← (h.finished hb).map_name_slots, List.getElem?_map, Option.map_eq_some_iff] at hname
  obtain ⟨s', hs', hname⟩ := hname
  exact ⟨s', hs', h.agrees hb (List.mem_of_getElem? hs) (List.mem_of_getElem? hs') hname⟩

/-- **A derived type can stand for its base.** -/
theorem substitutes (h : t.Derives b) (hb : b.Finished) : t.Substitutes b := by
  refine ⟨h.prefix_layout hb, fun i s hs => h.exists_slot hb hs, fun name d hd => ?_⟩
  have ht := h.finished hb
  rw [hb.descriptor?_eq, Option.map_eq_some_iff] at hd
  obtain ⟨s, hs, rfl⟩ := hd
  rw [hb.layout_eq, Layout.slot?_eq_some_iff, ← hb.layout_eq] at hs
  have hslot : t.layout.slot? name = some s := by
    rw [ht.layout_eq, Layout.slot?_eq_some_iff, ← ht.layout_eq]
    exact ⟨(h.prefix_layout hb).subset hs.1, hs.2⟩
  rw [ht.descriptor?_eq, hslot]
  rfl

theorem entry_of_not_defines (h : t.Derives b) (hb : b.Finished) (hs : s ∈ b.vtable.slots)
    (hs' : s' ∈ t.vtable.slots) (hname : s'.name = s.name) (hd : ¬ t.Defines s'.name) :
    s'.entry = s.entry := by
  obtain ⟨c, i, hi, hbases, -⟩ := h.exists_completes
  have hentry := hi.entry_eq hs'
  rw [hi.compiled?_eq_none hd, hbases] at hentry
  have hmem : (s'.name, s'.entry) ∈ b.vtable.entryPoints := by
    have hlookup := List.mem_reverse.mp (OrderedMap.mem_of_lookup hentry)
    rwa [List.flatMap_cons, List.flatMap_nil, List.append_nil] at hlookup
  obtain ⟨s₁, hs₁, heq⟩ := List.mem_map.mp hmem
  obtain ⟨hname₁, hentry₁⟩ := Prod.mk.inj heq
  have hsame : s₁ = s := hb.eq_of_name hs₁ hs (hname₁.trans hname)
  rw [← hentry₁, hsame]

end Derives

/-! ## Chains -/

/-- The types up to `n` come from a finished type by single inheritance, one after another. -/
structure Chain (T : Nat → NativeType) (n : Nat) : Prop where
  first : (T 0).Finished
  derives : ∀ k < n, (T (k + 1)).Derives (T k)

/-- The `k`-th type is the last one up to `n` whose class defines the method. -/
def LastDefines (T : Nat → NativeType) (n k : Nat) (name : String) : Prop :=
  k ≤ n ∧ (T k).Defines name ∧ ∀ j, k < j → j ≤ n → ¬ (T j).Defines name

namespace Chain

variable {T : Nat → NativeType} {n : Nat} {s₀ : VTableSlot}

theorem init (h : Chain T (n + 1)) : Chain T n :=
  ⟨h.first, fun k hk => h.derives k (Nat.lt_succ_of_lt hk)⟩

theorem finished (h : Chain T n) : (T n).Finished := by
  induction n with
  | zero => exact h.first
  | succ n ih => exact (h.derives n n.lt_succ_self).finished (ih h.init)

theorem substitutes (h : Chain T n) : (T n).Substitutes (T 0) := by
  induction n with
  | zero => exact .refl _
  | succ n ih => exact ((h.derives n n.lt_succ_self).substitutes h.init.finished).trans (ih h.init)

/-- The code of a slot of the first type in the last one: that of the last class that defines the method, or
that which the first type has. -/
theorem entry (h : Chain T n) {i : Nat} (h₀ : (T 0).vtable.slots[i]? = some s₀)
    (hs : (T n).vtable.slots[i]? = some s) :
    (∀ k, LastDefines T n k s.name →
        ∃ m ∈ (T k).core.compiled, m.name = s.name ∧ s.entry = m.entry) ∧
      ((∀ k ≤ n, ¬ (T k).Defines s.name) → s.entry = s₀.entry) := by
  induction n generalizing s with
  | zero =>
    have hsame : s₀ = s := Option.some.inj (h₀.symm.trans hs)
    refine ⟨fun k hk => ?_, fun _ => by rw [hsame]⟩
    obtain ⟨hk0, hdef, -⟩ := hk
    rw [Nat.le_zero.mp hk0] at hdef ⊢
    exact h.finished.entry_of_defines (List.mem_of_getElem? hs) hdef
  | succ n ih =>
    obtain ⟨s', hs', hagrees'⟩ := h.init.substitutes.slots i s₀ h₀
    obtain ⟨s'', hs'', hagrees⟩ :=
      ((h.derives n n.lt_succ_self).substitutes h.init.finished).slots i s' hs'
    have hname : s.name = s'.name := by
      rw [hs, Option.some.injEq] at hs''
      rw [hs'', hagrees.name]
    have hinherit : ¬ (T (n + 1)).Defines s.name → s.entry = s'.entry :=
      (h.derives n n.lt_succ_self).entry_of_not_defines h.init.finished (List.mem_of_getElem? hs')
        (List.mem_of_getElem? hs) hname
    obtain ⟨ihdef, ihnone⟩ := ih h.init hs'
    constructor
    · rintro k ⟨hk, hdef, hlast⟩
      rcases Nat.lt_or_eq_of_le hk with hlt | rfl
      · rw [hinherit (hlast (n + 1) hlt (Nat.le_refl _)), hname]
        rw [hname] at hdef hlast
        exact ihdef k ⟨Nat.le_of_lt_succ hlt, hdef, fun j hj hjn => hlast j hj (Nat.le_succ_of_le hjn)⟩
      · exact h.finished.entry_of_defines (List.mem_of_getElem? hs) hdef
    · intro hnone
      rw [hinherit (hnone (n + 1) (Nat.le_refl _))]
      rw [hname] at hnone
      exact ihnone fun k hk => hnone k (Nat.le_succ_of_le hk)

end Chain

/-- **Substitution along single inheritance.** In a chain of any length the attributes of the first type stand
at the beginning of the last one, every slot of the first type keeps its place, its name and its signature and
leads to the code of the last class that defines the method, and the accessors of the first type read and
write the instances of the last one as its own do. -/
theorem substitution_along_chain {T : Nat → NativeType} {n : Nat} (h : Chain T n) :
    (T 0).layout.slots <+: (T n).layout.slots ∧
    (∀ (i : Nat) (s₀ : VTableSlot), (T 0).vtable.slots[i]? = some s₀ →
      ∃ s : VTableSlot, (T n).vtable.slots[i]? = some s ∧ s.Agrees s₀ ∧
        (∀ k, LastDefines T n k s.name →
          ∃ m ∈ (T k).core.compiled, m.name = s.name ∧ s.entry = m.entry) ∧
        ((∀ k ≤ n, ¬ (T k).Defines s.name) → s.entry = s₀.entry)) ∧
    ∀ (name : String) (d₀ : Descriptor), (T 0).descriptor? name = some d₀ →
      ∃ d : Descriptor, (T n).descriptor? name = some d ∧
        ∀ x : Instance, d₀.get x = d.get x ∧ ∀ v : Value, d₀.set x v = d.set x v := by
  refine ⟨h.substitutes.layout, fun i s₀ hs₀ => ?_, fun name d₀ hd₀ => ?_⟩
  · obtain ⟨s, hs, hagrees⟩ := h.substitutes.slots i s₀ hs₀
    exact ⟨s, hs, hagrees, h.entry hs₀ hs⟩
  · exact ⟨d₀, h.substitutes.descriptor name d₀ hd₀, fun x => ⟨rfl, fun v => rfl⟩⟩

/-- The types of the sample in order of inheritance. -/
def sampleChain : Nat → NativeType
  | 0 => Sample.typeOf Sample.options Sample.shape
  | 1 => Sample.typeOf Sample.options Sample.circle
  | _ => Sample.typeOf Sample.options Sample.disc

theorem substitution_along_sampleChain :
    Chain sampleChain 2 ∧
      ∃ s, (Sample.typeOf Sample.options Sample.disc).vtable.slots[0]? = some s ∧ s.name = "area" ∧
        ∃ m ∈ (Sample.typeOf Sample.options Sample.circle).core.compiled, m.name = s.name ∧ s.entry = m.entry := by
  have hv : DraftValidator.attributeType ∈ Sample.options.validators.drafts := by
    simp [Sample.options, ValidationConfig.validators]
  have hchain : Chain sampleChain 2 := by
    refine ⟨Sample.finished_shape, fun k hk => ?_⟩
    obtain rfl | rfl : k = 0 ∨ k = 1 := by omega
    · exact ⟨Sample.circle, Sample.options, rfl, hv, rfl, Sample.compile_circle⟩
    · exact ⟨Sample.disc, Sample.options, rfl, hv, rfl, Sample.compile_disc⟩
  have hnames : (Sample.typeOf Sample.options Sample.shape).vtable.slots.map VTableSlot.name = ["area"] := by
    decide +kernel
  obtain ⟨s₀, hs₀, hname₀⟩ := List.map_eq_singleton_iff.mp hnames
  have hfirst : (sampleChain 0).vtable.slots[0]? = some s₀ := by
    show (Sample.typeOf Sample.options Sample.shape).vtable.slots[0]? = some s₀
    rw [hs₀]
    rfl
  obtain ⟨s, hs, hagrees, hentry, -⟩ := (substitution_along_chain hchain).2.1 0 s₀ hfirst
  have hname : s.name = "area" := hagrees.name.trans hname₀
  -- the third class adds a method but does not define this one
  have hlast : LastDefines sampleChain 2 1 "area" := by
    refine ⟨by decide, by decide +kernel, fun j hj hj2 => ?_⟩
    obtain rfl : j = 2 := by omega
    decide +kernel
  exact ⟨hchain, s, hs, hname, hentry 1 (hname ▸ hlast)⟩

end NativeType

end NativeClass
