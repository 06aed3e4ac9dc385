import NativeClass.Proofs.Layout
import NativeClass.Proofs.NativeType.Finished
/-!
# What a type keeps of the view of a base

The tables of all bases are merged into one, so a base does not always keep its places: names that earlier
bases brought stand before its own, and an attribute of another size moves those after it.

* `NativeType.KeepsSlots`, `NativeType.KeepsAttributes`: a type has the places that a base gives them.
* `NativeType.MergesInPlace`: the names of a base and those merged before it agree as far as both go.
* **`NativeType.base_view`**: when the places of a base are kept, whatever the engines do.
* **`NativeType.base_view_unstable`**: neither is kept in general.
-/

namespace NativeClass

open Compilation (Finishes)

/-- The place of a method in a dispatch table. -/
def VTable.index? (t : VTable) (name : String) : Option Nat :=
  t.slots.findIdx? (·.name == name)

namespace NativeType

variable {t b : NativeType} {before after : List NativeType}

/-- Every method of the base has the same slot in both dispatch tables. -/
def KeepsSlots (b t : NativeType) : Prop :=
  ∀ s ∈ b.vtable.slots, t.vtable.index? s.name = b.vtable.index? s.name

instance (b t : NativeType) : Decidable (b.KeepsSlots t) :=
  inferInstanceAs (Decidable (∀ s ∈ b.vtable.slots, t.vtable.index? s.name = b.vtable.index? s.name))

/-- Every attribute of the base has the same first byte and the same size in both layouts. -/
def KeepsAttributes (b t : NativeType) : Prop :=
  Layout.SameExtents b.layout t.layout

/-- The names of the base and those that the bases before it bring agree as far as both go. -/
def MergesInPlace {α : Type} (table : NativeType → Table α) (before : List NativeType) (b : NativeType) :
    Prop :=
  (table b).names <+: Draft.mergedNames table before ∨ Draft.mergedNames table before <+: (table b).names

theorem MergesInPlace.first {α : Type} (table : NativeType → Table α) (b : NativeType) :
    MergesInPlace table [] b :=
  Or.inr List.nil_prefix

/-- The types that any engines make, if the type factory assembles them as given. -/
def Assembled (t : NativeType) : Prop :=
  ∃ (c : BoundClass) (o : CompileOptions), o.backend.AssemblesAsGiven ∧ (c.compile o).result = .ok t

theorem Finished.assembled (h : t.Finished) : t.Assembled := by
  cases h with
  | @ofCompile c o _ ho bases result =>
    exact ⟨c, o, ho ▸ Backend.assemblesAsGiven_reference, result⟩

namespace Assembled

theorem exists_finishes (h : t.Assembled) : ∃ c i, Finishes c i t := by
  obtain ⟨c, o, ho, hresult⟩ := h
  obtain ⟨i, -, -, -, hi⟩ := BoundClass.compile_eq_ok ho hresult
  exact ⟨c, i, hi⟩

theorem index?_eq (h : t.Assembled) (name : String) : t.vtable.index? name = t.slotTypes.index? name := by
  obtain ⟨c, i, hi⟩ := h.exists_finishes
  have hkeys : t.slotTypes.entries.keys = t.vtable.slots.map VTableSlot.name := hi.map_name_slots.symm
  rw [Table.index?, OrderedMap.index?, hkeys, List.findIdx?_map]
  rfl

theorem keepsSlots_iff (h : t.Assembled) (hb : b.Assembled) :
    b.KeepsSlots t ↔ b.slotTypes.names <+: t.slotTypes.names := by
  obtain ⟨c, i, hi⟩ := hb.exists_finishes
  rw [← Table.index?_eq_iff, ← hi.map_name_slots, List.forall_mem_map]
  refine forall₂_congr fun s _ => ?_
  rw [h.index?_eq, hb.index?_eq]

theorem layout_eq (h : t.Assembled) : t.layout = .ofTable t.attributes := by
  obtain ⟨c, i, hi⟩ := h.exists_finishes
  exact hi.layout

end Assembled

/-! ## When places are kept -/

section Step

variable {c : BoundClass} {o : CompileOptions}

theorem prefix_iff_mergesInPlace (ho : o.backend.AssemblesAsGiven) (h : (c.compile o).result = .ok t)
    (hsplit : c.extensionBases = before ++ b :: after) :
    (b.slotTypes.names <+: t.slotTypes.names ↔ MergesInPlace NativeType.slotTypes before b) ∧
      (b.attributes.names <+: t.attributes.names ↔ MergesInPlace NativeType.attributes before b) := by
  obtain ⟨i, -, -, -, hi⟩ := BoundClass.compile_eq_ok ho h
  rw [hi.names_slotTypes, hi.names_attributes, hsplit]
  exact ⟨Draft.prefix_mergedNames_iff _ before after b _, Draft.prefix_mergedNames_iff _ before after b _⟩

/-- **When a type keeps the view of a base.** All methods of the base keep their slots exactly when its names
merge in place, and so do all attributes their positions. Attributes that keep their first bytes and sizes
have types of the same native sizes in both tables, and if they merge in place this is enough. The first base
always merges in place. -/
theorem base_view (ho : o.backend.AssemblesAsGiven) (hb : ∀ b ∈ c.extensionBases, b.Assembled)
    (h : (c.compile o).result = .ok t) (hsplit : c.extensionBases = before ++ b :: after) :
    (b.KeepsSlots t ↔ MergesInPlace NativeType.slotTypes before b) ∧
      ((∀ name ∈ b.attributes.names, t.attributes.index? name = b.attributes.index? name) ↔
        MergesInPlace NativeType.attributes before b) ∧
      (b.KeepsAttributes t → Layout.SameSizes b.attributes t.attributes) ∧
      (MergesInPlace NativeType.attributes before b →
        Layout.SameSizes b.attributes t.attributes → b.KeepsAttributes t) ∧
      (before = [] → MergesInPlace NativeType.slotTypes before b ∧
        MergesInPlace NativeType.attributes before b) := by
  have ht : t.Assembled := ⟨c, o, ho, h⟩
  have hbase : b.Assembled := hb b (hsplit ▸ List.mem_append_right before List.mem_cons_self)
  obtain ⟨hslots, hattributes⟩ := prefix_iff_mergesInPlace ho h hsplit
  rw [KeepsAttributes, ht.layout_eq, hbase.layout_eq]
  refine ⟨(ht.keepsSlots_iff hbase).trans hslots, Table.index?_eq_iff.trans hattributes,
    Layout.sameSizes_of_sameExtents,
    fun hmerge => Layout.sameExtents_of_sameSizes (hattributes.mpr hmerge), ?_⟩
  rintro rfl
  exact ⟨.first _ b, .first _ b⟩

end Step

end NativeType

/-! ## Places that are not kept -/

namespace Sample

/-- A second class without bases. -/
def brush : BoundClass :=
  classOf "Brush" [method "fill" [some .int] (some .bool)] []

/-- A class with two bases. -/
def picture : BoundClass :=
  classOf "Picture" [] [.extension (typeOf options shape), .extension (typeOf options brush)]

/-- A class that gives an inherited attribute a smaller type. -/
def narrow : BoundClass :=
  classOf "Narrow" [("x", .attr .bool)] [.extension (typeOf options shape)]

theorem compile_brush : (brush.compile options).result = .ok (typeOf options brush) :=
  compile_eq (by decide +kernel)

theorem compile_picture : (picture.compile options).result = .ok (typeOf options picture) :=
  compile_eq (by decide +kernel)

theorem compile_narrow : (narrow.compile .standard).result = .ok (typeOf .standard narrow) :=
  compile_eq (by decide +kernel)

theorem finished_bases_picture : ∀ b ∈ picture.extensionBases, b.Finished := by
  have hbrush : (typeOf options brush).Finished :=
    .ofCompile (c := brush) rfl (List.forall_mem_nil _) compile_brush
  exact List.forall_mem_cons.mpr ⟨finished_shape, List.forall_mem_singleton.mpr hbrush⟩

theorem not_keepsSlots_picture : ¬ (typeOf options brush).KeepsSlots (typeOf options picture) := by
  decide +kernel

theorem not_keepsAttributes_narrow :
    ¬ (typeOf options shape).KeepsAttributes (typeOf .standard narrow) := by
  intro h
  have hbase : ((typeOf options shape).layout.slot? "visible").map Layout.extent = some (32, 1) := by
    decide +kernel
  have hmoved : ((typeOf .standard narrow).layout.slot? "visible").map Layout.extent = some (25, 1) := by
    decide +kernel
  obtain ⟨s, hs, hextent⟩ := Option.map_eq_some_iff.mp hbase
  obtain ⟨s', hs', hextent'⟩ := h "visible" s hs
  rw [hs', Option.map_some, hextent', hextent] at hmoved
  cases hmoved

end Sample

namespace NativeType

open Sample

theorem base_view_picture :
    (typeOf options shape).KeepsSlots (typeOf options picture) ∧
      ¬ MergesInPlace NativeType.slotTypes [typeOf options shape] (typeOf options brush) := by
  have hb : ∀ b ∈ picture.extensionBases, b.Assembled :=
    fun b hmem => (finished_bases_picture b hmem).assembled
  have hfirst : picture.extensionBases = [] ++ typeOf options shape :: [typeOf options brush] := rfl
  have hsecond : picture.extensionBases = [typeOf options shape] ++ typeOf options brush :: [] := rfl
  have hshape := base_view Backend.assemblesAsGiven_reference hb compile_picture hfirst
  have hbrush := base_view Backend.assemblesAsGiven_reference hb compile_picture hsecond
  exact ⟨hshape.1.mpr (hshape.2.2.2.2 rfl).1, fun h => not_keepsSlots_picture (hbrush.1.mpr h)⟩

/-- Every finished type keeps something of each of its bases. -/
def KeepsEveryBase (Keeps : NativeType → NativeType → Prop) : Prop :=
  ∀ (c : BoundClass) (o : CompileOptions) (t : NativeType), o.backend = .reference →
    (∀ b ∈ c.extensionBases, b.Finished) → (c.compile o).result = .ok t →
      ∀ b ∈ c.extensionBases, Keeps b t

/-- **Neither slots nor attributes are kept in general.** A second base finds its slots taken, and a class may
give an inherited attribute a type of another size. -/
theorem base_view_unstable : ¬ KeepsEveryBase KeepsSlots ∧ ¬ KeepsEveryBase KeepsAttributes := by
  constructor
  · intro h
    have hmem : typeOf options brush ∈ picture.extensionBases := List.mem_cons_of_mem _ List.mem_cons_self
    exact not_keepsSlots_picture (h picture options _ rfl finished_bases_picture compile_picture _ hmem)
  · intro h
    have hmem : typeOf options shape ∈ narrow.extensionBases := List.mem_cons_self
    have hb : ∀ b ∈ narrow.extensionBases, b.Finished := List.forall_mem_singleton.mpr finished_shape
    exact not_keepsAttributes_narrow (h narrow .standard _ rfl hb compile_narrow _ hmem)

end NativeType

end NativeClass
