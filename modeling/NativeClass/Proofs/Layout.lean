import Mathlib.Data.List.Pairwise
import NativeClass.Layout.Basic
import NativeClass.Proofs.Table
/-!
# The theory of layouts

* `Layout.prefix_slotsFrom`: attributes added at the end leave the slots of the others as they are.
* `Layout.extents_slotsFrom`: offsets and sizes depend on the native sizes of the attributes only.
* **`Layout.descriptors_ofTable`**: the accessors of a layout are those of its slots, in slot order.
* `Layout.sameSizes_of_sameExtents`, **`Layout.sameExtents_of_sameSizes`**: attributes of the same places have
  the same native sizes, and conversely if the names of one table begin with those of the other one.
* **`Layout.bounds_descriptors`**, **`Layout.disjoint_descriptors`**: attributes lie behind the header, within
  the instance, and do not overlap.
-/

namespace NativeClass.Layout

variable {t t' : Table Ty} {name : String}

/-! ## Slots in table order -/

theorem map_name_slotsFrom (offset index : Nat) (xs : List (String × Ty)) :
    (slotsFrom offset index xs).map Slot.name = xs.map Prod.fst := by
  induction xs generalizing offset index with
  | nil => rfl
  | cons x xs ih => rw [slotsFrom, List.map_cons, List.map_cons, ih]

theorem slotsFrom_append (offset index : Nat) (xs ys : List (String × Ty)) :
    slotsFrom offset index xs <+: slotsFrom offset index (xs ++ ys) := by
  induction xs generalizing offset index with
  | nil => exact List.nil_prefix
  | cons x xs ih =>
    rw [List.cons_append, slotsFrom, slotsFrom]
    exact (List.prefix_cons_inj _).mpr (ih _ _)

theorem prefix_slotsFrom {offset index : Nat} {xs ys : List (String × Ty)} (h : xs <+: ys) :
    slotsFrom offset index xs <+: slotsFrom offset index ys := by
  obtain ⟨rest, rfl⟩ := h
  exact slotsFrom_append offset index xs rest

theorem map_name_attributes (t : Table Ty) : (attributes t).map Prod.fst = t.names := by
  simp [attributes, Table.names, OrderedMap.keys, Function.comp_def]

theorem map_name_slots (t : Table Ty) : (ofTable t).slots.map Slot.name = t.names :=
  (map_name_slotsFrom _ _ _).trans (map_name_attributes t)

theorem nodup_name_slots (t : Table Ty) : ((ofTable t).slots.map Slot.name).Nodup := by
  rw [map_name_slots]
  exact t.nodup_names

theorem slot?_eq_some_iff {s : Slot} :
    (ofTable t).slot? name = some s ↔ s ∈ (ofTable t).slots ∧ s.name = name :=
  find?_key_eq_some_iff Slot.name (nodup_name_slots t)

theorem exists_slot?_of_mem (h : name ∈ t.names) : ∃ s, (ofTable t).slot? name = some s := by
  rw [← map_name_slots, List.mem_map] at h
  obtain ⟨s, hs, hname⟩ := h
  exact ⟨s, slot?_eq_some_iff.mpr ⟨hs, hname⟩⟩

theorem prefix_attributes (hn : t.names <+: t'.names)
    (hv : ∀ name ty, t.get? name = some ty → t'.get? name = some ty) : attributes t <+: attributes t' := by
  refine @OrderedMap.prefix_entries Ty (t.entries.mapValues Entry.value)
    (t'.entries.mapValues Entry.value) ?_ fun k hk => ?_
  · rwa [OrderedMap.keys_mapValues, OrderedMap.keys_mapValues]
  · rw [OrderedMap.keys_mapValues] at hk
    obtain ⟨ty, hty⟩ := Table.exists_get?_of_mem_names hk
    rw [OrderedMap.get?_mapValues, OrderedMap.get?_mapValues]
    exact (hv k ty hty).trans hty.symm

/-- A table that begins with another one, with the same types, has a layout that begins with its slots. -/
theorem prefix_slots (hn : t.names <+: t'.names)
    (hv : ∀ name ty, t.get? name = some ty → t'.get? name = some ty) :
    (ofTable t).slots <+: (ofTable t').slots :=
  prefix_slotsFrom (prefix_attributes hn hv)

/-! ## Accessors -/

/-- **The accessors are those of the slots, in slot order.** -/
theorem descriptors_ofTable (t : Table Ty) :
    (ofTable t).descriptors = (ofTable t).slots.map Slot.descriptor := by
  unfold descriptors
  rw [← List.filterMap_eq_map]
  refine List.filterMap_congr fun s hs => ?_
  rw [descriptor?, slot?_eq_some_iff.mpr ⟨hs, rfl⟩]
  rfl

theorem find?_descriptors (t : Table Ty) (name : String) :
    (ofTable t).descriptors.find? (·.name = name) = ((ofTable t).slot? name).map Slot.descriptor := by
  rw [descriptors_ofTable, List.find?_map]
  rfl

/-! ## Places -/

/-- The place of a slot: its first byte and its size. -/
def extent (s : Slot) : Nat × Nat :=
  (s.offset, s.size)

/-- The places of slots of the given sizes, none of them below `offset`. -/
def extentsFrom (offset : Nat) : List Nat → List (Nat × Nat)
  | [] => []
  | size :: sizes =>
    let start := alignUp offset size
    (start, size) :: extentsFrom (start + size) sizes

theorem nativeAlign_eq_nativeSize (ty : Ty) : ty.nativeAlign = ty.nativeSize := by
  cases ty <;> rfl

/-- Places depend on the native sizes only: every type is aligned to its size. -/
theorem extents_slotsFrom (offset index : Nat) (xs : List (String × Ty)) :
    (slotsFrom offset index xs).map extent = extentsFrom offset (xs.map fun x => x.2.nativeSize) := by
  induction xs generalizing offset index with
  | nil => rfl
  | cons x xs ih =>
    rw [slotsFrom, List.map_cons, List.map_cons, ih, extentsFrom, nativeAlign_eq_nativeSize]
    rfl

theorem extentsFrom_append (offset : Nat) (sizes rest : List Nat) :
    extentsFrom offset sizes <+: extentsFrom offset (sizes ++ rest) := by
  induction sizes generalizing offset with
  | nil => exact List.nil_prefix
  | cons size sizes ih =>
    rw [List.cons_append, extentsFrom, extentsFrom]
    exact (List.prefix_cons_inj _).mpr (ih _)

theorem prefix_extentsFrom {offset : Nat} {xs ys : List Nat} (h : xs <+: ys) :
    extentsFrom offset xs <+: extentsFrom offset ys := by
  obtain ⟨rest, rfl⟩ := h
  exact extentsFrom_append offset xs rest

/-- The native sizes of the attributes of a table, in order. -/
def sizes (t : Table Ty) : List Nat :=
  (t.entries.mapValues fun e => e.value.nativeSize).values

theorem extents_slots (t : Table Ty) :
    (ofTable t).slots.map extent = extentsFrom attributesOffset (sizes t) := by
  rw [ofTable, extents_slotsFrom]
  simp [attributes, sizes, OrderedMap.values, OrderedMap.mapValues, Function.comp_def]

theorem mem_slotsFrom {offset index : Nat} {xs : List (String × Ty)} {s : Slot}
    (h : s ∈ slotsFrom offset index xs) : (s.name, s.ty) ∈ xs ∧ s.size = s.ty.nativeSize := by
  induction xs generalizing offset index with
  | nil => simp [slotsFrom] at h
  | cons x xs ih =>
    rw [slotsFrom, List.mem_cons] at h
    rcases h with rfl | h
    · exact ⟨List.mem_cons_self, rfl⟩
    · obtain ⟨hmem, hsize⟩ := ih h
      exact ⟨List.mem_cons_of_mem x hmem, hsize⟩

theorem get?_of_slot? {s : Slot} (h : (ofTable t).slot? name = some s) :
    t.get? name = some s.ty ∧ s.size = s.ty.nativeSize := by
  obtain ⟨hs, rfl⟩ := slot?_eq_some_iff.mp h
  obtain ⟨hmem, hsize⟩ := mem_slotsFrom hs
  obtain ⟨⟨k, e⟩, he, heq⟩ := List.mem_map.mp hmem
  obtain ⟨rfl, hty⟩ := Prod.mk.inj heq
  exact ⟨Table.get?_eq_some_iff.mpr ⟨e, OrderedMap.get?_eq_some_iff.mpr he, hty⟩, hsize⟩

/-- Every attribute of the first table has the same native size in the second one. -/
def SameSizes (t t' : Table Ty) : Prop :=
  ∀ name ty, t.get? name = some ty → ∃ ty', t'.get? name = some ty' ∧ ty'.nativeSize = ty.nativeSize

/-- Every attribute of the first table has the same first byte and the same size in the layout of the
second one. -/
def SameExtents (l l' : Layout) : Prop :=
  ∀ name s, l.slot? name = some s → ∃ s', l'.slot? name = some s' ∧ extent s' = extent s

theorem prefix_sizes (hn : t.names <+: t'.names) (hs : SameSizes t t') : sizes t <+: sizes t' := by
  refine List.IsPrefix.map Prod.snd (OrderedMap.prefix_entries ?_ fun k hk => ?_)
  · rwa [OrderedMap.keys_mapValues, OrderedMap.keys_mapValues]
  · rw [OrderedMap.keys_mapValues] at hk
    obtain ⟨e, he⟩ := OrderedMap.exists_get?_of_mem_keys hk
    obtain ⟨ty', hty', hsize⟩ := hs k e.value (Table.get?_eq_some_iff.mpr ⟨e, he, rfl⟩)
    obtain ⟨e', he', rfl⟩ := Table.get?_eq_some_iff.mp hty'
    rw [OrderedMap.get?_mapValues, OrderedMap.get?_mapValues, he, he', Option.map_some,
      Option.map_some, hsize]

theorem sameSizes_of_sameExtents (h : SameExtents (ofTable t) (ofTable t')) : SameSizes t t' := by
  intro name ty hty
  obtain ⟨s, hs⟩ := exists_slot?_of_mem (Table.mem_names_of_get? hty)
  obtain ⟨s', hs', hext⟩ := h name s hs
  obtain ⟨hget, hsize⟩ := get?_of_slot? hs
  obtain ⟨hget', hsize'⟩ := get?_of_slot? hs'
  rw [hty, Option.some.injEq] at hget
  refine ⟨s'.ty, hget', ?_⟩
  rw [← hsize', hget, ← hsize]
  exact congrArg Prod.snd hext

/-- **If the names of a table begin with those of another one, attributes of the same native sizes have the
same places in both layouts.** -/
theorem sameExtents_of_sameSizes (hn : t.names <+: t'.names) (h : SameSizes t t') :
    SameExtents (ofTable t) (ofTable t') := by
  intro name s hs
  obtain ⟨hmem, rfl⟩ := slot?_eq_some_iff.mp hs
  obtain ⟨i, hi⟩ := List.mem_iff_getElem?.mp hmem
  have hname : t'.names[i]? = some s.name := by
    refine getElem?_of_prefix hn ?_
    rw [← map_name_slots, List.getElem?_map, hi, Option.map_some]
  have hext : ((ofTable t').slots.map extent)[i]? = some (extent s) := by
    rw [extents_slots]
    refine getElem?_of_prefix (prefix_extentsFrom (prefix_sizes hn h)) ?_
    rw [← extents_slots, List.getElem?_map, hi, Option.map_some]
  rw [List.getElem?_map, Option.map_eq_some_iff] at hext
  obtain ⟨s', hi', hext⟩ := hext
  rw [← map_name_slots, List.getElem?_map, hi', Option.map_some, Option.some.injEq] at hname
  exact ⟨s', slot?_eq_some_iff.mpr ⟨List.mem_of_getElem? hi', hname⟩, hext⟩

/-! ## Room for every attribute -/

theorem le_alignUp {offset align : Nat} (h : 0 < align) : offset ≤ alignUp offset align := by
  have hlt := @Nat.lt_div_mul_add (offset + align - 1) align h
  unfold alignUp
  omega

theorem nativeAlign_pos (ty : Ty) : 0 < ty.nativeAlign := by
  cases ty <;> simp [Ty.nativeAlign]

theorem le_offset_slotsFrom {offset index : Nat} {xs : List (String × Ty)} {s : Slot}
    (h : s ∈ slotsFrom offset index xs) : offset ≤ s.offset := by
  induction xs generalizing offset index with
  | nil => cases h
  | cons x xs ih =>
    have hstart := @le_alignUp offset _ (nativeAlign_pos x.2)
    rw [slotsFrom, List.mem_cons] at h
    rcases h with rfl | h
    · exact hstart
    · exact Nat.le_trans hstart (Nat.le_of_add_right_le (ih h))

/-- Every slot begins where the ones before it have ended. -/
theorem pairwise_slotsFrom (offset index : Nat) (xs : List (String × Ty)) :
    (slotsFrom offset index xs).Pairwise fun s s' => s.stop ≤ s'.offset := by
  induction xs generalizing offset index with
  | nil => exact .nil
  | cons x xs ih =>
    rw [slotsFrom]
    exact .cons (fun s hs => le_offset_slotsFrom hs) (ih _ _)

/-- The slots do not overlap. -/
def Apart (s s' : Slot) : Prop :=
  s.stop ≤ s'.offset ∨ s'.stop ≤ s.offset

instance : Std.Symm Apart := ⟨fun _ _ => Or.symm⟩

theorem pairwise_apart_slots (t : Table Ty) : (ofTable t).slots.Pairwise Apart :=
  (pairwise_slotsFrom attributesOffset 0 (attributes t)).imp Or.inl

theorem stop_le_stopOf {slots : List Slot} (h : slots.Pairwise fun s s' => s.stop ≤ s'.offset) {s : Slot}
    (hs : s ∈ slots) : s.stop ≤ stopOf slots := by
  obtain ⟨last, init, rfl⟩ : ∃ last init, slots = init ++ [last] :=
    ⟨_, _, (List.dropLast_concat_getLast (List.ne_nil_of_mem hs)).symm⟩
  have hstop : stopOf (init ++ [last]) = last.stop := by simp [stopOf]
  rw [hstop]
  rcases List.mem_append.mp hs with hinit | hlast
  · have hle := (List.pairwise_append.mp h).2.2 s hinit last List.mem_cons_self
    exact Nat.le_trans hle (Nat.le_add_right _ _)
  · exact Nat.le_of_eq (congrArg Slot.stop (List.mem_singleton.mp hlast))

theorem attributesOffset_le_stopOf (index : Nat) (xs : List (String × Ty)) :
    attributesOffset ≤ stopOf (slotsFrom attributesOffset index xs) := by
  cases hslots : slotsFrom attributesOffset index xs with
  | nil => exact Nat.le_refl _
  | cons s rest =>
    have hs : s ∈ slotsFrom attributesOffset index xs := hslots ▸ List.mem_cons_self
    rw [← hslots]
    calc attributesOffset ≤ s.offset := le_offset_slotsFrom hs
      _ ≤ s.stop := Nat.le_add_right _ _
      _ ≤ _ := stop_le_stopOf (pairwise_slotsFrom _ _ _) hs

theorem attributesOffset_le_instanceSize (t : Table Ty) : attributesOffset ≤ (ofTable t).instanceSize :=
  Nat.le_trans (attributesOffset_le_stopOf 0 _) (le_alignUp (by decide))

variable {d d' : Descriptor}

theorem exists_slot_of_mem_descriptors (hd : d ∈ (ofTable t).descriptors) :
    ∃ s ∈ (ofTable t).slots, s.descriptor = d ∧ s.stop = d.offset + d.ty.nativeSize := by
  rw [descriptors_ofTable, List.mem_map] at hd
  obtain ⟨s, hs, rfl⟩ := hd
  exact ⟨s, hs, rfl, congrArg (s.offset + ·) (mem_slotsFrom hs).2⟩

/-- **Every attribute lies behind the header and within the instance.** -/
theorem bounds_descriptors (hd : d ∈ (ofTable t).descriptors) :
    attributesOffset ≤ d.offset ∧ d.offset + d.ty.nativeSize ≤ (ofTable t).instanceSize := by
  obtain ⟨s, hs, rfl, hstop⟩ := exists_slot_of_mem_descriptors hd
  refine ⟨le_offset_slotsFrom hs, ?_⟩
  rw [← hstop]
  exact Nat.le_trans (stop_le_stopOf (pairwise_slotsFrom _ _ _) hs) (le_alignUp (by decide))

/-- **Different attributes do not overlap.** -/
theorem disjoint_descriptors (hd : d ∈ (ofTable t).descriptors) (hd' : d' ∈ (ofTable t).descriptors)
    (hne : d ≠ d') :
    d.offset + d.ty.nativeSize ≤ d'.offset ∨ d'.offset + d'.ty.nativeSize ≤ d.offset := by
  obtain ⟨s, hs, rfl, hstop⟩ := exists_slot_of_mem_descriptors hd
  obtain ⟨s', hs', rfl, hstop'⟩ := exists_slot_of_mem_descriptors hd'
  rw [← hstop, ← hstop']
  exact (pairwise_apart_slots t).forall hs hs' fun heq => hne (congrArg Slot.descriptor heq)

theorem nodup_name_descriptors (t : Table Ty) : ((ofTable t).descriptors.map Descriptor.name).Nodup := by
  rw [descriptors_ofTable, List.map_map]
  exact nodup_name_slots t

theorem eq_of_name_eq (hd : d ∈ (ofTable t).descriptors) (hd' : d' ∈ (ofTable t).descriptors)
    (h : d.name = d'.name) : d = d' :=
  List.inj_on_of_nodup_map (nodup_name_descriptors t) hd hd' h

end NativeClass.Layout
