import Mathlib.Algebra.Order.Floor.Div
import NativeClass.Proofs.Layout
/-!
# Layouts are packed

An instance has no more padding than alignment asks for. Each attribute begins at the first place behind the one before
it that is aligned for its type, and the size of the instance is the first multiple of 8 behind the last one.

* **`Layout.isLeast_alignUp`**: the least aligned place that is not below an offset.
* `Layout.stopFrom`: where a run of slots that begins at an offset ends; `Layout.isLeast_offset_slotsFrom`: where each
  of them begins.
* **`Layout.packs_ofTable`**: the layout of a table (`Layout.Packs`).
-/

namespace NativeClass.Layout

variable {t : Table Ty} {s : Slot} {slots : List Slot} {offset index align i : Nat} {xs : List (String × Ty)}

/-! ## Alignment -/

theorem alignUp_eq_ceilDiv_mul (offset align : Nat) : alignUp offset align = (offset ⌈/⌉ align) * align := by
  rw [alignUp, Nat.ceilDiv_eq_add_pred_div]

theorem alignUp_le_mul_iff (h : 0 < align) {k : Nat} : alignUp offset align ≤ k * align ↔ offset ≤ k * align := by
  rw [alignUp_eq_ceilDiv_mul, Nat.mul_le_mul_right_iff h, ceilDiv_le_iff_le_mul h, Nat.mul_comm]

/-- **Rounding up gives the least multiple that is not below.** -/
theorem isLeast_alignUp (h : 0 < align) : IsLeast {n | align ∣ n ∧ offset ≤ n} (alignUp offset align) := by
  refine ⟨⟨Nat.dvd_mul_left _ _, le_alignUp h⟩, ?_⟩
  rintro n ⟨hdvd, hle⟩
  obtain ⟨k, rfl⟩ := hdvd
  rw [Nat.mul_comm] at hle ⊢
  exact (alignUp_le_mul_iff h).mpr hle

/-! ## Slots one behind another -/

/-- The first byte after slots that begin at an offset. -/
def stopFrom (offset : Nat) (slots : List Slot) : Nat :=
  (slots.getLast?.map Slot.stop).getD offset

theorem stopFrom_cons (offset : Nat) (s : Slot) (slots : List Slot) :
    stopFrom offset (s :: slots) = stopFrom s.stop slots := by
  cases h : slots.getLast? <;> simp [stopFrom, List.getLast?_cons, h]

theorem map_entry_slotsFrom (offset index : Nat) (xs : List (String × Ty)) :
    (slotsFrom offset index xs).map (fun s => (s.name, s.ty)) = xs := by
  induction xs generalizing offset index with
  | nil => rfl
  | cons x xs ih => rw [slotsFrom, List.map_cons, ih]

theorem index_of_getElem?_slotsFrom (h : (slotsFrom offset index xs)[i]? = some s) : s.index = index + i := by
  induction xs generalizing offset index i with
  | nil => cases h
  | cons x xs ih =>
    rw [slotsFrom] at h
    cases i with
    | zero =>
      cases h
      rfl
    | succ i => rw [ih h, Nat.add_assoc, Nat.add_comm 1]

/-- Each slot begins at the first place behind the one before it that the alignment of its type allows. -/
theorem isLeast_offset_slotsFrom (h : (slotsFrom offset index xs)[i]? = some s) :
    IsLeast {n | s.ty.nativeAlign ∣ n ∧ stopFrom offset ((slotsFrom offset index xs).take i) ≤ n} s.offset := by
  induction xs generalizing offset index i with
  | nil => cases h
  | cons x xs ih =>
    rw [slotsFrom] at h ⊢
    cases i with
    | zero =>
      cases h
      exact isLeast_alignUp (nativeAlign_pos x.2)
    | succ i =>
      rw [List.take_succ_cons, stopFrom_cons]
      exact ih h

/-! ## The layout of a table -/

/-- The layout has the attributes of a table in packed slots. -/
structure Packs (t : Table Ty) (l : Layout) : Prop where
  /-- There is one slot for each attribute, in table order. -/
  entries : l.slots.map (fun s => (s.name, s.ty)) = attributes t
  index : ∀ (i : Nat) (s : Slot), l.slots[i]? = some s → s.index = i
  size : ∀ s ∈ l.slots, s.size = s.ty.nativeSize
  /-- A slot begins at the first place behind the one before it that is aligned for its type. -/
  offset : ∀ (i : Nat) (s : Slot), l.slots[i]? = some s →
    IsLeast {n | s.ty.nativeAlign ∣ n ∧ stopOf (l.slots.take i) ≤ n} s.offset
  header : ∀ s ∈ l.slots, attributesOffset ≤ s.offset
  /-- No slot overlaps another one. -/
  apart : l.slots.Pairwise fun s s' => s.stop ≤ s'.offset
  instanceSize : IsLeast {n | 8 ∣ n ∧ stopOf l.slots ≤ n} l.instanceSize
  /-- Attributes that are appended to the table leave the slots as they are. -/
  appended : ∀ t', attributes t <+: attributes t' → l.slots <+: (ofTable t').slots

/-- **The layout of a table is packed.** -/
theorem packs_ofTable (t : Table Ty) : (ofTable t).Packs t where
  entries := map_entry_slotsFrom _ _ _
  index i s h := (index_of_getElem?_slotsFrom h).trans (Nat.zero_add i)
  size _ hs := (mem_slotsFrom hs).2
  offset _ _ h := isLeast_offset_slotsFrom h
  header _ hs := le_offset_slotsFrom hs
  apart := pairwise_slotsFrom _ _ _
  instanceSize := isLeast_alignUp (by decide)
  appended _ h := prefix_slotsFrom h

/-- Booleans stand side by side, and the next attribute of eight bytes waits for its alignment. -/
example : (ofTable (.ofOwn [("a", .bool), ("b", .bool), ("n", .int), ("c", .bool)])).slots.map extent =
    [(24, 1), (25, 1), (32, 8), (40, 1)] := by
  rfl

end NativeClass.Layout
