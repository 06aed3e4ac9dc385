import NativeClass.Proofs.Ty.Admission
/-!
# Narrower values in wider slots

A slot that takes a value should take each subtype of the value, and so should every wider slot. It does, with one
exception: an integer or a boolean that `float` takes only by widening. The test widens into the slot `float` itself,
and a union is another slot, also if `float` is one of its members.

* `Ty.WidensInside`: a union that could take a number by widening it into a member.
* **`Ty.isAssignableFrom_wider_iff`**: the wider slot takes the narrower value except in this case.
* `Ty.isAssignableFrom_not_wider`: `float | None` does not take the integers that `float` takes.
-/

namespace NativeClass

namespace Ty

variable {a b t slot slot' value value' : Ty} {promote : Bool}

/-! ## Numbers in a subtype relation -/

/-- Above a number there is no other type that may be a member of a union. -/
theorem eq_of_number_isSubtype (ha : a = bool ∨ a = int ∨ a = float) (hplain : t.isPlain) (h : a.isSubtype t) :
    t = a := by
  rcases ha with rfl | rfl | rfl
  all_goals
    cases isSubtype_iff.mp h with
    | any | member => cases hplain
    | refl => rfl

/-- A union has the supertype of a number among its members only if it has the number itself. -/
theorem Canonical.number_isSubtype_union_iff {ts : List Ty} (h : (union ts).Canonical)
    (ha : a = bool ∨ a = int ∨ a = float) : a.isSubtype (.union ts) ↔ a ∈ ts := by
  refine ⟨fun hsub => ?_, fun hmem => isSubtype_union_of_mem hmem (isSubtype_refl a)⟩
  rcases isSubtype_union_iff.mp hsub with rfl | rfl | ⟨t, ht, hat⟩
  · simp at ha
  · simp at ha
  · exact eq_of_number_isSubtype ha (h.1.plain t ht) hat ▸ ht

/-! ## Wider slots -/

/-- The slot is a union that has the member `float`, and the value is an integer or a boolean, which is no member. -/
structure WidensInside (slot value : Ty) : Prop where
  number : value = int ∨ value = bool
  union : slot.isUnion
  float_mem : float ∈ slot.members
  value_notMem : value ∉ slot.members

theorem isAssignableFrom_iff :
    slot.isAssignableFrom value promote ↔
      value.isSubtype slot ∨ promote ∧ slot = .float ∧ (value = .int ∨ value = .bool) := by
  simp [isAssignableFrom, and_assoc]

theorem WidensInside.not_isAssignableFrom (h : slot.WidensInside value) (hslot : slot.Canonical) :
    ¬ slot.isAssignableFrom value promote := by
  obtain ⟨ts, rfl⟩ := exists_eq_union h.union
  rw [isAssignableFrom_iff, hslot.number_isSubtype_union_iff (by have := h.number; tauto)]
  rintro (hmem | ⟨-, hfloat, -⟩)
  · exact h.value_notMem hmem
  · cases hfloat

/-- A number that `float` takes by widening is taken by a wider slot, if no member of a union has to widen it. -/
theorem isAssignableFrom_of_float_isSubtype (hslot : slot.Canonical) (hwide : float.isSubtype slot)
    (hvalue : value = .int ∨ value = .bool) (hinside : ¬ slot.WidensInside value) :
    slot.isAssignableFrom value true := by
  rw [isAssignableFrom_iff]
  cases isSubtype_iff.mp hwide with
  | any => exact Or.inl (isSubtype_any value)
  | refl => exact Or.inr ⟨rfl, rfl, hvalue⟩
  | @member _ _ ts ht h =>
    have hfloat : float ∈ ts := (hslot.number_isSubtype_union_iff (by tauto)).mp hwide
    have hmem : value ∈ ts := not_not.mp fun hnot => hinside ⟨hvalue, rfl, hfloat, hnot⟩
    exact Or.inl (isSubtype_union_of_mem hmem (isSubtype_refl value))

/-- **A wider slot takes every narrower value, except a number that is widened and that a union would have to widen
into its member `float`.** -/
theorem isAssignableFrom_wider_iff (hslot : slot.Canonical) (hslot' : slot'.Canonical) (hvalue : value.Canonical)
    (hvalue' : value'.Canonical) (h : slot.isAssignableFrom value promote) (hnarrow : value'.isSubtype value)
    (hwide : slot.isSubtype slot') :
    slot'.isAssignableFrom value' promote ↔ ¬ (promote ∧ slot = .float ∧ slot'.WidensInside value') := by
  constructor
  · rintro htakes ⟨-, -, hinside⟩
    exact hinside.not_isAssignableFrom hslot' htakes
  · intro hexcept
    rcases isAssignableFrom_iff.mp h with hsub | ⟨hp, rfl, hnumber⟩
    · have hsub' := hvalue'.isSubtype_trans hvalue hslot hnarrow hsub
      exact isAssignableFrom_iff.mpr (Or.inl (hvalue'.isSubtype_trans hslot hslot' hsub' hwide))
    · rcases hvalue'.eq_of_isSubtype_number (by tauto) hnarrow with rfl | rfl
      · exact isAssignableFrom_iff.mpr (Or.inl (never_isSubtype slot'))
      · rw [hp]
        exact isAssignableFrom_of_float_isSubtype hslot' hwide hnumber fun hinside => hexcept ⟨hp, rfl, hinside⟩

end Ty

namespace Sample

open Ty

/-- A function that accepts everything and returns no element. -/
def silentListener : Ty :=
  .function [.any] (.list .never)

/-- A reading that may be missing. -/
def optionalReading : Ty :=
  .union [.float, .noneType]

end Sample

namespace Ty

open Sample

theorem isAssignableFrom_wider_iff_listener :
    listener.isAssignableFrom anyListener true ∧ maybeListener.isAssignableFrom silentListener true ∧
      float.isAssignableFrom .int true ∧ ¬ optionalReading.isAssignableFrom .int true := by
  have hlistener : listener.isAssignableFrom anyListener true := by decide +kernel
  have hfloat : float.isAssignableFrom .int true := by decide +kernel
  refine ⟨hlistener, ?_, hfloat, ?_⟩
  · refine (isAssignableFrom_wider_iff (by decide +kernel) (by decide +kernel) (by decide +kernel) (by decide +kernel)
      hlistener (by decide +kernel) (by decide +kernel)).mpr ?_
    exact fun hexcept => nomatch hexcept.2.1
  · have hinside : optionalReading.WidensInside .int := {
      number := Or.inl rfl
      union := rfl
      float_mem := by decide +kernel
      value_notMem := by decide +kernel }
    intro htakes
    exact (isAssignableFrom_wider_iff (by decide +kernel) (by decide +kernel) (by decide +kernel) (by decide +kernel)
      hfloat (isSubtype_refl .int) (by decide +kernel)).mp htakes ⟨rfl, rfl, hinside⟩

/-- An integer that `float` takes is not taken by `float | None`. -/
theorem isAssignableFrom_not_wider :
    ¬ ∀ (slot slot' value value' : Ty) (promote : Bool), slot.Canonical → slot'.Canonical → value.Canonical →
      value'.Canonical → slot.isAssignableFrom value promote → value'.isSubtype value → slot.isSubtype slot' →
        slot'.isAssignableFrom value' promote := by
  intro h
  have htakes := h .float optionalReading .int .int true (by decide +kernel) (by decide +kernel) (by decide +kernel)
    (by decide +kernel) (by decide +kernel) (isSubtype_refl .int) (by decide +kernel)
  exact absurd htakes (by decide +kernel)

end Ty

end NativeClass
