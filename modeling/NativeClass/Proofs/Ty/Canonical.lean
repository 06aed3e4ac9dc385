import Mathlib.Data.List.Pairwise
import NativeClass.Proofs.Ty.Subtyping
/-!
# Canonical types

* `Ty.EveryUnion`: every union that occurs in a type, at any depth, has members as required.
* `Ty.NoEmptyUnion`: no union in the type is empty.
* `Ty.Reduced`, `Ty.Canonical`: no union in the type could be written with fewer members.
* **`Ty.Reduced.not_forall_isSubtype`**: no member of a reduced union covers the others.
-/

namespace NativeClass.Ty

/-! ## The unions in a type -/

mutual

/-- The members of every union in the type, at any depth, are as required. -/
def EveryUnion (P : List Ty → Prop) : Ty → Prop
  | .list t | .set t => EveryUnion P t
  | .tuple ts => EveryUnions P ts
  | .dict k v => EveryUnion P k ∧ EveryUnion P v
  | .function ps r => EveryUnions P ps ∧ EveryUnion P r
  | .union ts => P ts ∧ EveryUnions P ts
  | _ => True

/-- The members of every union in the types of a list are as required. -/
def EveryUnions (P : List Ty → Prop) : List Ty → Prop
  | [] => True
  | t :: ts => EveryUnion P t ∧ EveryUnions P ts

end

mutual

/-- A requirement on every union in a type can be tested. -/
def decidableEveryUnion (P : List Ty → Prop) [DecidablePred P] : (t : Ty) → Decidable (EveryUnion P t)
  | .list t | .set t => decidableEveryUnion P t
  | .tuple ts => decidableEveryUnions P ts
  | .dict k v => @instDecidableAnd _ _ (decidableEveryUnion P k) (decidableEveryUnion P v)
  | .function ps r => @instDecidableAnd _ _ (decidableEveryUnions P ps) (decidableEveryUnion P r)
  | .union ts => @instDecidableAnd _ _ inferInstance (decidableEveryUnions P ts)
  | .any | .never | .noneType | .bool | .int | .float | .str | .bytes | .nominal _ => isTrue trivial

/-- A requirement on every union in the types of a list can be tested. -/
def decidableEveryUnions (P : List Ty → Prop) [DecidablePred P] :
    (ts : List Ty) → Decidable (EveryUnions P ts)
  | [] => isTrue trivial
  | t :: ts => @instDecidableAnd _ _ (decidableEveryUnion P t) (decidableEveryUnions P ts)

end

instance (P : List Ty → Prop) [DecidablePred P] : DecidablePred (EveryUnion P) := decidableEveryUnion P

variable {P Q : List Ty → Prop} {a t u w : Ty} {ts : List Ty}

theorem everyUnions_iff : EveryUnions P ts ↔ ∀ t ∈ ts, t.EveryUnion P := by
  induction ts with
  | nil => simp [EveryUnions]
  | cons t ts ih => rw [EveryUnions, ih, List.forall_mem_cons]

namespace EveryUnion

theorem list (h : (Ty.list t).EveryUnion P) : t.EveryUnion P := h

theorem set (h : (Ty.set t).EveryUnion P) : t.EveryUnion P := h

theorem tuple (h : (Ty.tuple ts).EveryUnion P) (ht : t ∈ ts) : t.EveryUnion P :=
  everyUnions_iff.mp h t ht

theorem param {r : Ty} (h : (Ty.function ts r).EveryUnion P) (ht : t ∈ ts) : t.EveryUnion P :=
  everyUnions_iff.mp h.1 t ht

theorem member (h : (Ty.union ts).EveryUnion P) (ht : t ∈ ts) : t.EveryUnion P :=
  everyUnions_iff.mp h.2 t ht

theorem mono (hPQ : ∀ ts, P ts → Q ts) : ∀ {a : Ty}, a.EveryUnion P → a.EveryUnion Q
  | .list t, h => mono hPQ (a := t) h.list
  | .set t, h => mono hPQ (a := t) h.set
  | .tuple _, h => everyUnions_iff.mpr fun _ ht => mono hPQ (h.tuple ht)
  | .dict _ _, h => ⟨mono hPQ h.1, mono hPQ h.2⟩
  | .function _ _, h => ⟨everyUnions_iff.mpr fun _ ht => mono hPQ (h.param ht), mono hPQ h.2⟩
  | .union _, h => ⟨hPQ _ h.1, everyUnions_iff.mpr fun _ ht => mono hPQ (h.member ht)⟩
  | .any, _ | .never, _ | .noneType, _ | .bool, _ | .int, _ | .float, _ | .str, _ | .bytes, _
  | .nominal _, _ => trivial

end EveryUnion

/-- No union in the type is empty. -/
def NoEmptyUnion : Ty → Prop :=
  EveryUnion (· ≠ [])

/-! ## Reduced unions -/

/-- The type may stand among the members of a reduced union. -/
def isPlain : Ty → Bool
  | .any | .never | .union _ => false
  | _ => true

theorem not_isUnion_of_isPlain (h : t.isPlain) : ¬ t.isUnion := by
  cases t <;> simp_all [isPlain, isUnion]

/-- The members of a union that could not be written with fewer of them. -/
structure Reduced (ts : List Ty) : Prop where
  two_le : 2 ≤ ts.length
  plain : ∀ t ∈ ts, t.isPlain
  incomparable : ts.Pairwise fun a b => ¬ a.isSubtype b ∧ ¬ b.isSubtype a

/-- Every union in the type is reduced. -/
def Canonical : Ty → Prop :=
  EveryUnion Reduced

instance : DecidablePred Reduced := fun ts =>
  decidable_of_iff (2 ≤ ts.length ∧ (∀ t ∈ ts, t.isPlain) ∧
      ts.Pairwise fun a b => ¬ a.isSubtype b ∧ ¬ b.isSubtype a)
    ⟨fun h => ⟨h.1, h.2.1, h.2.2⟩, fun h => ⟨h.two_le, h.plain, h.incomparable⟩⟩

instance : DecidablePred NoEmptyUnion := inferInstanceAs (DecidablePred (EveryUnion (· ≠ [])))

instance : DecidablePred Canonical := inferInstanceAs (DecidablePred (EveryUnion Reduced))

namespace Reduced

theorem ne_nil (h : Reduced ts) : ts ≠ [] := by
  rintro rfl
  exact absurd h.two_le (by decide)

theorem nodup (h : Reduced ts) : ts.Nodup :=
  h.incomparable.imp fun {a b} hne (he : a = b) => hne.1 (he ▸ isSubtype_refl a)

theorem eq_of_isSubtype (h : Reduced ts) (ht : t ∈ ts) (hu : u ∈ ts) (htu : t.isSubtype u) : u = t := by
  have : Std.Symm fun a b : Ty => ¬ a.isSubtype b ∧ ¬ b.isSubtype a := ⟨fun _ _ => And.symm⟩
  by_contra hne
  exact (h.incomparable.forall ht hu (Ne.symm hne)).1 htu

/-- **No member of a reduced union covers the others.** -/
theorem not_forall_isSubtype (h : Reduced ts) (hw : w ∈ ts) : ¬ ∀ t ∈ ts, t.isSubtype w := by
  intro hall
  obtain ⟨i, hi, rfl⟩ := List.mem_iff_getElem.mp hw
  have hlen := h.two_le
  have hpair := List.pairwise_iff_getElem.mp h.incomparable
  by_cases hzero : i = 0
  · have hlt : i < 1 := by omega
    exact (hpair i 1 hi (by omega) hlt).2 (hall _ (List.getElem_mem _))
  · exact (hpair 0 i (by omega) hi (by omega)).1 (hall _ (List.getElem_mem _))

end Reduced

theorem Canonical.noEmptyUnion (h : a.Canonical) : a.NoEmptyUnion :=
  EveryUnion.mono (fun _ => Reduced.ne_nil) h

end NativeClass.Ty
