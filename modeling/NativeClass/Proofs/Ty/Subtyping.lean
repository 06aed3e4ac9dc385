import Mathlib.Data.List.Forall2
import NativeClass.Ty.Basic
/-!
# The cases of the subtype test

* `Ty.SubtypeCase`: what makes a type a subtype of another one.
* **`Ty.isSubtype_iff`**: the test succeeds exactly in these cases.
* **`Ty.union_isSubtype_iff`**: a union is below a type that is no union exactly when all its members are. It
  is below another union only if it is below one of its members.
-/

namespace NativeClass.Ty

variable {a b t : Ty} {ts us : List Ty}

/-- The type is a union. -/
def isUnion : Ty → Bool
  | .union _ => true
  | _ => false

/-- The alternatives of a type: the members of a union, none for `never`, else the type itself. -/
def members : Ty → List Ty
  | .never => []
  | .union ts => ts
  | t => [t]

/-! ## Lists of types -/

theorem isSubtypeOfAny_iff : isSubtypeOfAny a ts ↔ ∃ t ∈ ts, a.isSubtype t := by
  induction ts with
  | nil => simp [isSubtypeOfAny]
  | cons t ts ih => rw [isSubtypeOfAny, Bool.or_eq_true, ih, List.exists_mem_cons_iff]

theorem areSubtypesOf_iff : areSubtypesOf ts b ↔ ∀ t ∈ ts, t.isSubtype b := by
  induction ts with
  | nil => simp [areSubtypesOf]
  | cons t ts ih => rw [areSubtypesOf, Bool.and_eq_true, ih, List.forall_mem_cons]

theorem areSubtypes_iff : areSubtypes ts us ↔ List.Forall₂ (fun a b => a.isSubtype b) ts us := by
  induction ts generalizing us with
  | nil => cases us <;> simp [areSubtypes]
  | cons t ts ih =>
    cases us with
    | nil => simp [areSubtypes]
    | cons u us => rw [areSubtypes, Bool.and_eq_true, ih, List.forall₂_cons]

/-! ## The cases -/

/-- What makes a type a subtype of another one. -/
inductive SubtypeCase : Ty → Ty → Prop
  | any (a : Ty) : SubtypeCase a .any
  | never (b : Ty) : SubtypeCase .never b
  | refl (a : Ty) : SubtypeCase a a
  | member {a t : Ty} {ts : List Ty} (ht : t ∈ ts) (h : a.isSubtype t) : SubtypeCase a (.union ts)
  | union {b : Ty} {ts : List Ty} (hb : ¬ b.isUnion) (h : ∀ t ∈ ts, t.isSubtype b) :
    SubtypeCase (.union ts) b
  | list {a b : Ty} (h : a.isSubtype b) : SubtypeCase (.list a) (.list b)
  | set {a b : Ty} (h : a.isSubtype b) : SubtypeCase (.set a) (.set b)
  | dict {k v k' v' : Ty} (hk : k.isSubtype k') (hv : v.isSubtype v') : SubtypeCase (.dict k v) (.dict k' v')
  | tuple {ts us : List Ty} (h : List.Forall₂ (fun a b => a.isSubtype b) ts us) :
    SubtypeCase (.tuple ts) (.tuple us)
  | function {ps qs : List Ty} {r r' : Ty} (hp : List.Forall₂ (fun a b => a.isSubtype b) qs ps)
    (hr : r.isSubtype r') : SubtypeCase (.function ps r) (.function qs r')

/-- **The subtype test succeeds exactly in these cases.** -/
theorem isSubtype_iff : a.isSubtype b ↔ SubtypeCase a b := by
  constructor
  · intro h
    unfold isSubtype at h
    split_ifs at h with htop
    · rcases htop with rfl | rfl | rfl
      · exact .any a
      · exact .never b
      · exact .refl a
    · split at h
      · obtain ⟨t, ht, hsub⟩ := isSubtypeOfAny_iff.mp h
        exact .member ht hsub
      · next hb => exact .union (by cases b <;> simp_all [isUnion]) (areSubtypesOf_iff.mp h)
      · exact .list h
      · exact .set h
      · rw [Bool.and_eq_true] at h
        exact .dict h.1 h.2
      · exact .tuple (areSubtypes_iff.mp h)
      · rw [Bool.and_eq_true] at h
        exact .function (areSubtypes_iff.mp h.1) h.2
      · cases h
  · intro h
    unfold isSubtype
    split_ifs with htop
    · rfl
    · cases h with
      | any => simp at htop
      | never => simp at htop
      | refl => simp at htop
      | member ht h => exact isSubtypeOfAny_iff.mpr ⟨_, ht, h⟩
      | union hb h =>
        cases b with
        | union => exact absurd rfl hb
        | _ => exact areSubtypesOf_iff.mpr h
      | list h => exact h
      | set h => exact h
      | dict hk hv => simp [hk, hv]
      | tuple h => exact areSubtypes_iff.mpr h
      | function hp hr => simp [areSubtypes_iff.mpr hp, hr]

@[simp] theorem isSubtype_refl (a : Ty) : a.isSubtype a := isSubtype_iff.mpr (.refl a)

@[simp] theorem isSubtype_any (a : Ty) : a.isSubtype .any := isSubtype_iff.mpr (.any a)

@[simp] theorem never_isSubtype (b : Ty) : never.isSubtype b := isSubtype_iff.mpr (.never b)

/-! ## Unions -/

theorem isSubtype_union_of_mem (ht : t ∈ ts) (h : a.isSubtype t) : a.isSubtype (.union ts) :=
  isSubtype_iff.mpr (.member ht h)

theorem isSubtype_union_iff :
    a.isSubtype (.union ts) ↔ a = .never ∨ a = .union ts ∨ ∃ t ∈ ts, a.isSubtype t := by
  constructor
  · intro h
    cases isSubtype_iff.mp h with
    | never => exact Or.inl rfl
    | refl => exact Or.inr (Or.inl rfl)
    | member ht h => exact Or.inr (Or.inr ⟨_, ht, h⟩)
    | union hb => exact absurd rfl hb
  · rintro (rfl | rfl | ⟨t, ht, h⟩)
    · exact never_isSubtype _
    · exact isSubtype_refl _
    · exact isSubtype_union_of_mem ht h

theorem union_isSubtype_iff_forall (hb : ¬ b.isUnion) :
    (union ts).isSubtype b ↔ ∀ t ∈ ts, t.isSubtype b := by
  constructor
  · intro h
    cases isSubtype_iff.mp h with
    | any => exact fun t _ => isSubtype_any t
    | refl | member => exact absurd rfl hb
    | union _ h => exact h
  · exact fun h => isSubtype_iff.mpr (.union hb h)

theorem isSubtype_iff_forall_members (hb : ¬ b.isUnion) : a.isSubtype b ↔ ∀ u ∈ a.members, u.isSubtype b := by
  cases a with
  | never => exact iff_of_true (never_isSubtype b) (List.forall_mem_nil _)
  | union ts => exact union_isSubtype_iff_forall hb
  | _ => simp only [members, List.forall_mem_singleton]

theorem isSubtype_of_union_isSubtype {b : Ty} (h : (union ts).isSubtype b) (ht : t ∈ ts) : t.isSubtype b := by
  cases isSubtype_iff.mp h with
  | any => exact isSubtype_any t
  | refl => exact isSubtype_union_of_mem ht (isSubtype_refl t)
  | member hu hsub => exact isSubtype_union_of_mem hu (isSubtype_of_union_isSubtype hsub ht)
  | union _ hall => exact hall t ht
termination_by sizeOf b

/-- **A union is below a type that is no union exactly when all its members are; below a union that it differs
from, it is below one of its members too.** -/
theorem union_isSubtype_iff :
    (union ts).isSubtype b ↔ (∀ t ∈ ts, t.isSubtype b) ∧
      (b.isUnion → b = .union ts ∨ ∃ u ∈ b.members, (union ts).isSubtype u) := by
  constructor
  · intro h
    refine ⟨fun t ht => isSubtype_of_union_isSubtype h ht, fun hb => ?_⟩
    cases b with
    | union us =>
      rcases isSubtype_union_iff.mp h with hn | he | hu
      · cases hn
      · exact Or.inl he.symm
      · exact Or.inr hu
    | _ => cases hb
  · rintro ⟨hall, hunion⟩
    cases b with
    | union us =>
      rcases hunion rfl with he | hu
      · exact he ▸ isSubtype_refl _
      · exact isSubtype_union_iff.mpr (Or.inr (Or.inr hu))
    | _ => exact (union_isSubtype_iff_forall (by simp [isUnion])).mpr hall

/-- The members of a union may all be below another union although the union is not. -/
theorem union_not_isSubtype_reordered :
    ¬ ∀ (ts : List Ty) (b : Ty), (union ts).isSubtype b ↔ ∀ t ∈ ts, t.isSubtype b := by
  intro h
  have hmembers : ∀ t ∈ [int, str], t.isSubtype (.union [.str, .int]) := by decide +kernel
  have hunion : ¬ (union [.int, .str]).isSubtype (.union [.str, .int]) := by decide +kernel
  exact hunion ((h _ _).mpr hmembers)

end NativeClass.Ty
