import NativeClass.Proofs.Ty.Canonical
/-!
# Subtyping is an order

* **`Ty.isSubtype_trans`**: subtyping is transitive on the types without empty unions.
* **`Ty.isSubtype_antisymm`**: canonical types that are subtypes of each other are equal.
* **`Ty.isSubtype_order`**: both, and that every type is a subtype of itself.
-/

namespace NativeClass

namespace Ty

variable {a b : Ty} {as bs cs : List Ty}

/-! ## Transitivity -/

theorem exists_eq_union (h : a.isUnion) : ∃ ts, a = .union ts := by
  cases a <;> simp_all [isUnion]

theorem eq_any_of_any_isSubtype (hb : ¬ b.isUnion) (h : any.isSubtype b) : b = .any := by
  cases isSubtype_iff.mp h with
  | any | refl => rfl
  | member => exact absurd rfl hb

theorem eq_never_of_isSubtype_never (ha : ¬ a.isUnion) (h : a.isSubtype .never) : a = .never := by
  cases isSubtype_iff.mp h with
  | never | refl => rfl
  | union => exact absurd rfl ha

theorem forall₂_isSubtype_trans
    (htrans : ∀ a ∈ as, ∀ b ∈ bs, ∀ c ∈ cs, a.isSubtype b → b.isSubtype c → a.isSubtype c)
    (h : List.Forall₂ (fun a b => a.isSubtype b) as bs) (h' : List.Forall₂ (fun a b => a.isSubtype b) bs cs) :
    List.Forall₂ (fun a b => a.isSubtype b) as cs := by
  induction h generalizing cs with
  | nil => exact h'
  | cons hab _ ih =>
    obtain ⟨c, cs, hbc, htail, rfl⟩ := List.forall₂_cons_left_iff.mp h'
    refine .cons (htrans _ List.mem_cons_self _ List.mem_cons_self _ List.mem_cons_self hab hbc)
      (ih (fun a ha b hb c hc => ?_) htail)
    exact htrans a (List.mem_cons_of_mem _ ha) b (List.mem_cons_of_mem _ hb) c (List.mem_cons_of_mem _ hc)

/-- **Subtyping is transitive on the types without empty unions.** -/
theorem isSubtype_trans {a b c : Ty} (ha : a.NoEmptyUnion) (hb : b.NoEmptyUnion) (hc : c.NoEmptyUnion)
    (hab : a.isSubtype b) (hbc : b.isSubtype c) : a.isSubtype c := by
  -- The unions are taken apart from the right to the left, as the test does it.
  by_cases hcu : c.isUnion
  · obtain ⟨cs, rfl⟩ := exists_eq_union hcu
    rcases isSubtype_union_iff.mp hbc with rfl | rfl | ⟨w, hw, hbw⟩
    · obtain ⟨w, hw⟩ := List.exists_mem_of_ne_nil cs hc.1
      exact isSubtype_union_of_mem hw (isSubtype_trans ha hb (hc.member hw) hab (never_isSubtype w))
    · exact hab
    · exact isSubtype_union_of_mem hw (isSubtype_trans ha hb (hc.member hw) hab hbw)
  by_cases hbu : b.isUnion
  · obtain ⟨bs, rfl⟩ := exists_eq_union hbu
    rcases isSubtype_union_iff.mp hab with rfl | rfl | ⟨u, hu, hau⟩
    · exact never_isSubtype c
    · exact hbc
    · exact isSubtype_trans ha (hb.member hu) hc hau (isSubtype_of_union_isSubtype hbc hu)
  by_cases hau : a.isUnion
  · obtain ⟨as, rfl⟩ := exists_eq_union hau
    refine (union_isSubtype_iff_forall hcu).mpr fun t ht => ?_
    exact isSubtype_trans (ha.member ht) hb hc (isSubtype_of_union_isSubtype hab ht) hbc
  cases isSubtype_iff.mp hab with
  | any =>
    rw [eq_any_of_any_isSubtype hcu hbc]
    exact isSubtype_any a
  | never => exact never_isSubtype c
  | refl => exact hbc
  | member => exact absurd rfl hbu
  | union => exact absurd rfl hau
  | list h =>
    cases isSubtype_iff.mp hbc with
    | any => exact isSubtype_any _
    | refl => exact hab
    | member => exact absurd rfl hcu
    | list h' => exact isSubtype_iff.mpr (.list (isSubtype_trans ha.list hb.list hc.list h h'))
  | set h =>
    cases isSubtype_iff.mp hbc with
    | any => exact isSubtype_any _
    | refl => exact hab
    | member => exact absurd rfl hcu
    | set h' => exact isSubtype_iff.mpr (.set (isSubtype_trans ha.set hb.set hc.set h h'))
  | dict hk hv =>
    cases isSubtype_iff.mp hbc with
    | any => exact isSubtype_any _
    | refl => exact hab
    | member => exact absurd rfl hcu
    | dict hk' hv' =>
      exact isSubtype_iff.mpr
        (.dict (isSubtype_trans ha.1 hb.1 hc.1 hk hk') (isSubtype_trans ha.2 hb.2 hc.2 hv hv'))
  | tuple h =>
    cases isSubtype_iff.mp hbc with
    | any => exact isSubtype_any _
    | refl => exact hab
    | member => exact absurd rfl hcu
    | tuple h' =>
      refine isSubtype_iff.mpr (.tuple (forall₂_isSubtype_trans (fun a ham b hbm c hcm => ?_) h h'))
      have hsa := List.sizeOf_lt_of_mem ham
      have hsb := List.sizeOf_lt_of_mem hbm
      have hsc := List.sizeOf_lt_of_mem hcm
      exact isSubtype_trans (ha.tuple ham) (hb.tuple hbm) (hc.tuple hcm)
  | function hp hr =>
    cases isSubtype_iff.mp hbc with
    | any => exact isSubtype_any _
    | refl => exact hab
    | member => exact absurd rfl hcu
    | function hp' hr' =>
      refine isSubtype_iff.mpr (.function
        (forall₂_isSubtype_trans (fun c hcm b hbm a ham => ?_) hp' hp)
        (isSubtype_trans ha.2 hb.2 hc.2 hr hr'))
      have hsa := List.sizeOf_lt_of_mem ham
      have hsb := List.sizeOf_lt_of_mem hbm
      have hsc := List.sizeOf_lt_of_mem hcm
      exact isSubtype_trans (hc.param hcm) (hb.param hbm) (ha.param ham)
termination_by sizeOf a + sizeOf b + sizeOf c
decreasing_by
  all_goals subst_vars
  all_goals decreasing_tactic

/-! ## Antisymmetry -/

/-- A canonical union has no subtype above it but itself: one below all its members is below one of them. -/
theorem eq_union_of_isSubtype (ha : (union as).Canonical) (hb : b.NoEmptyUnion)
    (hab : (union as).isSubtype b) (hba : b.isSubtype (.union as)) : b = .union as := by
  by_contra hne
  obtain ⟨w, hw, hbw⟩ : ∃ w ∈ as, b.isSubtype w := by
    rcases isSubtype_union_iff.mp hba with rfl | he | hw
    · obtain ⟨w, hw⟩ := List.exists_mem_of_ne_nil as ha.1.ne_nil
      exact ⟨w, hw, never_isSubtype w⟩
    · exact absurd he hne
    · exact hw
  refine ha.1.not_forall_isSubtype hw fun t ht => ?_
  have hnonempty := ha.noEmptyUnion
  exact isSubtype_trans (hnonempty.member ht) hb (hnonempty.member hw) (isSubtype_of_union_isSubtype hab ht) hbw

theorem eq_of_forall₂_isSubtype
    (hantisymm : ∀ a ∈ as, ∀ b ∈ bs, a.isSubtype b → b.isSubtype a → a = b)
    (h : List.Forall₂ (fun a b => a.isSubtype b) as bs)
    (h' : List.Forall₂ (fun b a => b.isSubtype a) bs as) : as = bs := by
  induction h with
  | nil => rfl
  | cons hab _ ih =>
    rw [List.forall₂_cons] at h'
    rw [hantisymm _ List.mem_cons_self _ List.mem_cons_self hab h'.1]
    congr 1
    exact ih (fun a ha b hb => hantisymm a (List.mem_cons_of_mem _ ha) b (List.mem_cons_of_mem _ hb)) h'.2

/-- **Canonical types that are subtypes of each other are equal.** -/
theorem isSubtype_antisymm {a b : Ty} (ha : a.Canonical) (hb : b.Canonical) (hab : a.isSubtype b)
    (hba : b.isSubtype a) : a = b := by
  by_cases hau : a.isUnion
  · obtain ⟨as, rfl⟩ := exists_eq_union hau
    exact (eq_union_of_isSubtype ha hb.noEmptyUnion hab hba).symm
  by_cases hbu : b.isUnion
  · obtain ⟨bs, rfl⟩ := exists_eq_union hbu
    exact eq_union_of_isSubtype hb ha.noEmptyUnion hba hab
  cases isSubtype_iff.mp hab with
  | any => exact eq_any_of_any_isSubtype hau hba
  | never => exact (eq_never_of_isSubtype_never hbu hba).symm
  | refl => rfl
  | member => exact absurd rfl hbu
  | union => exact absurd rfl hau
  | list h =>
    cases isSubtype_iff.mp hba with
    | refl => rfl
    | list h' => rw [isSubtype_antisymm ha.list hb.list h h']
  | set h =>
    cases isSubtype_iff.mp hba with
    | refl => rfl
    | set h' => rw [isSubtype_antisymm ha.set hb.set h h']
  | dict hk hv =>
    cases isSubtype_iff.mp hba with
    | refl => rfl
    | dict hk' hv' => rw [isSubtype_antisymm ha.1 hb.1 hk hk', isSubtype_antisymm ha.2 hb.2 hv hv']
  | tuple h =>
    cases isSubtype_iff.mp hba with
    | refl => rfl
    | tuple h' =>
      refine congrArg tuple (eq_of_forall₂_isSubtype (fun a ham b hbm => ?_) h h')
      have hsa := List.sizeOf_lt_of_mem ham
      have hsb := List.sizeOf_lt_of_mem hbm
      exact isSubtype_antisymm (ha.tuple ham) (hb.tuple hbm)
  | function hp hr =>
    cases isSubtype_iff.mp hba with
    | refl => rfl
    | function hp' hr' =>
      rw [isSubtype_antisymm ha.2 hb.2 hr hr']
      refine congrArg (function · _) (eq_of_forall₂_isSubtype (fun a ham b hbm => ?_) hp' hp)
      have hsa := List.sizeOf_lt_of_mem ham
      have hsb := List.sizeOf_lt_of_mem hbm
      exact isSubtype_antisymm (ha.param ham) (hb.param hbm)
termination_by sizeOf a + sizeOf b
decreasing_by
  all_goals subst_vars
  all_goals decreasing_tactic

theorem Canonical.isSubtype_trans {c : Ty} (ha : a.Canonical) (hb : b.Canonical) (hc : c.Canonical)
    (hab : a.isSubtype b) (hbc : b.isSubtype c) : a.isSubtype c :=
  Ty.isSubtype_trans ha.noEmptyUnion hb.noEmptyUnion hc.noEmptyUnion hab hbc

/-- **Subtyping is an order**: reflexive, transitive where no union is empty, and antisymmetric on the
canonical types. -/
theorem isSubtype_order :
    (∀ a : Ty, a.isSubtype a) ∧
      (∀ a b c : Ty, a.NoEmptyUnion → b.NoEmptyUnion → c.NoEmptyUnion →
        a.isSubtype b → b.isSubtype c → a.isSubtype c) ∧
      ∀ a b : Ty, a.Canonical → b.Canonical → a.isSubtype b → b.isSubtype a → a = b :=
  ⟨isSubtype_refl, fun _ _ _ => isSubtype_trans, fun _ _ => isSubtype_antisymm⟩

end Ty

/-! ## Types of listeners -/

namespace Sample

open Ty

/-- A function that accepts everything. -/
def anyListener : Ty :=
  .function [.any] (.list .int)

def listener : Ty :=
  .function [.union [.list .int, .str]] (.list (.union [.int, .str]))

/-- A function with fewer arguments and more results, or none. -/
def maybeListener : Ty :=
  .union [.function [.list .int] (.list .any), .noneType]

end Sample

namespace Ty

open Sample

theorem isSubtype_order_listener :
    anyListener.isSubtype maybeListener ∧ ¬ maybeListener.isSubtype anyListener := by
  have hfirst : anyListener.isSubtype listener := by decide +kernel
  have hsecond : listener.isSubtype maybeListener := by decide +kernel
  have htrans := isSubtype_order.2.1 anyListener listener maybeListener (by decide +kernel)
    (by decide +kernel) (by decide +kernel) hfirst hsecond
  refine ⟨htrans, fun hback => ?_⟩
  have heq := isSubtype_order.2.2 anyListener maybeListener (by decide +kernel) (by decide +kernel) htrans hback
  exact absurd heq (by decide)

end Ty

end NativeClass
