import NativeClass.Proofs.Ty.Admission
/-!
# Types whose only value is none

Below `noneType` there are `never` and unions of such types. Subtyping is transitive down there whatever unions
are made of, and a join is below `noneType` exactly if both sides are.

* `Ty.isSubtype_noneType_trans`: what is below such a type is such a type.
* `Ty.unionOf_isSubtype_noneType_iff`, `Ty.join_isSubtype_noneType_iff`: unions and joins of two types.
* **`Ty.joinAll?_isSubtype_noneType_iff`**: the join of a list.
-/

namespace NativeClass.Ty

variable {a b t T : Ty} {ts kept : List Ty} {promote : Bool}

theorem union_isSubtype_noneType_iff : (union ts).isSubtype .noneType ↔ ∀ t ∈ ts, t.isSubtype .noneType :=
  union_isSubtype_iff_forall Bool.false_ne_true

theorem isSubtype_noneType_of_isSubtype_never {a : Ty} (h : a.isSubtype .never) : a.isSubtype .noneType := by
  by_cases hau : a.isUnion
  · obtain ⟨ts, rfl⟩ := exists_eq_union hau
    refine union_isSubtype_noneType_iff.mpr fun t ht => ?_
    exact isSubtype_noneType_of_isSubtype_never (isSubtype_of_union_isSubtype h ht)
  · rw [eq_never_of_isSubtype_never hau h]
    exact never_isSubtype _
termination_by sizeOf a

theorem isSubtype_noneType_trans {a b : Ty} (hab : a.isSubtype b) (hb : b.isSubtype .noneType) :
    a.isSubtype .noneType := by
  -- subtyping is not transitive through unions in general, so this goes through the members of `b`
  by_cases hbu : b.isUnion
  · obtain ⟨ts, rfl⟩ := exists_eq_union hbu
    rcases isSubtype_union_iff.mp hab with rfl | rfl | ⟨t, ht, hat⟩
    · exact never_isSubtype _
    · exact hb
    · exact isSubtype_noneType_trans hat (isSubtype_of_union_isSubtype hb ht)
  · cases isSubtype_iff.mp hb with
    | refl => exact hab
    | never => exact isSubtype_noneType_of_isSubtype_never hab
    | union => exact absurd rfl hbu
termination_by sizeOf b

/-! ## Unions -/

theorem ofMembers_isSubtype_noneType_iff :
    (ofMembers ts).isSubtype .noneType ↔ ∀ t ∈ ts, t.isSubtype .noneType := by
  match ts with
  | [] => exact iff_of_true (never_isSubtype _) (List.forall_mem_nil _)
  | [t] => rw [ofMembers, List.forall_mem_singleton]
  | _ :: _ :: _ => exact union_isSubtype_noneType_iff

/-- A type that is left out is covered by one that is kept, so nothing is forgotten. -/
theorem forall_mem_absorb_iff :
    (∀ u ∈ absorb kept t, u.isSubtype .noneType) ↔
      (∀ k ∈ kept, k.isSubtype .noneType) ∧ t.isSubtype .noneType := by
  constructor
  · intro h
    refine ⟨fun k hk => ?_, ?_⟩
    · obtain ⟨w, hw, hkw⟩ := exists_mem_absorb t (Or.inl hk)
      exact isSubtype_noneType_trans hkw (h w hw)
    · obtain ⟨w, hw, htw⟩ := exists_mem_absorb t (Or.inr rfl)
      exact isSubtype_noneType_trans htw (h w hw)
  · rintro ⟨hkept, ht⟩ u hu
    rcases mem_of_mem_absorb hu with hu | rfl
    · exact hkept u hu
    · exact ht

theorem forall_mem_foldl_absorb_iff :
    (∀ u ∈ ts.foldl absorb kept, u.isSubtype .noneType) ↔
      (∀ k ∈ kept, k.isSubtype .noneType) ∧ ∀ t ∈ ts, t.isSubtype .noneType := by
  induction ts generalizing kept with
  | nil => exact (and_iff_left (List.forall_mem_nil _)).symm
  | cons t ts ih => rw [List.foldl_cons, ih, forall_mem_absorb_iff, List.forall_mem_cons, and_assoc]

theorem unionOf_isSubtype_noneType_iff :
    (unionOf ts).isSubtype .noneType ↔ ∀ t ∈ ts, t.isSubtype .noneType := by
  have hnone : ¬ noneType.isUnion := Bool.false_ne_true
  rw [unionOf, ofMembers_isSubtype_noneType_iff, forall_mem_foldl_absorb_iff, flatten_eq_flatMap,
    List.forall_mem_flatMap]
  exact (and_iff_right (List.forall_mem_nil _)).trans
    (forall₂_congr fun t _ => (isSubtype_iff_forall_members hnone).symm)

/-! ## Joins -/

theorem join_isSubtype_noneType_iff :
    (join a b promote).isSubtype .noneType ↔ a.isSubtype .noneType ∧ b.isSubtype .noneType := by
  unfold join
  split
  next hab => rw [hab, and_self]
  · split
    · simp [isSubtype]
    · simp [isSubtype]
    · rw [unionOf_isSubtype_noneType_iff, List.forall_mem_cons, List.forall_mem_singleton]

theorem foldl_join_isSubtype_noneType_iff :
    (ts.foldl (join · · promote) a).isSubtype .noneType ↔ ∀ t ∈ a :: ts, t.isSubtype .noneType := by
  induction ts generalizing a with
  | nil => rw [List.foldl_nil, List.forall_mem_singleton]
  | cons b ts ih =>
    rw [List.foldl_cons, ih, List.forall_mem_cons, List.forall_mem_cons, List.forall_mem_cons,
      join_isSubtype_noneType_iff, and_assoc]

/-- **The join of a list is below `noneType` exactly if all its types are**; that of no types is `noneType`. -/
theorem joinAll?_isSubtype_noneType_iff :
    ((joinAll? ts promote).getD .noneType).isSubtype .noneType ↔ ∀ t ∈ ts, t.isSubtype .noneType := by
  cases ts with
  | nil => exact iff_of_true (isSubtype_refl _) (List.forall_mem_nil _)
  | cons a ts => exact foldl_join_isSubtype_noneType_iff

theorem foldl_join_eq_noneType (h : ∀ t ∈ ts, t = .noneType) :
    ts.foldl (join · · promote) .noneType = .noneType := by
  induction ts with
  | nil => rfl
  | cons b ts ih =>
    obtain ⟨rfl, hts⟩ := List.forall_mem_cons.mp h
    have hjoin : join .noneType .noneType promote = .noneType := if_pos rfl
    rw [List.foldl_cons, hjoin]
    exact ih hts

theorem joinAll?_eq_noneType (h : ∀ t ∈ ts, t = .noneType) :
    (joinAll? ts promote).getD .noneType = .noneType := by
  cases ts with
  | nil => rfl
  | cons a ts =>
    obtain ⟨rfl, hts⟩ := List.forall_mem_cons.mp h
    exact foldl_join_eq_noneType hts

end NativeClass.Ty
