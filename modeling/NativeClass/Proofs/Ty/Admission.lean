import NativeClass.Proofs.Ty.Union
/-!
# Storing a value alternative by alternative

The test whether a value may be stored compares whole types. It refuses a union that is stored into another
union, and an integer that is stored into a union with `float`, although each alternative of the value has a
place there. `Ty.Admits` compares the alternatives one by one, and the join of two types always admits both.

* `Ty.Admits`, `Ty.Covers`: every alternative of a value has a place in a slot.
* **`Ty.isAssignableFrom_iff_admits`**: for one alternative that is not widened this is the test.
* **`Ty.Admits.trans`**: a slot that admits another slot admits its values.
* **`Ty.admits_join_left`**, **`Ty.admits_join_right`**, `Ty.admits_of_joinAll?`: joins.
-/

namespace NativeClass.Ty

variable {a b slot mid value t T : Ty} {ts kept : List Ty} {promote : Bool}

/-- Every alternative of a value has a place in the slot. With `promote`, integers and booleans have one
wherever `float` has. -/
inductive Admits (slot : Ty) (promote : Bool) : Ty → Prop
  | subtype {value : Ty} (h : value.isSubtype slot) : Admits slot promote value
  | promoted {value : Ty} (hp : promote) (hv : value = .int ∨ value = .bool) (h : float.isSubtype slot) :
    Admits slot promote value
  | union {members : List Ty} (h : ∀ t ∈ members, Admits slot promote t) : Admits slot promote (.union members)

/-! ## The test and its alternatives -/

theorem Admits.refl (slot : Ty) : slot.Admits promote slot :=
  .subtype (isSubtype_refl slot)

theorem admits_of_isAssignableFrom (h : slot.isAssignableFrom value promote) : slot.Admits promote value := by
  rw [isAssignableFrom, Bool.or_eq_true] at h
  rcases h with h | h
  · exact .subtype h
  · simp only [Bool.and_eq_true, Bool.or_eq_true, decide_eq_true_eq] at h
    obtain ⟨⟨hp, rfl⟩, hv⟩ := h
    exact .promoted hp hv (isSubtype_refl _)

/-- A value that is no union is a subtype, or it is widened. -/
theorem Admits.cases_of_not_isUnion (h : slot.Admits promote value) (hv : ¬ value.isUnion) :
    value.isSubtype slot ∨ promote ∧ (value = .int ∨ value = .bool) ∧ float.isSubtype slot := by
  cases h with
  | subtype h => exact Or.inl h
  | promoted hp hv h => exact Or.inr ⟨hp, hv, h⟩
  | union => exact absurd rfl hv

/-- **For one alternative that is not widened into a part of a union the test says what is admitted.** -/
theorem isAssignableFrom_iff_admits (hv : ¬ value.isUnion)
    (hw : promote → value = .int ∨ value = .bool → slot = .float) :
    slot.isAssignableFrom value promote ↔ slot.Admits promote value := by
  refine ⟨admits_of_isAssignableFrom, fun h => ?_⟩
  rw [isAssignableFrom, Bool.or_eq_true]
  refine (h.cases_of_not_isUnion hv).imp_right ?_
  rintro ⟨hp, hnum, -⟩
  simp [hp, hw hp hnum, hnum]

/-- A slot has a place for a value. The value also passes the test itself, if it is known to have passed it, or if
it is one alternative that is not widened into a part of a union. -/
structure Covers (slot : Ty) (isChecked promote : Bool) (value : Ty) : Prop where
  admits : slot.Admits promote value
  fits : isChecked ∨ ¬ value.isUnion ∧ (promote → value = .int ∨ value = .bool → slot = .float) →
    slot.isAssignableFrom value promote

theorem Admits.covers {isChecked : Bool} (h : slot.Admits promote value)
    (hchecked : isChecked → slot.isAssignableFrom value promote) : slot.Covers isChecked promote value where
  admits := h
  fits
    | .inl hc => hchecked hc
    | .inr ⟨hunion, hwiden⟩ => (isAssignableFrom_iff_admits hunion hwiden).mpr h

theorem covers_of_isAssignableFrom {isChecked : Bool} (h : slot.isAssignableFrom value promote) :
    slot.Covers isChecked promote value :=
  (admits_of_isAssignableFrom h).covers fun _ => h

/-! ## Below a number -/

theorem eq_of_isSubtype_number (ha : ¬ a.isUnion) (hb : b = bool ∨ b = int ∨ b = float) (h : a.isSubtype b) :
    a = never ∨ a = b := by
  rcases hb with rfl | rfl | rfl
  all_goals
    cases isSubtype_iff.mp h with
    | never => exact Or.inl rfl
    | refl => exact Or.inr rfl
    | union => exact absurd rfl ha

/-- A canonical type below a number is that number or `never`. -/
theorem Canonical.eq_of_isSubtype_number (ha : a.Canonical) (hb : b = bool ∨ b = int ∨ b = float)
    (h : a.isSubtype b) : a = never ∨ a = b := by
  by_cases hunion : a.isUnion
  · obtain ⟨ts, rfl⟩ := exists_eq_union hunion
    have hall : ∀ t ∈ ts, t = b := fun t ht => by
      have hplain := ha.1.plain t ht
      refine (Ty.eq_of_isSubtype_number (not_isUnion_of_isPlain hplain) hb
        (isSubtype_of_union_isSubtype h ht)).resolve_left ?_
      rintro rfl
      cases hplain
    -- two members would both be this number
    obtain ⟨w, hw⟩ := List.exists_mem_of_ne_nil ts ha.1.ne_nil
    refine absurd (fun t ht => ?_) (ha.1.not_forall_isSubtype hw)
    rw [hall t ht, hall w hw]
    exact isSubtype_refl b
  · exact Ty.eq_of_isSubtype_number hunion hb h

/-! ## Admission is transitive -/

/-- One alternative of a value of an admitted type. -/
theorem Admits.of_isSubtype_of_not_isUnion (hs : slot.NoEmptyUnion) (hmid : mid.NoEmptyUnion)
    (hvalue : value.NoEmptyUnion) (h : slot.Admits promote mid) (hv : ¬ value.isUnion)
    (hsub : value.isSubtype mid) : slot.Admits promote value := by
  induction h with
  | subtype h => exact .subtype (isSubtype_trans hvalue hmid hs hsub h)
  | promoted hp hnum h =>
    rcases eq_of_isSubtype_number hv (by tauto) hsub with rfl | rfl
    · exact .subtype (never_isSubtype slot)
    · exact .promoted hp hnum h
  | union _ ih =>
    rcases isSubtype_union_iff.mp hsub with rfl | rfl | ⟨t, ht, hsub⟩
    · exact .subtype (never_isSubtype slot)
    · exact absurd rfl hv
    · exact ih t ht (hmid.member ht) hsub

theorem Admits.of_isSubtype (hs : slot.NoEmptyUnion) (hmid : mid.NoEmptyUnion) (h : slot.Admits promote mid) :
    ∀ {value : Ty}, value.NoEmptyUnion → value.isSubtype mid → slot.Admits promote value
  | .union _, hvalue, hsub => .union fun _ ht =>
    of_isSubtype hs hmid h (hvalue.member ht) (isSubtype_of_union_isSubtype hsub ht)
  | .any, hvalue, hsub | .never, hvalue, hsub | .noneType, hvalue, hsub | .bool, hvalue, hsub
  | .int, hvalue, hsub | .float, hvalue, hsub | .str, hvalue, hsub | .bytes, hvalue, hsub
  | .list _, hvalue, hsub | .tuple _, hvalue, hsub | .dict _ _, hvalue, hsub | .set _, hvalue, hsub
  | .function _ _, hvalue, hsub | .nominal _, hvalue, hsub =>
    h.of_isSubtype_of_not_isUnion hs hmid hvalue nofun hsub

/-- **A slot that admits another slot admits its values.** -/
theorem Admits.trans (hs : slot.NoEmptyUnion) (hmid : mid.NoEmptyUnion) (hvalue : value.NoEmptyUnion)
    (h : slot.Admits promote mid) (h' : mid.Admits promote value) : slot.Admits promote value := by
  induction h' with
  | subtype hsub => exact h.of_isSubtype hs hmid hvalue hsub
  | promoted hp hnum hfloat =>
    -- `float` is not widened, so it has its own place in the slot
    have hadmits : slot.Admits promote .float := h.of_isSubtype hs hmid trivial hfloat
    rcases hadmits.cases_of_not_isUnion nofun with hsub | ⟨-, hnum, -⟩
    · exact .promoted hp hnum hsub
    · rcases hnum with h | h <;> cases h
  | union _ ih => exact .union fun t ht => ih t ht (hvalue.member ht)

/-! ## Unions and joins -/

theorem mem_of_mem_absorb (h : b ∈ absorb kept t) : b ∈ kept ∨ b = t := by
  unfold absorb at h
  split at h
  · exact Or.inl h
  · rcases List.mem_append.mp h with h | h
    · exact Or.inl (List.mem_filter.mp h).1
    · exact Or.inr (List.mem_singleton.mp h)

theorem mem_of_mem_foldl_absorb (h : b ∈ ts.foldl absorb kept) : b ∈ kept ∨ b ∈ ts := by
  induction ts generalizing kept with
  | nil => exact Or.inl h
  | cons t ts ih =>
    rcases ih h with h | h
    · rcases mem_of_mem_absorb h with h | rfl
      · exact Or.inl h
      · exact Or.inr List.mem_cons_self
    · exact Or.inr (List.mem_cons_of_mem t h)

/-- A type that is kept, or the new one, is covered by a type that is kept afterwards. -/
theorem exists_mem_absorb (t : Ty) (ha : a ∈ kept ∨ a = t) : ∃ w ∈ absorb kept t, a.isSubtype w := by
  unfold absorb
  split
  next hany =>
    rcases ha with ha | rfl
    · exact ⟨a, ha, isSubtype_refl a⟩
    · obtain ⟨w, hw, hsub⟩ := List.any_eq_true.mp hany
      exact ⟨w, hw, hsub⟩
  next =>
    have hlast : t ∈ kept.filter (fun k => !k.isSubtype t) ++ [t] :=
      List.mem_append_right _ (List.mem_singleton_self t)
    by_cases hat : a.isSubtype t
    · exact ⟨t, hlast, hat⟩
    · rcases ha with ha | rfl
      · refine ⟨a, List.mem_append_left _ (List.mem_filter.mpr ⟨ha, ?_⟩), isSubtype_refl a⟩
        simpa using hat
      · exact absurd (isSubtype_refl a) hat

/-- The loop that reduces a union keeps a type above each one. -/
theorem exists_mem_foldl_absorb (hkept : ∀ k ∈ kept, k.NoEmptyUnion) (hts : ∀ t ∈ ts, t.NoEmptyUnion)
    (ha : a ∈ kept ∨ a ∈ ts) : ∃ w ∈ ts.foldl absorb kept, a.isSubtype w := by
  induction ts generalizing a kept with
  | nil => exact ⟨a, ha.resolve_right List.not_mem_nil, isSubtype_refl a⟩
  | cons t ts ih =>
    obtain ⟨ht, hts⟩ := List.forall_mem_cons.mp hts
    have habsorb : ∀ k ∈ absorb kept t, k.NoEmptyUnion := fun k hk =>
      (mem_of_mem_absorb hk).elim (hkept k) fun e => e ▸ ht
    rw [List.foldl_cons]
    by_cases hat : a ∈ ts
    · exact ih habsorb hts (Or.inr hat)
    · have hat' : a ∈ kept ∨ a = t :=
        ha.imp_right fun h => (List.mem_cons.mp h).resolve_right hat
      have hane : a.NoEmptyUnion := hat'.elim (hkept a) fun e => e ▸ ht
      obtain ⟨k, hk, hak⟩ := exists_mem_absorb t hat'
      obtain ⟨w, hw, hkw⟩ := ih habsorb hts (Or.inl hk)
      have hwne : w.NoEmptyUnion := (mem_of_mem_foldl_absorb hw).elim (habsorb w) (hts w)
      exact ⟨w, hw, isSubtype_trans hane (habsorb k hk) hwne hak hkw⟩

theorem isSubtype_ofMembers (h : a ∈ ts) : a.isSubtype (ofMembers ts) := by
  match ts with
  | [t] => exact List.mem_singleton.mp h ▸ isSubtype_refl a
  | _ :: _ :: _ => exact isSubtype_union_of_mem h (isSubtype_refl a)

theorem noEmptyUnion_ofMembers (h : ∀ t ∈ ts, t.NoEmptyUnion) : (ofMembers ts).NoEmptyUnion := by
  match ts with
  | [] => trivial
  | [t] => exact h t List.mem_cons_self
  | _ :: _ :: _ => exact ⟨List.cons_ne_nil _ _, everyUnions_iff.mpr h⟩

theorem noEmptyUnion_of_mem_flatten (hts : ∀ t ∈ ts, t.NoEmptyUnion) (ha : a ∈ flatten ts) :
    a.NoEmptyUnion := by
  rw [flatten_eq_flatMap] at ha
  obtain ⟨t, ht, ha⟩ := List.mem_flatMap.mp ha
  have hne := hts t ht
  cases t with
  | never => cases ha
  | union us => exact hne.member ha
  | _ => exact List.mem_singleton.mp ha ▸ hne

theorem noEmptyUnion_unionOf (hts : ∀ t ∈ ts, t.NoEmptyUnion) : (unionOf ts).NoEmptyUnion := by
  refine noEmptyUnion_ofMembers fun t ht => ?_
  have hflat := (mem_of_mem_foldl_absorb ht).resolve_left List.not_mem_nil
  exact noEmptyUnion_of_mem_flatten hts hflat

theorem admits_unionOf (hts : ∀ t ∈ ts, t.NoEmptyUnion) (ht : t ∈ ts) : (unionOf ts).Admits promote t := by
  have hcover : ∀ a ∈ t.members, (unionOf ts).Admits promote a := by
    intro a ha
    have hflat : a ∈ flatten ts := by
      rw [flatten_eq_flatMap]
      exact List.mem_flatMap.mpr ⟨t, ht, ha⟩
    have hne := fun x hx => noEmptyUnion_of_mem_flatten (a := x) hts hx
    obtain ⟨w, hw, haw⟩ := exists_mem_foldl_absorb (List.forall_mem_nil _) hne (Or.inr hflat)
    have hwne := hne w ((mem_of_mem_foldl_absorb hw).resolve_left List.not_mem_nil)
    exact .subtype (isSubtype_trans (hne a hflat) hwne (noEmptyUnion_unionOf hts) haw (isSubtype_ofMembers hw))
  cases t with
  | never => exact .subtype (never_isSubtype _)
  | union us => exact .union hcover
  | _ => exact hcover _ (List.mem_singleton_self _)

/-- What is shown of both types, of `float` and of their union holds of their join. -/
theorem join_induction {P : Ty → Prop} (ha : P a) (hfloat : P .float) (hunion : P (unionOf [a, b])) :
    P (join a b promote) := by
  unfold join
  split
  · exact ha
  · split
    · exact hfloat
    · exact hfloat
    · exact hunion

theorem noEmptyUnion_join (ha : a.NoEmptyUnion) (hb : b.NoEmptyUnion) : (join a b promote).NoEmptyUnion :=
  join_induction ha trivial
    (noEmptyUnion_unionOf (List.forall_mem_cons.mpr ⟨ha, List.forall_mem_singleton.mpr hb⟩))

/-- **The join of two types admits the first one.** -/
theorem admits_join_left (ha : a.NoEmptyUnion) (hb : b.NoEmptyUnion) : (join a b promote).Admits promote a := by
  unfold join
  split
  · exact .refl a
  · split
    · exact .promoted rfl (Or.inl rfl) (isSubtype_refl _)
    · exact .refl _
    · exact admits_unionOf (List.forall_mem_cons.mpr ⟨ha, List.forall_mem_singleton.mpr hb⟩)
        List.mem_cons_self

/-- **The join of two types admits the second one.** -/
theorem admits_join_right (ha : a.NoEmptyUnion) (hb : b.NoEmptyUnion) : (join a b promote).Admits promote b := by
  unfold join
  split
  next hab => exact hab ▸ .refl a
  · split
    · exact .refl _
    · exact .promoted rfl (Or.inl rfl) (isSubtype_refl _)
    · exact admits_unionOf (List.forall_mem_cons.mpr ⟨ha, List.forall_mem_singleton.mpr hb⟩)
        (List.mem_cons_of_mem _ (List.mem_singleton_self b))

/-- A fold of joins admits the type that it begins with and every type of the list. -/
theorem admits_foldl_join (ha : a.NoEmptyUnion) (hts : ∀ t ∈ ts, t.NoEmptyUnion) :
    (ts.foldl (join · · promote) a).NoEmptyUnion ∧
      ∀ t ∈ a :: ts, (ts.foldl (join · · promote) a).Admits promote t := by
  induction ts generalizing a with
  | nil => exact ⟨ha, List.forall_mem_singleton.mpr (.refl a)⟩
  | cons b ts ih =>
    obtain ⟨hb, hts⟩ := List.forall_mem_cons.mp hts
    have hjoin : (join a b promote).NoEmptyUnion := noEmptyUnion_join ha hb
    obtain ⟨hne, hall⟩ := ih hjoin hts
    obtain ⟨hstart, hrest⟩ := List.forall_mem_cons.mp hall
    refine ⟨hne, List.forall_mem_cons.mpr ⟨?_, List.forall_mem_cons.mpr ⟨?_, hrest⟩⟩⟩
    · exact hstart.trans hne hjoin ha (admits_join_left ha hb)
    · exact hstart.trans hne hjoin hb (admits_join_right ha hb)

theorem admits_of_joinAll? (hts : ∀ t ∈ ts, t.NoEmptyUnion) (h : joinAll? ts promote = some T) (ht : t ∈ ts) :
    T.Admits promote t := by
  match ts, h with
  | a :: ts, h =>
    obtain ⟨ha, hts⟩ := List.forall_mem_cons.mp hts
    cases h
    exact (admits_foldl_join ha hts).2 t ht

end NativeClass.Ty
