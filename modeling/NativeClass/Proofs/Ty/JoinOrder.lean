import Mathlib.Data.List.TakeWhile
import NativeClass.Proofs.Ty.Admission
/-!
# The order of joins

Types are joined one after another. Without the widening of integers the result is the union of the types. With
it the types before the first one that is neither `int` nor `float` are joined to a number, and only then the
union is taken. So an `int` that comes late may remain beside `float`.

* `Ty.SameUpToOrder`: types that differ in the order of the members of a union only.
* **`Ty.SplitsNumbers.joinAll?_eq`**: joins with widening as a union.
* `Ty.MixesNumbers`: the lists in which an `int` may be widened or may remain.
* **`Ty.sameUpToOrder_joinAll?_iff`**: the order of the types matters in these lists only, and with widening only.
-/

namespace NativeClass

namespace Ty

variable {a b t u : Ty} {ts us ps qs as bs : List Ty} {promote : Bool}

/-! ## Types up to the order of members -/

/-- The types are equal up to the order of the members of a union. -/
inductive SameUpToOrder : Ty → Ty → Prop
  | refl (a : Ty) : SameUpToOrder a a
  | union {as bs : List Ty} (h : as.Perm bs) : SameUpToOrder (.union as) (.union bs)

theorem sameUpToOrder_ofMembers (h : as.Perm bs) : SameUpToOrder (ofMembers as) (ofMembers bs) := by
  match as, bs, h.length_eq with
  | [], [], _ => exact .refl _
  | [a], [b], _ =>
    obtain rfl := List.singleton_perm_singleton.mp h
    exact .refl _
  | _ :: _ :: _, _ :: _ :: _, _ => exact .union h

theorem SameUpToOrder.members_perm (h : SameUpToOrder a b) : a.members.Perm b.members := by
  cases h with
  | refl => exact .refl _
  | union h => exact h

theorem sameUpToOrder_of_members_perm (ha : a.Canonical) (hb : b.Canonical) (h : a.members.Perm b.members) :
    SameUpToOrder a b := by
  rw [← ofMembers_members ha, ← ofMembers_members hb]
  exact sameUpToOrder_ofMembers h

/-! ## Numbers -/

/-- `int`, `float` or nothing at all. -/
def isBareNumber : Ty → Bool
  | .never | .int | .float => true
  | _ => false

/-- The join of bare numbers with widening. -/
def numberOf (ps : List Ty) : Ty :=
  if float ∈ ps then float else if int ∈ ps then int else never

theorem isBareNumber_iff : t.isBareNumber ↔ t = never ∨ t = int ∨ t = float := by
  cases t <;> simp [isBareNumber]

theorem isBareNumber_numberOf (ps : List Ty) : (numberOf ps).isBareNumber := by
  unfold numberOf
  split_ifs <;> rfl

theorem canonical_of_isBareNumber (h : t.isBareNumber) : t.Canonical := by
  rcases isBareNumber_iff.mp h with rfl | rfl | rfl <;> trivial

theorem mem_members_numberOf_iff (ht : t ≠ int) : t ∈ (numberOf ps).members ↔ t = float ∧ float ∈ ps := by
  unfold numberOf
  split_ifs with hfloat hint <;> simp [members, hfloat, ht]

theorem int_mem_members_numberOf_iff : int ∈ (numberOf ps).members ↔ int ∈ ps ∧ float ∉ ps := by
  unfold numberOf
  split_ifs with hfloat hint <;> simp [members, *]

theorem mem_flatMap_members_iff (hps : ∀ p ∈ ps, p.isBareNumber) :
    t ∈ ps.flatMap members ↔ t ∈ ps ∧ t ≠ never := by
  rw [List.mem_flatMap]
  constructor
  · rintro ⟨p, hp, ht⟩
    rcases isBareNumber_iff.mp (hps p hp) with rfl | rfl | rfl <;> simp_all [members]
  · rintro ⟨ht, hne⟩
    refine ⟨t, ht, ?_⟩
    rcases isBareNumber_iff.mp (hps t ht) with rfl | rfl | rfl <;> simp_all [members]

/-! ## Joins of bare numbers -/

theorem join_of_isBareNumber (ha : a.isBareNumber) (hb : b.isBareNumber) : join a b true = numberOf [a, b] := by
  rcases isBareNumber_iff.mp ha with rfl | rfl | rfl <;>
    rcases isBareNumber_iff.mp hb with rfl | rfl | rfl <;> decide +kernel

theorem numberOf_cons_numberOf (ha : a.isBareNumber) (hb : b.isBareNumber) :
    numberOf (numberOf [a, b] :: ps) = numberOf (a :: b :: ps) := by
  rcases isBareNumber_iff.mp ha with rfl | rfl | rfl <;>
    rcases isBareNumber_iff.mp hb with rfl | rfl | rfl <;> simp [numberOf]

theorem foldl_join_of_isBareNumber (ha : a.isBareNumber) (hps : ∀ t ∈ ps, t.isBareNumber) :
    ps.foldl (join · · true) a = numberOf (a :: ps) := by
  induction ps generalizing a with
  | nil => rcases isBareNumber_iff.mp ha with rfl | rfl | rfl <;> rfl
  | cons b ps ih =>
    obtain ⟨hb, hps⟩ := List.forall_mem_cons.mp hps
    rw [List.foldl_cons, join_of_isBareNumber ha hb, ih (isBareNumber_numberOf _) hps,
      numberOf_cons_numberOf ha hb]

/-! ## Joins of other types -/

/-- The alternatives of a canonical type that is no bare number do not all lie below one number. -/
theorem isBareNumber_of_members_isSubtype (ht : t.Canonical) (hb : b = int ∨ b = float)
    (h : ∀ a ∈ t.members, a.isSubtype b) : t.isBareNumber := by
  have hunion : ¬ b.isUnion := by rcases hb with rfl | rfl <;> exact Bool.false_ne_true
  rcases ht.eq_of_isSubtype_number (Or.inr hb) ((isSubtype_iff_forall_members hunion).mpr h) with rfl | rfl
  · rfl
  · exact isBareNumber_iff.mpr (Or.inr hb)

theorem not_isBareNumber_unionOf (hts : ∀ t ∈ ts, t.Canonical) (ht : t ∈ ts) (hbare : ¬ t.isBareNumber) :
    ¬ (unionOf ts).isBareNumber := by
  have hcover : ∀ a ∈ t.members, ∃ w ∈ (unionOf ts).members, a.isSubtype w := fun a ha =>
    (listsMaximal_unionOf hts).covers (fun u hu => (canonical_of_mem_flatMap hts hu).1)
      (List.mem_flatMap.mpr ⟨t, ht, ha⟩)
  have hnumber : ∀ b, b = int ∨ b = float → ¬ ∀ w ∈ (unionOf ts).members, w = b := by
    intro b hb hall
    refine hbare (isBareNumber_of_members_isSubtype (hts t ht) hb fun a ha => ?_)
    obtain ⟨w, hw, haw⟩ := hcover a ha
    exact hall w hw ▸ haw
  intro h
  rcases isBareNumber_iff.mp h with hu | hu | hu <;> rw [hu] at hnumber
  · exact hnumber int (Or.inl rfl) nofun
  · exact hnumber int (Or.inl rfl) fun _ => List.mem_singleton.mp
  · exact hnumber float (Or.inr rfl) fun _ => List.mem_singleton.mp

theorem join_of_not_isBareNumber (ha : a.Canonical) (hbare : ¬ (a.isBareNumber ∧ b.isBareNumber)) :
    join a b true = unionOf [a, b] := by
  unfold join
  split_ifs with hab
  · exact hab ▸ (unionOf_pair_self ha).symm
  · split
    · exact absurd ⟨rfl, rfl⟩ hbare
    · exact absurd ⟨rfl, rfl⟩ hbare
    · rfl

theorem join_never (hb : b.Canonical) : join never b promote = b := by
  unfold join
  split_ifs with h
  · exact h
  · split
    · contradiction
    · contradiction
    · exact unionOf_singleton hb

/-- Once a type that is no bare number has come, joining is taking the union. -/
theorem foldl_join_of_not_isBareNumber (hts : ∀ t ∈ a :: ts, t.Canonical)
    (hbare : ∀ b ∈ ts.head?, ¬ b.isBareNumber) : ts.foldl (join · · true) a = unionOf (a :: ts) := by
  induction ts using List.reverseRecOn with
  | nil => exact (unionOf_singleton (List.forall_mem_singleton.mp hts)).symm
  | append_singleton ts b ih =>
    have hts' : ∀ t ∈ a :: ts, t.Canonical := fun t ht => hts t (List.mem_append_left [b] ht)
    rw [List.foldl_append, List.foldl_cons, List.foldl_nil]
    cases ts with
    | nil =>
      exact join_of_not_isBareNumber (hts' a List.mem_cons_self) fun h => hbare b rfl h.2
    | cons c ts =>
      have hunion : ¬ (unionOf (a :: c :: ts)).isBareNumber :=
        not_isBareNumber_unionOf hts' (List.mem_cons_of_mem a List.mem_cons_self) (hbare c rfl)
      rw [ih hts' hbare, join_of_not_isBareNumber (canonical_unionOf hts') fun h => hunion h.1]
      exact @unionOf_splice [] (a :: c :: ts) [b] hts

/-! ## The join as a union -/

/-- The list splits into the numbers at its front and the types from the first one on that is none. -/
structure SplitsNumbers (ts ps qs : List Ty) : Prop where
  append_eq : ps ++ qs = ts
  numbers : ∀ t ∈ ps, t.isBareNumber
  head : ∀ q ∈ qs.head?, ¬ q.isBareNumber

theorem splitsNumbers_takeWhile (ts : List Ty) :
    SplitsNumbers ts (ts.takeWhile isBareNumber) (ts.dropWhile isBareNumber) where
  append_eq := List.takeWhile_append_dropWhile
  numbers _ := List.mem_takeWhile_imp
  head q hq := by
    rw [← List.find?_not_eq_head?_dropWhile] at hq
    simpa using List.find?_some hq

namespace SplitsNumbers

theorem canonical (h : SplitsNumbers ts ps qs) (hts : ∀ t ∈ ts, t.Canonical) :
    ∀ t ∈ numberOf ps :: qs, t.Canonical :=
  List.forall_mem_cons.mpr ⟨canonical_of_isBareNumber (isBareNumber_numberOf ps), fun t ht =>
    hts t (h.append_eq ▸ List.mem_append_right ps ht)⟩

/-- **With widening the numbers at the front are joined to one, then the union is taken.** -/
theorem joinAll?_eq (h : SplitsNumbers ts ps qs) (hts : ∀ t ∈ ts, t.Canonical) (hne : ts ≠ []) :
    joinAll? ts true = some (unionOf (numberOf ps :: qs)) := by
  have hstart : joinAll? ts true = some (ts.foldl (join · · true) never) := by
    match ts, hne with
    | t :: ts, _ => rw [joinAll?, List.foldl_cons, join_never (hts t List.mem_cons_self)]
  have hnumber : numberOf (never :: ps) = numberOf ps := by simp [numberOf]
  rw [hstart, ← h.append_eq, List.foldl_append, foldl_join_of_isBareNumber rfl h.numbers, hnumber,
    foldl_join_of_not_isBareNumber (h.canonical hts) h.head]

/-- Only `int` can get lost among the alternatives. -/
theorem mem_alternatives_iff (h : SplitsNumbers ts ps qs) (ht : t ≠ int) :
    t ∈ (numberOf ps :: qs).flatMap members ↔ t ∈ ts.flatMap members := by
  rw [← h.append_eq, List.flatMap_cons, List.flatMap_append, List.mem_append, List.mem_append,
    mem_members_numberOf_iff ht, mem_flatMap_members_iff h.numbers]
  refine or_congr_left ⟨?_, fun ⟨hmem, hne⟩ => ?_⟩
  · rintro ⟨rfl, hmem⟩
    exact ⟨hmem, nofun⟩
  · rcases isBareNumber_iff.mp (h.numbers t hmem) with rfl | rfl | rfl
    · exact absurd rfl hne
    · exact absurd rfl ht
    · exact ⟨rfl, hmem⟩

theorem int_mem_alternatives_iff (h : SplitsNumbers ts ps qs) :
    int ∈ (numberOf ps :: qs).flatMap members ↔ int ∈ ts.flatMap members ∧
      ¬ (float ∈ ps ∧ int ∉ qs.flatMap members) := by
  rw [← h.append_eq, List.flatMap_cons, List.flatMap_append, List.mem_append, List.mem_append,
    int_mem_members_numberOf_iff, mem_flatMap_members_iff h.numbers]
  have hne : int ≠ never := nofun
  tauto

end SplitsNumbers

/-! ## The order of the types -/

/-- There are an `int` and a `float` to be widened and a type that keeps the `int` if it comes between them. -/
structure MixesNumbers (ts : List Ty) : Prop where
  int_mem : int ∈ ts
  float_mem : float ∈ ts
  exists_other : ∃ t ∈ ts, ¬ t.isBareNumber
  any_notMem : any ∉ ts
  int_notMem_union : ∀ us, union us ∈ ts → int ∉ us

theorem MixesNumbers.perm (h : MixesNumbers ts) (hperm : us.Perm ts) : MixesNumbers us := by
  obtain ⟨hint, hfloat, hother, hany, hunion⟩ := h
  simp only [← hperm.mem_iff] at hint hfloat hother hany hunion
  exact ⟨hint, hfloat, hother, hany, hunion⟩

/-- In the other lists `int` is an alternative of the join, unless they consist of numbers and have a `float`. -/
theorem SplitsNumbers.int_mem_alternatives_iff_of_not_mixesNumbers (h : SplitsNumbers ts ps qs)
    (hany : any ∉ ts) (hmix : ¬ MixesNumbers ts) :
    int ∈ (numberOf ps :: qs).flatMap members ↔ int ∈ ts.flatMap members ∧
      ¬ (float ∈ ts ∧ ∀ t ∈ ts, t.isBareNumber) := by
  rw [h.int_mem_alternatives_iff]
  obtain ⟨rfl, hps, hhead⟩ := h
  refine and_congr_right fun hint => not_congr ⟨fun ⟨hfloat, hqs⟩ => ?_, fun ⟨hfloat, hall⟩ => ?_⟩
  · have hintps : int ∈ ps := by
      rw [List.flatMap_append, List.mem_append] at hint
      exact ((mem_flatMap_members_iff hps).mp (hint.resolve_right hqs)).1
    refine ⟨List.mem_append_left qs hfloat, ?_⟩
    by_contra! hother
    refine hmix ⟨List.mem_append_left qs hintps, List.mem_append_left qs hfloat, by simpa using hother, hany, ?_⟩
    intro us hus hintus
    rcases List.mem_append.mp hus with hus | hus
    · cases hps _ hus
    · exact hqs (List.mem_flatMap.mpr ⟨_, hus, hintus⟩)
  · have hnil : qs = [] := by
      cases qs with
      | nil => rfl
      | cons q qs => exact absurd (hall q (by simp)) (hhead q rfl)
    subst hnil
    exact ⟨by simpa using hfloat, nofun⟩

theorem any_mem_flatMap_members_iff (hts : ∀ t ∈ ts, t.Canonical) : any ∈ ts.flatMap members ↔ any ∈ ts := by
  rw [List.mem_flatMap]
  constructor
  · rintro ⟨t, ht, hany⟩
    cases t with
    | any => exact ht
    | union us => cases (hts _ ht).1.plain any hany
    | _ => simp [members] at hany
  · exact fun h => ⟨any, h, List.mem_singleton_self _⟩

/-- Beside `any` no other type is maximal. -/
theorem mem_members_unionOf_of_any_mem (hts : ∀ t ∈ ts, t.Canonical) (hany : any ∈ ts) :
    t ∈ (unionOf ts).members ↔ t = any := by
  have hmax := listsMaximal_unionOf hts
  have hmem := (any_mem_flatMap_members_iff hts).mpr hany
  constructor
  · exact fun ht => (((hmax.mem_iff t).mp ht).2 any hmem (isSubtype_any t)).symm
  · rintro rfl
    obtain ⟨w, hw, hle⟩ := hmax.covers (fun u hu => (canonical_of_mem_flatMap hts hu).1) hmem
    rwa [← ((hmax.mem_iff w).mp hw).2 any hmem (isSubtype_any w)] at hw

theorem SplitsNumbers.any_mem_iff (h : SplitsNumbers ts ps qs) (hts : ∀ t ∈ ts, t.Canonical) :
    any ∈ numberOf ps :: qs ↔ any ∈ ts := by
  rw [← any_mem_flatMap_members_iff (h.canonical hts), ← any_mem_flatMap_members_iff hts]
  exact h.mem_alternatives_iff nofun

/-- Nothing but `any` covers `int`. -/
theorem int_mem_members_unionOf_iff (hts : ∀ t ∈ ts, t.Canonical) (hany : any ∉ ts) :
    int ∈ (unionOf ts).members ↔ int ∈ ts.flatMap members := by
  rw [(listsMaximal_unionOf hts).mem_iff]
  refine and_iff_left_of_imp fun _ u hu hle => ?_
  have hself := (canonical_of_mem_flatMap hts hu).2
  cases isSubtype_iff.mp hle with
  | any => exact absurd ((any_mem_flatMap_members_iff hts).mp hu) hany
  | refl => rfl
  | member =>
    have hsize := congrArg sizeOf hself
    simp [members] at hsize
    omega

theorem joinAll?_eq_unionOf (hts : ∀ t ∈ ts, t.Canonical) (hne : ts ≠ []) :
    joinAll? ts false = some (unionOf ts) := by
  match ts, hne with
  | t :: ts, _ => exact congrArg some (foldl_join_eq_unionOf hts)

/-- Where numbers are not mixed the order of the types matters for the order of the members only. -/
theorem members_unionOf_perm_of_not_mixesNumbers {ps' qs' : List Ty} (hts : ∀ t ∈ ts, t.Canonical)
    (hperm : us.Perm ts) (hmix : ¬ MixesNumbers ts) (h : SplitsNumbers ts ps qs) (h' : SplitsNumbers us ps' qs') :
    (unionOf (numberOf ps' :: qs')).members.Perm (unionOf (numberOf ps :: qs)).members := by
  have hus : ∀ t ∈ us, t.Canonical := fun t ht => hts t (hperm.mem_iff.mp ht)
  have hmax := listsMaximal_unionOf (h.canonical hts)
  have hmax' := listsMaximal_unionOf (h'.canonical hus)
  refine (List.perm_ext_iff_of_nodup hmax'.nodup hmax.nodup).mpr fun t => ?_
  by_cases hany : any ∈ ts
  · rw [mem_members_unionOf_of_any_mem (h'.canonical hus) ((h'.any_mem_iff hus).mpr (hperm.mem_iff.mpr hany)),
      mem_members_unionOf_of_any_mem (h.canonical hts) ((h.any_mem_iff hts).mpr hany)]
  · have hmix' : ¬ MixesNumbers us := fun hm => hmix (hm.perm hperm.symm)
    have hany' : any ∉ us := fun hm => hany (hperm.mem_iff.mp hm)
    have hiff : ∀ t, t ∈ (numberOf ps' :: qs').flatMap members ↔ t ∈ (numberOf ps :: qs).flatMap members := by
      intro t
      have hsame := (hperm.flatMap_right members).mem_iff (a := t)
      by_cases ht : t = int
      · subst ht
        rw [h.int_mem_alternatives_iff_of_not_mixesNumbers hany hmix,
          h'.int_mem_alternatives_iff_of_not_mixesNumbers hany' hmix', hsame]
        simp only [hperm.mem_iff]
      · rw [h.mem_alternatives_iff ht, h'.mem_alternatives_iff ht, hsame]
    simp only [hmax.mem_iff, hmax'.mem_iff, hiff]

namespace MixesNumbers

/-- With the numbers first the `int` is widened. -/
theorem exists_int_notMem (h : MixesNumbers ts) (hts : ∀ t ∈ ts, t.Canonical) :
    ∃ us, us.Perm ts ∧ ∃ a, joinAll? us true = some a ∧ int ∉ a.members := by
  have hperm := List.filter_append_perm isBareNumber ts
  have hsplit : SplitsNumbers _ (ts.filter isBareNumber) (ts.filter (!·.isBareNumber)) := {
    append_eq := rfl
    numbers := fun t ht => (List.mem_filter.mp ht).2
    head := fun q hq => by simpa using (List.mem_filter.mp (List.mem_of_mem_head? hq)).2 }
  have hus := fun t ht => hts t (hperm.mem_iff.mp ht)
  refine ⟨_, hperm, _, hsplit.joinAll?_eq hus ?_, ?_⟩
  · exact List.ne_nil_of_mem (hperm.mem_iff.mpr h.int_mem)
  · rw [int_mem_members_unionOf_iff (hsplit.canonical hus), hsplit.int_mem_alternatives_iff]
    · refine fun hint => hint.2 ⟨List.mem_filter.mpr ⟨h.float_mem, rfl⟩, fun hother => ?_⟩
      obtain ⟨t, ht, hmem⟩ := List.mem_flatMap.mp hother
      obtain ⟨ht, hbare⟩ := List.mem_filter.mp ht
      cases t with
      | union us => exact h.int_notMem_union us ht hmem
      | _ => simp_all [members, isBareNumber]
    · rw [hsplit.any_mem_iff hus, hperm.mem_iff]
      exact h.any_notMem

/-- With another type first the `int` remains. -/
theorem exists_int_mem (h : MixesNumbers ts) (hts : ∀ t ∈ ts, t.Canonical) :
    ∃ us, us.Perm ts ∧ ∃ a, joinAll? us true = some a ∧ int ∈ a.members := by
  obtain ⟨t, ht, hbare⟩ := h.exists_other
  have hperm : (t :: ts.erase t).Perm ts := (List.perm_cons_erase ht).symm
  have hsplit : SplitsNumbers (t :: ts.erase t) [] (t :: ts.erase t) := {
    append_eq := rfl
    numbers := nofun
    head := fun q hq => by cases hq; exact hbare }
  have hus : ∀ u ∈ t :: ts.erase t, u.Canonical := fun u hu => hts u (hperm.mem_iff.mp hu)
  refine ⟨_, hperm, _, hsplit.joinAll?_eq hus (List.cons_ne_nil _ _), ?_⟩
  rw [int_mem_members_unionOf_iff (hsplit.canonical hus), hsplit.int_mem_alternatives_iff]
  · refine ⟨List.mem_flatMap.mpr ⟨int, hperm.mem_iff.mpr h.int_mem, List.mem_singleton_self _⟩, ?_⟩
    exact fun hfloat => nomatch hfloat.1
  · rw [hsplit.any_mem_iff hus, hperm.mem_iff]
    exact h.any_notMem

end MixesNumbers

/-- **The order in which types are joined matters for the order of the members only, except with widening in the
lists that mix numbers.** In each of these some order gives another type. -/
theorem sameUpToOrder_joinAll?_iff (hts : ∀ t ∈ ts, t.Canonical) (hne : ts ≠ []) :
    (∀ us : List Ty, us.Perm ts → ∃ a b, joinAll? us promote = some a ∧ joinAll? ts promote = some b ∧
      SameUpToOrder a b) ↔ ¬ (promote ∧ MixesNumbers ts) := by
  constructor
  · rintro hsame ⟨rfl, hmix⟩
    -- the join of `ts` itself would have the alternative `int` and would not have it
    have hiff : ∀ us : List Ty, us.Perm ts → ∀ a ∈ joinAll? us true, ∀ b ∈ joinAll? ts true,
        (int ∈ a.members ↔ int ∈ b.members) := by
      intro us hperm a ha b hb
      obtain ⟨a', b', ha', hb', h⟩ := hsame us hperm
      obtain rfl := Option.some.inj (ha'.symm.trans ha)
      obtain rfl := Option.some.inj (hb'.symm.trans hb)
      exact h.members_perm.mem_iff
    obtain ⟨us, hus, a, ha, hnot⟩ := hmix.exists_int_notMem hts
    obtain ⟨vs, hvs, c, hc, hint⟩ := hmix.exists_int_mem hts
    obtain ⟨-, b, -, hb, -⟩ := hsame ts (.refl ts)
    exact hnot ((hiff us hus a ha b hb).mpr ((hiff vs hvs c hc b hb).mp hint))
  · intro hmix us hperm
    have hus : ∀ t ∈ us, t.Canonical := fun t ht => hts t (hperm.mem_iff.mp ht)
    have husne : us ≠ [] := fun hnil => hne (by simpa [hnil] using hperm)
    cases promote with
    | false =>
      refine ⟨_, _, joinAll?_eq_unionOf hus husne, joinAll?_eq_unionOf hts hne, ?_⟩
      exact sameUpToOrder_of_members_perm (canonical_unionOf hus) (canonical_unionOf hts)
        (members_unionOf_perm hts hperm)
    | true =>
      have h := splitsNumbers_takeWhile ts
      have h' := splitsNumbers_takeWhile us
      refine ⟨_, _, h'.joinAll?_eq hus husne, h.joinAll?_eq hts hne, ?_⟩
      exact sameUpToOrder_of_members_perm (canonical_unionOf (h'.canonical hus)) (canonical_unionOf (h.canonical hts))
        (members_unionOf_perm_of_not_mixesNumbers hts hperm (fun hm => hmix ⟨rfl, hm⟩) h h')

end Ty

namespace Sample

open Ty

/-- Numbers beside a union with `int`, which keeps it. -/
def measureTypes : List Ty :=
  [.float, .int, .union [.str, .int], .never]

/-- Numbers beside another type, which keeps an `int` after it. -/
def readingTypes : List Ty :=
  [.float, .noneType, .int]

end Sample

namespace Ty

open Sample

theorem sameUpToOrder_joinAll?_iff_measureTypes :
    (∃ a b, joinAll? measureTypes.reverse true = some a ∧ joinAll? measureTypes true = some b ∧ SameUpToOrder a b) ∧
      ¬ ∀ us : List Ty, us.Perm readingTypes → ∃ a b, joinAll? us true = some a ∧
        joinAll? readingTypes true = some b ∧ SameUpToOrder a b := by
  have hmeasure : ¬ MixesNumbers measureTypes := fun h =>
    h.int_notMem_union [.str, .int] (by decide +kernel) (by decide +kernel)
  have hreading : MixesNumbers readingTypes := {
    int_mem := by decide +kernel
    float_mem := by decide +kernel
    exists_other := ⟨.noneType, by decide +kernel, by decide⟩
    any_notMem := by decide +kernel
    int_notMem_union := fun us hus => by simp [readingTypes] at hus }
  constructor
  · have hcanonical : ∀ t ∈ measureTypes, t.Canonical := by decide +kernel
    have hiff := @sameUpToOrder_joinAll?_iff _ true hcanonical (List.cons_ne_nil _ _)
    exact hiff.mpr (fun h => hmeasure h.2) _ (List.reverse_perm _)
  · have hcanonical : ∀ t ∈ readingTypes, t.Canonical := by decide +kernel
    have hiff := @sameUpToOrder_joinAll?_iff _ true hcanonical (List.cons_ne_nil _ _)
    exact fun h => hiff.mp h ⟨rfl, hreading⟩

/-- An `int` that comes after another type is not widened. -/
theorem joinAll?_not_sameUpToOrder :
    ¬ ∀ (ts us : List Ty) (promote : Bool), (∀ t ∈ ts, t.Canonical) → ts ≠ [] → us.Perm ts →
      ∃ a b, joinAll? us promote = some a ∧ joinAll? ts promote = some b ∧ SameUpToOrder a b := by
  intro h
  obtain ⟨a, b, ha, hb, hsame⟩ := h [.int, .float, .str] [.int, .str, .float] true (by decide +kernel) nofun
    (by decide +kernel)
  have ha' : joinAll? [.int, .str, .float] true = some (.union [.int, .str, .float]) := by decide +kernel
  have hb' : joinAll? [.int, .float, .str] true = some (.union [.float, .str]) := by decide +kernel
  obtain rfl := Option.some.inj (ha'.symm.trans ha)
  obtain rfl := Option.some.inj (hb'.symm.trans hb)
  cases hsame with
  | union hperm => exact absurd hperm.length_eq (by decide)

end Ty
end NativeClass
