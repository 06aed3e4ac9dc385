import Mathlib.Data.List.Induction
import Mathlib.Data.List.Nodup
import NativeClass.Proofs.Ty.Order
/-!
# Unions of canonical types

* `Ty.ListsMaximal`: a list of the types of another list that no other one of them covers.
* **`Ty.ListsMaximal.splice`**: a part of the list may be replaced by its own maximal types.
* **`Ty.listsMaximal_unionOf`**: the members of a union are the maximal ones of all alternatives.
* **`Ty.unionOf_laws`**: hence the union is canonical, associative and idempotent, the order of the types
  matters for the order of the members only, and joining one type after another gives the same.
-/

namespace NativeClass

namespace Ty

variable {a b t u : Ty} {ts us as bs cs r r' : List Ty}

/-! ## Maximal types -/

/-- The types of `ts` that no other one of them covers, each once and in the order of first occurrence. -/
structure ListsMaximal (ts r : List Ty) : Prop where
  mem_iff : ∀ t, t ∈ r ↔ t ∈ ts ∧ ∀ u ∈ ts, t.isSubtype u → u = t
  ordered : r.Pairwise fun t u => ts.idxOf t < ts.idxOf u

/-- Every type of a list is below one that no other type of the list covers. -/
theorem exists_maximal (hts : ∀ t ∈ ts, t.Canonical) (ha : a.Canonical) :
    ∃ w ∈ a :: ts, a.isSubtype w ∧ ∀ u ∈ a :: ts, w.isSubtype u → u = w := by
  induction ts generalizing a with
  | nil => exact ⟨a, List.mem_cons_self, isSubtype_refl a, fun u hu _ => List.mem_singleton.mp hu⟩
  | cons b ts ih =>
    obtain ⟨hb, hts⟩ := List.forall_mem_cons.mp hts
    by_cases hab : a.isSubtype b
    · obtain ⟨w, hw, hbw, hmax⟩ := ih hts hb
      have hwc : w.Canonical := List.forall_mem_cons.mpr ⟨hb, hts⟩ w hw
      have haw := ha.isSubtype_trans hb hwc hab hbw
      refine ⟨w, List.mem_cons_of_mem a hw, haw, List.forall_mem_cons.mpr ⟨fun hwa => ?_, hmax⟩⟩
      exact isSubtype_antisymm ha hwc haw hwa
    · obtain ⟨w, hw, haw, hmax⟩ := ih hts ha
      have hwc : w.Canonical := List.forall_mem_cons.mpr ⟨ha, hts⟩ w hw
      obtain ⟨hmaxa, hmax⟩ := List.forall_mem_cons.mp hmax
      refine ⟨w, ?_, haw, List.forall_mem_cons.mpr ⟨hmaxa, List.forall_mem_cons.mpr ⟨fun hwb => ?_, hmax⟩⟩⟩
      · rcases List.mem_cons.mp hw with rfl | hw
        · exact List.mem_cons_self
        · exact List.mem_cons_of_mem a (List.mem_cons_of_mem b hw)
      · exact absurd (ha.isSubtype_trans hwc hb haw hwb) hab

namespace ListsMaximal

theorem nodup (h : ListsMaximal ts r) : r.Nodup :=
  h.ordered.imp fun hlt he => absurd (he ▸ hlt) (Nat.lt_irrefl _)

theorem subset (h : ListsMaximal ts r) (ht : t ∈ r) : t ∈ ts :=
  ((h.mem_iff t).mp ht).1

theorem covers (hts : ∀ t ∈ ts, t.Canonical) (h : ListsMaximal ts r) (ht : t ∈ ts) :
    ∃ w ∈ r, t.isSubtype w := by
  obtain ⟨w, hw, htw, hmax⟩ := exists_maximal hts (hts t ht)
  have hsub : ∀ u ∈ t :: ts, u ∈ ts := List.forall_mem_cons.mpr ⟨ht, fun _ hu => hu⟩
  exact ⟨w, (h.mem_iff w).mpr ⟨hsub w hw, fun u hu => hmax u (List.mem_cons_of_mem t hu)⟩, htw⟩

/-- The maximal types of a list and their order are determined. -/
theorem eq (h : ListsMaximal ts r) (h' : ListsMaximal ts r') : r = r' := by
  have hperm : r.Perm r' := (List.perm_ext_iff_of_nodup h.nodup h'.nodup).mpr fun t =>
    (h.mem_iff t).trans (h'.mem_iff t).symm
  exact hperm.eq_of_pairwise (fun t u _ _ hlt hgt => absurd hgt (Nat.lt_asymm hlt)) h.ordered h'.ordered

theorem idxOf_lt_idxOf (h : ListsMaximal ts r) (hu : u ∈ r) (hlt : r.idxOf t < r.idxOf u) :
    ts.idxOf t < ts.idxOf u := by
  have hi := List.idxOf_lt_length_iff.mpr hu
  have hpair := List.pairwise_iff_getElem.mp h.ordered (r.idxOf t) (r.idxOf u) (Nat.lt_trans hlt hi) hi hlt
  rwa [List.getElem_idxOf, List.getElem_idxOf] at hpair

end ListsMaximal

/-- The order of first occurrence in a list with a part replaced by another list that has the same ones of two
types, in the same order. -/
theorem idxOf_splice_lt (ht : t ∈ r ↔ t ∈ bs) (hu : u ∈ r ↔ u ∈ bs)
    (hr : u ∈ r → r.idxOf t < r.idxOf u → bs.idxOf t < bs.idxOf u)
    (hlt : (as ++ (r ++ cs)).idxOf t < (as ++ (r ++ cs)).idxOf u) :
    (as ++ (bs ++ cs)).idxOf t < (as ++ (bs ++ cs)).idxOf u := by
  simp only [List.idxOf_append] at hlt ⊢
  grind [List.idxOf_lt_length_iff]

/-- **A part of a list may be replaced by its own maximal types.** -/
theorem ListsMaximal.splice (hts : ∀ t ∈ as ++ (bs ++ cs), t.Canonical) (h : ListsMaximal bs r)
    (h' : ListsMaximal (as ++ (r ++ cs)) r') : ListsMaximal (as ++ (bs ++ cs)) r' := by
  have hbs : ∀ t ∈ bs, t.Canonical := fun t ht =>
    hts t (List.mem_append_right as (List.mem_append_left cs ht))
  have hsub : ∀ t ∈ as ++ (r ++ cs), t ∈ as ++ (bs ++ cs) := by
    simp only [List.mem_append]
    exact fun t ht => ht.imp_right (Or.imp_left h.subset)
  have hcovers : ∀ t ∈ as ++ (bs ++ cs), ∃ w ∈ as ++ (r ++ cs), t.isSubtype w := by
    intro t ht
    by_cases htb : t ∈ bs
    · obtain ⟨w, hw, htw⟩ := h.covers hbs htb
      exact ⟨w, List.mem_append_right as (List.mem_append_left cs hw), htw⟩
    · refine ⟨t, ?_, isSubtype_refl t⟩
      simp only [List.mem_append, htb, false_or] at ht ⊢
      exact ht.imp_right Or.inr
  have hmem : ∀ t, t ∈ r' ↔ t ∈ as ++ (bs ++ cs) ∧ ∀ u ∈ as ++ (bs ++ cs), t.isSubtype u → u = t := by
    intro t
    rw [h'.mem_iff]
    constructor
    · rintro ⟨ht, hmax⟩
      refine ⟨hsub t ht, fun u hu htu => ?_⟩
      obtain ⟨w, hw, huw⟩ := hcovers u hu
      have htc := hts t (hsub t ht)
      have hwc := hts w (hsub w hw)
      have hwt : w = t := hmax w hw (htc.isSubtype_trans (hts u hu) hwc htu huw)
      exact isSubtype_antisymm (hts u hu) htc (hwt ▸ huw) htu
    · rintro ⟨ht, hmax⟩
      obtain ⟨w, hw, htw⟩ := hcovers t ht
      exact ⟨hmax w (hsub w hw) htw ▸ hw, fun u hu => hmax u (hsub u hu)⟩
  -- What is maximal on the whole is maximal in the part.
  have hpart : ∀ t ∈ r', t ∈ r ↔ t ∈ bs := fun t ht => by
    refine ⟨h.subset, fun htb => (h.mem_iff t).mpr ⟨htb, fun u hu => ?_⟩⟩
    exact ((hmem t).mp ht).2 u (List.mem_append_right as (List.mem_append_left cs hu))
  refine ⟨hmem, h'.ordered.imp_of_mem fun ht hu hlt => ?_⟩
  exact idxOf_splice_lt (hpart _ ht) (hpart _ hu) h.idxOf_lt_idxOf hlt

theorem ListsMaximal.append_covered (hts : ∀ t ∈ ts ++ us, t.Canonical) (h : ListsMaximal ts r)
    (hcov : ∀ u ∈ us, ∃ w ∈ ts, u.isSubtype w) : ListsMaximal (ts ++ us) r := by
  refine ⟨fun t => ?_, h.ordered.imp_of_mem fun ht hu hlt => ?_⟩
  · rw [h.mem_iff, List.mem_append]
    constructor
    · rintro ⟨ht, hmax⟩
      refine ⟨Or.inl ht, fun u hu htu => ?_⟩
      rcases List.mem_append.mp hu with hu' | hu'
      · exact hmax u hu' htu
      · obtain ⟨w, hw, huw⟩ := hcov u hu'
        have htc := hts t (List.mem_append_left us ht)
        have hwc := hts w (List.mem_append_left us hw)
        have hwt : w = t := hmax w hw (htc.isSubtype_trans (hts u hu) hwc htu huw)
        exact isSubtype_antisymm (hts u hu) htc (hwt ▸ huw) htu
    · rintro ⟨ht, hmax⟩
      refine ⟨?_, fun u hu => hmax u (List.mem_append_left us hu)⟩
      rcases ht with ht | ht
      · exact ht
      · obtain ⟨w, hw, htw⟩ := hcov t ht
        exact hmax w (List.mem_append_left us hw) htw ▸ hw
  · rwa [List.idxOf_append_of_mem (h.subset ht), List.idxOf_append_of_mem (h.subset hu)]

/-- A type that no other one covers comes last, and the types that it covers go. -/
theorem ListsMaximal.append_singleton (h : ListsMaximal ts r) (hcov : ¬ ∃ w ∈ ts, u.isSubtype w) :
    ListsMaximal (ts ++ [u]) (r.filter (fun t => !t.isSubtype u) ++ [u]) := by
  have hnot : u ∉ ts := fun hu => hcov ⟨u, hu, isSubtype_refl u⟩
  refine ⟨fun t => ?_, List.pairwise_append.mpr ⟨?_, List.pairwise_singleton _ _, fun t ht v hv => ?_⟩⟩
  · simp only [List.mem_append, List.mem_filter, List.mem_singleton, h.mem_iff, Bool.not_eq_true',
      ← Bool.not_eq_true]
    constructor
    · rintro (⟨⟨ht, hmax⟩, htu⟩ | rfl)
      · refine ⟨Or.inl ht, ?_⟩
        rintro v (hv | rfl) htv
        · exact hmax v hv htv
        · exact absurd htv htu
      · refine ⟨Or.inr rfl, ?_⟩
        rintro v (hv | rfl) htv
        · exact absurd ⟨v, hv, htv⟩ hcov
        · rfl
    · rintro ⟨ht | rfl, hmax⟩
      · exact Or.inl ⟨⟨ht, fun v hv => hmax v (Or.inl hv)⟩, fun htu => hnot (hmax u (Or.inr rfl) htu ▸ ht)⟩
      · exact Or.inr rfl
  · refine (h.ordered.sublist List.filter_sublist).imp_of_mem fun ht hv hlt => ?_
    rwa [List.idxOf_append_of_mem (h.subset (List.mem_filter.mp ht).1),
      List.idxOf_append_of_mem (h.subset (List.mem_filter.mp hv).1)]
  · obtain rfl := List.mem_singleton.mp hv
    have htts := h.subset (List.mem_filter.mp ht).1
    rw [List.idxOf_append_of_mem htts, List.idxOf_append_of_notMem hnot]
    exact Nat.lt_add_right _ (List.idxOf_lt_length_iff.mpr htts)

/-! ## The union of a list -/

theorem listsMaximal_absorb (hts : ∀ t ∈ ts ++ [u], t.Canonical) (h : ListsMaximal ts r) :
    ListsMaximal (ts ++ [u]) (absorb r u) := by
  obtain ⟨hts', hu⟩ := List.forall_mem_append.mp hts
  by_cases hcov : ∃ w ∈ r, u.isSubtype w
  · have hkept : absorb r u = r := if_pos (List.any_eq_true.mpr hcov)
    obtain ⟨w, hw, huw⟩ := hcov
    rw [hkept]
    exact h.append_covered hts (List.forall_mem_singleton.mpr ⟨w, h.subset hw, huw⟩)
  · have hadded : absorb r u = r.filter (fun t => !t.isSubtype u) ++ [u] :=
      if_neg fun hany => hcov (List.any_eq_true.mp hany)
    rw [hadded]
    refine h.append_singleton fun ⟨w, hw, huw⟩ => ?_
    obtain ⟨v, hv, hwv⟩ := h.covers hts' hw
    have hvc := hts' v (h.subset hv)
    exact hcov ⟨v, hv, (List.forall_mem_singleton.mp hu).isSubtype_trans (hts' w hw) hvc huw hwv⟩

theorem listsMaximal_foldl_absorb (hts : ∀ t ∈ ts, t.Canonical) : ListsMaximal ts (ts.foldl absorb []) := by
  induction ts using List.reverseRecOn with
  | nil => exact ⟨fun t => by simp, List.Pairwise.nil⟩
  | append_singleton ts t ih =>
    rw [List.foldl_append]
    exact listsMaximal_absorb hts (ih (List.forall_mem_append.mp hts).1)

theorem flatten_eq_flatMap (ts : List Ty) : flatten ts = ts.flatMap members := by
  induction ts with
  | nil => rfl
  | cons t ts ih => cases t <;> simp [flatten, members, ih]

theorem canonical_of_mem_members (ha : a.Canonical) (ht : t ∈ a.members) :
    t.Canonical ∧ t.members = [t] := by
  cases a with
  | never => cases ht
  | union ts =>
    have hplain := ha.1.plain t ht
    exact ⟨ha.member ht, by cases t <;> simp_all [isPlain, members]⟩
  | _ =>
    obtain rfl := List.mem_singleton.mp ht
    exact ⟨ha, rfl⟩

theorem canonical_of_mem_flatMap (hts : ∀ t ∈ ts, t.Canonical) (ht : t ∈ ts.flatMap members) :
    t.Canonical ∧ t.members = [t] := by
  obtain ⟨a, ha, hta⟩ := List.mem_flatMap.mp ht
  exact canonical_of_mem_members (hts a ha) hta

theorem ofMembers_members (ha : a.Canonical) : ofMembers a.members = a := by
  cases a with
  | union ts =>
    match ts, ha.1.two_le with
    | _ :: _ :: _, _ => rfl
  | _ => rfl

theorem members_ofMembers (hr : ∀ t ∈ r, t.members = [t]) : (ofMembers r).members = r := by
  match r with
  | [] => rfl
  | [t] => exact hr t List.mem_cons_self
  | _ :: _ :: _ => rfl

/-- Maximal types, at least two of them, are the members of a reduced union. -/
theorem ListsMaximal.reduced (h : ListsMaximal ts r) (hr : ∀ t ∈ r, t.members = [t]) (hlen : 2 ≤ r.length) :
    Reduced r where
  two_le := hlen
  plain t ht := by
    -- `any` would cover the other ones.
    have hany : t ≠ .any := by
      rintro rfl
      have hall : ∀ u ∈ r, u = any := fun u hu => (((h.mem_iff u).mp hu).2 _ (h.subset ht) (isSubtype_any u)).symm
      have hsame : r[0] = r[1] :=
        (hall _ (List.getElem_mem _)).trans (hall _ (List.getElem_mem _)).symm
      exact absurd (h.nodup.getElem_inj_iff.mp hsame) Nat.zero_ne_one
    have hself := hr t ht
    cases t with
    | any => exact absurd rfl hany
    | never => cases hself
    | union us =>
      have hsize := congrArg sizeOf hself
      simp [members] at hsize
      omega
    | _ => rfl
  incomparable := h.ordered.imp_of_mem fun {t u} ht hu hlt => by
    have hne : t ≠ u := fun he => absurd (he ▸ hlt) (Nat.lt_irrefl _)
    constructor
    · exact fun htu => hne (((h.mem_iff t).mp ht).2 u (h.subset hu) htu).symm
    · exact fun hut => hne (((h.mem_iff u).mp hu).2 t (h.subset ht) hut)

theorem ListsMaximal.canonical_ofMembers (h : ListsMaximal ts r)
    (hr : ∀ t ∈ r, t.Canonical ∧ t.members = [t]) : (ofMembers r).Canonical := by
  match r, h, hr with
  | [], _, _ => trivial
  | [t], _, hr => exact (hr t List.mem_cons_self).1
  | t :: u :: rest, h, hr =>
    exact ⟨h.reduced (fun v hv => (hr v hv).2) (by simp), everyUnions_iff.mpr fun v hv => (hr v hv).1⟩

theorem exists_unionOf_eq (hts : ∀ t ∈ ts, t.Canonical) :
    ∃ r, ListsMaximal (ts.flatMap members) r ∧ unionOf ts = ofMembers r := by
  refine ⟨(flatten ts).foldl absorb [], ?_, rfl⟩
  rw [flatten_eq_flatMap]
  exact listsMaximal_foldl_absorb fun t ht => (canonical_of_mem_flatMap hts ht).1

theorem canonical_unionOf (hts : ∀ t ∈ ts, t.Canonical) : (unionOf ts).Canonical := by
  obtain ⟨r, hr, heq⟩ := exists_unionOf_eq hts
  rw [heq]
  exact hr.canonical_ofMembers fun t ht => canonical_of_mem_flatMap hts (hr.subset ht)

/-- **The members of a union are the maximal ones of all alternatives.** -/
theorem listsMaximal_unionOf (hts : ∀ t ∈ ts, t.Canonical) :
    ListsMaximal (ts.flatMap members) (unionOf ts).members := by
  obtain ⟨r, hr, heq⟩ := exists_unionOf_eq hts
  rwa [heq, members_ofMembers fun t ht => (canonical_of_mem_flatMap hts (hr.subset ht)).2]

theorem unionOf_eq (hts : ∀ t ∈ ts, t.Canonical) (ha : a.Canonical)
    (h : ListsMaximal (ts.flatMap members) a.members) : unionOf ts = a := by
  rw [← ofMembers_members (canonical_unionOf hts), (listsMaximal_unionOf hts).eq h, ofMembers_members ha]

/-! ## Laws -/

theorem listsMaximal_self (hn : r.Nodup) (h : ∀ t ∈ r, ∀ u ∈ r, t.isSubtype u → u = t) :
    ListsMaximal r r where
  mem_iff t := ⟨fun ht => ⟨ht, h t ht⟩, And.left⟩
  ordered := List.pairwise_iff_getElem.mpr fun i j hi hj hij => by
    rwa [hn.idxOf_getElem, hn.idxOf_getElem]

theorem listsMaximal_members (ha : a.Canonical) : ListsMaximal a.members a.members := by
  cases a with
  | never => exact listsMaximal_self List.nodup_nil (List.forall_mem_nil _)
  | union ts => exact listsMaximal_self ha.1.nodup fun t ht u hu => ha.1.eq_of_isSubtype ht hu
  | _ =>
    refine listsMaximal_self (List.nodup_singleton _) fun t ht u hu _ => ?_
    exact (List.mem_singleton.mp hu).trans (List.mem_singleton.mp ht).symm

/-- A part of the list may be united first. -/
theorem unionOf_splice (hts : ∀ t ∈ as ++ (bs ++ cs), t.Canonical) :
    unionOf (as ++ unionOf bs :: cs) = unionOf (as ++ (bs ++ cs)) := by
  obtain ⟨has, hbc⟩ := List.forall_mem_append.mp hts
  obtain ⟨hbs, hcs⟩ := List.forall_mem_append.mp hbc
  have hspliced : ∀ t ∈ as ++ unionOf bs :: cs, t.Canonical :=
    List.forall_mem_append.mpr ⟨has, List.forall_mem_cons.mpr ⟨canonical_unionOf hbs, hcs⟩⟩
  refine (unionOf_eq hts (canonical_unionOf hspliced) ?_).symm
  have hwhole := listsMaximal_unionOf hspliced
  rw [List.flatMap_append, List.flatMap_cons] at hwhole
  rw [List.flatMap_append, List.flatMap_append]
  refine .splice (fun t ht => ?_) (listsMaximal_unionOf hbs) hwhole
  rw [← List.flatMap_append, ← List.flatMap_append] at ht
  exact (canonical_of_mem_flatMap hts ht).1

theorem unionOf_singleton (ha : a.Canonical) : unionOf [a] = a := by
  refine unionOf_eq (List.forall_mem_singleton.mpr ha) ha ?_
  rw [List.flatMap_singleton]
  exact listsMaximal_members ha

theorem unionOf_append_self (hts : ∀ t ∈ ts, t.Canonical) : unionOf (ts ++ ts) = unionOf ts := by
  have htwice : ∀ t ∈ ts ++ ts, t.Canonical := List.forall_mem_append.mpr ⟨hts, hts⟩
  refine unionOf_eq htwice (canonical_unionOf hts) ?_
  have hcanonical := fun t (ht : t ∈ (ts ++ ts).flatMap members) => (canonical_of_mem_flatMap htwice ht).1
  rw [List.flatMap_append] at hcanonical ⊢
  exact (listsMaximal_unionOf hts).append_covered hcanonical fun u hu => ⟨u, hu, isSubtype_refl u⟩

theorem unionOf_pair_self (ha : a.Canonical) : unionOf [a, a] = a :=
  (unionOf_append_self (List.forall_mem_singleton.mpr ha)).trans (unionOf_singleton ha)

theorem members_unionOf_perm (hts : ∀ t ∈ ts, t.Canonical) (h : us.Perm ts) :
    (unionOf us).members.Perm (unionOf ts).members := by
  have hmax := listsMaximal_unionOf hts
  have hmax' := listsMaximal_unionOf fun t ht => hts t (h.mem_iff.mp ht)
  refine (List.perm_ext_iff_of_nodup hmax'.nodup hmax.nodup).mpr fun t => ?_
  simp only [hmax.mem_iff, hmax'.mem_iff, (h.flatMap_right members).mem_iff]

theorem join_eq_unionOf (ha : a.Canonical) : join a b false = unionOf [a, b] := by
  unfold join
  split_ifs with hab
  · exact hab ▸ (unionOf_pair_self ha).symm
  · split <;> simp_all

theorem foldl_join_eq_unionOf (hts : ∀ u ∈ t :: ts, u.Canonical) :
    ts.foldl (join · · false) t = unionOf (t :: ts) := by
  induction ts using List.reverseRecOn with
  | nil => exact (unionOf_singleton (List.forall_mem_singleton.mp hts)).symm
  | append_singleton ts u ih =>
    have hts' : ∀ v ∈ t :: ts, v.Canonical := fun v hv => hts v (List.mem_append_left [u] hv)
    rw [List.foldl_append, ih hts', List.foldl_cons, List.foldl_nil, join_eq_unionOf (canonical_unionOf hts')]
    exact @unionOf_splice [] (t :: ts) [u] hts

theorem unionOf_assoc {c : Ty} (ha : a.Canonical) (hb : b.Canonical) (hc : c.Canonical) :
    unionOf [unionOf [a, b], c] = unionOf [a, unionOf [b, c]] := by
  have hall : ∀ t ∈ [a, b, c], t.Canonical :=
    List.forall_mem_cons.mpr ⟨ha, List.forall_mem_cons.mpr ⟨hb, List.forall_mem_singleton.mpr hc⟩⟩
  exact (@unionOf_splice [] [a, b] [c] hall).trans (@unionOf_splice [a] [b, c] [] hall).symm

/-- **The laws of the union of canonical types.** Its members are the maximal ones of all alternatives, in the
order of first occurrence; it is canonical, associative and idempotent, the order of the types matters for the
order of the members only, and joining one type after another gives the same. -/
theorem unionOf_laws (hts : ∀ t ∈ ts, t.Canonical) :
    (∃ r, ListsMaximal (ts.flatMap members) r ∧ unionOf ts = ofMembers r) ∧
      (ts.flatMap members = [] → unionOf ts = .never) ∧
      (unionOf ts).Canonical ∧
      (∀ as bs cs, ts = as ++ (bs ++ cs) → unionOf (as ++ unionOf bs :: cs) = unionOf ts) ∧
      (∀ a ∈ ts, ∀ b ∈ ts, ∀ c ∈ ts, unionOf [unionOf [a, b], c] = unionOf [a, unionOf [b, c]]) ∧
      (∀ a ∈ ts, unionOf [a, a] = a) ∧
      (∀ us, us.Perm ts → (unionOf us).members.Perm (unionOf ts).members) ∧
      (ts ≠ [] → joinAll? ts false = some (unionOf ts)) := by
  refine ⟨exists_unionOf_eq hts, fun hnil => ?_, canonical_unionOf hts, ?_, ?_, ?_, ?_, fun hne => ?_⟩
  · rw [unionOf, flatten_eq_flatMap, hnil]
    rfl
  · rintro as bs cs rfl
    exact unionOf_splice hts
  · exact fun a ha b hb c hc => unionOf_assoc (hts a ha) (hts b hb) (hts c hc)
  · exact fun a ha => unionOf_pair_self (hts a ha)
  · exact fun us hperm => members_unionOf_perm hts hperm
  · match ts, hts, hne with
    | t :: us, hts, _ => exact congrArg some (foldl_join_eq_unionOf hts)

end Ty

namespace Sample

open Ty

/-- Types with members that occur again, inside other ones and below other ones. -/
def mixedTypes : List Ty :=
  [.list .int, .union [.int, .str], .never, .int, .union [.str, .list .any], .bool]

end Sample

namespace Ty

open Sample

theorem unionOf_laws_mixedTypes :
    (∀ t ∈ mixedTypes, t.Canonical) ∧ joinAll? mixedTypes false = some (unionOf mixedTypes) ∧
      unionOf mixedTypes = .union [.int, .str, .list .any, .bool] := by
  have hcanonical : ∀ t ∈ mixedTypes, t.Canonical := by decide +kernel
  obtain ⟨-, -, -, -, -, -, -, hjoin⟩ := unionOf_laws hcanonical
  exact ⟨hcanonical, hjoin (List.cons_ne_nil _ _), by decide +kernel⟩

end Ty

end NativeClass
