import NativeClass.OrderedMap.Indexed
import Mathlib.Data.List.Forall2
import Mathlib.Data.List.Nodup
/-!
# The theory of maps in insertion order

* `OrderedMap.get?_eq_some_iff`, `OrderedMap.index?_eq_some_iff`: look-ups in terms of the entries.
* `extendKeys`: names added to a list in the order of their first occurrence; the names after a run of
  insertions (`OrderedMap.keys_insertAll`).
* `OrderedMap.get?_insertAll`: the last value inserted under a name counts.
* **`OrderedMap.prefix_entries`**: a map whose names begin with those of another one, with the same
  values, begins with its entries.
* `IndexedMap.toOrderedMap_insertAll`, `IndexedMap.index?_toOrderedMap`: the key index follows every insertion.
-/

namespace NativeClass

/-! ## Lists that correspond -/

section Forall₂

variable {α β γ : Type} {R : α → β → Prop} {xs : List α} {ys : List β}

theorem exists_of_forall₂_of_mem (h : List.Forall₂ R xs ys) {x : α} (hx : x ∈ xs) :
    ∃ y ∈ ys, R x y := by
  induction h with
  | nil => cases hx
  | cons hr _ ih =>
    rcases List.mem_cons.mp hx with rfl | hx
    · exact ⟨_, List.mem_cons_self, hr⟩
    · obtain ⟨y, hy, hr⟩ := ih hx
      exact ⟨y, List.mem_cons_of_mem _ hy, hr⟩

theorem map_eq_of_forall₂ {f : α → γ} {g : β → γ} (h : List.Forall₂ R xs ys)
    (hfg : ∀ x y, R x y → f x = g y) : xs.map f = ys.map g := by
  rw [← List.forall₂_eq_eq_eq, List.forall₂_map_left_iff, List.forall₂_map_right_iff]
  exact h.imp hfg

end Forall₂

/-! ## The last element that counts -/

theorem findSome?_reverse_eq_some_iff {α β : Type} {f : α → Option β} {l : List α} {b : β} :
    l.reverse.findSome? f = some b ↔
      ∃ before a after, l = before ++ a :: after ∧ f a = some b ∧ ∀ a' ∈ after, f a' = none := by
  rw [List.findSome?_eq_some_iff]
  constructor
  · rintro ⟨after, a, before, hl, ha, hnone⟩
    have hl' : l = before.reverse ++ a :: after.reverse := by
      simpa using congrArg List.reverse hl
    exact ⟨_, a, _, hl', ha, fun a' ha' => hnone a' (List.mem_reverse.mp ha')⟩
  · rintro ⟨before, a, after, rfl, ha, hnone⟩
    exact ⟨after.reverse, a, before.reverse, by simp, ha, fun a' ha' => hnone a' (List.mem_reverse.mp ha')⟩

/-! ## Lists with distinct keys -/

section Keyed

variable {α κ : Type} [DecidableEq κ] (key : α → κ) {l : List α}

theorem find?_key_eq_some_iff (hn : (l.map key).Nodup) {k : κ} {a : α} :
    l.find? (key · = k) = some a ↔ a ∈ l ∧ key a = k := by
  constructor
  · intro h
    exact ⟨List.mem_of_find?_eq_some h, by simpa using List.find?_some h⟩
  · rintro ⟨ha, rfl⟩
    have hsome : (l.find? (key · = key a)).isSome :=
      List.find?_isSome.mpr ⟨a, ha, decide_eq_true rfl⟩
    obtain ⟨b, hb⟩ := Option.isSome_iff_exists.mp hsome
    have hkey : key b = key a := by simpa using List.find?_some hb
    rw [hb, List.inj_on_of_nodup_map hn (List.mem_of_find?_eq_some hb) ha hkey]

omit [DecidableEq κ] in
theorem getElem?_of_prefix {l' : List α} (h : l <+: l') {i : Nat} {a : α} (hi : l[i]? = some a) :
    l'[i]? = some a := by
  obtain ⟨hlt, rfl⟩ := List.getElem?_eq_some_iff.mp hi
  exact List.prefix_iff_getElem?.mp h i hlt

end Keyed

/-! ## Names in the order of first occurrence -/

/-- The names of a list added to others, each once, in the order of first occurrence. -/
def extendKeys (ks : List String) : List String → List String
  | [] => ks
  | n :: ns => extendKeys (if n ∈ ks then ks else ks ++ [n]) ns

theorem prefix_extendKeys (ks ns : List String) : ks <+: extendKeys ks ns := by
  induction ns generalizing ks with
  | nil => exact List.prefix_refl ks
  | cons n ns ih =>
    refine List.IsPrefix.trans ?_ (ih _)
    split
    · exact List.prefix_refl ks
    · exact List.prefix_append ks [n]

theorem mem_extendKeys {ks ns : List String} {k : String} :
    k ∈ extendKeys ks ns ↔ k ∈ ks ∨ k ∈ ns := by
  induction ns generalizing ks with
  | nil => simp [extendKeys]
  | cons n ns ih =>
    rw [extendKeys, ih]
    by_cases hn : n ∈ ks
    · rw [if_pos hn, List.mem_cons]
      constructor
      · rintro (h | h)
        · exact Or.inl h
        · exact Or.inr (Or.inr h)
      · rintro (h | rfl | h)
        · exact Or.inl h
        · exact Or.inl hn
        · exact Or.inr h
    · rw [if_neg hn, List.mem_append, List.mem_singleton, List.mem_cons, or_assoc]

theorem extendKeys_append (ks ns ns' : List String) :
    extendKeys ks (ns ++ ns') = extendKeys (extendKeys ks ns) ns' := by
  induction ns generalizing ks with
  | nil => rfl
  | cons n ns ih => rw [List.cons_append, extendKeys, ih, extendKeys]

/-- The new names follow in the order of first occurrence. -/
theorem extendKeys_eq_append_eraseDups (ks ns : List String) :
    extendKeys ks ns = ks ++ (ns.filter (· ∉ ks)).eraseDups := by
  induction ns generalizing ks with
  | nil => simp [extendKeys]
  | cons n ns ih =>
    rw [extendKeys, ih]
    by_cases hn : n ∈ ks
    · simp [hn]
    · have hfilter : ns.filter (· ∉ ks ++ [n]) = (ns.filter (· ∉ ks)).filter fun m => !m == n := by
        rw [List.filter_filter]
        refine List.filter_congr fun m _ => ?_
        by_cases hm : m = n <;> simp [hm]
      rw [if_neg hn, hfilter, List.filter_cons_of_pos (by simpa using hn), List.eraseDups_cons]
      simp

theorem extendKeys_nil_eq_eraseDups (ns : List String) : extendKeys [] ns = ns.eraseDups := by
  simp [extendKeys_eq_append_eraseDups]

theorem eraseDups_of_nodup {ns : List String} (hn : ns.Nodup) : ns.eraseDups = ns := by
  induction ns with
  | nil => rfl
  | cons n ns ih =>
    obtain ⟨hnew, hns⟩ := List.nodup_cons.mp hn
    have hfilter : ns.filter (fun m => !m == n) = ns :=
      List.filter_eq_self.mpr fun m hm => by simpa using fun he : m = n => hnew (he ▸ hm)
    rw [List.eraseDups_cons, hfilter, ih hns]

/-- Names without repetition: the new ones follow in their own order. -/
theorem extendKeys_eq_append {ns : List String} (hn : ns.Nodup) (ks : List String) :
    extendKeys ks ns = ks ++ ns.filter (· ∉ ks) := by
  rw [extendKeys_eq_append_eraseDups, eraseDups_of_nodup (hn.filter _)]

theorem extendKeys_nil {ns : List String} (hn : ns.Nodup) : extendKeys [] ns = ns := by
  rw [extendKeys_eq_append hn]
  simp

theorem append_filter_eq {ks ns : List String} (h : ks <+: ns) (hn : ns.Nodup) :
    ks ++ ns.filter (· ∉ ks) = ns := by
  obtain ⟨rest, rfl⟩ := h
  have hdisj : ks.Disjoint rest := List.disjoint_of_nodup_append hn
  have hrest : rest.filter (· ∉ ks) = rest :=
    List.filter_eq_self.mpr fun r hr => by simpa using fun h => hdisj h hr
  have hks : ks.filter (· ∉ ks) = [] :=
    List.filter_eq_nil_iff.mpr fun r hr => by simpa using hr
  rw [List.filter_append, hks, hrest, List.nil_append]

/-- **A list of names keeps its places in an extension exactly when one of the two lists extends the
other.** -/
theorem prefix_extendKeys_iff {ks ns : List String} (hn : ns.Nodup) :
    ns <+: extendKeys ks ns ↔ ns <+: ks ∨ ks <+: ns := by
  rw [extendKeys_eq_append hn]
  constructor
  · intro h
    exact List.prefix_or_prefix_of_prefix h (List.prefix_append ks _)
  · rintro (h | h)
    · exact h.trans (List.prefix_append ks _)
    · exact ⟨[], by rw [List.append_nil, append_filter_eq h hn]⟩

namespace OrderedMap

variable {α β : Type} {m m' : OrderedMap α} {k : String}

/-! ## Look-ups -/

theorem nodup_keys (m : OrderedMap α) : m.keys.Nodup := m.nodup

theorem lookup_eq_none_iff {es : List (String × α)} {k : String} : es.lookup k = none ↔ k ∉ es.map Prod.fst := by
  rw [← Option.not_isSome_iff_eq_none, lookup_isSome_iff]

theorem lookup_eq_some_iff {es : List (String × α)} (hn : (es.map Prod.fst).Nodup) {v : α} :
    es.lookup k = some v ↔ (k, v) ∈ es := by
  induction es with
  | nil => simp
  | cons e es ih =>
    rw [List.map_cons, List.nodup_cons] at hn
    rw [lookup_cons_eq, List.mem_cons]
    by_cases h : k = e.1
    · subst h
      have hmem : (e.1, v) ∉ es := fun hv => hn.1 (List.mem_map.mpr ⟨_, hv, rfl⟩)
      simp only [if_true, hmem, or_false, Option.some.injEq]
      constructor
      · rintro rfl; rfl
      · intro he; exact (congrArg Prod.snd he).symm
    · rw [if_neg h, ih hn.2]
      have hne : (k, v) ≠ e := fun he => h (congrArg Prod.fst he)
      simp only [hne, false_or]

theorem mem_of_lookup {es : List (String × α)} {v : α} (h : es.lookup k = some v) : (k, v) ∈ es := by
  obtain ⟨before, after, rfl, -⟩ := List.lookup_eq_some_iff.mp h
  exact List.mem_append_right before List.mem_cons_self

theorem get?_eq_some_iff {v : α} : m.get? k = some v ↔ (k, v) ∈ m.entries :=
  lookup_eq_some_iff m.nodup

theorem get?_isSome_iff : (m.get? k).isSome ↔ k ∈ m.keys :=
  contains_iff m k

theorem get?_eq_none_iff : m.get? k = none ↔ k ∉ m.keys := by
  rw [← get?_isSome_iff, Option.not_isSome_iff_eq_none]

theorem mem_keys_of_get? {v : α} (h : m.get? k = some v) : k ∈ m.keys :=
  get?_isSome_iff.mp (by rw [h]; rfl)

theorem exists_get?_of_mem_keys (h : k ∈ m.keys) : ∃ v, m.get? k = some v :=
  Option.isSome_iff_exists.mp (get?_isSome_iff.mpr h)

theorem forall_get?_insert {P : String → α → Prop} {name : String} {value : α}
    (h : ∀ k v, m.get? k = some v → P k v) (hvalue : P name value) :
    ∀ k v, (m.insert name value).get? k = some v → P k v := by
  intro k v hv
  rw [get?_insert] at hv
  split at hv
  next hk =>
    cases hv
    exact hk ▸ hvalue
  · exact h k v hv

theorem upsert_of_lookup {es : List (String × α)} {v : α} (h : es.lookup k = some v) : upsert k v es = es := by
  induction es with
  | nil => cases h
  | cons e es ih =>
    obtain ⟨k', v'⟩ := e
    rw [lookup_cons_eq] at h
    rw [upsert]
    by_cases hk : k = k'
    · rw [if_pos hk, Option.some.injEq] at h
      rw [if_pos hk.symm, hk, ← h]
    · rw [if_neg hk] at h
      rw [if_neg (Ne.symm hk), ih h]

/-- Inserting the value that a name has changes nothing. -/
theorem insert_of_get? {v : α} (h : m.get? k = some v) : m.insert k v = m := by
  obtain ⟨entries, nodup⟩ := m
  rw [insert, mk.injEq]
  exact upsert_of_lookup h

theorem index?_eq_some_iff {i : Nat} : m.index? k = some i ↔ m.keys[i]? = some k := by
  unfold index?
  rw [List.findIdx?_eq_some_iff_getElem]
  constructor
  · rintro ⟨hi, hk, -⟩
    rw [List.getElem?_eq_getElem hi]
    simpa using hk
  · intro h
    obtain ⟨hi, rfl⟩ := List.getElem?_eq_some_iff.mp h
    refine ⟨hi, by simp, fun j hj => ?_⟩
    have hne : m.keys[j] ≠ m.keys[i] := fun he =>
      absurd ((List.Nodup.getElem_inj_iff m.nodup_keys).mp he) (by omega)
    simpa using hne

theorem index?_isSome_iff : (m.index? k).isSome ↔ k ∈ m.keys := by
  rw [Option.isSome_iff_exists, List.mem_iff_getElem?]
  exact exists_congr fun _ => index?_eq_some_iff

/-! ## Runs of insertions -/

theorem insertAll_cons (m : OrderedMap α) (e : String × α) (es : List (String × α)) :
    m.insertAll (e :: es) = (m.insert e.1 e.2).insertAll es := rfl

theorem insertAll_append (m : OrderedMap α) (es es' : List (String × α)) :
    m.insertAll (es ++ es') = (m.insertAll es).insertAll es' :=
  List.foldl_append

theorem keys_insertAll (m : OrderedMap α) (es : List (String × α)) :
    (m.insertAll es).keys = extendKeys m.keys (es.map Prod.fst) := by
  induction es generalizing m with
  | nil => rfl
  | cons e es ih => rw [insertAll_cons, ih, keys_insert, List.map_cons, extendKeys]

theorem keys_insert_eq_extendKeys (m : OrderedMap α) (name : String) (value : α) :
    (m.insert name value).keys = extendKeys m.keys [name] :=
  m.keys_insert name value

theorem mem_keys_insertAll {es : List (String × α)} :
    k ∈ (m.insertAll es).keys ↔ k ∈ m.keys ∨ k ∈ es.map Prod.fst := by
  rw [keys_insertAll, mem_extendKeys]

/-- The last value inserted under a name counts, then the old one. -/
theorem get?_insertAll (m : OrderedMap α) (es : List (String × α)) :
    (m.insertAll es).get? k = (es.reverse.lookup k).or (m.get? k) := by
  induction es generalizing m with
  | nil => rfl
  | cons e es ih =>
    rw [insertAll_cons, ih, List.reverse_cons, List.lookup_append, get?_insert, lookup_cons_eq]
    cases es.reverse.lookup k with
    | some v => rfl
    | none => by_cases h : k = e.1 <;> simp [h]

theorem mem_or_get?_of_get?_insertAll {m : OrderedMap α} {es : List (String × α)} {v : α}
    (h : (m.insertAll es).get? k = some v) : (k, v) ∈ es ∨ m.get? k = some v := by
  rw [get?_insertAll, Option.or_eq_some_iff] at h
  exact h.imp (fun hl => List.mem_reverse.mp (mem_of_lookup hl)) And.right

theorem lookup_reverse {es : List (String × α)} (hn : (es.map Prod.fst).Nodup) :
    es.reverse.lookup k = es.lookup k := by
  have hr : (es.reverse.map Prod.fst).Nodup := by
    rw [List.map_reverse]
    exact List.nodup_reverse.2 hn
  apply Option.ext
  intro v
  rw [lookup_eq_some_iff hr, lookup_eq_some_iff hn, List.mem_reverse]

theorem lookup_reverse_of_notMem {before after : List (String × α)} {v : α} (h : k ∉ after.map Prod.fst) :
    (before ++ (k, v) :: after).reverse.lookup k = some v := by
  have hnone : after.reverse.lookup k = none := by
    rw [lookup_eq_none_iff, List.map_reverse, List.mem_reverse]
    exact h
  simp [List.lookup_append, hnone]

theorem get?_insertAll_of_nodup (m : OrderedMap α) {es : List (String × α)}
    (hn : (es.map Prod.fst).Nodup) : (m.insertAll es).get? k = (es.lookup k).or (m.get? k) := by
  rw [get?_insertAll, lookup_reverse hn]

/-- The last pair of a name, among pairs made from the elements of a list, comes from the last element that
has one. -/
theorem lookup_reverse_flatMap {f : β → List (String × α)} {l : List β}
    (hf : ∀ b ∈ l, ((f b).map Prod.fst).Nodup) :
    (l.flatMap f).reverse.lookup k = l.reverse.findSome? fun b => (f b).lookup k := by
  induction l with
  | nil => rfl
  | cons b l ih =>
    rw [List.flatMap_cons, List.reverse_append, List.lookup_append,
      ih fun b' hb' => hf b' (List.mem_cons_of_mem _ hb'), lookup_reverse (hf b List.mem_cons_self),
      List.reverse_cons, List.findSome?_append]
    simp

/-- Insertions for each element of a list: those for the last element that has some count. -/
theorem get?_insertAll_flatMap {f : β → List (String × α)} {l : List β}
    (hf : ∀ b ∈ l, ((f b).map Prod.fst).Nodup) (m : OrderedMap α) :
    (m.insertAll (l.flatMap f)).get? k = (l.reverse.findSome? fun b => (f b).lookup k).or (m.get? k) := by
  rw [get?_insertAll, lookup_reverse_flatMap hf]

theorem lookup_map_pair (key : β → String) (value : β → α) (l : List β) :
    (l.map fun b => (key b, value b)).lookup k = (l.find? (key · = k)).map value := by
  induction l with
  | nil => rfl
  | cons b l ih =>
    rw [List.map_cons, lookup_cons_eq, ih, List.find?_cons]
    by_cases h : key b = k
    · rw [if_pos h.symm, decide_eq_true h]
      rfl
    · rw [if_neg fun hk => h hk.symm, decide_eq_false h]

/-! ## Values -/

@[simp] theorem keys_mapValues (f : α → β) (m : OrderedMap α) : (m.mapValues f).keys = m.keys := by
  simp [keys, mapValues, Function.comp_def]

theorem lookup_mapValues (f : α → β) (es : List (String × α)) :
    (es.map fun e => (e.1, f e.2)).lookup k = (es.lookup k).map f := by
  induction es with
  | nil => rfl
  | cons e es ih =>
    rw [List.map_cons, lookup_cons_eq, lookup_cons_eq, ih]
    split <;> rfl

@[simp] theorem get?_mapValues (f : α → β) (m : OrderedMap α) :
    (m.mapValues f).get? k = (m.get? k).map f :=
  lookup_mapValues f m.entries

/-! ## Maps with the same names -/

theorem forall₂_entries {R : α → β → Prop} {m' : OrderedMap β} (hk : m.keys = m'.keys)
    (h : ∀ k v v', m.get? k = some v → m'.get? k = some v' → R v v') :
    List.Forall₂ (fun e e' => e.1 = e'.1 ∧ R e.2 e'.2) m.entries m'.entries := by
  have hlen : m.entries.length = m'.entries.length := by
    simpa [keys] using congrArg List.length hk
  refine List.forall₂_iff_get.mpr ⟨hlen, fun i hi hi' => ?_⟩
  have hname : m.entries[i].1 = m'.entries[i].1 := by
    have hkeys : m.keys[i]? = m'.keys[i]? := by rw [hk]
    simpa [keys, hi, hi'] using hkeys
  have hv : m.get? m.entries[i].1 = some m.entries[i].2 := get?_eq_some_iff.mpr (List.getElem_mem hi)
  have hv' : m'.get? m.entries[i].1 = some m'.entries[i].2 :=
    get?_eq_some_iff.mpr (hname ▸ List.getElem_mem hi')
  exact ⟨hname, h _ _ _ hv hv'⟩

/-! ## Prefixes -/

theorem index?_of_prefix (h : m.keys <+: m'.keys) (hk : k ∈ m.keys) : m'.index? k = m.index? k := by
  obtain ⟨i, hi⟩ := Option.isSome_iff_exists.mp (index?_isSome_iff.mpr hk)
  rw [hi, index?_eq_some_iff]
  exact getElem?_of_prefix h (index?_eq_some_iff.mp hi)

/-- **A map whose names begin with those of another one, with the same values, begins with its
entries.** -/
theorem prefix_entries (hk : m.keys <+: m'.keys) (hv : ∀ k ∈ m.keys, m'.get? k = m.get? k) :
    m.entries <+: m'.entries := by
  rw [List.prefix_iff_getElem?]
  intro i hi
  have hkey : m.keys[i]? = some m.entries[i].1 := by
    simp [keys, List.getElem?_eq_getElem hi]
  have hkey' : m'.keys[i]? = some m.entries[i].1 := getElem?_of_prefix hk hkey
  have hget : m.get? m.entries[i].1 = some m.entries[i].2 :=
    get?_eq_some_iff.mpr (List.getElem_mem hi)
  obtain ⟨e, he, hek⟩ := Option.map_eq_some_iff.mp ((List.getElem?_map ..).symm.trans hkey')
  have hget' : m'.get? e.1 = some e.2 := get?_eq_some_iff.mpr (List.mem_of_getElem? he)
  rw [hek, hv _ (mem_keys_of_get? hget), hget, Option.some.injEq] at hget'
  rw [he, Option.some.injEq]
  exact Prod.ext hek hget'.symm

/-! ## The key index -/

theorem upsert_of_notMem {es : List (String × α)} {name : String} (value : α)
    (h : name ∉ es.map Prod.fst) : upsert name value es = es ++ [(name, value)] := by
  induction es with
  | nil => rfl
  | cons e es ih =>
    rw [List.map_cons, List.mem_cons, not_or] at h
    rw [upsert, if_neg fun he => h.1 he.symm, ih h.2, List.cons_append]

theorem upsert_of_getElem? {es : List (String × α)} (hn : (es.map Prod.fst).Nodup) {name : String}
    (value : α) {i : Nat} (h : (es.map Prod.fst)[i]? = some name) :
    upsert name value es = es.modify i fun e => (e.1, value) := by
  induction es generalizing i with
  | nil => cases h
  | cons e es ih =>
    rw [List.map_cons, List.nodup_cons] at hn
    cases i with
    | zero =>
      have he : e.1 = name := by simpa using h
      rw [upsert, if_pos he, List.modify_zero_cons, he]
    | succ i =>
      have hrest : (es.map Prod.fst)[i]? = some name := by simpa using h
      have hne : e.1 ≠ name := fun he => hn.1 (he ▸ List.mem_of_getElem? hrest)
      rw [upsert, if_neg hne, ih hn.2 hrest, List.modify_succ_cons]

end OrderedMap

namespace IndexedMap

variable {α : Type} (m : IndexedMap α)

theorem index?_toOrderedMap (name : String) : m.toOrderedMap.index? name = m.index? name := by
  apply Option.ext
  intro i
  rw [OrderedMap.index?_eq_some_iff]
  exact (m.index_iff name i).symm

/-- An entry stands at the place of its name, with the value of its name. -/
theorem getElem?_entries_eq_some_iff {i : Nat} {name : String} {value : α} :
    m.entries[i]? = some (name, value) ↔ m.index? name = some i ∧ m.get? name = some value := by
  constructor
  · intro h
    have hindex : m.index? name = some i := (m.index_iff name i).mpr (by simp [h])
    exact ⟨hindex, by simp [get?, hindex, h]⟩
  · rintro ⟨hindex, hget⟩
    have hname := (m.index_iff name i).mp hindex
    rw [List.getElem?_map] at hname
    obtain ⟨e, he, rfl⟩ := Option.map_eq_some_iff.mp hname
    rw [get?, hindex, Option.bind_some, he, Option.map_some, Option.some.injEq] at hget
    rw [he, ← hget]

theorem get?_toOrderedMap (name : String) : m.toOrderedMap.get? name = m.get? name := by
  apply Option.ext
  intro v
  have hentry : m.toOrderedMap.get? name = some v ↔ ∃ i, m.index? name = some i ∧ m.get? name = some v := by
    rw [OrderedMap.get?_eq_some_iff, List.mem_iff_getElem?]
    exact exists_congr fun _ => m.getElem?_entries_eq_some_iff
  rw [hentry]
  constructor
  · rintro ⟨i, -, hv⟩
    exact hv
  · intro hv
    obtain ⟨i, hindex, -⟩ := Option.bind_eq_some_iff.mp hv
    exact ⟨i, hindex, hv⟩

theorem toOrderedMap_replaceAt {name : String} {i : Nat} (h : m.index? name = some i) (value : α) :
    (m.replaceAt i value).toOrderedMap = m.toOrderedMap.insert name value := by
  have hupsert := OrderedMap.upsert_of_getElem? m.nodup value ((m.index_iff name i).mp h)
  simp only [toOrderedMap, OrderedMap.insert, replaceAt, hupsert]

theorem toOrderedMap_append {name : String} (value : α) (h : m.index? name = none) :
    (m.append name value h).toOrderedMap = m.toOrderedMap.insert name value := by
  have hupsert := OrderedMap.upsert_of_notMem value ((m.index?_eq_none_iff name).mp h)
  simp only [toOrderedMap, OrderedMap.insert, append, hupsert]

/-- **The key index follows an insertion**, of a new name and of one that has its place. -/
theorem toOrderedMap_insert (name : String) (value : α) :
    (m.insert name value).toOrderedMap = m.toOrderedMap.insert name value := by
  unfold insert
  split
  next i hi => exact m.toOrderedMap_replaceAt hi value
  next h => exact m.toOrderedMap_append value h

theorem toOrderedMap_insertAll (pairs : List (String × α)) :
    (m.insertAll pairs).toOrderedMap = m.toOrderedMap.insertAll pairs := by
  induction pairs generalizing m with
  | nil => rfl
  | cons e pairs ih =>
    have hstep : m.insertAll (e :: pairs) = (m.insert e.1 e.2).insertAll pairs := rfl
    rw [hstep, ih, toOrderedMap_insert, OrderedMap.insertAll_cons]

end IndexedMap

end NativeClass
