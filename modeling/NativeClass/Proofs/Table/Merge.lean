import NativeClass.Proofs.Table
/-!
# The flat merge of base tables

The tables of all bases are written into one, base after base, and the own entries of the class last. The
first writer of a name fixes its place, the last one its value and its origin.

* `Table.Builder.inheritAll`: the merge of several bases; `keys_inheritAll` and `get?_inheritAll` are its names
  and its entries.
* **`Table.Builder.mergesFlat_freeze`**: the frozen table of any merge (`Table.MergesFlat`).
-/

namespace NativeClass

namespace Table.Builder

variable {α : Type} {name : String}

/-! ## Several bases -/

/-- The builder with the tables of several named bases merged into it, one after another. -/
def inheritAll (b : Builder α) (bases : List (String × Table α)) : Builder α :=
  bases.foldl (fun b base => b.inheritFrom base.1 base.2) b

theorem entries_inheritAll (b : Builder α) (bases : List (String × Table α)) :
    (b.inheritAll bases).entries =
      b.entries.insertAll (bases.flatMap fun base => handedDown base.1 base.2) := by
  induction bases generalizing b with
  | nil => rfl
  | cons base bases ih =>
    have hstep : b.inheritAll (base :: bases) = (b.inheritFrom base.1 base.2).inheritAll bases := rfl
    rw [hstep, ih, entries_inheritFrom, List.flatMap_cons, OrderedMap.insertAll_append]

theorem keys_inheritAll (b : Builder α) (bases : List (String × Table α)) :
    (b.inheritAll bases).entries.keys = extendKeys b.entries.keys (bases.flatMap (·.2.names)) := by
  rw [entries_inheritAll, OrderedMap.keys_insertAll, List.map_flatMap]
  simp only [map_fst_handedDown]

/-- The last base that has a name counts, then what was there. -/
theorem get?_inheritAll (b : Builder α) (bases : List (String × Table α)) (name : String) :
    (b.inheritAll bases).entries.get? name =
      (bases.reverse.findSome? fun base => (base.2.get? name).map (⟨·, .inherited base.1⟩)).or
        (b.entries.get? name) := by
  rw [entries_inheritAll, OrderedMap.get?_insertAll_flatMap fun _ _ => nodup_handedDown _ _]
  simp only [lookup_handedDown]

/-! ## All writes -/

/-- What is written into a table: the entries that the bases hand down, and then the own ones. -/
def writes (bases : List (String × Table α)) (own : List (String × α)) : List (String × Entry α) :=
  bases.flatMap (fun base => handedDown base.1 base.2) ++ own.map fun e => (e.1, ⟨e.2, .own⟩)

theorem entries_insertOwns_inheritAll (parents : List (Table α)) (bases : List (String × Table α))
    (own : List (String × α)) :
    (((ofParents parents).inheritAll bases).insertOwns own).entries =
      OrderedMap.empty.insertAll (writes bases own) := by
  rw [entries_insertOwns, entries_inheritAll, writes, OrderedMap.insertAll_append]
  rfl

end Table.Builder

/-! ## The merged table -/

namespace Table

variable {α : Type} {name : String}

/-- The table is the flat merge of the tables of some named bases, and of own entries after them. -/
structure MergesFlat (bases : List (String × Table α)) (own : List (String × α)) (t : Table α) : Prop where
  /-- The names stand in the order of first occurrence, each once. -/
  names : t.names = (bases.flatMap (·.2.names) ++ own.map Prod.fst).eraseDups
  /-- The last own entry of a name counts. -/
  last_own : ∀ before name v after, own = before ++ (name, v) :: after → name ∉ after.map Prod.fst →
    t.entries.get? name = some ⟨v, .own⟩
  /-- Without one, the last base that has the name counts. -/
  last_base : ∀ before base parent after name v, name ∉ own.map Prod.fst →
    bases = before ++ (base, parent) :: after → parent.get? name = some v →
      (∀ later ∈ after, name ∉ later.2.names) → t.entries.get? name = some ⟨v, .inherited base⟩
  index : ∀ name i, t.index? name = some i ↔ t.names[i]? = some name
  /-- The first base keeps its places. -/
  first_base : ∀ base parent rest, bases = (base, parent) :: rest →
    ∀ name ∈ parent.names, t.index? name = parent.index? name
  /-- A key index that is kept beside the entries through all writes gives the same places and entries. -/
  stored : ∀ name, (IndexedMap.empty.insertAll (Builder.writes bases own)).index? name = t.index? name ∧
    (IndexedMap.empty.insertAll (Builder.writes bases own)).get? name = t.entries.get? name

/-- **Merged tables.** The first writer of a name fixes its place, the last one its value and its origin. -/
theorem Builder.mergesFlat_freeze (parents : List (Table α)) (bases : List (String × Table α))
    (own : List (String × α)) :
    MergesFlat bases own (((Builder.ofParents parents).inheritAll bases).insertOwns own).freeze := by
  let b : Builder α := (Builder.ofParents parents).inheritAll bases
  have hkeys : (b.insertOwns own).freeze.names = extendKeys (extendKeys [] (bases.flatMap (·.2.names)))
      (own.map Prod.fst) := by
    have hown := Builder.keys_insertOwns b own
    rwa [Builder.keys_inheritAll] at hown
  refine ⟨?_, ?_, ?_, fun name i => OrderedMap.index?_eq_some_iff, ?_, ?_⟩
  · rw [hkeys, ← extendKeys_append, extendKeys_nil_eq_eraseDups]
  · rintro before name v after rfl hlast
    have hget := Builder.get?_insertOwns_eq_or b (before ++ (name, v) :: after) name
    rwa [OrderedMap.lookup_reverse_of_notMem hlast] at hget
  · intro before base parent after name v hown hbases hv hlater
    have hnone : own.reverse.lookup name = none := by
      rw [OrderedMap.lookup_eq_none_iff, List.map_reverse, List.mem_reverse]
      exact hown
    have hlast : (bases.reverse.findSome? fun base =>
        (base.2.get? name).map (⟨·, .inherited base.1⟩ : α → Entry α)) = some ⟨v, .inherited base⟩ := by
      refine findSome?_reverse_eq_some_iff.mpr ⟨before, (base, parent), after, hbases, by simp [hv], ?_⟩
      intro later hmem
      have habsent : later.2.entries.get? name = none := OrderedMap.get?_eq_none_iff.mpr (hlater later hmem)
      simp [Table.get?, habsent]
    have hget := Builder.get?_insertOwns_eq_or b own name
    rwa [hnone, Builder.get?_inheritAll, hlast] at hget
  · rintro base parent rest rfl name hname
    refine index?_of_prefix ?_ hname
    rw [hkeys, List.flatMap_cons, extendKeys_append, extendKeys_nil parent.nodup_names]
    exact (prefix_extendKeys _ _).trans (prefix_extendKeys _ _)
  · intro name
    have hmap : (IndexedMap.empty.insertAll (Builder.writes bases own)).toOrderedMap =
        (b.insertOwns own).entries := by
      rw [IndexedMap.toOrderedMap_insertAll, Builder.entries_insertOwns_inheritAll]
      rfl
    rw [← IndexedMap.index?_toOrderedMap, ← IndexedMap.get?_toOrderedMap, hmap]
    exact ⟨rfl, rfl⟩

/-- `x` keeps the place that the first base gave it, with the value of the second one. -/
example : (((Builder.ofParents []).inheritAll
    [("A", ofOwn [("x", 1), ("a", 2)]), ("B", ofOwn [("b", 3), ("x", 4)])]).insertOwns
      [("c", 5)]).freeze.entries.entries =
    [("x", ⟨4, .inherited "B"⟩), ("a", ⟨2, .inherited "A"⟩), ("b", ⟨3, .inherited "B"⟩), ("c", ⟨5, .own⟩)] := by
  rfl

end Table

end NativeClass
