import NativeClass.Proofs.OrderedMap
import NativeClass.Table
/-!
# The theory of tables

* `Table.index?_of_prefix`, `Table.index?_eq_iff`: places in a table and in one that begins with its names.
* `Table.Builder.entries_inheritFrom`, `Table.Builder.entries_insertOwns`: a merge and a run of own
  insertions as insertions into the entries.
* `Table.Builder.get?_insertOwns`: an own entry counts, then what was there.
-/

namespace NativeClass.Table

variable {α : Type} {t t' : Table α} {name : String}

/-! ## Look-ups -/

theorem get?_eq_some_iff {v : α} :
    t.get? name = some v ↔ ∃ e, t.entries.get? name = some e ∧ e.value = v :=
  Option.map_eq_some_iff

theorem nodup_names (t : Table α) : t.names.Nodup := t.entries.nodup_keys

theorem mem_names_of_get? {v : α} (h : t.get? name = some v) : name ∈ t.names := by
  obtain ⟨e, he, -⟩ := get?_eq_some_iff.mp h
  exact OrderedMap.mem_keys_of_get? he

theorem exists_get?_of_mem_names (h : name ∈ t.names) : ∃ v, t.get? name = some v := by
  obtain ⟨e, he⟩ := OrderedMap.exists_get?_of_mem_keys h
  exact ⟨e.value, get?_eq_some_iff.mpr ⟨e, he, rfl⟩⟩

theorem index?_of_prefix (h : t.names <+: t'.names) (hn : name ∈ t.names) :
    t'.index? name = t.index? name :=
  OrderedMap.index?_of_prefix h hn

/-- **All names keep their places exactly when the names of the second table begin with those of the
first one.** -/
theorem index?_eq_iff :
    (∀ name ∈ t.names, t'.index? name = t.index? name) ↔ t.names <+: t'.names := by
  constructor
  · intro h
    rw [List.prefix_iff_getElem?]
    intro i hi
    have hname : t.names[i]? = some t.names[i] := List.getElem?_eq_getElem hi
    have hidx : t.index? t.names[i] = some i := OrderedMap.index?_eq_some_iff.mpr hname
    exact OrderedMap.index?_eq_some_iff.mp ((h _ (List.getElem_mem hi)).trans hidx)
  · intro h name hn
    exact index?_of_prefix h hn

namespace Builder

/-! ## Merges -/

/-- The entries that a base hands down. -/
def handedDown (base : String) (t : Table α) : List (String × Entry α) :=
  (t.entries.mapValues fun e => ⟨e.value, .inherited base⟩).entries

theorem map_fst_handedDown (base : String) (t : Table α) :
    (handedDown base t).map Prod.fst = t.names :=
  OrderedMap.keys_mapValues _ _

theorem nodup_handedDown (base : String) (t : Table α) :
    ((handedDown base t).map Prod.fst).Nodup := by
  rw [map_fst_handedDown]
  exact t.nodup_names

theorem lookup_handedDown (base : String) (t : Table α) (name : String) :
    (handedDown base t).lookup name = (t.get? name).map (⟨·, .inherited base⟩) := by
  rw [Table.get?, Option.map_map]
  exact OrderedMap.get?_mapValues _ _

theorem entries_inheritFrom (b : Builder α) (base : String) (t : Table α) :
    (b.inheritFrom base t).entries = b.entries.insertAll (handedDown base t) := rfl

/-! ## Own entries -/

/-- The builder with several entries of the class itself. -/
def insertOwns (b : Builder α) (own : List (String × α)) : Builder α :=
  own.foldl (fun b e => b.insertOwn e.1 e.2) b

theorem entries_insertOwns (b : Builder α) (own : List (String × α)) :
    (b.insertOwns own).entries = b.entries.insertAll (own.map fun e => (e.1, ⟨e.2, .own⟩)) := by
  induction own generalizing b with
  | nil => rfl
  | cons e own ih => rw [insertOwns, List.foldl_cons, ← insertOwns, ih]; rfl

theorem keys_insertOwns (b : Builder α) (own : List (String × α)) :
    (b.insertOwns own).entries.keys = extendKeys b.entries.keys (own.map Prod.fst) := by
  rw [entries_insertOwns, OrderedMap.keys_insertAll, List.map_map]
  rfl

/-- The last own entry counts, then what was there. -/
theorem get?_insertOwns_eq_or (b : Builder α) (own : List (String × α)) (name : String) :
    (b.insertOwns own).entries.get? name =
      ((own.reverse.lookup name).map (⟨·, .own⟩)).or (b.entries.get? name) := by
  rw [entries_insertOwns, OrderedMap.get?_insertAll, ← List.map_reverse,
    OrderedMap.lookup_mapValues (fun v => (⟨v, .own⟩ : Entry α))]

theorem get?_insertOwns (b : Builder α) {own : List (String × α)} (hn : (own.map Prod.fst).Nodup) :
    (b.insertOwns own).entries.get? name =
      ((own.lookup name).map (⟨·, .own⟩)).or (b.entries.get? name) := by
  rw [get?_insertOwns_eq_or, OrderedMap.lookup_reverse hn]

theorem get?_freeze_insertOwns (b : Builder α) {own : List (String × α)} (hn : (own.map Prod.fst).Nodup) :
    (b.insertOwns own).freeze.get? name = (own.lookup name).or (b.get? name) := by
  show ((b.insertOwns own).entries.get? name).map Entry.value = _
  rw [get?_insertOwns b hn, Option.map_or, Option.map_map]
  show ((own.lookup name).map id).or _ = _
  rw [Option.map_id]
  rfl

end Builder

end NativeClass.Table
