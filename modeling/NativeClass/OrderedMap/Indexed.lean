import NativeClass.OrderedMap.Basic
/-!
# Maps in insertion order with a key index

The stored form of an ordered map: the entries in order, and beside them an index from names to places. An
insertion looks the name up in the index, and either replaces the value at the place found there or appends an
entry and records its place.

* `IndexedMap.insert`, `IndexedMap.get?`: through the index.
* `IndexedMap.getThenInsert?`, `IndexedMap.getThenReplace?`: writes that also give the value from before.
* `IndexedMap.toOrderedMap`: the entries alone.
-/

namespace NativeClass

/-- Entries in the order of first insertion, with the places of their names. -/
structure IndexedMap (α : Type) where
  entries : List (String × α)
  /-- The places of the names. -/
  index : List (String × Nat)
  index_iff : ∀ name i, index.lookup name = some i ↔ (entries.map Prod.fst)[i]? = some name

namespace IndexedMap

variable {α : Type}

theorem nodup (m : IndexedMap α) : (m.entries.map Prod.fst).Nodup := by
  refine List.pairwise_iff_getElem.mpr fun i j hi hj hij he => ?_
  have hi' := (m.index_iff _ i).mpr (List.getElem?_eq_getElem hi)
  have hj' := (m.index_iff _ j).mpr (List.getElem?_eq_getElem hj)
  rw [he, hj', Option.some.injEq] at hi'
  omega

/-- The entries alone. -/
def toOrderedMap (m : IndexedMap α) : OrderedMap α :=
  ⟨m.entries, m.nodup⟩

/-- The map without names. -/
def empty : IndexedMap α where
  entries := []
  index := []
  index_iff := by simp

/-! ## Views of the entries -/

/-- The names in order. -/
def keys (m : IndexedMap α) : List String :=
  m.entries.map Prod.fst

/-- The values in order. -/
def values (m : IndexedMap α) : List α :=
  m.entries.map Prod.snd

/-- The number of names. -/
def size (m : IndexedMap α) : Nat :=
  m.entries.length

/-- No name at all. -/
def isEmpty (m : IndexedMap α) : Bool :=
  m.entries.isEmpty

/-! ## Look-ups -/

/-- The recorded place of a name. -/
def index? (m : IndexedMap α) (name : String) : Option Nat :=
  m.index.lookup name

/-- A place is recorded for the name. -/
def contains (m : IndexedMap α) (name : String) : Bool :=
  (m.index? name).isSome

/-- The value at the recorded place of a name. -/
def get? (m : IndexedMap α) (name : String) : Option α :=
  (m.index? name).bind fun i => m.entries[i]?.map Prod.snd

theorem index?_eq_none_iff (m : IndexedMap α) (name : String) :
    m.index? name = none ↔ name ∉ m.entries.map Prod.fst := by
  rw [List.mem_iff_getElem?, Option.eq_none_iff_forall_ne_some, not_exists]
  exact forall_congr' fun i => not_congr (m.index_iff name i)

/-! ## Insertion -/

theorem map_fst_modify (es : List (String × α)) (i : Nat) (value : α) :
    (es.modify i fun e => (e.1, value)).map Prod.fst = es.map Prod.fst := by
  refine List.ext_getElem? fun j => ?_
  rw [List.getElem?_map, List.getElem?_modify, List.getElem?_map]
  by_cases h : i = j <;> simp [h, Function.comp_def]

/-- The map with the value at a place replaced. -/
def replaceAt (m : IndexedMap α) (i : Nat) (value : α) : IndexedMap α where
  entries := m.entries.modify i fun e => (e.1, value)
  index := m.index
  index_iff := by simpa only [map_fst_modify] using m.index_iff

/-- The map with a new name at the end. -/
def append (m : IndexedMap α) (name : String) (value : α) (h : m.index? name = none) :
    IndexedMap α where
  entries := m.entries ++ [(name, value)]
  index := (name, m.entries.length) :: m.index
  index_iff := by
    intro k i
    have hnew : name ∉ m.entries.map Prod.fst := (m.index?_eq_none_iff name).mp h
    have hlen : (m.entries.map Prod.fst).length = m.entries.length := List.length_map _
    rw [OrderedMap.lookup_cons_eq, List.map_append, List.getElem?_append, hlen]
    by_cases hk : k = name
    · subst hk
      rw [if_pos rfl, Option.some.injEq]
      by_cases hi : i < m.entries.length
      · have hne : (m.entries.map Prod.fst)[i]? ≠ some k := fun he => hnew (List.mem_of_getElem? he)
        simp only [if_pos hi, hne, iff_false]
        omega
      · rw [if_neg hi]
        cases hd : i - m.entries.length with
        | zero => simp; omega
        | succ n => simp; omega
    · rw [if_neg hk, m.index_iff]
      by_cases hi : i < m.entries.length
      · rw [if_pos hi]
      · have hold : (m.entries.map Prod.fst)[i]? = none := List.getElem?_eq_none (by omega)
        rw [if_neg hi, hold]
        have hk' : ¬ name = k := fun he => hk he.symm
        cases i - m.entries.length <;> simp [hk']

/-- The map with a value for the name, at the recorded place or at the end. -/
def insert (m : IndexedMap α) (name : String) (value : α) : IndexedMap α :=
  match h : m.index? name with
  | some i => m.replaceAt i value
  | none => m.append name value h

/-- The pairs inserted from left to right. -/
def insertAll (m : IndexedMap α) (pairs : List (String × α)) : IndexedMap α :=
  pairs.foldl (fun m e => m.insert e.1 e.2) m

/-- The map of a list of pairs; a later pair replaces an earlier one of its name in place. -/
def ofList (pairs : List (String × α)) : IndexedMap α :=
  empty.insertAll pairs

/-! ## Writes with an answer -/

/-- The value that the name had, and the map with the given one, after a single look-up. -/
def getThenInsert? (m : IndexedMap α) (name : String) (value : α) : Option α × IndexedMap α :=
  match h : m.index? name with
  | some i => (m.entries[i]?.map Prod.snd, m.replaceAt i value)
  | none => (none, m.append name value h)

/-- The value that the name had, and the map with the given one in its place; without the name, the map itself. -/
def getThenReplace? (m : IndexedMap α) (name : String) (value : α) : Option α × IndexedMap α :=
  match m.index? name with
  | some i => (m.entries[i]?.map Prod.snd, m.replaceAt i value)
  | none => (none, m)

end IndexedMap

end NativeClass
