/-!
# Maps in insertion order

A map from names to values that remembers the order in which the names first came. Replacing the value
of a name keeps its place, so a position once given never changes.

* `OrderedMap.insert`: insert or replace.
* `OrderedMap.keys_insert`, `OrderedMap.get?_insert`: what an insertion does to the keys and the values.
-/

namespace NativeClass

/-- Names with values, each name once, in the order of first insertion. -/
structure OrderedMap (α : Type) where
  /-- The names with their values. -/
  entries : List (String × α)
  /-- No name occurs twice. -/
  nodup : (entries.map Prod.fst).Nodup

namespace OrderedMap

variable {α β : Type}

/-! ## Views -/

/-- The names in order. -/
def keys (m : OrderedMap α) : List String :=
  m.entries.map Prod.fst

/-- The values in order. -/
def values (m : OrderedMap α) : List α :=
  m.entries.map Prod.snd

/-- The number of names. -/
def size (m : OrderedMap α) : Nat :=
  m.entries.length

/-- No name at all. -/
def isEmpty (m : OrderedMap α) : Bool :=
  m.entries.isEmpty

/-- The value of a name. -/
def get? (m : OrderedMap α) (name : String) : Option α :=
  m.entries.lookup name

/-- The map has a value for the name. -/
def contains (m : OrderedMap α) (name : String) : Bool :=
  (m.get? name).isSome

/-- The position of a name. -/
def index? (m : OrderedMap α) (name : String) : Option Nat :=
  m.keys.findIdx? (· == name)

/-! ## Building -/

/-- The map without names. -/
def empty : OrderedMap α :=
  ⟨[], List.nodup_nil⟩

instance : Inhabited (OrderedMap α) := ⟨empty⟩

/-- The entries with the value of a name replaced, or with the name added at the end. -/
def upsert (name : String) (value : α) : List (String × α) → List (String × α)
  | [] => [(name, value)]
  | (k, v) :: es => if k = name then (name, value) :: es else (k, v) :: upsert name value es

theorem map_fst_upsert (name : String) (value : α) (es : List (String × α)) :
    (upsert name value es).map Prod.fst =
      if name ∈ es.map Prod.fst then es.map Prod.fst else es.map Prod.fst ++ [name] := by
  induction es with
  | nil => simp [upsert]
  | cons e es ih =>
    obtain ⟨k, v⟩ := e
    by_cases h : k = name
    · simp [upsert, h]
    · have h' : ¬ name = k := fun e => h e.symm
      simp only [upsert, if_neg h, List.map_cons, ih, List.mem_cons, h', false_or]
      split <;> simp

theorem nodup_upsert {es : List (String × α)} (h : (es.map Prod.fst).Nodup) (name : String)
    (value : α) : ((upsert name value es).map Prod.fst).Nodup := by
  rw [map_fst_upsert]
  split
  · exact h
  · next hn => exact List.nodup_append.2 ⟨h, by simp, by
      intro a ha b hb hab; simp at hb; subst hb; subst hab; exact hn ha⟩

/-- The map with a value for the name, at the name's old place or at the end. -/
def insert (m : OrderedMap α) (name : String) (value : α) : OrderedMap α :=
  ⟨upsert name value m.entries, nodup_upsert m.nodup name value⟩

/-- The map with the value of a name replaced; without the name, the map itself. -/
def replace (m : OrderedMap α) (name : String) (value : α) : OrderedMap α :=
  if m.contains name then m.insert name value else m

/-- The pairs inserted from left to right. -/
def insertAll (m : OrderedMap α) (pairs : List (String × α)) : OrderedMap α :=
  pairs.foldl (fun m e => m.insert e.1 e.2) m

/-- The map of a list of pairs; a later pair replaces an earlier one of its name in place. -/
def ofList (pairs : List (String × α)) : OrderedMap α :=
  empty.insertAll pairs

/-- The map with a function applied to every value. -/
def mapValues (f : α → β) (m : OrderedMap α) : OrderedMap β :=
  ⟨m.entries.map fun e => (e.1, f e.2), by
    have : (m.entries.map fun e => (e.1, f e.2)).map Prod.fst = m.entries.map Prod.fst := by
      simp [Function.comp_def]
    rw [this]; exact m.nodup⟩

/-! ## Insertion and the views -/

theorem lookup_cons_eq (e : String × α) (es : List (String × α)) (k : String) :
    (e :: es).lookup k = if k = e.1 then some e.2 else es.lookup k := by
  obtain ⟨k', v⟩ := e
  by_cases h : k = k'
  · simp [h]
  · simp [List.lookup_cons, h, beq_false_of_ne h]

theorem lookup_upsert (name k : String) (value : α) (es : List (String × α)) :
    (upsert name value es).lookup k = if k = name then some value else es.lookup k := by
  induction es with
  | nil => by_cases h : k = name <;> simp [upsert, lookup_cons_eq, h]
  | cons e es ih =>
    obtain ⟨k', v⟩ := e
    by_cases h' : k' = name
    · subst h'
      by_cases h : k = k' <;> simp [upsert, lookup_cons_eq, h]
    · by_cases h : k = k'
      · subst h; simp [upsert, h']
      · simp [upsert, lookup_cons_eq, h', h, ih]

@[simp] theorem keys_empty : (empty : OrderedMap α).keys = [] := rfl

@[simp] theorem get?_empty (k : String) : (empty : OrderedMap α).get? k = none := rfl

theorem keys_insert (m : OrderedMap α) (name : String) (value : α) :
    (m.insert name value).keys = if name ∈ m.keys then m.keys else m.keys ++ [name] :=
  map_fst_upsert name value m.entries

@[simp] theorem get?_insert (m : OrderedMap α) (name k : String) (value : α) :
    (m.insert name value).get? k = if k = name then some value else m.get? k :=
  lookup_upsert name k value m.entries

theorem get?_insert_self (m : OrderedMap α) (name : String) (value : α) :
    (m.insert name value).get? name = some value := by simp

theorem lookup_isSome_iff (es : List (String × α)) (k : String) :
    (es.lookup k).isSome ↔ k ∈ es.map Prod.fst := by
  induction es with
  | nil => simp
  | cons e es ih =>
    obtain ⟨k', v⟩ := e
    by_cases h : k = k'
    · simp [h]
    · simp only [lookup_cons_eq, List.map_cons, List.mem_cons, h, false_or]
      exact ih

theorem contains_iff (m : OrderedMap α) (k : String) : m.contains k ↔ k ∈ m.keys :=
  lookup_isSome_iff m.entries k

theorem keys_insert_of_contains (m : OrderedMap α) {name : String} (value : α)
    (h : m.contains name) : (m.insert name value).keys = m.keys := by
  rw [keys_insert, if_pos ((contains_iff m name).1 h)]

theorem keys_replace (m : OrderedMap α) (name : String) (value : α) :
    (m.replace name value).keys = m.keys := by
  unfold replace
  split
  · next h => exact keys_insert_of_contains m value h
  · rfl

theorem size_eq_length_keys (m : OrderedMap α) : m.size = m.keys.length := by
  simp [size, keys]

end OrderedMap

end NativeClass
