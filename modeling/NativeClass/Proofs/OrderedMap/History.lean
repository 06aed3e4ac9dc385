import Mathlib.Data.List.Induction
import NativeClass.Proofs.OrderedMap
/-!
# A map remembers the writes to it

An ordered map is made from a list of pairs, which may be empty, and then written to, by insertions and by
replacements of values that are there. The history of a map is the list of all these writes, and it alone says which
names the map has, where they stand and which values they have.

* `IndexedMap.LastWritten`: the last write that gave a name a value.
* `OrderedMap.keys_writeAll`, **`OrderedMap.get?_writeAll_eq_some_iff`**: names and values by the history.
* **`IndexedMap.toOrderedMap_run`**, `IndexedMap.getElem?_answers`: the stored form follows every write, and answers
  with the value from before.
* `IndexedMap.IsRecorded.run`: the index has no record but the places of the names.
* **`IndexedMap.remembers_run`**: the key index, the entries and the answers after any history.
-/

namespace NativeClass

/-! ## Histories -/

namespace IndexedMap

/-- A write to a map. -/
inductive Write (α : Type) where
  /-- A value for a name, be it new or not. -/
  | insert (name : String) (value : α)
  /-- Another value for a name that has one; nothing without one. -/
  | replace (name : String) (value : α)

namespace Write

variable {α : Type}

def name : Write α → String
  | .insert name _ | .replace name _ => name

/-- The name that the map has after the write, whatever it had before. -/
def inserted? : Write α → Option String
  | .insert name _ => some name
  | .replace .. => none

/-- The write gives the name the value in a map with some names. -/
def Gives (names : List String) (w : Write α) (name : String) (value : α) : Prop :=
  w = .insert name value ∨ w = .replace name value ∧ name ∈ names

end Write

variable {α : Type} {history : List (Write α)} {k : String} {v : α}

/-- The writes that build a map from a list of pairs. -/
def insertions (pairs : List (String × α)) : List (Write α) :=
  pairs.map fun e => .insert e.1 e.2

/-- The names that are inserted, one for each insertion. -/
def insertedNames (history : List (Write α)) : List String :=
  history.filterMap Write.inserted?

/-- The last write of the history that gave the name a value gave it this one. -/
def LastWritten (history : List (Write α)) (name : String) (value : α) : Prop :=
  ∃ before w after, history = before ++ w :: after ∧ w.Gives (insertedNames before) name value ∧
    ∀ later ∈ after, later.name ≠ name

theorem not_lastWritten_nil : ¬ LastWritten [] k v := by
  rintro ⟨before, w, after, hnil, -⟩
  simp at hnil

theorem lastWritten_concat_iff {w : Write α} :
    LastWritten (history ++ [w]) k v ↔
      w.Gives (insertedNames history) k v ∨ w.name ≠ k ∧ LastWritten history k v := by
  constructor
  · rintro ⟨before, w', after, hsplit, hgives, hlater⟩
    rcases List.eq_nil_or_concat' after with rfl | ⟨after, w'', rfl⟩
    · obtain ⟨rfl, hw⟩ := List.append_inj' hsplit rfl
      cases hw
      exact Or.inl hgives
    · rw [← List.cons_append, ← List.append_assoc] at hsplit
      obtain ⟨rfl, hw⟩ := List.append_inj' hsplit rfl
      cases hw
      exact Or.inr ⟨hlater w (by simp), before, w', after, rfl, hgives,
        fun later hmem => hlater later (List.mem_append_left _ hmem)⟩
  · rintro (hgives | ⟨hne, before, w', after, rfl, hgives, hlater⟩)
    · exact ⟨history, w, [], rfl, hgives, by simp⟩
    · refine ⟨before, w', after ++ [w], by simp, hgives, fun later hmem => ?_⟩
      rcases List.mem_append.mp hmem with hmem | hmem
      · exact hlater later hmem
      · exact List.mem_singleton.mp hmem ▸ hne

end IndexedMap

/-! ## Names and values by the history -/

namespace OrderedMap

open IndexedMap (Write LastWritten insertedNames)

variable {α : Type} {m : OrderedMap α} {w : Write α} {k : String} {v : α}

/-- The map after a write. -/
def write (m : OrderedMap α) : Write α → OrderedMap α
  | .insert name value => m.insert name value
  | .replace name value => m.replace name value

/-- The map after some writes. -/
def writeAll (m : OrderedMap α) (history : List (Write α)) : OrderedMap α :=
  history.foldl write m

theorem writeAll_concat (m : OrderedMap α) (history : List (Write α)) (w : Write α) :
    m.writeAll (history ++ [w]) = (m.writeAll history).write w := by
  rw [writeAll, List.foldl_append]
  rfl

theorem keys_write (m : OrderedMap α) (w : Write α) :
    (m.write w).keys = extendKeys m.keys w.inserted?.toList := by
  cases w with
  | insert name value => exact m.keys_insert_eq_extendKeys name value
  | replace name value => exact m.keys_replace name value

theorem keys_writeAll (m : OrderedMap α) (history : List (Write α)) :
    (m.writeAll history).keys = extendKeys m.keys (insertedNames history) := by
  induction history generalizing m with
  | nil => rfl
  | cons w history ih =>
    have hnames : insertedNames (w :: history) = w.inserted?.toList ++ insertedNames history := by
      cases w <;> rfl
    have hstep : m.writeAll (w :: history) = (m.write w).writeAll history := rfl
    rw [hstep, ih, keys_write, hnames, extendKeys_append]

theorem prefix_keys_writeAll (m : OrderedMap α) (history : List (Write α)) :
    m.keys <+: (m.writeAll history).keys := by
  rw [keys_writeAll]
  exact prefix_extendKeys m.keys (insertedNames history)

theorem get?_write_eq_some_iff :
    (m.write w).get? k = some v ↔ w.Gives m.keys k v ∨ w.name ≠ k ∧ m.get? k = some v := by
  cases w with
  | insert name value =>
    rw [write, get?_insert]
    by_cases hk : k = name
    · simp [Write.Gives, Write.name, hk]
    · simp [Write.Gives, Write.name, hk, Ne.symm hk]
  | replace name value =>
    rw [write, replace]
    by_cases hname : m.contains name
    · have hmem : name ∈ m.keys := (contains_iff m name).mp hname
      rw [if_pos hname, get?_insert]
      by_cases hk : k = name
      · simp [Write.Gives, Write.name, hk, hmem]
      · simp [Write.Gives, Write.name, hk, Ne.symm hk]
    · have hmem : name ∉ m.keys := fun h => hname ((contains_iff m name).mpr h)
      rw [if_neg hname]
      by_cases hk : k = name
      · simp [Write.Gives, Write.name, hk, hmem, get?_eq_none_iff.mpr hmem]
      · simp [Write.Gives, Write.name, Ne.symm hk]

/-- **A name has the value that was last written for it.** -/
theorem get?_writeAll_eq_some_iff (history : List (Write α)) :
    (empty.writeAll history).get? k = some v ↔ LastWritten history k v := by
  -- from the end: a replacement counts if the writes in front of it inserted its name
  induction history using List.reverseRecOn generalizing v with
  | nil => exact iff_of_false (by simp [writeAll]) IndexedMap.not_lastWritten_nil
  | append_singleton history w ih =>
    have hgives : w.Gives (empty.writeAll history).keys k v ↔ w.Gives (insertedNames history) k v := by
      simp [Write.Gives, keys_writeAll, mem_extendKeys]
    rw [writeAll_concat, get?_write_eq_some_iff, hgives, ih, IndexedMap.lastWritten_concat_iff]

end OrderedMap

/-! ## The stored form -/

namespace IndexedMap

variable {α : Type} (m : IndexedMap α)

theorem contains_iff (name : String) : m.contains name ↔ name ∈ m.keys := by
  rw [contains, ← m.index?_toOrderedMap]
  exact OrderedMap.index?_isSome_iff

theorem contains_toOrderedMap (name : String) : m.toOrderedMap.contains name = m.contains name := by
  rw [Bool.eq_iff_iff, OrderedMap.contains_iff, contains_iff]
  rfl

theorem fst_getThenInsert? (name : String) (value : α) : (m.getThenInsert? name value).1 = m.get? name := by
  unfold getThenInsert? get?
  split
  next i hi => rw [hi]; rfl
  next h => simp only [h, Option.bind_none]

theorem snd_getThenInsert? (name : String) (value : α) :
    (m.getThenInsert? name value).2 = m.insert name value := by
  unfold getThenInsert? insert
  split <;> rfl

theorem fst_getThenReplace? (name : String) (value : α) : (m.getThenReplace? name value).1 = m.get? name := by
  unfold getThenReplace? get?
  cases m.index? name <;> rfl

theorem toOrderedMap_getThenReplace? (name : String) (value : α) :
    (m.getThenReplace? name value).2.toOrderedMap = m.toOrderedMap.replace name value := by
  rw [OrderedMap.replace, contains_toOrderedMap, contains]
  unfold getThenReplace?
  cases hi : m.index? name with
  | some i => exact m.toOrderedMap_replaceAt hi value
  | none => rfl

/-- The answer to a write and the map after it. -/
def write (m : IndexedMap α) : Write α → Option α × IndexedMap α
  | .insert name value => m.getThenInsert? name value
  | .replace name value => m.getThenReplace? name value

/-- The answers to some writes and the map after them. -/
def run (m : IndexedMap α) : List (Write α) → List (Option α) × IndexedMap α
  | [] => ([], m)
  | w :: writes =>
    let (old, m') := m.write w
    let (olds, m'') := m'.run writes
    (old :: olds, m'')

theorem fst_write (w : Write α) : (m.write w).1 = m.get? w.name := by
  cases w with
  | insert name value => exact m.fst_getThenInsert? name value
  | replace name value => exact m.fst_getThenReplace? name value

theorem toOrderedMap_write (w : Write α) : (m.write w).2.toOrderedMap = m.toOrderedMap.write w := by
  cases w with
  | insert name value =>
    rw [write, snd_getThenInsert?, toOrderedMap_insert]
    rfl
  | replace name value => exact m.toOrderedMap_getThenReplace? name value

/-- **The key index follows every write.** -/
theorem toOrderedMap_run (writes : List (Write α)) :
    (m.run writes).2.toOrderedMap = m.toOrderedMap.writeAll writes := by
  induction writes generalizing m with
  | nil => rfl
  | cons w writes ih =>
    have hstep : (m.run (w :: writes)).2 = ((m.write w).2.run writes).2 := rfl
    rw [hstep, ih, toOrderedMap_write]
    rfl

theorem length_answers (writes : List (Write α)) : (m.run writes).1.length = writes.length := by
  induction writes generalizing m with
  | nil => rfl
  | cons w writes ih => exact congrArg Nat.succ (ih (m.write w).2)

/-- The answer to a write is the value that its name had before it. -/
theorem getElem?_answers (before : List (Write α)) (w : Write α) (after : List (Write α)) :
    (m.run (before ++ w :: after)).1[before.length]? = some ((m.run before).2.get? w.name) := by
  induction before generalizing m with
  | nil => exact congrArg some (m.fst_write w)
  | cons w' before ih => exact ih (m.write w').2

theorem snd_run_append (writes writes' : List (Write α)) :
    (m.run (writes ++ writes')).2 = ((m.run writes).2.run writes').2 := by
  induction writes generalizing m with
  | nil => rfl
  | cons w writes ih => exact ih (m.write w).2

theorem insertAll_eq_run (pairs : List (String × α)) : m.insertAll pairs = (m.run (insertions pairs)).2 := by
  induction pairs generalizing m with
  | nil => rfl
  | cons e pairs ih =>
    have hstep : m.insertAll (e :: pairs) = (m.insert e.1 e.2).insertAll pairs := rfl
    rw [hstep, ih, ← snd_getThenInsert?]
    rfl

/-- A map that is made from pairs has its insertions as the first part of its history. -/
theorem run_ofList (pairs : List (String × α)) (writes : List (Write α)) :
    ((ofList pairs).run writes).2 = (empty.run (insertions pairs ++ writes)).2 := by
  rw [snd_run_append, ← insertAll_eq_run, ofList]

/-! ## The stored form by the history -/

theorem toOrderedMap_run_ofList (pairs : List (String × α)) (writes : List (Write α)) :
    ((ofList pairs).run writes).2.toOrderedMap = OrderedMap.empty.writeAll (insertions pairs ++ writes) := by
  rw [run_ofList, toOrderedMap_run]
  rfl

theorem keys_run_ofList (pairs : List (String × α)) (writes : List (Write α)) :
    ((ofList pairs).run writes).2.keys = (insertedNames (insertions pairs ++ writes)).eraseDups := by
  have hkeys := congrArg OrderedMap.keys (toOrderedMap_run_ofList pairs writes)
  rwa [OrderedMap.keys_writeAll, OrderedMap.keys_empty, extendKeys_nil_eq_eraseDups] at hkeys

theorem get?_run_ofList_eq_some_iff {pairs : List (String × α)} {writes : List (Write α)} {k : String} {v : α} :
    ((ofList pairs).run writes).2.get? k = some v ↔ LastWritten (insertions pairs ++ writes) k v := by
  rw [← get?_toOrderedMap, toOrderedMap_run_ofList]
  exact OrderedMap.get?_writeAll_eq_some_iff _

theorem get?_run_ofList_eq_none_iff {pairs : List (String × α)} {writes : List (Write α)} {k : String} :
    ((ofList pairs).run writes).2.get? k = none ↔ k ∉ insertedNames (insertions pairs ++ writes) := by
  have hmem : k ∈ ((ofList pairs).run writes).2.keys ↔ k ∈ insertedNames (insertions pairs ++ writes) := by
    rw [keys_run_ofList, List.mem_eraseDups]
  rw [← get?_toOrderedMap, OrderedMap.get?_eq_none_iff]
  exact not_congr hmem

/-- A name keeps its place. -/
theorem index?_run_of_index? {name : String} {i : Nat} (h : m.index? name = some i) (writes : List (Write α)) :
    (m.run writes).2.index? name = some i := by
  rw [← index?_toOrderedMap, OrderedMap.index?_eq_some_iff] at h ⊢
  rw [toOrderedMap_run]
  exact getElem?_of_prefix (OrderedMap.prefix_keys_writeAll _ writes) h

/-! ## What the index records -/

/-- The index records every name once, with its place, and nothing else, no older record that a look-up would pass
over either. -/
def IsRecorded : Prop :=
  m.index.Perm m.keys.zipIdx

variable {m}

theorem isRecorded_empty : (empty : IndexedMap α).IsRecorded :=
  List.Perm.refl []

theorem IsRecorded.replaceAt (h : m.IsRecorded) (i : Nat) (value : α) : (m.replaceAt i value).IsRecorded := by
  have hkeys : (m.replaceAt i value).keys = m.keys := map_fst_modify m.entries i value
  rw [IsRecorded, hkeys]
  exact h

theorem IsRecorded.append (h : m.IsRecorded) {name : String} (value : α) (hnew : m.index? name = none) :
    (m.append name value hnew).IsRecorded := by
  have hkeys : (m.append name value hnew).keys.zipIdx = m.keys.zipIdx ++ [(name, m.entries.length)] := by
    simp [keys, IndexedMap.append, List.zipIdx_append]
  rw [IsRecorded, hkeys]
  exact (h.cons _).trans (List.perm_append_singleton _ _).symm

theorem IsRecorded.write (h : m.IsRecorded) (w : Write α) : (m.write w).2.IsRecorded := by
  cases w with
  | insert name value =>
    rw [IndexedMap.write, getThenInsert?]
    split
    next i hi => exact h.replaceAt i value
    next hnew => exact h.append value hnew
  | replace name value =>
    rw [IndexedMap.write, getThenReplace?]
    split
    next i hi => exact h.replaceAt i value
    next => exact h

theorem IsRecorded.run (h : m.IsRecorded) (writes : List (Write α)) : (m.run writes).2.IsRecorded := by
  induction writes generalizing m with
  | nil => exact h
  | cons w writes ih => exact ih (h.write w)

variable (m)

/-! ## Index, entries and history -/

/-- The key index and the entries tell the same, whichever of them a view reads. -/
structure InStep : Prop where
  nodup : m.keys.Nodup
  index : ∀ name i, m.index? name = some i ↔ m.keys[i]? = some name
  contains : ∀ name, m.contains name ↔ name ∈ m.keys
  get : ∀ name value, m.get? name = some value ↔ (name, value) ∈ m.entries
  /-- The recorded place of a name holds its value. -/
  entry : ∀ i name value,
    m.entries[i]? = some (name, value) ↔ m.index? name = some i ∧ m.get? name = some value
  size : m.size = m.keys.length

theorem inStep : m.InStep where
  nodup := m.nodup
  index := m.index_iff
  contains := m.contains_iff
  get name value := by
    rw [← get?_toOrderedMap]
    exact OrderedMap.get?_eq_some_iff
  entry _ _ _ := m.getElem?_entries_eq_some_iff
  size := m.toOrderedMap.size_eq_length_keys

/-- What a map that was made from pairs and then written to, and the answers to the writes, keep of the history. -/
structure Remembers (pairs : List (String × α)) (writes : List (Write α)) (answers : List (Option α)) : Prop
    extends InStep m where
  recorded : m.IsRecorded
  /-- The names stand in the order of first insertion. -/
  order : m.keys = (insertedNames (insertions pairs ++ writes)).eraseDups
  lastWritten : ∀ name value, m.get? name = some value ↔ LastWritten (insertions pairs ++ writes) name value
  length_answers : answers.length = writes.length
  /-- A write is answered by the value that it replaces. -/
  replaced : ∀ before w after, writes = before ++ w :: after →
    answers[before.length]? = some (((ofList pairs).run before).2.get? w.name)
  /-- The answer is none exactly when the name was not inserted before. -/
  replaced_new : ∀ before w after, writes = before ++ w :: after →
    (answers[before.length]? = some none ↔ w.name ∉ insertedNames (insertions pairs ++ before))
  /-- A name keeps its place through all later writes. -/
  place : ∀ before after, writes = before ++ after → ∀ name i,
    ((ofList pairs).run before).2.index? name = some i → m.index? name = some i
  /-- The entries are those of the map without an index after the same writes. -/
  sameEntries : m.toOrderedMap = (OrderedMap.ofList pairs).writeAll writes

/-- **After any history the key index is in step with the entries, and both follow from the history.** -/
theorem remembers_run (pairs : List (String × α)) (writes : List (Write α)) :
    ((ofList pairs).run writes).2.Remembers pairs writes ((ofList pairs).run writes).1 where
  toInStep := inStep _
  recorded := by
    rw [run_ofList]
    exact isRecorded_empty.run _
  order := keys_run_ofList pairs writes
  lastWritten _ _ := get?_run_ofList_eq_some_iff
  length_answers := (ofList pairs).length_answers writes
  replaced before w after hsplit := by
    rw [hsplit]
    exact (ofList pairs).getElem?_answers before w after
  replaced_new before w after hsplit := by
    rw [hsplit, getElem?_answers, Option.some.injEq]
    exact get?_run_ofList_eq_none_iff
  place before after hsplit name i hplace := by
    rw [hsplit, snd_run_append]
    exact index?_run_of_index? _ hplace after
  sameEntries := by
    rw [toOrderedMap_run, ofList, toOrderedMap_insertAll]
    rfl

/-- A second insertion replaces the value in place and answers with the first one; a replacement adds no name. -/
example : empty.run [.insert "x" 1, .insert "y" 2, .insert "x" 3, .replace "z" 4, .replace "y" 5] =
    ([none, none, some 1, none, some 2], ofList [("x", 3), ("y", 5)]) := by
  rfl

end IndexedMap

end NativeClass
