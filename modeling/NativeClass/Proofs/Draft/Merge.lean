import NativeClass.Draft.Basic
import NativeClass.Proofs.Table.Merge
/-!
# The merge of base tables

* `Draft.mergedNames`: the names of the tables of several bases, in the order of first occurrence.
* `Draft.keys_mergeBases`: a merge has these names.
* **`Draft.get?_mergeBases`**: every merged entry is that of the last base that has it.
* **`Draft.prefix_mergedNames_iff`**: when a base keeps the places of its names in the merge.
-/

namespace NativeClass.Draft

variable {α : Type} (table : NativeType → Table α) (bases : List NativeType) {name : String}

theorem mergeBases_eq_inheritAll :
    mergeBases bases table =
      (Table.Builder.ofParents (bases.map table)).inheritAll (bases.map fun b => (b.name, table b)) := by
  rw [Table.Builder.inheritAll, List.foldl_map]
  rfl

/-! ## Names -/

/-- The names of the tables of several bases, in the order of first occurrence. -/
def mergedNames : List String :=
  extendKeys [] (bases.flatMap fun b => (table b).names)

theorem keys_mergeBases : (mergeBases bases table).entries.keys = mergedNames table bases := by
  rw [mergeBases_eq_inheritAll, Table.Builder.keys_inheritAll, List.flatMap_map]
  rfl

theorem mergedNames_append (before after : List NativeType) :
    mergedNames table (before ++ after) =
      extendKeys (mergedNames table before) (after.flatMap fun b => (table b).names) := by
  rw [mergedNames, List.flatMap_append, extendKeys_append]
  rfl

theorem mergedNames_singleton (base : NativeType) : mergedNames table [base] = (table base).names := by
  rw [mergedNames, List.flatMap_cons, List.flatMap_nil, List.append_nil,
    extendKeys_nil (table base).nodup_names]

/-- **A base keeps the places of its names in an extension of the merge exactly when its names and the
merged names of the bases before it agree as far as both go.** -/
theorem prefix_mergedNames_iff (before after : List NativeType) (base : NativeType)
    (more : List String) :
    (table base).names <+: extendKeys (mergedNames table (before ++ base :: after)) more ↔
      (table base).names <+: mergedNames table before ∨
        mergedNames table before <+: (table base).names := by
  have hmerged : extendKeys (mergedNames table before) (table base).names <+:
      extendKeys (mergedNames table (before ++ base :: after)) more := by
    rw [mergedNames_append, List.flatMap_cons, extendKeys_append]
    exact (prefix_extendKeys _ _).trans (prefix_extendKeys _ _)
  constructor
  · intro h
    exact List.prefix_or_prefix_of_prefix h ((prefix_extendKeys _ _).trans hmerged)
  · intro h
    exact ((prefix_extendKeys_iff (table base).nodup_names).mpr h).trans hmerged

/-! ## Values -/

/-- **An inherited entry is that of the last base that has it.** -/
theorem get?_mergeBases (name : String) :
    (mergeBases bases table).entries.get? name =
      bases.reverse.findSome? fun b => ((table b).get? name).map (⟨·, .inherited b.name⟩) := by
  rw [mergeBases_eq_inheritAll, Table.Builder.get?_inheritAll, ← List.map_reverse, List.findSome?_map]
  exact Option.or_none

variable {table bases} in
theorem origin_mergeBases {e : Entry α} (h : (mergeBases bases table).entries.get? name = some e) :
    e.origin ≠ .own := by
  rw [get?_mergeBases] at h
  obtain ⟨b, -, hb⟩ := List.exists_of_findSome?_eq_some h
  obtain ⟨v, -, rfl⟩ := Option.map_eq_some_iff.mp hb
  simp

theorem value_mergeBases (name : String) :
    (mergeBases bases table).get? name = bases.reverse.findSome? fun b => (table b).get? name := by
  rw [Table.Builder.get?, get?_mergeBases, List.map_findSome?]
  congr 1
  funext b
  simp [Function.comp_def]

/-- **Every merged value comes from a base.** -/
theorem exists_base_of_get? {v : α} (h : (mergeBases bases table).get? name = some v) :
    ∃ base ∈ bases, (table base).get? name = some v := by
  rw [value_mergeBases] at h
  obtain ⟨base, hbase, hget⟩ := List.exists_of_findSome?_eq_some h
  exact ⟨base, List.mem_reverse.mp hbase, hget⟩

theorem get?_mergeBases_singleton (base : NativeType) :
    (mergeBases [base] table).get? name = (table base).get? name := by
  simp [value_mergeBases]

end NativeClass.Draft
