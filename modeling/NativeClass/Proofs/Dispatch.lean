import NativeClass.Draft.Basic
import NativeClass.Proofs.OrderedMap
/-!
# The theory of dispatch tables

* `VTableSlot.Fills`: a slot made for an entry of a method table.
* **`VTable.fillSlots_eq_ok_iff`**: a filled table has one slot for each entry, in order.
* `VTable.exists_fillSlots`: it can be filled if every method has an entry point.
* `Draft.get?_resolveEntries`: the entry points of the class count, then those of the last base.
-/

namespace NativeClass

/-- The slot is the one for an entry of a method table. -/
structure VTableSlot.Fills (entries : OrderedMap EntryPoint) (s : VTableSlot)
    (e : String × Entry Signature) : Prop where
  name : s.name = e.1
  signature : s.signature = e.2.value
  entry : entries.get? e.1 = some s.entry

namespace VTable

variable {entries : OrderedMap EntryPoint} {es : List (String × Entry Signature)}
  {slots : List VTableSlot}

/-- **A filled table has one slot for each entry, in order.** -/
theorem fillSlots_eq_ok_iff (index : Nat) :
    fillSlots entries index es = .ok slots ↔ List.Forall₂ (VTableSlot.Fills entries) slots es := by
  induction es generalizing index slots with
  | nil =>
    rw [List.forall₂_nil_right_iff]
    show Except.ok [] = Except.ok slots ↔ slots = []
    rw [Except.ok.injEq]
    exact eq_comm
  | cons e es ih =>
    obtain ⟨name, e⟩ := e
    rw [List.forall₂_cons_right_iff, fillSlots]
    cases hentry : entries.get? name with
    | none =>
      constructor
      · intro h
        cases h
      · rintro ⟨s, rest, hs, -⟩
        rw [hs.entry] at hentry
        cases hentry
    | some entry =>
      dsimp only
      cases hrest : fillSlots entries (index + 1) es with
      | error k =>
        constructor
        · intro h
          cases h
        · rintro ⟨s, rest, -, hfill, -⟩
          rw [(ih (index + 1)).mpr hfill] at hrest
          cases hrest
      | ok rest =>
        have hfill := (ih (index + 1)).mp hrest
        constructor
        · intro h
          cases h
          exact ⟨_, rest, ⟨rfl, rfl, hentry⟩, hfill, rfl⟩
        · rintro ⟨s, rest', hs, hfill', rfl⟩
          rw [(ih (index + 1)).mpr hfill', Except.ok.injEq] at hrest
          have hs' : s = ⟨name, entry, e.value⟩ := by
            obtain ⟨sname, sentry, signature⟩ := s
            obtain ⟨hname, hsig, hget⟩ := hs
            rw [hentry, Option.some.injEq] at hget
            exact congr (congr (congrArg VTableSlot.mk hname) hget.symm) hsig
          rw [hrest, hs']
          rfl

theorem exists_fillSlots (h : ∀ e ∈ es, (entries.get? e.1).isSome) (index : Nat) :
    ∃ slots, fillSlots entries index es = .ok slots := by
  induction es generalizing index with
  | nil => exact ⟨[], rfl⟩
  | cons e es ih =>
    obtain ⟨entry, hentry⟩ := Option.isSome_iff_exists.mp (h e List.mem_cons_self)
    obtain ⟨slots, hslots⟩ := ih (fun e' he' => h e' (List.mem_cons_of_mem e he')) (index + 1)
    rw [fillSlots, hentry]
    dsimp only
    rw [hslots]
    exact ⟨_, rfl⟩

/-! ## Filled tables -/

variable {t : Table Signature} {className : String} {vtable : VTable}

theorem fills_of_build (h : build className t entries = .ok vtable) :
    List.Forall₂ (VTableSlot.Fills entries) vtable.slots t.entries.entries := by
  rw [build] at h
  cases hfill : fillSlots entries 0 t.entries.entries with
  | error k =>
    rw [hfill] at h
    cases h
  | ok slots =>
    rw [hfill] at h
    rw [← Except.ok.inj h]
    exact (fillSlots_eq_ok_iff 0).mp hfill

theorem exists_build (className : String) (t : Table Signature)
    (h : ∀ e ∈ t.entries.entries, (entries.get? e.1).isSome) :
    ∃ vtable, build className t entries = .ok vtable := by
  obtain ⟨slots, hslots⟩ := exists_fillSlots h 0
  exact ⟨.ofSlots className slots, by rw [build, hslots]⟩

end VTable

/-! ## Entry points -/

/-- The entry points of the class count, then those of the last base that has one. -/
theorem Draft.get?_resolveEntries (d : Draft) {own : List (String × EntryPoint)}
    (hn : (own.map Prod.fst).Nodup) (name : String) :
    (d.resolveEntries own).get? name =
      (own.lookup name).or ((d.bases.flatMap (·.vtable.entryPoints)).reverse.lookup name) := by
  rw [resolveEntries, OrderedMap.ofList, OrderedMap.get?_insertAll, OrderedMap.get?_empty,
    Option.or_none, List.reverse_append, List.lookup_append, OrderedMap.lookup_reverse hn]

theorem VTable.map_fst_entryPoints (t : VTable) :
    t.entryPoints.map Prod.fst = t.slots.map VTableSlot.name := by
  rw [entryPoints, List.map_map]
  rfl

end NativeClass
