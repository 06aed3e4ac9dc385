import NativeClass.Proofs.Module.Trace
import NativeClass.Proofs.NativeType.Abstract
/-!
# Types that are read from source texts

In a source text every function stands under its own name. So in the types that a module makes a method is taken for
a constructor only if it is called `__init__`, and the tables of slots know no exceptions.

* `NativeType.IsRead`: the class and its ancestors were read from source texts.
* `NativeType.IsRead.mem_names_iff`: which slots such a type has.
* **`NativeType.IsRead.comesFromOneClass`**: where they come from.
* **`Module.Interleaves.isRead`**: the types that a module makes and registers are of that kind.
-/

namespace NativeClass

/-- What holds of a slot if every function stands under its own name. -/
structure VTableSlot.ComesFromOneClass (s : VTableSlot) (c : BoundClass) (t : NativeType) : Prop where
  ne_initName : s.name ≠ initName
  own : c.source.DefinesMethod s.name → s.IsOwn t
  inherited : ¬ c.source.DefinesMethod s.name →
    ∃ b, LastWithSlot c.extensionBases s.name b ∧ s.InheritsSignature t b ∧ s ∈ b.vtable.slots
  isAbstract_iff : s.signature.isAbstract ↔ c.source.DefinesAbstract s.name ∨
    ¬ c.source.DefinesMethod s.name ∧ LastIsAbstract c.extensionBases s.name

theorem ClassSource.DefinesAbstract.definesMethod {c : ClassSource} {name : String} (h : c.DefinesAbstract name) :
    c.DefinesMethod name := by
  obtain ⟨f, hf, -⟩ := h
  exact ⟨f, hf⟩

namespace NativeType

/-- A finished type whose class, like the classes of its ancestors, was read from a source text. -/
structure IsRead (t : NativeType) : Prop where
  finished : t.Finished
  namesFunctions : t.NamesFunctions

namespace IsRead

variable {t : NativeType} {c : BoundClass} {o : CompileOptions} {name : String} {s : VTableSlot}

theorem ofCompile (ho : o.backend = .reference) (hc : NativeClass.NamesFunctions c.source.members)
    (hb : ∀ b ∈ c.extensionBases, b.IsRead) (h : (c.compile o).result = .ok t) : t.IsRead where
  finished := .ofCompile ho (fun b hmem => (hb b hmem).finished) h
  namesFunctions := namesFunctions_of_compile ho hc (fun b hmem => (hb b hmem).namesFunctions) h

/-- There is a slot for every method of the class or of an ancestor but for constructors. -/
theorem mem_names_iff (h : t.IsRead) :
    name ∈ t.slotTypes.names ↔
      ∃ a : NativeType, a.IsAncestor t ∧ a.core.source.DefinesMethod name ∧ name ≠ newName ∧ name ≠ initName := by
  rw [h.finished.mem_names_iff]
  exact exists_congr fun a => and_congr_right fun ha => (h.namesFunctions a ha).definesSlot_iff

theorem ne_initName (h : t.IsRead) (hs : s ∈ t.vtable.slots) : s.name ≠ initName := by
  have hname := Table.mem_names_of_get? (h.finished.get?_of_mem_slots hs)
  obtain ⟨a, -, -, -, hinit⟩ := h.mem_names_iff.mp hname
  exact hinit

theorem definesSlot_iff (h : t.IsRead) (hs : s ∈ t.vtable.slots) :
    t.core.source.DefinesSlot s.name ↔ t.core.source.DefinesMethod s.name := by
  have hnew := (h.finished.slot (h.finished.get?_of_mem_slots hs)).2.2
  rw [(h.namesFunctions t (.refl t)).definesSlot_iff, and_iff_left ⟨hnew, h.ne_initName hs⟩]

/-- **Where the slots of a type come from that was read from a source text**: as a whole from the class if that
defines the method, else as a whole from the last base that has one. -/
theorem comesFromOneClass (h : t.IsRead) (hs : s ∈ t.vtable.slots) :
    s.ComesFromOneClass ⟨t.core.source, t.bases⟩ t := by
  obtain ⟨c, i, hi, hb⟩ := h.finished.exists_completes
  have hc : c = ⟨t.core.source, t.bases⟩ := by rw [hi.source, hi.bases]
  have hdefines := h.definesSlot_iff hs
  subst hc
  refine ⟨h.ne_initName hs, fun hd => hi.isOwn hs (hdefines.mpr hd), fun hd => ?_, ?_⟩
  · obtain ⟨b, hlast, hsig, hslot, -⟩ := hi.exists_lastWithSlot h.finished hb hs (mt hdefines.mp hd)
    exact ⟨b, hlast, hsig, hslot hd⟩
  · rw [hi.isAbstract_iff hb hs]
    dsimp only
    rw [hdefines]
    exact or_congr_left (and_iff_right_of_imp ClassSource.DefinesAbstract.definesMethod)

end IsRead

end NativeType

namespace Module

variable {o : CompileOptions} {registry : Registry NativeType} {decls : List ClassDecl} {q : Progress} {i : Nat}
  {path source : String} {t : NativeType}

/-! ## Modules -/

/-- The marked classes of a source text have their functions under their own names. -/
theorem namesFunctions_of_markedClasses (h : markedClasses path source = .ok decls) {d : ClassDecl} (hd : d ∈ decls) :
    NamesFunctions d.source.members := by
  unfold markedClasses ClassDecl.parse at h
  cases hparse : Python.parseModule source with
  | error e =>
    rw [hparse] at h
    cases h
  | ok statements =>
    rw [hparse] at h
    cases h
    obtain ⟨stmt, -, hstmt⟩ := List.mem_filterMap.mp (List.mem_filter.mp hd).1
    exact ClassDecl.namesFunctions_of_ofStmt? hstmt

/-- All types of the registry were read from source texts. -/
def IsReadRegistry (registry : Registry NativeType) : Prop :=
  ∀ name t, registry.get? name = some t → t.IsRead

theorem isReadRegistry_empty : IsReadRegistry .empty :=
  fun _ _ hget => nomatch hget

theorem HasOutcome.isRead (ho : o.backend = .reference) (hr : IsReadRegistry registry)
    (hdecls : markedClasses path source = .ok decls) (h : HasOutcome o registry decls i (.ok t)) : t.IsRead :=
  h.forall_type hr fun k _ _ _ hd hbases hresult =>
    .ofCompile ((o.backend_part k).trans ho) (namesFunctions_of_markedClasses hdecls (List.mem_of_getElem? hd))
      (fun b hb => hbases b (BoundClass.mem_extensionBases.mp hb)) hresult

/-- **The types that a module makes were read from source texts, and so were all that are registered after it.** -/
theorem Interleaves.isRead (ho : o.backend = .reference) (hr : IsReadRegistry registry)
    (hdecls : markedClasses path source = .ok decls)
    (h : Interleaves o decls (start registry decls) (layers (baseGraph decls)) q) :
    (∀ t, .ok t ∈ q.reported decls → t.IsRead) ∧ IsReadRegistry q.registry := by
  have hregular : o.backend.IsRegular := ho ▸ Backend.isRegular_reference
  refine ⟨fun t ht => ?_, fun name t hget => ?_⟩
  · obtain ⟨i, hi⟩ := List.mem_iff_getElem?.mp ht
    exact ((h.getElem?_reported_iff hregular).mp hi).isRead ho hr hdecls
  · obtain ⟨-, registered, -, horders, -, hregistry⟩ := h.traced hregular (awaits_start o registry decls)
    rw [hregistry, get?_registerAll] at hget
    rcases Option.or_eq_some_iff.mp hget with hget | ⟨-, hget⟩
    · exact hr name t hget
    · obtain ⟨k, hk, hregisters⟩ := List.exists_of_findSome?_eq_some hget
      have hlt : k < decls.length := by
        rw [(List.Perm.flatten_congr horders).mem_iff, mem_flatten_layers_iff] at hk
        simpa [baseGraph] using hk.1
      have hout : HasOutcome o registry decls k (outcomeAt o registry decls k) := hasOutcome_outcomeAt hregular hlt
      rw [(registers_eq_some_iff.mp hregisters).1] at hout
      exact hout.isRead ho hr hdecls

end Module

end NativeClass
