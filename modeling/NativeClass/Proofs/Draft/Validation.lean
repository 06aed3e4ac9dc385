import NativeClass.Proofs.Draft.Operations
/-!
# What a validated draft satisfies

* `ValidatorSet.objection?_eq_none`: no validator of a set objects to a draft that passes it.
* `Draft.not_mem_keys_of_nameCollision`: no attribute has the name of a method, if names are checked.
* `Draft.isAbstract_eq_false_of_abstractMethod`: a class without abstract methods of its own has no abstract slot,
  if abstract methods are checked.
* **`Draft.get?_eq_of_attributeType`**: an attribute that the class redeclares has the type that every base
  gives it, if types of attributes are checked.
-/

namespace NativeClass

theorem ValidatorSet.objection?_eq_none {set : ValidatorSet} {d : Draft} {v : DraftValidator}
    (h : set.validate d = .ok ()) (hv : v ∈ set.drafts) : v.objection? d = none := by
  have hfailures : set.draftFailures d = [] := (ensures_accept d.name _).of_ok h
  have hv' := List.filterMap_eq_nil_iff.mp hfailures v hv
  exact Option.map_eq_none_iff.mp hv'

theorem DraftValidator.eq_nil_of_complaint? {message : String} {names : List String}
    (h : complaint? message names = none) : names = [] := by
  by_contra hne
  rw [complaint?, if_neg fun he => hne (List.isEmpty_iff.mp he)] at h
  cases h

namespace Draft

open DraftValidator (abstractMethod attributeType collisions eq_nil_of_complaint? nameCollision typeChanges)

variable {d : Draft} {name : String} {ty own : Ty}

/-- An attribute has neither the name of a method of the class nor that of a slot. -/
theorem not_mem_keys_of_nameCollision (h : nameCollision.objection? d = none)
    (hname : name ∈ d.attributes.entries.keys) :
    name ∉ d.methods.keys ∧ name ∉ d.slotTypes.entries.keys := by
  have hnil : collisions d = [] := eq_nil_of_complaint? h
  have hfree := List.filter_eq_nil_iff.mp hnil name hname
  rw [Bool.or_eq_true, OrderedMap.contains_iff, OrderedMap.contains_iff] at hfree
  exact not_or.mp hfree

/-- A class without abstract methods of its own has no abstract slot. -/
theorem isAbstract_eq_false_of_abstractMethod (h : abstractMethod.objection? d = none)
    (hown : ∀ s ∈ d.methods.values, s.isAbstract = false) {s : Signature}
    (hs : d.slotTypes.get? name = some s) : s.isAbstract = false := by
  have hconcrete : ¬ (d.methods.values.any (·.isAbstract) = true) := by
    rw [List.any_eq_true]
    rintro ⟨s, hs, habstract⟩
    exact Bool.eq_false_iff.mp (hown s hs) habstract
  simp only [abstractMethod, if_neg hconcrete] at h
  have hnil : d.abstractMethods = [] := eq_nil_of_complaint? h
  obtain ⟨e, he, rfl⟩ := Option.map_eq_some_iff.mp hs
  have hslot := List.filter_eq_nil_iff.mp (List.map_eq_nil_iff.mp hnil) (name, e)
    (OrderedMap.get?_eq_some_iff.mp he)
  exact Bool.eq_false_iff.mpr hslot

theorem mem_ownAttributes (h : d.attributes.entries.get? name = some ⟨ty, .own⟩) :
    name ∈ d.ownAttributes := by
  refine List.mem_map.mpr ⟨(name, ⟨ty, .own⟩), List.mem_filter.mpr ⟨?_, rfl⟩, rfl⟩
  exact OrderedMap.get?_eq_some_iff.mp h

/-- **A redeclared attribute has the type that every base gives it.** -/
theorem get?_eq_of_attributeType (h : attributeType.objection? d = none)
    (hown : d.attributes.entries.get? name = some ⟨own, .own⟩) {base : NativeType}
    (hbase : base ∈ d.bases) (hty : base.attributes.get? name = some ty) : ty = own := by
  have hnone : d.ownAttributes.flatMap (typeChanges d) = [] := eq_nil_of_complaint? h
  have hchanges : typeChanges d name = [] :=
    List.flatMap_eq_nil_iff.mp hnone name (mem_ownAttributes hown)
  have hget : d.attributes.get? name = some own := by
    rw [TableState.get?, hown]
    rfl
  rw [typeChanges, hget] at hchanges
  have hquiet := List.filterMap_eq_nil_iff.mp hchanges base hbase
  rw [hty] at hquiet
  by_contra hne
  dsimp only at hquiet
  rw [if_neg hne] at hquiet
  cases hquiet

end Draft

end NativeClass
