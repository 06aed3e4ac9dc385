import NativeClass.Proofs.Draft.Validation
import NativeClass.Proofs.NativeType.Finished
/-!
# The types of inherited attributes

A table of attributes takes an entry from the class itself, and otherwise from the last base that has one. The
check of attribute types looks at the entries of the class itself, so it does not compare bases with each other.

* `NativeType.lastType?`: the type that the last base with an attribute gives it.
* `Compilation.Finishes.get?_attributes_eq`: where the type of an attribute comes from.
* `Compilation.Finishes.eq_of_ownsAttribute`: a checked class agrees with all its bases about its own attributes.
* **`NativeType.attributeTypes_of_bases`**: which type an attribute of a base has after a check.
* **`NativeType.attributeTypes_replaced`**: it is not always the one that the base gives it.
-/

namespace NativeClass

namespace NativeType

/-- The type that the last base with an attribute of the name gives it. -/
def lastType? (bases : List NativeType) (name : String) : Option Ty :=
  bases.reverse.findSome? fun b => b.attributes.get? name

/-- The entry of the attribute comes from the class itself: from a declaration or from the constructor. -/
def OwnsAttribute (t : NativeType) (name : String) : Prop :=
  (t.attributes.entries.get? name).map Entry.origin = some .own

instance (t : NativeType) (name : String) : Decidable (t.OwnsAttribute name) :=
  inferInstanceAs (Decidable (_ = _))

/-- Every attribute of the base has the same type in both tables. -/
def KeepsAttributeTypes (b t : NativeType) : Prop :=
  ∀ name ty, b.attributes.get? name = some ty → t.attributes.get? name = some ty

variable {b : NativeType} {name : String} {ty : Ty}

theorem lastType?_append_cons (before after : List NativeType) (hty : b.attributes.get? name = some ty) :
    lastType? (before ++ b :: after) name = some ((lastType? after name).getD ty) := by
  have hone : [b].findSome? (fun b => b.attributes.get? name) = some ty := by
    rw [List.findSome?_singleton, hty]
  rw [lastType?, List.reverse_append, List.reverse_cons, List.findSome?_append, List.findSome?_append,
    ← lastType?, hone]
  cases lastType? after name <;> rfl

end NativeType

open NativeType (lastType?)

/-! ## The table of a finished type -/

namespace Compilation.Finishes

variable {c : BoundClass} {i : Compilation} {t b : NativeType} {name : String} {ty : Ty}

theorem entries_attributes (h : Finishes c i t) : t.attributes.entries = i.draft.attributes.entries := by
  rw [h.eq]
  rfl

/-- The type of an attribute is the class's own, and otherwise that of the last base that has it. -/
theorem get?_attributes_eq (h : Finishes c i t) (name : String) :
    t.attributes.get? name = (i.draft.ownSymbols.lookup name).or (lastType? c.extensionBases name) := by
  rw [h.get?_attributes, Draft.value_mergeBases]
  rfl

theorem ownsAttribute_iff (h : Finishes c i t) (name : String) :
    t.OwnsAttribute name ↔ (i.draft.ownSymbols.lookup name).isSome := by
  rw [NativeType.OwnsAttribute, h.attributes]
  show ((Table.Builder.entries _).get? name).map Entry.origin = _ ↔ _
  rw [Table.Builder.get?_insertOwns _ i.draft.nodup_ownSymbols]
  cases hown : i.draft.ownSymbols.lookup name with
  | some own => exact iff_of_true rfl rfl
  | none =>
    rw [Option.map_none, Option.none_or]
    refine iff_of_false (fun horigin => ?_) Bool.false_ne_true
    obtain ⟨e, he, howner⟩ := Option.map_eq_some_iff.mp horigin
    exact Draft.origin_mergeBases he howner

theorem get?_attributes_of_not_ownsAttribute (h : Finishes c i t) (hown : ¬ t.OwnsAttribute name) :
    t.attributes.get? name = lastType? c.extensionBases name := by
  rw [h.ownsAttribute_iff, Option.not_isSome_iff_eq_none] at hown
  rw [h.get?_attributes_eq, hown, Option.none_or]

/-- **A checked class agrees with every base about the attributes of its own.** -/
theorem eq_of_ownsAttribute (h : Finishes c i t) (hv : DraftValidator.attributeType.objection? i.draft = none)
    (hown : t.OwnsAttribute name) (hb : b ∈ c.extensionBases) (hty : b.attributes.get? name = some ty) :
    t.attributes.get? name = some ty := by
  obtain ⟨⟨own, origin⟩, he, rfl⟩ := Option.map_eq_some_iff.mp hown
  have hdraft : i.draft.attributes.entries.get? name = some ⟨own, .own⟩ := h.entries_attributes ▸ he
  have hbase : b ∈ i.draft.bases := h.framed.bases ▸ hb
  rw [Table.get?, he, Draft.get?_eq_of_attributeType hv hdraft hbase hty]
  rfl

end Compilation.Finishes

/-! ## After the check -/

namespace NativeType

variable {c : BoundClass} {o : CompileOptions} {t b : NativeType} {before after : List NativeType}
  {name : String} {ty : Ty}

/-- **The type of an attribute of a base in a class whose attribute types are checked.** An attribute that the
class declares or sets itself has the type that each of its bases gives it. Any other attribute has the type that
the base gives it, unless a later base has it as well: then it has the type that the last such base gives it. -/
theorem attributeTypes_of_bases (ho : o.backend.AssemblesAsGiven)
    (hv : DraftValidator.attributeType ∈ o.validators.drafts) (h : (c.compile o).result = .ok t)
    (hsplit : c.extensionBases = before ++ b :: after) (hty : b.attributes.get? name = some ty) :
    (t.OwnsAttribute name → t.attributes.get? name = some ty) ∧
      t.attributes.get? name = some ((lastType? after name).getD ty) := by
  obtain ⟨i, -, hvalid, -, hi⟩ := BoundClass.compile_eq_ok ho h
  have hquiet := ValidatorSet.objection?_eq_none hvalid hv
  have hmem : ∀ b' ∈ b :: after, b' ∈ c.extensionBases := fun b' hb' =>
    hsplit ▸ List.mem_append_right before hb'
  have hown : t.OwnsAttribute name → t.attributes.get? name = some ty := fun hown =>
    hi.eq_of_ownsAttribute hquiet hown (hmem b List.mem_cons_self) hty
  refine ⟨hown, ?_⟩
  by_cases hentry : t.OwnsAttribute name
  · -- the later bases agree with the class too, so the last of them does
    cases hlast : lastType? after name with
    | none => exact hown hentry
    | some last =>
      obtain ⟨b', hb', hlast⟩ := List.exists_of_findSome?_eq_some hlast
      have hlater := hmem b' (List.mem_cons_of_mem b (List.mem_reverse.mp hb'))
      exact hi.eq_of_ownsAttribute hquiet hentry hlater hlast
  · rw [hi.get?_attributes_of_not_ownsAttribute hentry, hsplit, lastType?_append_cons before after hty]

end NativeType

/-! ## Two bases that disagree -/

namespace Sample

/-- A class with an attribute. -/
def counted : BoundClass :=
  classOf "Counted" [("size", .attr .int), ("label", .attr .str)] []

/-- A class that gives an attribute of the same name another type. -/
def weighed : BoundClass :=
  classOf "Weighed" [("size", .attr .float)] []

/-- A class over both that declares only the attribute on which they agree. -/
def parcel : BoundClass :=
  classOf "Parcel" [("label", .attr .str)]
    [.extension (typeOf options counted), .extension (typeOf options weighed)]

theorem compile_counted : (counted.compile options).result = .ok (typeOf options counted) :=
  compile_eq (by decide +kernel)

theorem compile_weighed : (weighed.compile options).result = .ok (typeOf options weighed) :=
  compile_eq (by decide +kernel)

theorem compile_parcel : (parcel.compile options).result = .ok (typeOf options parcel) :=
  compile_eq (by decide +kernel)

theorem checksAttributeTypes : DraftValidator.attributeType ∈ options.validators.drafts := by
  simp [options, ValidationConfig.validators]

theorem size_counted : (typeOf options counted).attributes.get? "size" = some .int := by
  decide +kernel

theorem label_counted : (typeOf options counted).attributes.get? "label" = some .str := by
  decide +kernel

theorem finished_bases_parcel : ∀ b ∈ parcel.extensionBases, b.Finished :=
  List.forall_mem_cons.mpr ⟨.ofCompile (c := counted) rfl (List.forall_mem_nil _) compile_counted,
    List.forall_mem_singleton.mpr (.ofCompile (c := weighed) rfl (List.forall_mem_nil _) compile_weighed)⟩

end Sample

namespace NativeType

open Sample

/-- The later base decides about one attribute, and the class agrees with its base about the other one. -/
theorem attributeTypes_of_bases_parcel :
    lastType? [typeOf options weighed] "size" = some .float ∧
      (typeOf options parcel).attributes.get? "size" = some .float ∧
      (typeOf options parcel).OwnsAttribute "label" ∧
      (typeOf options parcel).attributes.get? "label" = some .str := by
  have hsplit : parcel.extensionBases = [] ++ typeOf options counted :: [typeOf options weighed] := rfl
  have hlast : lastType? [typeOf options weighed] "size" = some .float := by decide +kernel
  have hown : (typeOf options parcel).OwnsAttribute "label" := by decide +kernel
  have hsize := attributeTypes_of_bases Backend.assemblesAsGiven_reference checksAttributeTypes compile_parcel
    hsplit size_counted
  have hlabel := attributeTypes_of_bases Backend.assemblesAsGiven_reference checksAttributeTypes compile_parcel
    hsplit label_counted
  rw [hlast] at hsize
  exact ⟨hlast, hsize.2, hown, hlabel.1 hown⟩

/-- **A base may lose the type of an attribute to a later base**, with all checks of this library. -/
theorem attributeTypes_replaced :
    ¬ ∀ (c : BoundClass) (o : CompileOptions) (t : NativeType), o.backend = .reference →
      DraftValidator.attributeType ∈ o.validators.drafts → (∀ b ∈ c.extensionBases, b.Finished) →
        (c.compile o).result = .ok t → ∀ b ∈ c.extensionBases, b.KeepsAttributeTypes t := by
  intro h
  have hkept := h parcel options _ rfl checksAttributeTypes finished_bases_parcel compile_parcel
    (typeOf options counted) List.mem_cons_self "size" .int size_counted
  have hsize : (typeOf options parcel).attributes.get? "size" = some .float := by decide +kernel
  rw [hsize] at hkept
  cases hkept

end NativeType

end NativeClass
