import NativeClass.Proofs.Compilation.StoredValues
import NativeClass.Proofs.Draft.Validation
import NativeClass.Proofs.Layout
/-!
# The members of a finished class

Three stages write into one dictionary by name: methods replace functions while signatures are recorded and bodies
are typed, the class itself is added under a key of its own, and accessors come last.

* `Compilation.HoldsMembers`: the dictionary of a compilation, as far as methods go.
* **`Compilation.holdsMembers_runInference`**: it is kept from the class body to the end of inference.
* `Compilation.Finishes.get?_members`: which stage wrote a member of a finished type.
* **`BoundClass.losesNoMember_iff`**: when no member of the class is overwritten (`BoundClass.LosesNoMember`).
-/

namespace NativeClass

namespace Compilation

variable {o : CompileOptions} {c : BoundClass} {source : ClassSource} {i i' : Compilation} {m : Method}

/-! ## The dictionary during inference -/

/-- The class dictionary holds the methods with their present signatures, and otherwise what the class body
declares. -/
structure HoldsMembers (source : ClassSource) (i : Compilation) : Prop where
  keys : i.dict.keys = source.members.keys
  method : ∀ m ∈ i.methods, i.dict.get? m.name = some (.method m)
  declared : ∀ name, name ∉ i.methods.map Method.name → i.dict.get? name = source.dict.get? name

namespace HoldsMembers

theorem mem_keys (h : HoldsMembers source i) (hm : m.name ∈ i.methods.map Method.name) :
    m.name ∈ source.members.keys := by
  obtain ⟨old, hold, hname⟩ := List.mem_map.mp hm
  rw [← h.keys, ← hname]
  exact OrderedMap.mem_keys_of_get? (h.method old hold)

theorem keys_setMember (h : HoldsMembers source i) (hm : m.name ∈ source.members.keys) :
    (i.setMember m).dict.keys = source.members.keys := by
  refine (OrderedMap.keys_insert ..).trans ?_
  rw [if_pos (h.keys ▸ hm), h.keys]

theorem append (h : HoldsMembers source i) (hm : m.name ∈ source.members.keys)
    (hnew : m.name ∉ i.methods.map Method.name) (draft : Draft) :
    HoldsMembers source ({ i with draft, methods := i.methods ++ [m] }.setMember m) where
  keys := h.keys_setMember hm
  method x hx := by
    refine (OrderedMap.get?_insert ..).trans ?_
    rcases List.mem_append.mp hx with hx | hx
    · have hne : x.name ≠ m.name := fun he => hnew (he ▸ List.mem_map_of_mem hx)
      rw [if_neg hne]
      exact h.method x hx
    · rw [List.mem_singleton.mp hx, if_pos rfl]
  declared name hname := by
    have hparts : name ∉ (i.methods ++ [m]).map Method.name := hname
    rw [List.map_append, List.mem_append, not_or] at hparts
    have hne : name ≠ m.name := fun he => hparts.2 (List.mem_singleton.mpr he)
    refine (OrderedMap.get?_insert ..).trans ?_
    rw [if_neg hne]
    exact h.declared name hparts.1

theorem replace (h : HoldsMembers source i) (hm : m.name ∈ i.methods.map Method.name) (draft : Draft)
    (typings : OrderedMap Typing) :
    HoldsMembers source ({ i with draft, methods := replaceMethod i.methods m, typings }.setMember m) where
  keys := h.keys_setMember (h.mem_keys hm)
  method x hx := by
    refine (OrderedMap.get?_insert ..).trans ?_
    rcases mem_replaceMethod hx with rfl | ⟨hx, hne⟩
    · exact if_pos rfl
    · rw [if_neg hne]
      exact h.method x hx
  declared name hname := by
    have hother : name ∉ (replaceMethod i.methods m).map Method.name := hname
    rw [map_name_replaceMethod] at hother
    have hne : name ≠ m.name := fun he => hother (he ▸ hm)
    refine (OrderedMap.get?_insert ..).trans ?_
    rw [if_neg hne]
    exact h.declared name hother

end HoldsMembers

theorem holdsMembers_installMethod (h : HoldsMembers source i) (hm : m.name ∈ source.members.keys)
    (hnew : m.name ∉ i.methods.map Method.name) :
    Ensures (i.installMethod m)
      (fun i' => HoldsMembers source i' ∧ i'.methods.map Method.name = i.methods.map Method.name ++ [m.name])
      fun _ => True := by
  refine (i.draft.addMethod_methods m.name m.signature).bind fun r _ => ensures_ok.mpr ⟨?_, ?_⟩
  · exact h.append (m := { m with signature := r.1 }) hm hnew r.2
  · exact List.map_append

theorem holdsMembers_installMethods (o : CompileOptions) (hdict : i.dict = source.dict) :
    Ensures (i.installMethods o) (HoldsMembers source) fun _ => True := by
  refine (Draft.ensures_methodsOf i.draft o.validators i.dict).of_any.bind fun ms hms => ?_
  rw [hdict] at hms
  subst hms
  have hnames := i.draft.map_name_initialMethods source
  have hn := i.draft.nodup_initialMethods source
  -- the methods installed so far are those dealt with
  refine (ensures_foldlM
    (fun dealt i' => HoldsMembers source i' ∧ i'.methods.map Method.name = dealt.map Method.name) ?_ ?_).mono
    fun _ h => h.1
  · have hkeys : source.dict.keys = source.members.keys := OrderedMap.keys_mapValues _ _
    exact ⟨⟨hdict ▸ hkeys, List.forall_mem_nil _, fun name _ => by rw [hdict]⟩, rfl⟩
  · rintro dealt m rest i' hsplit ⟨h, hdealt⟩
    have hmem : m.name ∈ source.methodNames :=
      hnames ▸ List.mem_map_of_mem (hsplit ▸ List.mem_append_right dealt List.mem_cons_self)
    obtain ⟨f, hf⟩ := (ClassSource.mem_methodNames_iff.mp hmem).1
    have hnew : m.name ∉ i'.methods.map Method.name :=
      hdealt ▸ Method.name_not_mem_of_nodup hn hsplit
    refine (holdsMembers_installMethod h (OrderedMap.mem_keys_of_get? hf) hnew).mono fun i'' h'' => ?_
    exact ⟨h''.1, by rw [h''.2, hdealt, List.map_append]; rfl⟩

theorem holdsMembers_typeMethod (o : CompileOptions) (h : HoldsMembers source i)
    (hm : m.name ∈ i.methods.map Method.name) :
    Ensures (i.typeMethod o m)
      (fun i' => HoldsMembers source i' ∧ i'.methods.map Method.name = i.methods.map Method.name)
      fun _ => True := by
  unfold typeMethod
  dsimp only
  split
  · exact ensures_error.mpr trivial
  next t _ =>
  refine (Draft.addMethod_methods { i.draft with symbols := _ } m.name t.signature).bind fun r _ => ?_
  refine ensures_ok.mpr ⟨?_, map_name_replaceMethod _ _⟩
  exact h.replace (m := { m with signature := r.1 }) hm r.2 (i.typings.insert m.name t)

theorem holdsMembers_typeInit (o : CompileOptions) (h : HoldsMembers source i) :
    Ensures (i.typeInit o) (HoldsMembers source) fun _ => True := by
  unfold typeInit
  split
  next m hm =>
    have hmem : m.name ∈ i.methods.map Method.name := List.mem_map_of_mem (List.mem_of_find?_eq_some hm)
    exact (holdsMembers_typeMethod o h hmem).mono fun _ h' => h'.1
  · exact ensures_ok.mpr h

theorem holdsMembers_typeMethods (o : CompileOptions) (h : HoldsMembers source i) :
    Ensures (i.typeMethods o) (HoldsMembers source) fun _ => True := by
  refine (ensures_foldlM
    (fun _ i' => HoldsMembers source i' ∧ i'.methods.map Method.name = i.methods.map Method.name)
    ⟨h, rfl⟩ ?_).mono fun _ h => h.1
  rintro dealt m rest i' hsplit ⟨h', hnames⟩
  have hmem : m ∈ i.methods :=
    (List.mem_filter.mp (hsplit ▸ List.mem_append_right dealt List.mem_cons_self)).1
  refine (holdsMembers_typeMethod o h' (hnames ▸ List.mem_map_of_mem hmem)).mono fun i'' h'' => ?_
  exact ⟨h''.1, h''.2.trans hnames⟩

/-- **After inference the dictionary holds the methods, and otherwise what the class body declares**, whatever the
engine does. -/
theorem holdsMembers_runInference (o : CompileOptions) (c : BoundClass) :
    Ensures ((ofClass c).runInference o) (HoldsMembers c.source) fun _ => True := by
  refine (ensures_inferAttributes c).of_any.bind fun i₁ h₁ => ?_
  refine (holdsMembers_installMethods o h₁.dict).bind fun i₂ h₂ => ?_
  refine (holdsMembers_typeInit o h₂).bind fun i₃ h₃ => ?_
  cases i₃.draft.buildAttributes with
  | error e => exact ensures_error.mpr trivial
  | ok draft =>
    have hdraft : HoldsMembers c.source { i₃ with draft } := ⟨h₃.keys, h₃.method, h₃.declared⟩
    refine (holdsMembers_typeMethods o hdraft).bind fun i₄ h₄ => ?_
    cases i₄.draft.buildSlots with
    | error e => exact ensures_error.mpr trivial
    | ok draft => exact ensures_ok.mpr ⟨h₄.keys, h₄.method, h₄.declared⟩

/-! ## The members of a finished type -/

namespace Finishes

variable {t : NativeType} {name : String}

theorem members_eq (h : Finishes c i t) :
    t.core.members =
      (i.dict.insert originKey (.origin c.source)).insertAll
        (t.layout.descriptors.map fun d => (d.name, .descriptor d)) := by
  rw [h.eq, ← h.framed.target]
  rfl

theorem map_name_descriptors (h : Finishes c i t) :
    t.layout.descriptors.map Descriptor.name = t.attributes.names := by
  rw [h.layout, Layout.descriptors_ofTable, List.map_map]
  exact Layout.map_name_slots t.attributes

/-- **Which stage wrote a member**: an accessor counts, then the class itself, then what inference left. -/
theorem get?_members (h : Finishes c i t) (name : String) :
    t.core.members.get? name = ((t.descriptor? name).map .descriptor).or
      (if name = originKey then some (.origin c.source) else i.dict.get? name) := by
  -- no two accessors write under one name, so the order in which they write does not matter
  have hn : (t.layout.descriptors.map fun d => (d.name, Member.descriptor d)).map Prod.fst |>.Nodup := by
    rw [List.map_map]
    show (t.layout.descriptors.map Descriptor.name).Nodup
    rw [h.map_name_descriptors]
    exact t.attributes.nodup_names
  rw [h.members_eq, OrderedMap.get?_insertAll_of_nodup _ hn, OrderedMap.lookup_map_pair, OrderedMap.get?_insert,
    NativeType.descriptor?, h.descriptors]

theorem descriptor?_isSome_iff (h : Finishes c i t) :
    (t.descriptor? name).isSome ↔ name ∈ t.attributes.names := by
  rw [NativeType.descriptor?, h.descriptors, ← h.map_name_descriptors, List.find?_isSome, List.mem_map]
  simp only [decide_eq_true_eq]

theorem descriptor?_eq_none (h : Finishes c i t) (hname : name ∉ t.attributes.names) :
    t.descriptor? name = none := by
  rwa [← h.descriptor?_isSome_iff, Option.not_isSome_iff_eq_none] at hname

theorem get?_members_of_not_mem (h : Finishes c i t) (hname : name ∉ t.attributes.names)
    (hkey : name ≠ originKey) : t.core.members.get? name = i.dict.get? name := by
  rw [h.get?_members, h.descriptor?_eq_none hname, Option.map_none, Option.none_or, if_neg hkey]

theorem exists_descriptor (h : Finishes c i t) (hname : name ∈ t.attributes.names) :
    ∃ d, t.descriptor? name = some d ∧ t.core.members.get? name = some (.descriptor d) := by
  obtain ⟨d, hd⟩ := Option.isSome_iff_exists.mp (h.descriptor?_isSome_iff.mpr hname)
  refine ⟨d, hd, ?_⟩
  rw [h.get?_members, hd]
  rfl

theorem get?_members_of_declared (h : Finishes c i t) (hdict : HoldsMembers c.source i) {decl : Declaration}
    (hdecl : c.source.members.get? name = some decl) (hmethod : name ∉ i.methods.map Method.name)
    (hname : name ∉ t.attributes.names) (hkey : name ≠ originKey) :
    t.core.members.get? name = some (.declared decl) := by
  have hbody : c.source.dict.get? name = (c.source.members.get? name).map .declared :=
    OrderedMap.get?_mapValues _ _
  rw [h.get?_members_of_not_mem hname hkey, hdict.declared name hmethod, hbody, hdecl]
  rfl

theorem prefix_keys_members (h : Finishes c i t) (hdict : HoldsMembers c.source i) :
    c.source.members.keys <+: t.core.members.keys := by
  rw [← hdict.keys, h.members_eq, OrderedMap.keys_insertAll]
  refine List.IsPrefix.trans ?_ (prefix_extendKeys _ _)
  rw [OrderedMap.keys_insert]
  split
  · exact List.prefix_refl _
  · exact List.prefix_append _ _

theorem mem_names_of_declared (h : Finishes c i t) (ho : o.backend = .reference)
    (hi : (ofClass c).runInference o = .ok i) {ty : Ty} (hname : c.source.members.get? name = some (.attr ty)) :
    name ∈ t.attributes.names := by
  obtain ⟨j, i', _, -, -, hattr, -, hattributes, rfl⟩ := BoundClass.exists_halves_of_runInference ho hi
  have hdeclared : (name, ty) ∈ c.source.declaredAttributes :=
    List.mem_filterMap.mpr ⟨_, OrderedMap.get?_eq_some_iff.mp hname, rfl⟩
  have hkeys : t.attributes.names = j.draft.attributes.entries.keys := by
    rw [← hattributes, h.eq]
    rfl
  rw [hkeys, hattr.order, mem_extendKeys, mem_extendKeys]
  exact Or.inl (Or.inr (List.mem_map_of_mem hdeclared))

end Finishes

end Compilation

namespace BoundClass

open Compilation

variable {o : CompileOptions} {c : BoundClass} {i : Compilation} {t : NativeType}

/-! ## Members that are kept -/

/-- The finished type has all members of the class: a method with its final signature for every function but the
allocator, which stays a function; the class itself under a key of its own; an accessor for every attribute; all
other values as they are. The names of the body come first, in order. -/
structure LosesNoMember (c : BoundClass) (t : NativeType) : Prop where
  methods : ∀ name f, c.source.members.get? name = some (.function f) → name ≠ newName →
    ∃ m, t.core.members.get? name = some (.method m) ∧ m.func = f ∧
      t.core.methods.get? name = some m.signature ∧ m.signature.isResolved
  allocator : ∀ f, c.source.members.get? newName = some (.function f) →
    t.core.members.get? newName = some (.declared (.function f))
  origin : t.core.members.get? originKey = some (.origin c.source)
  attributes : ∀ name ∈ t.attributes.names, ∃ d, t.descriptor? name = some d ∧
    t.core.members.get? name = some (.descriptor d)
  values : ∀ name text, c.source.members.get? name = some (.value text) → name ∉ t.attributes.names →
    t.core.members.get? name = some (.declared (.value text))
  order : c.source.members.keys <+: t.core.members.keys

namespace LosesNoMember

/-- No accessor takes the place of the class itself. -/
theorem originKey_not_mem_names (h : c.LosesNoMember t) : originKey ∉ t.attributes.names := fun hmem => by
  obtain ⟨d, -, hd⟩ := h.attributes originKey hmem
  rw [h.origin] at hd
  cases hd

/-- The class itself takes the place of no member, if the attributes that the body declares are attributes. -/
theorem originKey_not_mem_keys (h : c.LosesNoMember t)
    (hdeclared : ∀ ty, c.source.members.get? originKey = some (.attr ty) → originKey ∈ t.attributes.names) :
    originKey ∉ c.source.members.keys := fun hmem => by
  obtain ⟨decl, hdecl⟩ := OrderedMap.exists_get?_of_mem_keys hmem
  cases decl with
  | function f =>
    obtain ⟨m, hm, -⟩ := h.methods originKey f hdecl (by decide)
    rw [h.origin] at hm
    cases hm
  | «attr» ty => exact h.originKey_not_mem_names (hdeclared ty hdecl)
  | value text =>
    have hvalue := h.values originKey text hdecl h.originKey_not_mem_names
    rw [h.origin] at hvalue
    cases hvalue

theorem not_definesMethod_newName (h : c.LosesNoMember t) (hmem : newName ∈ t.attributes.names) :
    ¬ c.source.DefinesMethod newName := fun ⟨f, hf⟩ => by
  obtain ⟨d, -, hd⟩ := h.attributes newName hmem
  rw [h.allocator f hf] at hd
  cases hd

/-- Names that do not meet are enough, whatever checks have been made. -/
theorem of_disjoint (hi : Finishes c i t) (hinf : Inferred c i) (hdict : HoldsMembers c.source i)
    (hmethods : ∀ name ∈ i.draft.methods.keys, name ∉ t.attributes.names)
    (hkey : originKey ∉ c.source.members.keys) (hattribute : originKey ∉ t.attributes.names)
    (hnew : newName ∈ t.attributes.names → ¬ c.source.DefinesMethod newName) : c.LosesNoMember t := by
  have hbody : ∀ name decl, c.source.members.get? name = some decl → name ≠ originKey :=
    fun name decl hdecl he => hkey (he ▸ OrderedMap.mem_keys_of_get? hdecl)
  refine
    { methods := fun name f hf hne => ?methods
      allocator := fun f hf => ?allocator
      origin := ?origin
      attributes := fun name => hi.exists_descriptor
      values := fun name text htext hname => ?values
      order := hi.prefix_keys_members hdict }
  case methods =>
    obtain ⟨d, hrefines⟩ := hinf.refines
    obtain ⟨m, hm, rfl, rfl⟩ := exists_method_of_get? hrefines hf hne
    have hname := hmethods m.name (hinf.keys ▸ List.mem_map_of_mem hm)
    obtain ⟨_, -, -, hresolved⟩ := hinf.typed m hm
    refine ⟨m, ?_, rfl, ?_, hresolved⟩
    · rw [hi.get?_members_of_not_mem hname (hbody _ _ hf), hdict.method m hm]
    · rw [hi.methods, hinf.signed m hm]
  case allocator =>
    have hmethod : newName ∉ i.methods.map Method.name := fun hmem =>
      (ClassSource.mem_methodNames_iff.mp (hinf.map_name ▸ hmem)).2 rfl
    have hname : newName ∉ t.attributes.names := fun hmem => hnew hmem ⟨f, hf⟩
    exact hi.get?_members_of_declared hdict hf hmethod hname (hbody _ _ hf)
  case origin =>
    rw [hi.get?_members, hi.descriptor?_eq_none hattribute]
    rfl
  case values =>
    have hmethod : name ∉ i.methods.map Method.name := fun hmem => by
      obtain ⟨f, hf⟩ := (ClassSource.mem_methodNames_iff.mp (hinf.map_name ▸ hmem)).1
      rw [htext] at hf
      cases hf
    exact hi.get?_members_of_declared hdict htext hmethod hname (hbody _ _ htext)

end LosesNoMember

/-- **When no member of a class is lost.** With a check of names, every member is kept exactly if the class uses the
key of the finished class neither for a member nor for an attribute, and if it does not set an attribute under the
name of an allocator that it defines. -/
theorem losesNoMember_iff (ho : o.backend = .reference)
    (hv : DraftValidator.nameCollision ∈ o.validators.drafts) (h : (c.compile o).result = .ok t) :
    c.LosesNoMember t ↔ originKey ∉ c.source.members.keys ∧ originKey ∉ t.attributes.names ∧
      (newName ∈ t.attributes.names → ¬ c.source.DefinesMethod newName) := by
  obtain ⟨i, hrun, hvalid, -, hi⟩ := compile_eq_ok (ho ▸ Backend.assemblesAsGiven_reference) h
  constructor
  · intro hkept
    exact ⟨hkept.originKey_not_mem_keys fun ty => hi.mem_names_of_declared ho hrun,
      hkept.originKey_not_mem_names, hkept.not_definesMethod_newName⟩
  · rintro ⟨hkey, hattribute, hnew⟩
    refine .of_disjoint hi ((ensures_runInference ho c).of_ok hrun) ((holdsMembers_runInference o c).of_ok hrun)
      (fun name hmethod hmem => ?_) hkey hattribute hnew
    rw [hi.eq] at hmem
    have hquiet := ValidatorSet.objection?_eq_none hvalid hv
    exact (Draft.not_mem_keys_of_nameCollision hquiet hmem).1 hmethod

end BoundClass

/-! ## Members that are kept, and members that are lost -/

namespace Sample

/-- A class over `shape` with an allocator, a plain value and an attribute that its constructor introduces. -/
def vault : BoundClass :=
  classOf "Vault" [("limit", .value "10"), plainMethod newName [],
    plainMethod initName [storeInto "content" (.literal default .int)]] [.extension (typeOf options shape)]

/-- A class whose constructor stores into the attribute that keeps the class itself. -/
def tag : BoundClass :=
  classOf "Tag" [plainMethod initName [storeInto originKey (.literal default .int)]] []

/-- A class whose constructor stores into an attribute with the name of its allocator. -/
def pool : BoundClass :=
  classOf "Pool" [plainMethod newName [],
    plainMethod initName [storeInto newName (.literal default .int)]] []

theorem compile_vault : (vault.compile options).result = .ok (typeOf options vault) :=
  compile_eq (by decide +kernel)

theorem compile_tag : (tag.compile options).result = .ok (typeOf options tag) :=
  compile_eq (by decide +kernel)

theorem compile_pool : (pool.compile options).result = .ok (typeOf options pool) :=
  compile_eq (by decide +kernel)

theorem checksNames : DraftValidator.nameCollision ∈ options.validators.drafts := by
  simp [options, ValidationConfig.validators]

end Sample

namespace BoundClass

open Sample

theorem losesNoMember_iff_vault :
    vault.LosesNoMember (typeOf options vault) ∧
      (typeOf options vault).core.members.keys =
        ["limit", newName, initName, originKey, "x", "visible", "content"] := by
  have hnew : newName ∉ (typeOf options vault).attributes.names := by decide +kernel
  have hkept := losesNoMember_iff (c := vault) rfl checksNames compile_vault
  exact ⟨hkept.mpr ⟨by decide, by decide +kernel, fun hmem => absurd hmem hnew⟩, by decide +kernel⟩

/-- **A member can be lost, with all checks of this library.** The accessor of an attribute takes the place of the
class itself, or that of the allocator. -/
theorem losesMember_tag_pool :
    DraftValidator.nameCollision ∈ options.validators.drafts ∧
      (tag.compile options).result = .ok (typeOf options tag) ∧ ¬ tag.LosesNoMember (typeOf options tag) ∧
      (pool.compile options).result = .ok (typeOf options pool) ∧ ¬ pool.LosesNoMember (typeOf options pool) := by
  have htag : ((typeOf options tag).core.members.get? originKey).map Member.kindName = some "descriptor" := by
    decide +kernel
  have hpool : ((typeOf options pool).core.members.get? newName).map Member.kindName = some "descriptor" := by
    decide +kernel
  refine ⟨checksNames, compile_tag, ?_, compile_pool, ?_⟩
  · intro h
    rw [h.origin] at htag
    simp [Member.kindName] at htag
  · intro h
    rw [h.allocator _ rfl] at hpool
    simp [Member.kindName] at hpool

end BoundClass

end NativeClass
