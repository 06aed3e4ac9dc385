import NativeClass.Proofs.NativeType.Finished
import NativeClass.Proofs.Inference.Stores
/-!
# The attributes of a class are fixed before they are used

The symbol table is filled in three steps: the bases, the declarations of the class body, the stores of the
constructor. From then on neither it nor the attribute table that is made from it changes.

* `BoundClass.inheritedType?`, `ClassSource.declaredAttributes`, `ClassSource.constructorStores`: what each
  step brings.
* `Compilation.typingRequests`: what the engine is asked while methods are typed.
* `Draft.agrees_insertOwns`: the attribute table agrees with the symbol table that it is made from.
* **`BoundClass.fixesAttributes_infer`**: all this of every class whose inference succeeds
  (`BoundClass.FixesAttributes`).
-/

namespace NativeClass

/-! ## What a class brings -/

/-- The attributes that a class body declares, in the order of the body. -/
def ClassSource.declaredAttributes (c : ClassSource) : List (String × Ty) :=
  c.members.entries.filterMap fun e =>
    match e.2 with
    | .attr ty => some (e.1, ty)
    | _ => none

/-- The attributes that the constructor of a class body stores into, in the order of its text. -/
def ClassSource.constructorStores (c : ClassSource) : List String :=
  match c.members.get? initName with
  | some (.function f) => f.attributeStores
  | _ => []

/-- The type that the last base with an attribute has for it. -/
def BoundClass.inheritedType? (c : BoundClass) (name : String) : Option Ty :=
  c.extensionBases.reverse.findSome? fun b => b.attributes.get? name

namespace ClassSource

theorem declaredSymbols_dict (c : ClassSource) :
    Draft.declaredSymbols c.dict = c.declaredAttributes.map fun e => (e.1, .declared e.2) := by
  rw [Draft.declaredSymbols, declaredAttributes, List.map_filterMap]
  show (c.members.entries.map fun e => (e.1, Member.declared e.2)).filterMap _ = _
  rw [List.filterMap_map]
  congr 1
  funext ⟨name, decl⟩
  cases decl <;> rfl

theorem nodup_declaredAttributes (c : ClassSource) : (c.declaredAttributes.map Prod.fst).Nodup := by
  have hsub : (c.declaredAttributes.map Prod.fst).Sublist c.members.keys := by
    rw [declaredAttributes, OrderedMap.keys]
    induction c.members.entries with
    | nil => exact .slnil
    | cons e es ih =>
      obtain ⟨name, decl⟩ := e
      cases decl with
      | «attr» ty => exact ih.cons_cons name
      | _ => exact ih.cons name
  exact c.members.nodup_keys.sublist hsub

theorem constructorStores_of_get? {c : ClassSource} {f : Function}
    (h : c.members.get? initName = some (.function f)) : c.constructorStores = f.attributeStores := by
  rw [constructorStores, h]

theorem constructorStores_of_not_mem {c : ClassSource} (h : initName ∉ c.methodNames) :
    c.constructorStores = [] := by
  unfold constructorStores
  split
  next f hf =>
    refine absurd ?_ h
    have hmem := OrderedMap.get?_eq_some_iff.mp hf
    refine List.mem_filter.mpr ⟨List.mem_map_of_mem (List.mem_filter.mpr ⟨hmem, rfl⟩), ?_⟩
    decide
  · rfl

end ClassSource

namespace Draft

/-! ## Symbols before inference -/

variable {c : BoundClass} {name : String} {v : Variable}

/-- The symbol table of a class before its constructor is typed. -/
def initialSymbols (c : BoundClass) : SymbolTable :=
  (OrderedMap.empty.insertAll
    (inheritedSymbols (mergeBases c.extensionBases NativeType.attributes))).insertAll
      (declaredSymbols c.source.dict)

theorem map_fst_inheritedSymbols (b : Table.Builder Ty) : (inheritedSymbols b).map Prod.fst = b.entries.keys := by
  rw [inheritedSymbols, List.map_map]
  rfl

theorem keys_initialSymbols (c : BoundClass) :
    OrderedMap.keys (initialSymbols c) = extendKeys (mergedNames NativeType.attributes c.extensionBases)
      (c.source.declaredAttributes.map Prod.fst) := by
  rw [initialSymbols, OrderedMap.keys_insertAll, OrderedMap.keys_insertAll, map_fst_inheritedSymbols,
    OrderedMap.keys_empty, extendKeys_nil (OrderedMap.nodup_keys _), keys_mergeBases,
    c.source.declaredSymbols_dict, List.map_map]
  rfl

theorem get?_initialSymbols (c : BoundClass) (name : String) :
    OrderedMap.get? (initialSymbols c) name =
      ((c.source.declaredAttributes.lookup name).map .declared).or
        (((mergeBases c.extensionBases NativeType.attributes).entries.get? name).map fun e =>
          .inherited e.value) := by
  have hdeclared : ((c.source.declaredAttributes.map fun e => (e.1, Variable.declared e.2)).map
      Prod.fst).Nodup := by
    rw [List.map_map]
    exact c.source.nodup_declaredAttributes
  have hinherited : ((inheritedSymbols (mergeBases c.extensionBases NativeType.attributes)).map
      Prod.fst).Nodup := by
    rw [map_fst_inheritedSymbols]
    exact OrderedMap.nodup_keys _
  rw [initialSymbols, c.source.declaredSymbols_dict, OrderedMap.get?_insertAll_of_nodup _ hdeclared,
    OrderedMap.get?_insertAll_of_nodup _ hinherited, OrderedMap.get?_empty, Option.or_none,
    OrderedMap.lookup_mapValues, inheritedSymbols,
    OrderedMap.lookup_mapValues fun e : Entry Ty => Variable.inherited e.value]
  rfl

/-- No attribute that is known before the constructor is typed may be widened. -/
theorem promotable_initialSymbols (h : OrderedMap.get? (initialSymbols c) name = some v) :
    v.promotable = false := by
  rw [get?_initialSymbols, Option.or_eq_some_iff] at h
  rcases h with hdeclared | ⟨-, hinherited⟩
  · obtain ⟨ty, -, rfl⟩ := Option.map_eq_some_iff.mp hdeclared
    rfl
  · obtain ⟨e, -, rfl⟩ := Option.map_eq_some_iff.mp hinherited
    rfl

theorem ensures_symbols_inherit (d : Draft) :
    Ensures d.inherit (fun d' => d'.symbols =
      d.symbols.insertAll (inheritedSymbols (mergeBases d.bases NativeType.attributes)))
      fun _ => True := by
  unfold inherit
  split
  · exact ensures_error.mpr trivial
  · split
    · exact ensures_error.mpr trivial
    · split
      · exact ensures_error.mpr trivial
      · exact ensures_ok.mpr rfl

/-! ## The attribute table -/

/-- An entry of the symbol table and the entry of the attribute table that is made from it. -/
def Agrees (v : Variable) (e : Entry Ty) : Prop :=
  e.value = v.ty ∧ (e.origin = .own ↔ v.origin ≠ .inherited)

theorem lookup_ownSymbols (d : Draft) (name : String) :
    d.ownSymbols.lookup name =
      ((OrderedMap.get? d.symbols name).filter (·.origin ≠ .inherited)).map Variable.ty := by
  have hn : (((d.symbols.entries.filter (·.2.origin ≠ .inherited))).map Prod.fst).Nodup :=
    d.symbols.nodup.sublist (List.filter_sublist.map Prod.fst)
  rw [ownSymbols, OrderedMap.lookup_mapValues]
  congr 1
  apply Option.ext
  intro v
  rw [OrderedMap.lookup_eq_some_iff hn, List.mem_filter, Option.filter_eq_some_iff,
    OrderedMap.get?_eq_some_iff]

/-- **The attribute table agrees with the symbol table that it is made from**, entry by entry, if the symbol
table begins with the names of the bases and an inherited symbol is that of the bases. -/
theorem agrees_insertOwns (d : Draft) (b : Table.Builder Ty) (hb : ∀ k e, b.entries.get? k = some e → e.origin ≠ .own)
    (hkeys : b.entries.keys <+: d.symbols.keys)
    (hown : ∀ k v, d.symbols.get? k = some v → k ∉ b.entries.keys → v.origin ≠ .inherited)
    (hinherited : ∀ k v, d.symbols.get? k = some v → v.origin = .inherited →
      (b.entries.get? k).map Entry.value = some v.ty) :
    List.Forall₂ (fun s a => s.1 = a.1 ∧ Agrees s.2 a.2) d.symbols.entries
      (b.insertOwns d.ownSymbols).entries.entries := by
  refine OrderedMap.forall₂_entries ?_ fun k v e hv he => ?_
  · -- beyond the names of the bases there are only own symbols
    have hnew : (d.ownSymbols.map Prod.fst).filter (· ∉ b.entries.keys) =
        d.symbols.keys.filter (· ∉ b.entries.keys) := by
      show _ = (d.symbols.entries.map Prod.fst).filter (· ∉ b.entries.keys)
      rw [ownSymbols, List.map_map, List.filter_map, List.filter_map, List.filter_filter]
      show List.map Prod.fst _ = _
      congr 1
      refine List.filter_congr fun e he => ?_
      have hget : d.symbols.get? e.1 = some e.2 := OrderedMap.get?_eq_some_iff.mpr he
      by_cases hk : e.1 ∈ b.entries.keys
      · simp [hk]
      · simp [hk, hown e.1 e.2 hget hk]
    rw [Table.Builder.keys_insertOwns, extendKeys_eq_append d.nodup_ownSymbols, hnew,
      append_filter_eq hkeys d.symbols.nodup_keys]
  · rw [Table.Builder.get?_insertOwns b d.nodup_ownSymbols, lookup_ownSymbols, hv] at he
    by_cases ho : v.origin = .inherited
    · have hbe : b.entries.get? k = some e := by simpa [ho] using he
      have hval := hinherited k v hv ho
      rw [hbe] at hval
      exact ⟨Option.some.inj hval, by simp [ho, hb k e hbe]⟩
    · have heq : (⟨v.ty, .own⟩ : Entry Ty) = e := by simpa [ho] using he
      exact heq ▸ ⟨rfl, by simp [ho]⟩

/-! ## Symbols after the constructor -/

section Grown

variable {promote : Bool} {symbols : SymbolTable}

/-- A symbol of the class itself, or the one of an inherited attribute. -/
theorem origin_of_grows (h : (initialSymbols c).Grows promote symbols)
    (hv : OrderedMap.get? symbols name = some v) :
    v.origin ≠ .inherited ∨ ∃ e, (mergeBases c.extensionBases NativeType.attributes).entries.get? name =
      some e ∧ v = .inherited e.value := by
  cases hinit : OrderedMap.get? (initialSymbols c) name with
  | none => exact Or.inl (h.added name v hinit hv).origin_ne
  | some old =>
    obtain ⟨v', hv', hwidens⟩ := h.known name old hinit
    rw [hv, Option.some.injEq] at hv'
    have hold : v = old := hv'.trans (hwidens.eq (promotable_initialSymbols hinit))
    rw [get?_initialSymbols, Option.or_eq_some_iff] at hinit
    rcases hinit with hdeclared | ⟨-, hinherited⟩
    · obtain ⟨ty, -, rfl⟩ := Option.map_eq_some_iff.mp hdeclared
      exact Or.inl (by simp [hold, Variable.declared])
    · obtain ⟨e, he, rfl⟩ := Option.map_eq_some_iff.mp hinherited
      exact Or.inr ⟨e, he, hold⟩

theorem get?_of_grows (h : (initialSymbols c).Grows promote symbols)
    (hinit : OrderedMap.get? (initialSymbols c) name = some v) : OrderedMap.get? symbols name = some v := by
  obtain ⟨v', hv', hwidens⟩ := h.known name v hinit
  rw [hv', hwidens.eq (promotable_initialSymbols hinit)]

end Grown

end Draft

namespace Compilation

variable {o : CompileOptions} {c : BoundClass} {i i' : Compilation} {ms : List Method}

/-! ## The steps of inference -/

theorem symbols_inferAttributes (c : BoundClass) :
    Ensures (ofClass c).inferAttributes (fun i => i.draft.symbols = Draft.initialSymbols c)
      fun _ => True := by
  refine (ofClass c).draft.ensures_symbols_inherit.bind fun d hd => ensures_ok.mpr ?_
  show d.symbols.insertAll _ = _
  rw [hd]
  rfl

theorem symbols_installMethods (o : CompileOptions) (i : Compilation) :
    Ensures (i.installMethods o) (fun i' => i'.draft.symbols = i.draft.symbols) fun _ => True := by
  refine (Draft.ensures_methodsOf i.draft o.validators i.dict).of_any.bind fun ms _ => ?_
  refine ensures_foldlM (fun _ (i' : Compilation) => i'.draft.symbols = i.draft.symbols) rfl ?_
  intro _ m _ i' _ h
  refine (i'.draft.addMethod_methods m.name m.signature).bind fun r hr => ?_
  obtain ⟨s, draft⟩ := r
  obtain ⟨methods, hdraft⟩ := hr
  dsimp only at hdraft
  subst hdraft
  exact ensures_ok.mpr h

/-- The symbol table after the constructor is the one that the engine answers with. -/
theorem symbols_typeMethod (o : CompileOptions) (i : Compilation) {m : Method} (hm : m.name = initName) :
    Ensures (i.typeMethod o m)
      (fun i' => ∃ t, (o.backend.infer (i.request o m)).result = .ok t ∧
        i'.draft.symbols = (o.backend.infer (i.request o m)).symbols)
      fun _ => True := by
  have hdef : (i.request o m).mayDefine = true := decide_eq_true hm
  unfold typeMethod
  dsimp only
  rw [hdef, if_pos rfl]
  split
  · exact ensures_error.mpr trivial
  next t ht =>
  refine (Draft.addMethod_methods { i.draft with symbols := _ } m.name t.signature).bind fun r hr => ?_
  obtain ⟨s, draft⟩ := r
  obtain ⟨methods, hdraft⟩ := hr
  dsimp only at hdraft
  subst hdraft
  exact ensures_ok.mpr ⟨t, ht, rfl⟩

theorem attributeStores_of_refines {d : Draft} {source : ClassSource}
    (h : List.Forall₂ Method.Refines ms (d.initialMethods source.dict)) {m : Method} (hm : m ∈ ms)
    (hname : m.name = initName) : source.constructorStores = m.func.attributeStores := by
  obtain ⟨old, hold, hr⟩ := exists_of_forall₂_of_mem h hm
  obtain ⟨⟨name, f⟩, he, rfl⟩ := List.mem_map.mp hold
  have hf : m.func = f := by rw [hr.func, d.func_methodOf]
  have hinit : name = initName := by rw [← hname, hr.name, d.name_methodOf]
  rw [hf]
  exact ClassSource.constructorStores_of_get? (hinit ▸ ClassSource.get?_of_mem_methodFunctions he)

/-- **The symbol table after the constructor.** -/
theorem symbols_typeInit (ho : o.backend = .reference) {d : Draft} {source : ClassSource}
    (h : List.Forall₂ Method.Refines i.methods (d.initialMethods source.dict)) :
    Ensures (i.typeInit o)
      (fun i' => i.draft.symbols.Grows (o.flags.getBool Inference.promotionFlag true) i'.draft.symbols ∧
        i'.draft.symbols.keys = extendKeys i.draft.symbols.keys source.constructorStores)
      fun _ => True := by
  unfold typeInit
  split
  next m hm =>
    have hname : m.name = initName := by simpa using List.find?_some hm
    rw [attributeStores_of_refines h (List.mem_of_find?_eq_some hm) hname]
    refine (symbols_typeMethod o i hname).mono fun i' h' => ?_
    obtain ⟨t, ht, hsymbols⟩ := h'
    rw [ho] at ht hsymbols
    rw [hsymbols]
    exact ⟨(Inference.keeps_inferMethod (i.request o m)).1, Inference.keys_inferMethod ht⟩
  next hnone =>
    have hstores : source.constructorStores = [] := by
      refine ClassSource.constructorStores_of_not_mem fun hinit => ?_
      rw [← d.map_name_initialMethods, ← Method.Refines.map_name h] at hinit
      obtain ⟨m, hm, hname⟩ := List.mem_map.mp hinit
      exact absurd (decide_eq_true hname) (List.find?_eq_none.mp hnone m hm)
    rw [hstores]
    exact ensures_ok.mpr ⟨.refl _, rfl⟩

/-! ## What the engine is asked -/

/-- What the engine is asked while methods are typed in order, up to the first that cannot be typed. -/
def typingRequests (o : CompileOptions) : Compilation → List Method → List TypingRequest
  | _, [] => []
  | i, m :: ms =>
    i.request o m ::
      match i.typeMethod o m with
      | .ok i' => typingRequests o i' ms
      | .error _ => []

/-- Methods other than the constructor are typed against one and the same symbol table. -/
theorem symbols_of_mem_typingRequests (hms : ∀ m ∈ ms, m.name ≠ initName) {r : TypingRequest}
    (hr : r ∈ i.typingRequests o ms) : r.symbols = i.draft.symbols ∧ r.mayDefine = false := by
  induction ms generalizing i with
  | nil => cases hr
  | cons m ms ih =>
    obtain ⟨hm, hms⟩ := List.forall_mem_cons.mp hms
    rw [typingRequests, List.mem_cons] at hr
    rcases hr with rfl | hr
    · exact ⟨rfl, decide_eq_false hm⟩
    · cases hstep : i.typeMethod o m with
      | error e => simp [hstep] at hr
      | ok i' =>
        simp only [hstep] at hr
        obtain ⟨hsymbols, hdef⟩ := ih hms hr
        exact ⟨hsymbols.trans (((sameFrame_typeMethod o i m).of_ok hstep).2 hm), hdef⟩

theorem map_method_typingRequests (h : ms.foldlM (typeMethod o) i = .ok i') :
    (i.typingRequests o ms).map TypingRequest.method = ms := by
  induction ms generalizing i with
  | nil => rfl
  | cons m ms ih =>
    rw [List.foldlM_cons] at h
    obtain ⟨j, hj, h⟩ := bind_eq_ok_iff.mp h
    rw [typingRequests, hj, List.map_cons, ih h]
    rfl

/-! ## Inference up to the attribute table -/

/-- Inference up to the attribute table. -/
def untilAttributes (o : CompileOptions) (i : Compilation) : Except CompileError Compilation := do
  let i ← i.inferAttributes
  let i ← i.installMethods o
  let i ← i.typeInit o
  return { i with draft := ← i.draft.buildAttributes }

theorem runInference_eq (o : CompileOptions) (i : Compilation) :
    i.runInference o = i.untilAttributes o >>= fun i => do
      let i ← i.typeMethods o
      return { i with draft := ← i.draft.buildSlots } := by
  simp only [runInference, untilAttributes, bind_assoc, pure_bind]

/-- The compilation of a class whose attribute table has just been made. -/
structure Attributed (o : CompileOptions) (c : BoundClass) (i : Compilation) : Prop where
  grows : (Draft.initialSymbols c).Grows (o.flags.getBool Inference.promotionFlag true) i.draft.symbols
  keys : i.draft.symbols.keys =
    extendKeys (OrderedMap.keys (Draft.initialSymbols c)) c.source.constructorStores
  attributes : i.draft.attributes = .building
    ((Draft.mergeBases c.extensionBases NativeType.attributes).insertOwns i.draft.ownSymbols)
  slotTypes : i.draft.slotTypes = .building (Draft.mergeBases c.extensionBases NativeType.slotTypes)
  methods : i.methods.map Method.name = c.source.methodNames

theorem ensures_untilAttributes (ho : o.backend = .reference) (c : BoundClass) :
    Ensures ((ofClass c).untilAttributes o) (Attributed o c) fun _ => True := by
  refine ((ensures_inferAttributes c).of_any.and (symbols_inferAttributes c)).bind fun i₁ h₁ => ?_
  obtain ⟨h₁, hsymbols₁⟩ := h₁
  refine (((ensures_installMethods c.source h₁.dict h₁.slotTypes h₁.typings h₁.methods).of_any.and
    (symbols_installMethods o i₁)).and (sameFrame_installMethods o i₁)).bind fun i₂ h₂ => ?_
  obtain ⟨⟨⟨-, h₂⟩, hsymbols₂⟩, hf₂⟩ := h₂
  have hnames := i₁.draft.map_name_initialMethods c.source
  have hn := i₁.draft.nodup_initialMethods c.source
  have hs₂ : i₂.draft.slotTypes.isFrozen = false := by
    rw [hf₂.slotTypes, h₁.slotTypes]
    rfl
  refine (((symbols_typeInit ho h₂.refines).and (ensures_typeInit ho hs₂ h₂ hn).of_any).and
    (sameFrame_typeInit o i₂)).bind fun i₃ h₃ => ?_
  obtain ⟨⟨⟨hgrows, hkeys⟩, h₃, -⟩, hf₃⟩ := h₃
  have hf := hf₂.trans hf₃
  rw [hsymbols₂, hsymbols₁] at hgrows hkeys
  rw [Draft.buildAttributes_eq (hf.attributes.trans h₁.attributes)]
  exact ensures_ok.mpr ⟨hgrows, hkeys, rfl, hf.slotTypes.trans h₁.slotTypes,
    (Method.Refines.map_name h₃.refines).trans hnames⟩

end Compilation

namespace BoundClass

open Compilation

variable {o : CompileOptions} {c : BoundClass}

/-- What the engine is asked about the methods of a class other than the constructor. -/
def memberRequests (o : CompileOptions) (c : BoundClass) : List TypingRequest :=
  match (ofClass c).untilAttributes o with
  | .ok i => i.typingRequests o (i.methods.filter fun m => m.name ≠ initName ∧ m.name ≠ newName)
  | .error _ => []

/-- The symbol table and the attribute table that the inference of a class leaves. -/
structure FixedAttributes (o : CompileOptions) (c : BoundClass) (symbols : SymbolTable)
    (attributes : OrderedMap (Entry Ty)) : Prop where
  /-- The engine is asked about every method but the constructor. -/
  asked : (c.memberRequests o).map (·.method.name) = c.source.methodNames.filter (· ≠ initName)
  /-- It is asked with the symbol table that inference leaves. -/
  seen : ∀ r ∈ c.memberRequests o, r.symbols = symbols
  /-- The two tables agree entry by entry: names, types, and which entries are the class's own. -/
  agrees : List.Forall₂ (fun s a => s.1 = a.1 ∧ Draft.Agrees s.2 a.2) symbols.entries attributes.entries
  /-- First come the attributes of the bases, then those declared, then those that the constructor stores. -/
  order : attributes.keys =
    extendKeys (extendKeys (Draft.mergedNames NativeType.attributes c.extensionBases)
      (c.source.declaredAttributes.map Prod.fst)) c.source.constructorStores
  declared : ∀ e ∈ c.source.declaredAttributes, symbols.get? e.1 = some (.declared e.2)
  inherited : ∀ name ty, name ∉ c.source.declaredAttributes.map Prod.fst →
    c.inheritedType? name = some ty → symbols.get? name = some (.inherited ty)

end BoundClass

/-! ## The tables after inference -/

namespace Compilation.Attributed

variable {o : CompileOptions} {c : BoundClass} {i : Compilation}

theorem agrees (h : Attributed o c i) :
    List.Forall₂ (fun s a => s.1 = a.1 ∧ Draft.Agrees s.2 a.2) i.draft.symbols.entries
      i.draft.attributes.entries.entries := by
  have hkeys := h.grows.keys
  rw [Draft.keys_initialSymbols] at hkeys
  have hbases := (prefix_extendKeys _ _).trans hkeys
  rw [← Draft.keys_mergeBases] at hbases
  rw [h.attributes]
  refine i.draft.agrees_insertOwns _ (fun _ _ he => Draft.origin_mergeBases he) hbases ?_ ?_
  · intro name v hv hname
    refine (Draft.origin_of_grows h.grows hv).resolve_right ?_
    rintro ⟨e, he, -⟩
    exact hname (OrderedMap.mem_keys_of_get? he)
  · intro name v hv ho
    obtain ⟨e, he, rfl⟩ := (Draft.origin_of_grows h.grows hv).resolve_left (not_not.mpr ho)
    rw [he]
    rfl

theorem order (h : Attributed o c i) :
    i.draft.attributes.entries.keys =
      extendKeys (extendKeys (Draft.mergedNames NativeType.attributes c.extensionBases)
        (c.source.declaredAttributes.map Prod.fst)) c.source.constructorStores := by
  have hnames : i.draft.symbols.keys = i.draft.attributes.entries.keys :=
    map_eq_of_forall₂ h.agrees fun _ _ he => he.1
  rw [← hnames, h.keys, Draft.keys_initialSymbols]

theorem declared (h : Attributed o c i) {e : String × Ty} (he : e ∈ c.source.declaredAttributes) :
    i.draft.symbols.get? e.1 = some (.declared e.2) := by
  have hlookup := (OrderedMap.lookup_eq_some_iff c.source.nodup_declaredAttributes).mpr he
  refine Draft.get?_of_grows h.grows ?_
  rw [Draft.get?_initialSymbols, hlookup]
  rfl

theorem inherited (h : Attributed o c i) {name : String} {ty : Ty}
    (hname : name ∉ c.source.declaredAttributes.map Prod.fst) (hty : c.inheritedType? name = some ty) :
    i.draft.symbols.get? name = some (.inherited ty) := by
  have hlookup : c.source.declaredAttributes.lookup name = none := OrderedMap.lookup_eq_none_iff.mpr hname
  rw [BoundClass.inheritedType?, ← Draft.value_mergeBases, Table.Builder.get?, Option.map_eq_some_iff] at hty
  obtain ⟨e, he, rfl⟩ := hty
  refine Draft.get?_of_grows h.grows ?_
  rw [Draft.get?_initialSymbols, hlookup, he]
  rfl

end Compilation.Attributed

namespace BoundClass

open Compilation

variable {o : CompileOptions} {c : BoundClass} {i i' : Compilation}

/-- The engine is asked about all methods but the constructor, with one and the same symbol table. -/
theorem memberRequests_eq (hi : (ofClass c).untilAttributes o = .ok i) (h : Attributed o c i)
    (htype : i.typeMethods o = .ok i') :
    (c.memberRequests o).map (·.method.name) = c.source.methodNames.filter (· ≠ initName) ∧
      ∀ r ∈ c.memberRequests o, r.symbols = i.draft.symbols := by
  rw [memberRequests, hi]
  constructor
  · have hnew : ∀ m ∈ i.methods, m.name ≠ newName := fun m hm he => by
      have hname : m.name ∈ i.methods.map Method.name := List.mem_map_of_mem hm
      rw [h.methods, ClassSource.methodNames, List.mem_filter] at hname
      exact of_decide_eq_true hname.2 he
    have hfilter : (i.methods.filter fun m => m.name ≠ initName ∧ m.name ≠ newName) =
        i.methods.filter ((· ≠ initName) ∘ Method.name) :=
      List.filter_congr fun m hm => by simp [hnew m hm]
    show List.map (Method.name ∘ TypingRequest.method) _ = _
    rw [← List.map_map, map_method_typingRequests htype, hfilter, ← h.methods, List.filter_map]
  · intro r hr
    refine (symbols_of_mem_typingRequests (fun m hm => ?_) hr).1
    exact (of_decide_eq_true (List.mem_filter.mp hm).2).1

/-- **The attributes of a class are fixed before they are used.** -/
theorem fixedAttributes_infer (ho : o.backend = .reference)
    (h : ((ofClass c).infer o).result = .ok ()) :
    c.FixedAttributes o ((ofClass c).infer o).after.draft.symbols
      ((ofClass c).infer o).after.draft.attributes.entries := by
  cases hrun : (ofClass c).runInference o with
  | error e =>
    rw [infer_ofClass_error hrun] at h
    cases h
  | ok j =>
    rw [infer_ofClass hrun]
    rw [runInference_eq] at hrun
    obtain ⟨i, hi, hrun⟩ := bind_eq_ok_iff.mp hrun
    obtain ⟨i', htype, hrun⟩ := bind_eq_ok_iff.mp hrun
    have hattr := (ensures_untilAttributes ho c).of_ok hi
    obtain ⟨hframe, hsymbols⟩ := (sameFrame_typeMethods o i).of_ok htype
    obtain ⟨hasked, hseen⟩ := memberRequests_eq hi hattr htype
    -- neither the typing of the methods nor the table of slots touches the attributes
    rw [Draft.buildSlots_eq (hframe.slotTypes.trans hattr.slotTypes)] at hrun
    cases hrun
    show c.FixedAttributes o i'.draft.symbols i'.draft.attributes.entries
    rw [hsymbols, hframe.attributes]
    exact ⟨hasked, hseen, hattr.agrees, hattr.order, fun _ => hattr.declared, fun _ _ => hattr.inherited⟩

end BoundClass

/-! ## A class with a constructor -/

namespace Sample

open Python (Expr Stmt)

/-- A store of a value into an attribute of the receiver. -/
def storeInto (attr : String) (value : Expr) : Stmt :=
  .assign default [.attribute default (.name default "self") attr] value

/-- A class over `shape` whose constructor stores into inherited, declared and new attributes. The type of the
new one is widened. -/
def ring : BoundClass :=
  let value := Expr.name default "value"
  let half := Expr.literal default .float
  let init : Function :=
    { name := initName
      params := [⟨"self", none⟩, ⟨"value", some .int⟩]
      returns := none
      kind := .instanceMethod
      isAbstract := false
      isVariadic := false
      location := .unknown
      body := some ⟨[storeInto "x" value, storeInto "count" value, storeInto "width" half,
        storeInto "count" half], default⟩ }
  classOf "Ring" [("width", .attr .float), method "area" [none] none, (initName, .function init),
    ("visible", .attr .bool)] [.extension (typeOf options shape)]

end Sample

theorem BoundClass.fixedAttributes_infer_ring :
    ((Compilation.ofClass Sample.ring).infer Sample.options).result = .ok () ∧
      Sample.ring.FixedAttributes Sample.options
        ((Compilation.ofClass Sample.ring).infer Sample.options).after.draft.symbols
        ((Compilation.ofClass Sample.ring).infer Sample.options).after.draft.attributes.entries := by
  have hinfer : ((Compilation.ofClass Sample.ring).infer Sample.options).result = .ok () := by
    decide +kernel
  exact ⟨hinfer, fixedAttributes_infer rfl hinfer⟩

example : ((Compilation.ofClass Sample.ring).infer Sample.options).after.draft.symbols.entries =
    [("x", .inherited .int), ("visible", .declared .bool), ("width", .declared .float),
      ("count", .inferred .float)] := by
  decide +kernel

end NativeClass
