import NativeClass.Proofs.Compilation.Steps
import NativeClass.Proofs.Compilation.StoredValues
import NativeClass.Proofs.Inference.Locality
/-!
# Classes with their methods in another order

Two classes that differ only in where their methods stand know the same until the first method beside the
constructor is typed: recording signatures, typing the constructor and building the attribute table do not depend
on the order of the methods.

* `BoundClass.Reorders`: the methods of one class stand in another order in the other one.
* `Compilation.Alike`: two compilations that know the same of a class.
* `Compilation.Alike.typeMethod`: typing one method.
* **`Compilation.alike_untilAttributes`**: inference up to the attribute table.
-/

namespace NativeClass

open Inference (inferMethod elsewhere)

/-! ## Classes without places -/

/-- The declaration without the places of a function. -/
def Declaration.unplaced : Declaration → Declaration
  | .function f => .function f.unplaced
  | d => d

namespace ClassSource

/-- The members of a class body without places, in order. -/
def unplacedEntries (c : ClassSource) : List (String × Declaration) :=
  c.members.entries.map fun e => (e.1, e.2.unplaced)

/-- The member may stand elsewhere: it is a function, and not the constructor. -/
def isMovable (e : String × Declaration) : Bool :=
  e.2.function?.isSome && e.1 ≠ initName

theorem declaredAttributes_eq (c : ClassSource) :
    c.declaredAttributes = (c.unplacedEntries.filter (!isMovable ·)).filterMap fun e =>
      match e.2 with
      | .attr ty => some (e.1, ty)
      | _ => none := by
  rw [declaredAttributes, unplacedEntries, List.filterMap_filter, List.filterMap_map]
  refine List.filterMap_congr fun e _ => ?_
  obtain ⟨name, decl⟩ := e
  cases decl with
  | function f => simp [Declaration.unplaced]
  | _ => rfl

theorem map_unplaced_methodFunctions (c : ClassSource) :
    (Draft.methodFunctions c.dict).map (fun e => (e.1, e.2.unplaced)) =
      (c.unplacedEntries.filterMap fun e => e.2.function?.map (e.1, ·)).filter (·.1 ≠ newName) := by
  have hentries : c.dict.entries = c.members.entries.map fun e => (e.1, Member.declared e.2) := rfl
  have hfilter : ∀ es : List (String × Function), (es.filter (·.1 ≠ newName)).map (fun e => (e.1, e.2.unplaced)) =
      (es.map fun e => (e.1, e.2.unplaced)).filter (·.1 ≠ newName) := fun _ => by
    rw [List.filter_map]
    rfl
  rw [Draft.methodFunctions, unplacedEntries, hentries, List.filterMap_map, List.filterMap_map, hfilter,
    List.map_filterMap]
  congr 1
  refine List.filterMap_congr fun e _ => ?_
  obtain ⟨name, decl⟩ := e
  cases decl <;> rfl

end ClassSource

namespace BoundClass

/-- Two classes with the same name, the same bases and the same members, up to the places of their texts, which
differ in the order of their methods only. The constructor and all members that are no functions keep their
order. -/
structure Reorders (c c' : BoundClass) : Prop where
  name : c'.name = c.name
  bases : c'.bases = c.bases
  members : c'.source.unplacedEntries.Perm c.source.unplacedEntries
  others : c'.source.unplacedEntries.filter (!ClassSource.isMovable ·) =
    c.source.unplacedEntries.filter (!ClassSource.isMovable ·)

namespace Reorders

variable {c c' : BoundClass}

theorem symm (h : c.Reorders c') : c'.Reorders c :=
  ⟨h.name.symm, h.bases.symm, h.members.symm, h.others.symm⟩

theorem declaredAttributes (h : c.Reorders c') :
    c'.source.declaredAttributes = c.source.declaredAttributes := by
  rw [ClassSource.declaredAttributes_eq, ClassSource.declaredAttributes_eq, h.others]

theorem ofClass (h : c.Reorders c') : Draft.ofClass c' = Draft.ofClass c := by
  rw [Draft.ofClass, Draft.ofClass, h.name, extensionBases, extensionBases, h.bases]

theorem exists_function (h : c.Reorders c') {name : String} {f' : Function}
    (hf' : c'.source.members.get? name = some (.function f')) :
    ∃ f, c.source.members.get? name = some (.function f) ∧ f'.unplaced = f.unplaced := by
  have hmem : (name, Declaration.function f'.unplaced) ∈ c.source.unplacedEntries :=
    h.members.subset (List.mem_map.mpr ⟨_, OrderedMap.get?_eq_some_iff.mp hf', rfl⟩)
  obtain ⟨⟨n, decl⟩, hentry, heq⟩ := List.mem_map.mp hmem
  obtain ⟨hn, hdecl⟩ := Prod.mk.inj heq
  dsimp only at hn hdecl
  subst hn
  cases decl with
  | function f => exact ⟨f, OrderedMap.get?_eq_some_iff.mpr hentry, (Declaration.function.inj hdecl).symm⟩
  | _ => cases hdecl

end Reorders

end BoundClass

/-! ## Methods without places -/

theorem Draft.unplaced_methodOf (d : Draft) (name : String) (f : Function) :
    (d.methodOf name f).unplaced = d.methodOf name f.unplaced := by
  have hdeclared : f.unplaced.declaredSignature? = f.declaredSignature? := rfl
  unfold methodOf
  rw [hdeclared]
  cases f.declaredSignature? <;> rfl

theorem Draft.perm_initialMethods {c c' : BoundClass} (h : c.Reorders c') (d : Draft) :
    ((d.initialMethods c'.source.dict).map Method.unplaced).Perm
      ((d.initialMethods c.source.dict).map Method.unplaced) := by
  have heq : ∀ c : ClassSource, (d.initialMethods c.dict).map Method.unplaced =
      ((c.unplacedEntries.filterMap fun e => e.2.function?.map (e.1, ·)).filter (·.1 ≠ newName)).map
        fun e => d.methodOf e.1 e.2 := fun c => by
    rw [← c.map_unplaced_methodFunctions, initialMethods, List.map_map, List.map_map]
    exact List.map_congr_left fun e _ => d.unplaced_methodOf e.1 e.2
  rw [heq, heq]
  exact ((h.members.filterMap _).filter _).map _

namespace Method

variable {m m' : Method} {ms ms' : List Method}

theorem func_eq (h : m'.unplaced = m.unplaced) : m'.func.unplaced = m.func.unplaced := by
  rw [unplaced, unplaced, mk.injEq] at h
  exact h.2.1

theorem name_eq (h : m'.unplaced = m.unplaced) : m'.name = m.name := by
  rw [unplaced, unplaced, mk.injEq] at h
  exact h.1

theorem eq_of_unplaced (h : m'.unplaced = m.unplaced) : m' = { m with func := m'.func } := by
  obtain ⟨name, func, signature, isDeclared⟩ := m'
  rw [unplaced, unplaced, mk.injEq] at h
  obtain ⟨rfl, -, rfl, rfl⟩ := h
  rfl

theorem exists_of_perm (h : (ms'.map unplaced).Perm (ms.map unplaced)) (hm : m' ∈ ms') :
    ∃ m ∈ ms, m'.unplaced = m.unplaced := by
  obtain ⟨m, hm, heq⟩ := List.mem_map.mp (h.subset (List.mem_map_of_mem hm))
  exact ⟨m, hm, heq.symm⟩

theorem perm_map_name (h : (ms'.map unplaced).Perm (ms.map unplaced)) :
    (ms'.map name).Perm (ms.map name) := by
  have hnames := h.map name
  rwa [List.map_map, List.map_map] at hnames

end Method

/-- The check does not depend on where the text of a method stands. -/
def MethodValidator.IgnoresPlaces (v : MethodValidator) : Prop :=
  ∀ m d, v.objection? m.unplaced d = v.objection? m d

theorem MethodValidator.ignoresPlaces_standard : ∀ v ∈ standard, v.IgnoresPlaces := by
  refine List.forall_mem_cons.mpr ⟨fun _ _ => rfl, List.forall_mem_singleton.mpr fun _ _ => rfl⟩

/-- Checks that object to none of the methods object to none of them elsewhere. -/
theorem ValidatorSet.methodFailures_eq_nil_of_perm {v : ValidatorSet} {d : Draft} {ms ms' : List Method}
    (hv : ∀ x ∈ v.methods, x.IgnoresPlaces) (hms : (ms'.map Method.unplaced).Perm (ms.map Method.unplaced))
    (h : v.methodFailures d ms = []) : v.methodFailures d ms' = [] := by
  refine List.flatMap_eq_nil_iff.mpr fun m' hm' => List.filterMap_eq_nil_iff.mpr fun x hx => ?_
  obtain ⟨m, hm, heq⟩ := Method.exists_of_perm hms hm'
  have hquiet := List.filterMap_eq_nil_iff.mp (List.flatMap_eq_nil_iff.mp h m hm) x hx
  rw [MethodValidator.failure?, Option.map_eq_none_iff] at hquiet ⊢
  rw [← hv x hx m', heq, hv x hx m, hquiet]

namespace Compilation

variable {o : CompileOptions} {c c' : BoundClass} {i i' j : Compilation} {m m' : Method} {ms ms' : List Method}

/-! ## Compilations that know the same -/

/-- Two compilations know the same of a class, whatever the order of its methods. -/
structure Alike (i i' : Compilation) : Prop where
  name : i'.draft.name = i.draft.name
  symbols : i'.draft.symbols = i.draft.symbols
  attributes : i'.draft.attributes = i.draft.attributes
  slotTypes : i'.draft.slotTypes = i.draft.slotTypes
  signatures : ∀ name, i'.draft.methods.get? name = i.draft.methods.get? name
  methods : (i'.methods.map Method.unplaced).Perm (i.methods.map Method.unplaced)

theorem request_eq_elsewhere (hname : i'.draft.name = i.draft.name) (hsymbols : i'.draft.symbols = i.draft.symbols)
    (hm : m'.unplaced = m.unplaced)
    (hsignature : i'.draft.methods.get? m.name = i.draft.methods.get? m.name) :
    i'.request o m' = elsewhere (i.request o m) ⟨i'.draft.methods, i'.draft.slotTypes⟩ m'.func := by
  rw [Method.eq_of_unplaced hm, request, request, hname, hsymbols, hsignature]
  rfl

theorem map_unplaced_replaceMethod (ms : List Method) (m : Method) :
    (replaceMethod ms m).map Method.unplaced = replaceMethod (ms.map Method.unplaced) m.unplaced := by
  rw [replaceMethod, replaceMethod, List.map_map, List.map_map]
  refine List.map_congr_left fun x _ => ?_
  show Method.unplaced (if x.name = m.name then m else x) = if x.name = m.name then m.unplaced else x.unplaced
  split <;> rfl

/-- **Typing one method.** -/
theorem Alike.typeMethod (ho : o.backend = .reference) (h : Alike i i') (hs : i.draft.slotTypes.isFrozen = false)
    {old : Signature} (hold : i.draft.methods.get? m.name = some old) (hm : m'.unplaced = m.unplaced)
    (hj : i.typeMethod o m = .ok j) : ∃ j', i'.typeMethod o m' = .ok j' ∧ Alike j j' := by
  obtain ⟨t, ht, rfl⟩ := (typeMethod_eq_ok_iff ho hs hold).mp hj
  have hname := Method.name_eq hm
  have hold' : i'.draft.methods.get? m'.name = some old := by rw [hname, h.signatures, hold]
  have hviews : ∀ n, (⟨i'.draft.methods, i'.draft.slotTypes⟩ : MethodView).get? n =
      (i.request o m).methods.get? n := fun n => by
    rw [MethodView.get?, h.signatures, h.slotTypes]
    rfl
  obtain ⟨hsame, hsymbols⟩ := Inference.sameValue_inferMethod (i.request o m)
    (Function.sameText_of_unplaced (Method.func_eq hm)) ⟨fun n _ => hviews n, fun n => by rw [hviews]⟩
  have hrequest := request_eq_elsewhere (o := o) h.name h.symbols hm (h.signatures m.name)
  rw [← hrequest] at hsame hsymbols
  have hafter : i'.symbolsAfter o m' = i.symbolsAfter o m := by
    rw [symbolsAfter, symbolsAfter, hname, h.symbols, hsymbols t ht]
  refine ⟨_, (typeMethod_eq_ok_iff ho (h.slotTypes ▸ hs) hold').mpr ⟨t, (hsame t).mpr ht, rfl⟩, ?_⟩
  exact
    { name := h.name
      symbols := hafter
      attributes := h.attributes
      slotTypes := h.slotTypes
      signatures := fun n => by rw [get?_withTyping, get?_withTyping, hname, h.signatures]
      methods := by
        have hnew : ({ m' with signature := t.signature } : Method).unplaced =
            ({ m with signature := t.signature } : Method).unplaced :=
          congrArg (fun x : Method => { x with signature := t.signature }) hm
        show (List.map _ (replaceMethod i'.methods _)).Perm (List.map _ (replaceMethod i.methods _))
        rw [map_unplaced_replaceMethod, map_unplaced_replaceMethod, hnew]
        exact h.methods.map _ }

/-- **Typing the constructor**, if there is one. -/
theorem Alike.typeInit (ho : o.backend = .reference) (h : Alike i i') (hi : Awaits i.methods i)
    (hn : (i.methods.map Method.name).Nodup) (hj : i.typeInit o = .ok j) :
    ∃ j', i'.typeInit o = .ok j' ∧ Alike j j' := by
  have hn' : (i'.methods.map Method.name).Nodup := (Method.perm_map_name h.methods).nodup_iff.mpr hn
  cases hfind : i.methods.find? (·.name = initName) with
  | none =>
    have hfind' : i'.methods.find? (·.name = initName) = none := by
      refine List.find?_eq_none.mpr fun m' hm' => ?_
      obtain ⟨m, hm, heq⟩ := Method.exists_of_perm h.methods hm'
      rw [Method.name_eq heq]
      exact List.find?_eq_none.mp hfind m hm
    rw [Compilation.typeInit, hfind] at hj
    cases hj
    rw [Compilation.typeInit, hfind']
    exact ⟨i', rfl, h⟩
  | some m =>
    obtain ⟨hm, hname⟩ := (find?_key_eq_some_iff Method.name hn).mp hfind
    obtain ⟨m', hm', heq⟩ := Method.exists_of_perm h.methods.symm hm
    have hfind' : i'.methods.find? (·.name = initName) = some m' :=
      (find?_key_eq_some_iff Method.name hn').mpr ⟨hm', (Method.name_eq heq).symm.trans hname⟩
    obtain ⟨s, hs⟩ := hi.signed m hm
    rw [Compilation.typeInit, hfind] at hj
    rw [Compilation.typeInit, hfind']
    exact h.typeMethod ho hi.slots hs heq.symm hj

theorem Alike.buildAttributes (h : Alike i i') {b : Table.Builder Ty} (hb : i.draft.attributes = .building b)
    {d : Draft} (hd : i.draft.buildAttributes = .ok d) :
    ∃ d', i'.draft.buildAttributes = .ok d' ∧ Alike { i with draft := d } { i' with draft := d' } := by
  rw [Draft.buildAttributes_eq hb] at hd
  cases hd
  refine ⟨_, Draft.buildAttributes_eq (h.attributes.trans hb), h.name, h.symbols, ?_, h.slotTypes, h.signatures,
    h.methods⟩
  rw [Draft.ownSymbols_congr h.symbols]

theorem Alike.withMethods (h : Alike i i') {sig : Method → Signature} (hsig : ∀ m, sig m.unplaced = sig m)
    (hms : (ms'.map Method.unplaced).Perm (ms.map Method.unplaced)) (hn : (ms.map Method.name).Nodup) :
    Alike (i.withMethods sig ms) (i'.withMethods sig ms') := by
  have hnames := Method.perm_map_name hms
  obtain ⟨hframe, hsymbols⟩ := sameFrame_withMethods i sig ms
  obtain ⟨hframe', hsymbols'⟩ := sameFrame_withMethods i' sig ms'
  exact
    { name := by rw [hframe.name, hframe'.name, h.name]
      symbols := by rw [hsymbols, hsymbols', h.symbols]
      attributes := by rw [hframe.attributes, hframe'.attributes, h.attributes]
      slotTypes := by rw [hframe.slotTypes, hframe'.slotTypes, h.slotTypes]
      signatures := fun name => by
        by_cases hname : name ∈ ms'.map Method.name
        · obtain ⟨m', hm', rfl⟩ := List.mem_map.mp hname
          obtain ⟨m, hm, heq⟩ := Method.exists_of_perm hms hm'
          rw [get?_withMethods i' sig (hnames.nodup_iff.mpr hn) hm', Method.name_eq heq, get?_withMethods i sig hn hm,
            ← hsig m', heq, hsig]
        · rw [get?_withMethods_of_not_mem i' sig hname,
            get?_withMethods_of_not_mem i sig (hnames.mem_iff.not.mp hname), h.signatures]
      methods := by
        have hmap : ∀ ms : List Method, (ms.map fun m => { m with signature := sig m }).map Method.unplaced =
            (ms.map Method.unplaced).map fun m => { m with signature := sig m } := fun ms => by
          rw [List.map_map, List.map_map]
          refine List.map_congr_left fun m _ => ?_
          show ({ m with signature := sig m } : Method).unplaced = { m.unplaced with signature := sig m.unplaced }
          rw [hsig]
          rfl
        rw [methods_withMethods, methods_withMethods, List.map_append, List.map_append, hmap, hmap]
        exact h.methods.append (hms.map _) }

/-! ## Stages before the methods are typed -/

theorem inferAttributes_of_reorders (h : c.Reorders c') (hi : (ofClass c).inferAttributes = .ok i) :
    ∃ i', (ofClass c').inferAttributes = .ok i' ∧ i'.draft = i.draft := by
  obtain ⟨d, hd, hi⟩ := bind_eq_ok_iff.mp hi
  cases hi
  have hdraft : (ofClass c').draft = (ofClass c).draft := h.ofClass
  refine ⟨_, bind_eq_ok_iff.mpr ⟨d, hdraft ▸ hd, rfl⟩, ?_⟩
  show d.declareAttributes c'.source.dict = d.declareAttributes c.source.dict
  rw [Draft.declareAttributes, Draft.declareAttributes, ClassSource.declaredSymbols_dict,
    ClassSource.declaredSymbols_dict, h.declaredAttributes]

theorem alike_installMethods (h : c.Reorders c') (hv : ∀ v ∈ o.validators.methods, v.IgnoresPlaces)
    (hi : Prepared c i) (hi' : Prepared c' i') (hdraft : i'.draft = i.draft) (hj : i.installMethods o = .ok j) :
    ∃ j', i'.installMethods o = .ok j' ∧ Alike j j' := by
  have hs : i.draft.slotTypes.isFrozen = false := by
    rw [hi.slotTypes]
    rfl
  have hms := Draft.perm_initialMethods h i.draft
  have hn := i.draft.nodup_initialMethods c.source
  obtain ⟨hfailures, hsigned, rfl⟩ := (installMethods_eq_ok_iff hi.dict hs hi.methods).mp hj
  refine ⟨_, (installMethods_eq_ok_iff hi'.dict (hdraft ▸ hs) hi'.methods).mpr
    ⟨?_, fun m' hm' => ?_, rfl⟩, ?_⟩
  · rw [hdraft]
    exact ValidatorSet.methodFailures_eq_nil_of_perm hv hms hfailures
  · -- the first signature of a method is read off its text without the places
    rw [hdraft] at hm' ⊢
    obtain ⟨m, hm, heq⟩ := Method.exists_of_perm hms hm'
    have hfirst : i.draft.firstSignature m' = i.draft.firstSignature m := by
      show i.draft.firstSignature m'.unplaced = i.draft.firstSignature m.unplaced
      rw [heq]
    rw [hfirst, hsigned m hm, Draft.recordedSignature, Draft.recordedSignature, hfirst, hsigned m hm]
    rfl
  · rw [hdraft]
    have hsig : ∀ m, i.draft.recordedSignature m.unplaced = i.draft.recordedSignature m := fun _ => rfl
    have hempty : Alike { i with methods := [] } { i' with draft := i.draft, methods := [] } :=
      ⟨rfl, rfl, rfl, rfl, fun _ => rfl, .refl _⟩
    exact hempty.withMethods hsig hms hn

theorem alike_untilMethods (h : c.Reorders c') (hv : ∀ v ∈ o.validators.methods, v.IgnoresPlaces)
    (hi : (ofClass c).untilMethods o = .ok i) : ∃ i', (ofClass c').untilMethods o = .ok i' ∧ Alike i i' := by
  obtain ⟨j, hj, hi⟩ := bind_eq_ok_iff.mp hi
  obtain ⟨j', hj', hdraft⟩ := inferAttributes_of_reorders h hj
  obtain ⟨i', hi', halike⟩ := alike_installMethods h hv ((ensures_inferAttributes c).of_ok hj)
    ((ensures_inferAttributes c').of_ok hj') hdraft hi
  exact ⟨i', bind_eq_ok_iff.mpr ⟨j', hj', hi'⟩, halike⟩

/-- **Inference up to the attribute table does not depend on the order of the methods.** -/
theorem alike_untilAttributes (ho : o.backend = .reference) (h : c.Reorders c')
    (hv : ∀ v ∈ o.validators.methods, v.IgnoresPlaces) (hi : (ofClass c).untilAttributes o = .ok i) :
    ∃ i', (ofClass c').untilAttributes o = .ok i' ∧ Alike i i' := by
  rw [untilAttributes_eq] at hi
  obtain ⟨i₁, hi₁, hi⟩ := bind_eq_ok_iff.mp hi
  obtain ⟨i₂, hi₂, hi⟩ := bind_eq_ok_iff.mp hi
  obtain ⟨d, hd, hi⟩ := bind_eq_ok_iff.mp hi
  cases hi
  obtain ⟨i₁', hi₁', h₁⟩ := alike_untilMethods h hv hi₁
  obtain ⟨d₁, slots, hslots, hrec⟩ := (refines_untilMethods o c).of_ok hi₁
  have hawaits : Awaits i₁.methods i₁ := ⟨by rw [hslots]; rfl, fun m hm => ⟨_, hrec.signed m hm⟩⟩
  obtain ⟨i₂', hi₂', h₂⟩ := h₁.typeInit ho hawaits (Method.Refines.nodup_name hrec.refines) hi₂
  have hattributes := ((sameFrame_typeInit o i₁).of_ok hi₂).attributes.trans
    ((attributes_untilMethods o c).of_ok hi₁)
  obtain ⟨d', hd', h₃⟩ := h₂.buildAttributes hattributes hd
  refine ⟨_, ?_, h₃⟩
  rw [untilAttributes_eq]
  exact bind_eq_ok_iff.mpr
    ⟨i₁', hi₁', bind_eq_ok_iff.mpr ⟨i₂', hi₂', bind_eq_ok_iff.mpr ⟨d', hd', rfl⟩⟩⟩

end Compilation

end NativeClass
