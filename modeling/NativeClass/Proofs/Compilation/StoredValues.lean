import NativeClass.Proofs.Compilation.EveryUnion
import NativeClass.Proofs.Inference.StoredValues
/-!
# The attributes of a class have places for what its methods store

The constructor may widen the attributes that it introduces, and all other methods store what fits. So when the
inference of a class has ended, each attribute has a place for every value that some method stores into it.

* `BoundClass.exists_request`: the engine is asked about every function of the body.
* `BoundClass.symbols_of_mem_requests`: the symbol table that it leaves is that of the class.
* **`BoundClass.storedValues_infer`**: the stored values of a class.
-/

namespace NativeClass

open Inference

namespace Compilation

variable {o : CompileOptions} {c : BoundClass} {i i' : Compilation} {m : Method} {ms : List Method}

/-! ## Requests that are answered -/

theorem result_of_typeMethod (h : i.typeMethod o m = .ok i') :
    ∃ t, (o.backend.infer (i.request o m)).result = .ok t := by
  unfold typeMethod at h
  dsimp only at h
  split at h
  · cases h
  next t ht => exact ⟨t, ht⟩

/-- If all methods can be typed, every request has been answered with a typing. -/
theorem result_of_mem_typingRequests (h : ms.foldlM (typeMethod o) i = .ok i') :
    ∀ r ∈ i.typingRequests o ms, ∃ t, (o.backend.infer r).result = .ok t := by
  induction ms generalizing i with
  | nil => exact List.forall_mem_nil _
  | cons m ms ih =>
    rw [List.foldlM_cons] at h
    obtain ⟨j, hj, h⟩ := bind_eq_ok_iff.mp h
    rw [typingRequests, hj]
    exact List.forall_mem_cons.mpr ⟨result_of_typeMethod hj, ih h⟩

theorem exists_of_mem_typingRequests {r : TypingRequest} (hr : r ∈ i.typingRequests o ms) :
    ∃ j m, r = request o j m := by
  induction ms generalizing i with
  | nil => cases hr
  | cons m ms ih =>
    rw [typingRequests, List.mem_cons] at hr
    rcases hr with rfl | hr
    · exact ⟨i, m, rfl⟩
    · cases hstep : i.typeMethod o m with
      | error e => simp [hstep] at hr
      | ok j =>
        rw [hstep] at hr
        exact ih hr

/-! ## Methods and functions -/

theorem refines_untilMethods (o : CompileOptions) (c : BoundClass) :
    Ensures ((ofClass c).untilMethods o)
      (fun i => ∃ (d : Draft) (slots : Table.Builder Signature), i.draft.slotTypes = .building slots ∧
        Records slots i (d.initialMethods c.source.dict))
      fun _ => True := by
  refine (ensures_inferAttributes c).of_any.bind fun i hi => ?_
  refine ((ensures_installMethods c.source hi.dict hi.slotTypes hi.typings hi.methods).of_any.and
    (sameFrame_installMethods o i)).mono fun i' hi' => ?_
  exact ⟨i.draft, _, hi'.2.slotTypes.trans hi.slotTypes, hi'.1.2⟩

theorem attributes_untilMethods (o : CompileOptions) (c : BoundClass) :
    Ensures ((ofClass c).untilMethods o)
      (fun i => i.draft.attributes = .building (Draft.mergeBases c.extensionBases NativeType.attributes))
      fun _ => True :=
  (ensures_inferAttributes c).of_any.bind fun i hi =>
    (sameFrame_installMethods o i).mono fun _ hframe => hframe.attributes.trans hi.attributes

theorem refines_untilAttributes (ho : o.backend = .reference) (c : BoundClass) :
    Ensures ((ofClass c).untilAttributes o)
      (fun i => ∃ d : Draft, List.Forall₂ Method.Refines i.methods (d.initialMethods c.source.dict))
      fun _ => True := by
  rw [untilAttributes_eq]
  refine (refines_untilMethods o c).bind fun i hi => ?_
  obtain ⟨d, slots, hslots, hrec⟩ := hi
  have hn := d.nodup_initialMethods c.source
  refine (ensures_typeInit ho (by rw [hslots]; rfl) hrec hn).of_any.bind fun i' hi' => ?_
  cases hbuild : i'.draft.buildAttributes with
  | error e => exact ensures_error.mpr trivial
  | ok d' => exact ensures_ok.mpr ⟨d, hi'.1.refines⟩

end Compilation

namespace BoundClass

open Compilation

variable {o : CompileOptions} {c : BoundClass} {i i' : Compilation}

/-- The engine is asked about every function of the body but the allocator. -/
theorem exists_request (ho : o.backend = .reference) (hi : (ofClass c).untilAttributes o = .ok i)
    (htype : i.typeMethods o = .ok i') {name : String} {f : Function}
    (hf : c.source.members.get? name = some (.function f)) (hnew : name ≠ newName) :
    ∃ r ∈ c.requests o, r.method.name = name ∧ r.method.func = f := by
  by_cases hinit : name = initName
  · rw [untilAttributes_eq] at hi
    obtain ⟨i₁, hi₁, -⟩ := bind_eq_ok_iff.mp hi
    obtain ⟨d, slots, -, hrec⟩ := (refines_untilMethods o c).of_ok hi₁
    obtain ⟨m, hm, hname, hfunc⟩ := exists_method_of_get? hrec.refines hf hnew
    refine ⟨i₁.request o m, List.mem_append_left _ ?_, hname, hfunc⟩
    rw [constructorRequests, hi₁]
    have hfind : i₁.methods.find? (·.name = initName) = some m :=
      (find?_key_eq_some_iff Method.name (Method.Refines.nodup_name hrec.refines)).mpr ⟨hm, hname.trans hinit⟩
    exact List.mem_map.mpr ⟨m, Option.mem_toList.mpr hfind, rfl⟩
  · obtain ⟨d, hrefines⟩ := (refines_untilAttributes ho c).of_ok hi
    obtain ⟨m, hm, hname, hfunc⟩ := exists_method_of_get? hrefines hf hnew
    have hmember : m ∈ i.methods.filter fun m => m.name ≠ initName ∧ m.name ≠ newName :=
      List.mem_filter.mpr ⟨hm, decide_eq_true (hname ▸ ⟨hinit, hnew⟩)⟩
    rw [← map_method_typingRequests htype] at hmember
    obtain ⟨r, hr, rfl⟩ := List.mem_map.mp hmember
    refine ⟨r, List.mem_append_right _ ?_, hname, hfunc⟩
    rw [memberRequests, hi]
    exact hr

theorem mayDefine_of_mem_requests {r : TypingRequest} (hr : r ∈ c.requests o) :
    r.flags = o.flags ∧ r.mayDefine = decide (r.method.name = initName) := by
  have hrequest : ∃ j m, r = request o j m := by
    rcases List.mem_append.mp hr with hr | hr
    · unfold constructorRequests at hr
      split at hr
      next i _ =>
        obtain ⟨m, -, rfl⟩ := List.mem_map.mp hr
        exact ⟨i, m, rfl⟩
      · cases hr
    · unfold memberRequests at hr
      split at hr
      · exact exists_of_mem_typingRequests hr
      · cases hr
  obtain ⟨j, m, rfl⟩ := hrequest
  exact ⟨rfl, rfl⟩

/-- The engine answers every request with a typing, and it leaves the symbol table of the class. -/
theorem symbols_of_mem_requests (ho : o.backend = .reference) (hi : (ofClass c).untilAttributes o = .ok i)
    (htype : i.typeMethods o = .ok i') :
    ∀ r ∈ c.requests o, (∃ t, (inferMethod r).result = .ok t) ∧ (inferMethod r).symbols = i.draft.symbols := by
  have hinfer : o.backend.infer = inferMethod := by
    rw [ho]
    rfl
  refine List.forall_mem_append.mpr ⟨fun r hr => ?_, fun r hr => ?_⟩
  · -- the attribute table is built from the symbol table that the constructor leaves
    rw [untilAttributes_eq] at hi
    obtain ⟨i₁, hi₁, hi⟩ := bind_eq_ok_iff.mp hi
    obtain ⟨i₂, hi₂, hi⟩ := bind_eq_ok_iff.mp hi
    obtain ⟨d, hd, hi⟩ := bind_eq_ok_iff.mp hi
    cases hi
    obtain ⟨attributes, rfl⟩ := Draft.exists_attributes_of_buildAttributes hd
    rw [constructorRequests, hi₁] at hr
    obtain ⟨m, hm, rfl⟩ := List.mem_map.mp hr
    rw [Option.mem_toList] at hm
    have hname : m.name = initName := by simpa using List.find?_some hm
    rw [typeInit, hm] at hi₂
    obtain ⟨t, ht, hsymbols⟩ := (symbols_typeMethod o i₁ hname).of_ok hi₂
    rw [hinfer] at ht hsymbols
    exact ⟨⟨t, ht⟩, hsymbols.symm⟩
  · -- all other methods only read the symbol table
    rw [memberRequests, hi] at hr
    have hne : ∀ m ∈ i.methods.filter (fun m => m.name ≠ initName ∧ m.name ≠ newName), m.name ≠ initName :=
      fun m hm => (of_decide_eq_true (List.mem_filter.mp hm).2).1
    obtain ⟨hsymbols, hread⟩ := symbols_of_mem_typingRequests hne hr
    obtain ⟨t, ht⟩ := result_of_mem_typingRequests htype r hr
    rw [hinfer] at ht
    exact ⟨⟨t, ht⟩, ((keeps_inferMethod r).2 hread).trans hsymbols⟩

/-- The two halves of an inference that succeeds: after the attribute table is made only signatures change. -/
theorem exists_halves_of_runInference {j : Compilation} (ho : o.backend = .reference)
    (h : (ofClass c).runInference o = .ok j) :
    ∃ i i' slotTypes, (ofClass c).untilAttributes o = .ok i ∧ i.typeMethods o = .ok i' ∧ Attributed o c i ∧
      i'.draft.symbols = i.draft.symbols ∧ i'.draft.attributes = i.draft.attributes ∧
      j = { i' with draft := { i'.draft with slotTypes } } := by
  rw [runInference_eq] at h
  obtain ⟨i, hi, h⟩ := bind_eq_ok_iff.mp h
  obtain ⟨i', htype, h⟩ := bind_eq_ok_iff.mp h
  have hattr := (ensures_untilAttributes ho c).of_ok hi
  obtain ⟨hframe, hsymbols⟩ := (sameFrame_typeMethods o i).of_ok htype
  rw [Draft.buildSlots_eq (hframe.slotTypes.trans hattr.slotTypes)] at h
  cases h
  exact ⟨i, i', _, hi, htype, hattr, hsymbols, hframe.attributes, rfl⟩

/-- The two halves of an inference that succeeds, and the tables that it leaves. -/
theorem exists_halves_of_infer (ho : o.backend = .reference) (h : ((ofClass c).infer o).result = .ok ()) :
    ∃ i i', (ofClass c).untilAttributes o = .ok i ∧ i.typeMethods o = .ok i' ∧ Attributed o c i ∧
      ((ofClass c).infer o).after.draft.symbols = i.draft.symbols ∧
      ((ofClass c).infer o).after.draft.attributes = i.draft.attributes := by
  cases hrun : (ofClass c).runInference o with
  | error e =>
    rw [infer_ofClass_error hrun] at h
    cases h
  | ok j =>
    obtain ⟨i, i', _, hi, htype, hattr, hsymbols, hattributes, rfl⟩ := exists_halves_of_runInference ho hrun
    rw [infer_ofClass hrun]
    exact ⟨i, i', hi, htype, hattr, hsymbols, hattributes⟩

theorem exists_entry_of_agrees {symbols : SymbolTable} {attributes : OrderedMap (Entry Ty)}
    (h : List.Forall₂ (fun s a => s.1 = a.1 ∧ Draft.Agrees s.2 a.2) symbols.entries attributes.entries)
    {name : String} {v : Variable} (hv : symbols.get? name = some v) :
    ∃ e, attributes.get? name = some e ∧ e.value = v.ty := by
  obtain ⟨e, he, hname, hagrees⟩ := exists_of_forall₂_of_mem h (OrderedMap.get?_eq_some_iff.mp hv)
  obtain ⟨k, e⟩ := e
  cases hname
  exact ⟨e, OrderedMap.get?_eq_some_iff.mpr he, hagrees.1⟩

/-- The attributes of a class have places for what a function of its body stores: whatever statement the walk over
the body comes to, its stored values can be typed there, and each one is covered by the type that the attribute has
in the end. A value that has been compared with this type also passes the test of a store. -/
def Holds (o : CompileOptions) (c : BoundClass) (symbols : SymbolTable) (attributes : OrderedMap (Entry Ty))
    (name : String) (f : Function) : Prop :=
  ∃ r ∈ c.requests o, r.method.name = name ∧ r.method.func = f ∧
    ∀ body before stmt after, f.body = some body → reached body.statements = before ++ stmt :: after →
      ∃ s stores, before.foldlM (visit (bodyContext r body.lines)) (initialScope r) = .ok s ∧
        storedValues (bodyContext r body.lines) s stmt = .ok stores ∧
        ∀ x ∈ stores, ∃ v e, symbols.get? x.1 = some v ∧ attributes.get? x.1 = some e ∧
          e.value.Covers (!isHinted stmt && !(name = initName && v.promotable))
            (o.flags.getBool promotionFlag true) x.2

/-- **The attributes of a class have places for what its methods store.** -/
theorem storedValues_infer (ho : o.backend = .reference) (hunions : c.EveryUnion (· ≠ []))
    (h : ((ofClass c).infer o).result = .ok ()) :
    ∀ name f, c.source.members.get? name = some (.function f) → name ≠ newName →
      c.Holds o ((ofClass c).infer o).after.draft.symbols ((ofClass c).infer o).after.draft.attributes.entries
        name f := by
  intro name f hf hnew
  obtain ⟨i, i', hi, htype, hattr, hsymbols, hattributes⟩ := exists_halves_of_infer ho h
  rw [hsymbols, hattributes]
  obtain ⟨r, hr, hname, rfl⟩ := exists_request ho hi htype hf hnew
  refine ⟨r, hr, hname, rfl, fun body before stmt after hbody hsplit => ?_⟩
  obtain ⟨⟨t, ht⟩, hafter⟩ := symbols_of_mem_requests ho hi htype r hr
  have hrequest := everyUnion_of_mem_requests unionClosed_ne_nil ho hunions r hr
  obtain ⟨s, stores, hbefore, hstores, hholds⟩ := holds_inferMethod hrequest hbody ht hsplit
  refine ⟨s, stores, hbefore, hstores, fun x hx => ?_⟩
  obtain ⟨v, hv, hcovers⟩ := hholds x hx
  rw [hafter] at hv
  obtain ⟨e, he, hvalue⟩ := exists_entry_of_agrees hattr.agrees hv
  refine ⟨v, e, hv, he, ?_⟩
  obtain ⟨hflags, hdef⟩ := mayDefine_of_mem_requests hr
  rw [Inference.Holds, BodyContext.checks] at hcovers
  simp only [bodyContext, hflags, hdef, hname] at hcovers
  exact hvalue ▸ hcovers

end BoundClass

/-! ## Classes that store -/

namespace Sample

open Python (Expr Stmt)

/-- An instance method without type hints. -/
def plainMethod (name : String) (statements : List Stmt) : String × Declaration :=
  (name, .function {
    name
    params := [⟨"self", none⟩]
    returns := none
    kind := .instanceMethod
    isAbstract := false
    isVariadic := false
    location := .unknown
    body := some ⟨statements, default⟩ })

/-- An attribute of the receiver. -/
def selfAttribute (attr : String) : Expr :=
  .attribute default (.name default "self") attr

/-- A class whose constructor widens an attribute, and whose other method unpacks into two attributes. -/
def meter : BoundClass :=
  let one := Expr.literal default .int
  let half := Expr.literal default .float
  classOf "Meter" [("width", .attr .float),
    plainMethod initName [storeInto "width" one, storeInto "count" one, storeInto "count" half],
    plainMethod "reset" [.assign default [.tuple default [selfAttribute "count", selfAttribute "width"]]
      (.tuple default [half, one])]] []

/-- A class whose constructor stores an integer and a union, and then widens both attributes. -/
def tank : BoundClass :=
  let one := Expr.literal default .int
  let text := Expr.literal default (.str "")
  let either := Expr.conditional default (.literal default .bool) one text
  classOf "Tank" [plainMethod initName
    [.assign default [.tuple default [selfAttribute "level", selfAttribute "label"]] (.tuple default [one, either]),
      storeInto "level" (.literal default .float), storeInto "level" text,
      storeInto "label" (.literal default .noneValue)]] []

theorem everyUnion_plainMethod {Q : List Ty → Prop} {name n : String} {statements : List Stmt} {f : Function}
    (h : (name, .function f) = plainMethod n statements) : f.EveryUnion Q := by
  cases h
  exact ⟨List.forall_mem_singleton.mpr nofun, nofun⟩

theorem everyUnion_meter : meter.EveryUnion (· ≠ []) where
  attributes e he := by
    have h : meter.source.declaredAttributes = [("width", .float)] := by decide +kernel
    rw [h] at he
    cases List.mem_singleton.mp he
    trivial
  functions name f hf := by
    have hmem : (name, .function f) ∈ meter.source.members.entries := OrderedMap.get?_eq_some_iff.mp hf
    rcases List.mem_cons.mp hmem with h | hmem
    · cases h
    rcases List.mem_cons.mp hmem with h | hmem
    · exact everyUnion_plainMethod h
    · exact everyUnion_plainMethod (List.mem_singleton.mp hmem)
  bases := nofun

end Sample

namespace BoundClass

open Compilation

theorem storedValues_infer_meter :
    ((ofClass Sample.meter).infer Sample.options).result = .ok () ∧
      ∀ name f, Sample.meter.source.members.get? name = some (.function f) → name ≠ newName →
        Sample.meter.Holds Sample.options
          ((ofClass Sample.meter).infer Sample.options).after.draft.symbols
          ((ofClass Sample.meter).infer Sample.options).after.draft.attributes.entries name f := by
  have hinfer : ((ofClass Sample.meter).infer Sample.options).result = .ok () := by decide +kernel
  exact ⟨hinfer, storedValues_infer rfl Sample.everyUnion_meter hinfer⟩

/-- The first statement of the constructor stores an integer and a union into attributes that the later ones widen.
Neither the type of the one nor the type of the other passes the test against the type that its attribute has in
the end. -/
theorem storedValues_misfit :
    ((ofClass Sample.tank).infer Sample.options).result = .ok () ∧
      ∃ r ∈ Sample.tank.requests Sample.options, r.method.name = initName ∧
        ∃ body stmt after, r.method.func.body = some body ∧ reached body.statements = stmt :: after ∧
          storedValues (bodyContext r body.lines) (initialScope r) stmt =
            .ok [("level", .int), ("label", .union [.int, .str])] ∧
          ∃ level label : Ty,
            ((ofClass Sample.tank).infer Sample.options).after.draft.attributes.get? "level" = some level ∧
            ((ofClass Sample.tank).infer Sample.options).after.draft.attributes.get? "label" = some label ∧
            level.isAssignableFrom .int true = false ∧
            label.isAssignableFrom (.union [.int, .str]) true = false := by
  have hinfer : ((ofClass Sample.tank).infer Sample.options).result = .ok () := by decide +kernel
  obtain ⟨i, i', hi, htype, -⟩ := exists_halves_of_infer rfl hinfer
  obtain ⟨r, hr, hname, hfunc⟩ :=
    exists_request rfl hi htype (show Sample.tank.source.members.get? initName = some _ from rfl) (by decide)
  refine ⟨hinfer, r, hr, hname, _, _, _, by rw [hfunc], rfl, ?_, .union [.float, .str],
    .union [.int, .str, .noneType], by decide +kernel, by decide +kernel, by decide +kernel,
    by decide +kernel⟩
  have hreceiver : (bodyContext r default).receiver = some "self" := by
    rw [bodyContext, hfunc]
    rfl
  have hjoin : ∀ promote, Ty.join .int .str promote = .union [.int, .str] := by decide +kernel
  simp [storedValues, writes, typeOf, typesOf, targetWrites, targetsWrites, BodyContext.isReceiver, hreceiver,
    Sample.selfAttribute, Ty.unpacked, Ty.ofLiteral, hjoin, Write.attribute?, bind, Except.bind, pure, Except.pure]

end BoundClass

end NativeClass
