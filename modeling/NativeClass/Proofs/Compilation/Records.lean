import NativeClass.Proofs.Compilation.Frame
import NativeClass.Proofs.Inference.Resolution
/-!
# The methods of a class under compilation

What a compilation knows of its methods while their signatures are recorded and their bodies typed.

* `Compilation.Records slots c ms`: the methods of `c` are later versions of `ms`, and everything recorded
  about them agrees.
* **`Compilation.ensures_installMethods`**: recording the signatures of a class.
* **`Compilation.ensures_typeMethod`**, **`Compilation.ensures_typeAll`**: typing one method and several.
-/

namespace NativeClass

open CompileError (RejectsSource)

/-! ## Later versions of methods -/

/-- A later version of a method. -/
structure Method.Refines (m old : Method) : Prop where
  name : m.name = old.name
  func : m.func = old.func
  isDeclared : m.isDeclared = old.isDeclared
  signature : m.signature.Refines old.signature

namespace Method.Refines

variable {m m' m'' : Method} {ms ms' ms'' : List Method}

theorem refl (m : Method) : m.Refines m :=
  ⟨rfl, rfl, rfl, .refl _⟩

theorem trans (h : m.Refines m') (h' : m'.Refines m'') : m.Refines m'' :=
  ⟨h.name.trans h'.name, h.func.trans h'.func, h.isDeclared.trans h'.isDeclared,
    h.signature.trans h'.signature⟩

theorem forall₂_refl (ms : List Method) : List.Forall₂ Refines ms ms :=
  List.forall₂_same.mpr fun m _ => refl m

theorem forall₂_trans (h : List.Forall₂ Refines ms ms') (h' : List.Forall₂ Refines ms' ms'') :
    List.Forall₂ Refines ms ms'' := by
  induction h generalizing ms'' with
  | nil => exact h'
  | cons hm _ ih =>
    cases h' with
    | cons hm' h' => exact .cons (hm.trans hm') (ih h')

theorem map_name (h : List.Forall₂ Refines ms ms') : ms.map Method.name = ms'.map Method.name :=
  map_eq_of_forall₂ h fun _ _ hr => hr.name

theorem nodup_name {d : Draft} {source : ClassSource}
    (h : List.Forall₂ Refines ms (d.initialMethods source.dict)) : (ms.map Method.name).Nodup :=
  map_name h ▸ d.nodup_initialMethods source

end Method.Refines

theorem Method.name_not_mem_of_nodup {ms before after : List Method} {m : Method}
    (hn : (ms.map Method.name).Nodup) (hsplit : ms = before ++ m :: after) :
    m.name ∉ before.map Method.name := fun hmem => by
  rw [hsplit, List.map_append, List.map_cons] at hn
  exact List.disjoint_of_nodup_append hn hmem List.mem_cons_self

namespace Compilation

variable {o : CompileOptions} {c : Compilation} {slots : Table.Builder Signature} {ms ms' : List Method}
  {m : Method}

/-! ## Replacing a method -/

theorem mem_replaceMethod {x : Method} (h : x ∈ replaceMethod ms m) : x = m ∨ x ∈ ms ∧ x.name ≠ m.name := by
  obtain ⟨old, hold, rfl⟩ := List.mem_map.mp h
  split
  · exact Or.inl rfl
  next hne => exact Or.inr ⟨hold, hne⟩

theorem map_name_replaceMethod (ms : List Method) (m : Method) :
    (replaceMethod ms m).map Method.name = ms.map Method.name := by
  rw [replaceMethod, List.map_map]
  refine List.map_congr_left fun old _ => ?_
  show (if old.name = m.name then m else old).name = _
  split
  next h => exact h.symm
  · rfl

theorem refines_replaceMethod {new : Method} (h : List.Forall₂ Method.Refines ms ms')
    (hn : (ms'.map Method.name).Nodup) (hm : m ∈ ms') (hnew : new.Refines m) :
    List.Forall₂ Method.Refines (replaceMethod ms new) ms' := by
  have hrun : ∀ {xs ys : List Method}, List.Forall₂ Method.Refines xs ys → (∀ y ∈ ys, y ∈ ms') →
      List.Forall₂ Method.Refines (replaceMethod xs new) ys := by
    intro xs ys hxy
    induction hxy with
    | nil => exact fun _ => .nil
    | @cons x y xs ys hr _ ih =>
      intro hys
      refine .cons ?_ (ih fun z hz => hys z (List.mem_cons_of_mem y hz))
      dsimp only
      split
      next hname =>
        have hyname : y.name = m.name := by rw [← hr.name, hname, hnew.name]
        have hy : y = m := List.inj_on_of_nodup_map hn (hys y List.mem_cons_self) hm hyname
        exact hy ▸ hnew
      · exact hr
  exact hrun h fun _ hy => hy

/-! ## The record -/

/-- The methods of `c` are later versions of `ms`, and everything recorded about them agrees: their
signatures in the draft, the inherited slots that they override and the typings found so far. -/
structure Records (slots : Table.Builder Signature) (c : Compilation) (ms : List Method) : Prop where
  refines : List.Forall₂ Method.Refines c.methods ms
  keys : c.draft.methods.keys = ms.map Method.name
  signed : ∀ m ∈ c.methods, c.draft.methods.get? m.name = some m.signature
  fits : ∀ m ∈ c.methods, m.signature.isConstructor = false →
    ∀ old, slots.get? m.name = some old → m.signature.Fits old
  typed : ∀ m ∈ c.methods, ∀ t, c.typings.get? m.name = some t →
    t.signature = m.signature ∧ m.signature.isResolved

namespace Records

theorem trans (h : Records slots c ms) (h' : List.Forall₂ Method.Refines ms ms') : Records slots c ms' :=
  ⟨Method.Refines.forall₂_trans h.refines h', h.keys.trans (Method.Refines.map_name h'), h.signed,
    h.fits, h.typed⟩

theorem self (h : Records slots c ms) : Records slots c c.methods :=
  ⟨Method.Refines.forall₂_refl _, h.keys.trans (Method.Refines.map_name h.refines).symm, h.signed,
    h.fits, h.typed⟩

end Records

/-! ## Recording signatures -/

/-- The compilation with a method and its recorded signature. -/
def withMethod (c : Compilation) (m : Method) (s : Signature) : Compilation :=
  let m := { m with signature := s }
  { c with
    draft := { c.draft with methods := c.draft.methods.insert m.name s }
    methods := c.methods ++ [m] }.setMember m

theorem withMethod_records {s : Signature} (ht : c.typings = .empty) (h : Records slots c ms)
    (hm : m.name ∉ ms.map Method.name) (hrefines : s.Refines m.signature)
    (hfits : s.isConstructor = false → ∀ old, slots.get? m.name = some old → s.Fits old) :
    Records slots (c.withMethod m s) (ms ++ [m]) where
  refines := List.rel_append h.refines (.cons ⟨rfl, rfl, rfl, hrefines⟩ .nil)
  keys := by
    rw [List.map_append, ← h.keys]
    exact (OrderedMap.keys_insert ..).trans (if_neg (h.keys ▸ hm))
  signed x hx := by
    refine (OrderedMap.get?_insert ..).trans ?_
    rcases List.mem_append.mp hx with hx | hx
    · have hne : x.name ≠ m.name := fun hxm => by
        rw [← Method.Refines.map_name h.refines, ← hxm] at hm
        exact hm (List.mem_map_of_mem hx)
      rw [if_neg hne, h.signed x hx]
    · rw [List.mem_singleton.mp hx]
      exact if_pos rfl
  fits x hx hctor old hold := by
    rcases List.mem_append.mp hx with hx | hx
    · exact h.fits x hx hctor old hold
    · rw [List.mem_singleton.mp hx] at hctor hold ⊢
      exact hfits hctor old hold
  typed x _ t hx := by
    rw [show (c.withMethod m s).typings = .empty from ht, OrderedMap.get?_empty] at hx
    cases hx

theorem ensures_installMethod (hs : c.draft.slotTypes = .building slots) (ht : c.typings = .empty)
    (h : Records slots c ms) (hm : m.name ∉ ms.map Method.name) :
    Ensures (c.installMethod m) (fun c' => c'.typings = .empty ∧ Records slots c' (ms ++ [m]))
      RejectsSource := by
  refine (Draft.ensures_addMethod (hs ▸ rfl) m.name m.signature).bind fun r hr => ?_
  obtain ⟨s, draft⟩ := r
  obtain ⟨hdraft, hrefines, hfits⟩ := hr
  have hknown : c.draft.methods.get? m.name = none := by
    rw [OrderedMap.get?_eq_none_iff, h.keys]
    exact hm
  have hslot : s.isConstructor = false →
      ∀ old, slots.get? m.name = some old → s.Fits old := fun hctor old hold => by
    refine hfits old ?_
    rw [Draft.knownSignature?, hknown, ← hrefines.isConstructor, hctor, hs]
    exact hold
  dsimp only at hdraft
  subst hdraft
  exact ensures_ok.mpr ⟨ht, withMethod_records ht h hm hrefines hslot⟩

/-- **Recording the signatures of a class.** -/
theorem ensures_installMethods (source : ClassSource) (hdict : c.dict = source.dict)
    (hs : c.draft.slotTypes = .building slots) (ht : c.typings = .empty)
    (hm : c.draft.methods = .empty) :
    Ensures (c.installMethods o)
      (fun c' => c'.typings = .empty ∧ Records slots c' (c.draft.initialMethods source.dict))
      RejectsSource := by
  refine (Draft.ensures_methodsOf c.draft o.validators c.dict).bind fun ms hms => ?_
  rw [hdict] at hms
  subst hms
  have hn := c.draft.nodup_initialMethods source
  refine (ensures_foldlM (fun dealt c' => SameFrame { c with methods := [] } c' ∧
    c'.typings = .empty ∧ Records slots c' dealt) ⟨.refl _, ht, .nil, ?_, ?_, ?_, ?_⟩ ?_).mono
      fun c' h => h.2
  · show c.draft.methods.keys = []
    rw [hm]
    rfl
  · exact fun x hx => nomatch hx
  · exact fun x hx => nomatch hx
  · exact fun x hx => nomatch hx
  · rintro dealt m rest c' hsplit ⟨hframe, ht', hrec⟩
    have hnew : m.name ∉ dealt.map Method.name := Method.name_not_mem_of_nodup hn hsplit
    refine ((ensures_installMethod (hframe.slotTypes.trans hs) ht' hrec hnew).and
      (sameFrame_installMethod c' m)).mono fun c'' h => ?_
    exact ⟨hframe.trans h.2, h.1⟩

/-! ## Typing bodies -/

/-- The compilation with the typing of a method and the symbol table that it leaves. -/
def withTyping (c : Compilation) (m : Method) (t : Typing) (symbols : SymbolTable) : Compilation :=
  let m := { m with signature := t.signature }
  { c with
    draft := { c.draft with symbols, methods := c.draft.methods.insert m.name t.signature }
    methods := replaceMethod c.methods m
    typings := c.typings.insert m.name t }.setMember m

theorem withTyping_records {t : Typing} {symbols : SymbolTable} {old : Method}
    (h : Records slots c ms) (hn : (ms.map Method.name).Nodup) (hm : m ∈ ms) (hold : old ∈ c.methods)
    (hrefines : old.Refines m) (ht : t.signature.Refines old.signature) (hr : t.signature.isResolved) :
    Records slots (c.withTyping m t symbols) ms where
  refines :=
    refines_replaceMethod h.refines hn hm ⟨rfl, rfl, rfl, ht.trans hrefines.signature⟩
  keys := by
    have hmem : m.name ∈ c.draft.methods.keys := h.keys ▸ List.mem_map_of_mem hm
    rw [← h.keys]
    exact (OrderedMap.keys_insert ..).trans (if_pos hmem)
  signed x hx := by
    refine (OrderedMap.get?_insert ..).trans ?_
    rcases mem_replaceMethod hx with rfl | ⟨hx, hne⟩
    · exact if_pos rfl
    · exact (if_neg hne).trans (h.signed x hx)
  fits x hx hctor slot hslot := by
    rcases mem_replaceMethod hx with rfl | ⟨hx, -⟩
    · have hctor' : old.signature.isConstructor = false := ht.isConstructor ▸ hctor
      have hslot' : slots.get? old.name = some slot := by
        rw [hrefines.name]
        exact hslot
      exact ht.toFits.trans (h.fits old hold hctor' slot hslot')
    · exact h.fits x hx hctor slot hslot
  typed x hx t' ht' := by
    have hget : (c.withTyping m t symbols).typings.get? x.name =
        if x.name = m.name then some t else c.typings.get? x.name := OrderedMap.get?_insert ..
    rw [hget] at ht'
    rcases mem_replaceMethod hx with rfl | ⟨hx, hne⟩
    · rw [if_pos rfl, Option.some.injEq] at ht'
      exact ⟨ht' ▸ rfl, hr⟩
    · rw [if_neg hne] at ht'
      exact h.typed x hx t' ht'

/-- **Typing one method.** Its signature is resolved, and nothing else is typed. -/
theorem ensures_typeMethod (ho : o.backend = .reference) (hs : c.draft.slotTypes.isFrozen = false)
    (h : Records slots c ms) (hn : (ms.map Method.name).Nodup) (hm : m ∈ ms) :
    Ensures (c.typeMethod o m)
      (fun c' => Records slots c' ms ∧
        ∀ name, (c'.typings.get? name).isSome ↔ name = m.name ∨ (c.typings.get? name).isSome)
      RejectsSource := by
  obtain ⟨old, hold, hrefines⟩ := exists_of_forall₂_of_mem h.refines.flip hm
  have hsigned : c.draft.methods.get? m.name = some old.signature := by
    rw [← hrefines.name]
    exact h.signed old hold
  have hdeclared : (c.request o m).declared = old.signature := by
    rw [request, hsigned]
    rfl
  have hinfer := Inference.ensures_inferMethod (c.request o m)
  rw [hdeclared] at hinfer
  unfold typeMethod
  rw [ho]
  dsimp only [Backend.reference]
  split
  · exact ensures_error.mpr trivial
  next t ht =>
  obtain ⟨htyped, hresolved⟩ := hinfer.of_ok ht
  generalize (if (c.request o m).mayDefine = true
    then (Inference.inferMethod (c.request o m)).symbols else c.draft.symbols) = symbols
  -- the recorded signature is that of the typing, so recording it cannot fail
  have hrecord : { c with draft := { c.draft with symbols } }.recordTyping m t =
      .ok (c.withTyping m t symbols) := by
    have hadd := Draft.addMethod_of_fits (d := { c.draft with symbols }) hs hsigned
      htyped.toFits hresolved
    rw [recordTyping, hadd]
    rfl
  rw [hrecord]
  refine ensures_ok.mpr
    ⟨withTyping_records h hn hm hold hrefines htyped hresolved, fun name => ?_⟩
  have hget : (c.withTyping m t symbols).typings.get? name =
      if name = m.name then some t else c.typings.get? name := OrderedMap.get?_insert ..
  rw [hget]
  split
  next hname => simp [hname]
  next hname => simp [hname]

/-- **Typing several methods.** -/
theorem ensures_typeAll (ho : o.backend = .reference) (hs : c.draft.slotTypes.isFrozen = false)
    (h : Records slots c ms) (hn : (ms.map Method.name).Nodup) {xs : List Method}
    (hxs : ∀ m ∈ xs, m ∈ ms) :
    Ensures (xs.foldlM (typeMethod o) c)
      (fun c' => Records slots c' ms ∧
        ∀ name, (c'.typings.get? name).isSome ↔
          name ∈ xs.map Method.name ∨ (c.typings.get? name).isSome)
      RejectsSource := by
  refine (ensures_foldlM (fun dealt c' => SameFrame c c' ∧ Records slots c' ms ∧
    ∀ name, (c'.typings.get? name).isSome ↔
      name ∈ dealt.map Method.name ∨ (c.typings.get? name).isSome) ⟨.refl c, h, by simp⟩ ?_).mono
        fun c' h => h.2
  rintro dealt m rest c' hsplit ⟨hframe, hrec, hknown⟩
  have hmem : m ∈ xs := hsplit ▸ List.mem_append_right dealt List.mem_cons_self
  refine ((ensures_typeMethod ho (hframe.slotTypes ▸ hs) hrec hn (hxs m hmem)).and
    (sameFrame_typeMethod o c' m)).mono fun c'' h'' => ?_
  obtain ⟨⟨hrec', hknown'⟩, hframe', -⟩ := h''
  refine ⟨hframe.trans hframe', hrec', fun name => ?_⟩
  rw [hknown', hknown, List.map_append, List.mem_append, List.map_singleton, List.mem_singleton,
    or_left_comm, or_assoc]

end Compilation

end NativeClass
