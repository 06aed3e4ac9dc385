import NativeClass.Draft.Edit
import NativeClass.Proofs.Draft.Operations
/-!
# Operations on a draft in place

Several operations write many entries, one by one, into a draft that is kept. None of them can fail after its
first write, and none writes into a frozen table.

* `Draft.Call.apply`: an operation as a function; **`Draft.Call.perform_edit`**: in place it does the same, and a
  failure leaves the draft as it was.
* `Draft.LeadsTo`: what operations keep; `Draft.Call.leadsTo` for one, `Draft.leadsTo_afterCalls` for several.
* **`Draft.disciplined_afterCalls`**: whatever was called before, failures change nothing, frozen tables are final,
  and a layout is that of a frozen table.
-/

namespace NativeClass.Draft

/-! ## Computations in place -/

namespace Edit

variable {α β : Type}

@[simp] theorem perform_ofExcept (r : Except CompileError α) (d : Draft) : (ofExcept r).perform d = (r, d) := rfl

theorem perform_bind (x : Edit α) (f : α → Edit β) (d : Draft) :
    (x >>= f).perform d =
      match x.perform d with
      | (.ok a, d') => (f a).perform d'
      | (.error e, d') => (.error e, d') := by
  show StateT.run (ExceptT.run x >>= ExceptT.bindCont f) d = _
  rw [StateT.run_bind, perform]
  cases StateT.run (ExceptT.run x) d with
  | mk r d' =>
    cases r with
    | ok a => rfl
    | error e => rfl

@[simp] theorem perform_get_bind (f : Draft → Edit α) (d : Draft) :
    (get >>= f).perform d = (f d).perform d := rfl

theorem perform_forM_cons (f : β → Edit Unit) (x : β) (xs : List β) (d : Draft) :
    ((x :: xs).forM f).perform d =
      match (f x).perform d with
      | (.ok _, d') => (xs.forM f).perform d'
      | (.error e, d') => (.error e, d') := by
  have hstep : (x :: xs).forM f = (f x >>= fun _ => xs.forM f) := rfl
  rw [hstep, perform_bind]
  cases (f x).perform d with
  | mk r d' =>
    cases r with
    | ok a => rfl
    | error e => rfl

theorem perform_forM {f : β → Edit Unit} {g : Draft → β → Draft}
    (h : ∀ x d, (f x).perform d = (.ok (), g d x)) (xs : List β) (d : Draft) :
    (xs.forM f).perform d = (.ok (), xs.foldl g d) := by
  induction xs generalizing d with
  | nil => rfl
  | cons x xs ih =>
    rw [perform_forM_cons, h]
    exact ih (g d x)

end Edit

/-! ## Each operation as a function -/

/-- What an operation makes of a draft, if it succeeds. -/
def Call.apply (d : Draft) : Call → Except CompileError Draft
  | .inherit => d.inherit
  | .declareAttributes dict => .ok (d.declareAttributes dict)
  | .setSymbol name v => .ok (d.setSymbol name v)
  | .addAttribute name ty => d.addAttribute name ty
  | .addMethod name s => (d.addMethod name s).map Prod.snd
  | .buildAttributes => d.buildAttributes
  | .buildSlots => d.buildSlots
  | .freezeAttributes => .ok d.freezeAttributes
  | .freezeSlots => .ok d.freezeSlots
  | .freezeTables => .ok d.freezeTables

/-- The end of an operation that changes the draft only if it succeeds. -/
def settle (d : Draft) : Except CompileError Draft → Except CompileError Unit × Draft
  | .ok d' => (.ok (), d')
  | .error e => (.error e, d)

/-! ### Symbols -/

theorem foldl_setSymbol (es : List (String × Variable)) (d : Draft) :
    es.foldl (fun d e => d.setSymbol e.1 e.2) d = { d with symbols := d.symbols.insertAll es } := by
  induction es generalizing d with
  | nil => rfl
  | cons e es ih =>
    rw [List.foldl_cons, ih]
    rfl

theorem perform_setSymbols (es : List (String × Variable)) (d : Draft) :
    (es.forM fun e => Edit.setSymbol e.1 e.2).perform d =
      (.ok (), { d with symbols := d.symbols.insertAll es }) := by
  have hrun : (es.forM fun e => Edit.setSymbol e.1 e.2).perform d =
      (.ok (), es.foldl (fun d e => d.setSymbol e.1 e.2) d) := Edit.perform_forM (fun _ _ => rfl) es d
  rw [hrun, foldl_setSymbol]

theorem perform_declareAttributes (dict : ClassDict) (d : Draft) :
    (Edit.declareAttributes dict).perform d = (.ok (), d.declareAttributes dict) := by
  have hstep : ∀ (e : String × Member) (d : Draft), (Edit.declareAttribute e.1 e.2).perform d =
      (.ok (), match e.2.declaredType?.map fun ty => (e.1, Variable.declared ty) with
        | some b => d.setSymbol b.1 b.2
        | none => d) := by
    intro e d
    rw [Edit.declareAttribute]
    cases e.2.declaredType? with
    | some ty => rfl
    | none => rfl
  rw [Edit.declareAttributes, Edit.perform_forM hstep]
  refine congrArg _ (Eq.trans ?_ (foldl_setSymbol (declaredSymbols dict) d))
  rw [declaredSymbols, List.foldl_filterMap]
  congr 1
  funext d e
  cases e.2.declaredType? with
  | some ty => rfl
  | none => rfl

theorem perform_inherit (d : Draft) : Edit.inherit.perform d = settle d d.inherit := by
  rw [Edit.inherit, Edit.perform_get_bind, Draft.inherit]
  by_cases ha : d.attributes.isFrozen
  · rw [if_pos ha, if_pos ha]
    rfl
  by_cases hs : d.slotTypes.isFrozen
  · rw [if_neg ha, if_pos hs, if_neg ha, if_pos hs]
    rfl
  rw [if_neg ha, if_neg hs, if_neg ha, if_neg hs]
  cases firstRepeated? [] (d.bases.map NativeType.name) with
  | some name => rfl
  | none =>
    dsimp only
    rw [Edit.perform_bind, perform_setSymbols]
    rfl

/-! ### Attributes -/

theorem perform_addAttribute (name : String) (ty : Ty) (d : Draft) :
    (Edit.addAttribute name ty).perform d = settle d (d.addAttribute name ty) := by
  rw [Edit.addAttribute, Edit.perform_get_bind, Draft.addAttribute]
  cases d.attributes with
  | building b => rfl
  | frozen t => rfl

theorem perform_forM_addAttribute {b : Table.Builder Ty} (own : List (String × Ty)) {d : Draft}
    (h : d.attributes = .building b) :
    (own.forM fun e => Edit.addAttribute e.1 e.2).perform d =
      (.ok (), { d with attributes := .building (b.insertOwns own) }) := by
  induction own generalizing d b with
  | nil =>
    cases d
    cases h
    rfl
  | cons e own ih =>
    have hadd : d.addAttribute e.1 e.2 = .ok { d with attributes := .building (b.insertOwn e.1 e.2) } := by
      rw [Draft.addAttribute, h]
    rw [Edit.perform_forM_cons, perform_addAttribute, hadd]
    exact ih rfl

theorem perform_buildAttributes (d : Draft) : Edit.buildAttributes.perform d = settle d d.buildAttributes := by
  rw [Edit.buildAttributes, Edit.perform_get_bind]
  cases h : d.attributes with
  | building b =>
    rw [perform_forM_addAttribute _ h, Draft.buildAttributes_eq h]
    rfl
  | frozen t =>
    rw [Draft.buildAttributes_of_frozen h]
    cases d.ownSymbols with
    | nil => rfl
    | cons e own =>
      -- nothing is written before the first attribute is refused
      have hadd : d.addAttribute e.1 e.2 = .error (.ofFrozen d.name .attributes e.1) := by
        rw [Draft.addAttribute, h]
      rw [Edit.perform_forM_cons, perform_addAttribute, hadd]
      rfl

/-! ### Methods -/

theorem perform_addMethod (name : String) (s : Signature) (d : Draft) :
    (Edit.addMethod name s).perform d =
      match d.addMethod name s with
      | .ok (merged, d') => (.ok merged, d')
      | .error e => (.error e, d) := by
  rw [Edit.addMethod, Edit.perform_get_bind, Draft.addMethod]
  by_cases hs : d.slotTypes.isFrozen
  · rw [if_pos hs, if_pos hs]
    rfl
  rw [if_neg hs, if_neg hs, Edit.perform_bind, Edit.perform_ofExcept]
  cases d.mergedSignature name s with
  | ok merged => rfl
  | error e => rfl

theorem foldl_insertSlot {b : Table.Builder Signature} (own : List (String × Signature)) {d : Draft}
    (h : d.slotTypes = .building b) :
    own.foldl (fun d e => Edit.insertSlot e.1 e.2 d) d = { d with slotTypes := .building (b.insertOwns own) } := by
  induction own generalizing d b with
  | nil =>
    cases d
    cases h
    rfl
  | cons e own ih =>
    have hinsert : Edit.insertSlot e.1 e.2 d = { d with slotTypes := .building (b.insertOwn e.1 e.2) } := by
      rw [Edit.insertSlot, h]
    rw [List.foldl_cons, hinsert]
    exact ih rfl

theorem perform_buildSlots (d : Draft) : Edit.buildSlots.perform d = settle d d.buildSlots := by
  rw [Edit.buildSlots, Edit.perform_get_bind]
  cases h : d.slotTypes with
  | building b =>
    have hrun : (d.slotMethods.forM fun e => Edit.write (Edit.insertSlot e.1 e.2)).perform d =
        (.ok (), d.slotMethods.foldl (fun d e => Edit.insertSlot e.1 e.2 d) d) :=
      Edit.perform_forM (fun _ _ => rfl) d.slotMethods d
    rw [Draft.buildSlots_eq h]
    exact hrun.trans (congrArg _ (foldl_insertSlot d.slotMethods h))
  | frozen t =>
    rw [Draft.buildSlots, h]
    rfl

/-! ### Freezing -/

theorem perform_freezeAttributes (d : Draft) : Edit.freezeAttributes.perform d = (.ok (), d.freezeAttributes) := by
  obtain ⟨name, bases, symbols, attributes, slotTypes, methods, layout⟩ := d
  cases layout with
  | some l => rfl
  | none => rfl

/-- **An operation in place does what it does as a function.** A failure leaves the draft as it was. -/
theorem Call.perform_edit (call : Call) (d : Draft) : call.edit.perform d = settle d (call.apply d) := by
  cases call with
  | inherit => exact perform_inherit d
  | declareAttributes dict => exact perform_declareAttributes dict d
  | setSymbol name v => rfl
  | addAttribute name ty => exact perform_addAttribute name ty d
  | addMethod name s =>
    rw [Call.edit, Edit.perform_bind, perform_addMethod, Call.apply]
    cases d.addMethod name s with
    | ok r => rfl
    | error e => rfl
  | buildAttributes => exact perform_buildAttributes d
  | buildSlots => exact perform_buildSlots d
  | freezeAttributes => exact perform_freezeAttributes d
  | freezeSlots => rfl
  | freezeTables => rfl

theorem Call.perform_of_error {call : Call} {d : Draft} {e : CompileError} (h : (call.edit.perform d).1 = .error e) :
    (call.edit.perform d).2 = d := by
  rw [Call.perform_edit] at h ⊢
  cases hr : call.apply d with
  | ok d' =>
    rw [hr] at h
    cases h
  | error e' => rfl

/-! ## What operations keep -/

/-- A layout is that of a frozen attribute table. -/
def LayoutFits (d : Draft) : Prop :=
  ∀ layout, d.layout = some layout → ∃ t, d.attributes = .frozen t ∧ layout = .ofTable t

/-- What operations on a draft keep: its name, its tables once they are frozen, and that its layout fits. -/
structure LeadsTo (d d' : Draft) : Prop where
  name : d'.name = d.name
  attributes : ∀ t, d.attributes = .frozen t → d'.attributes = .frozen t
  slotTypes : ∀ t, d.slotTypes = .frozen t → d'.slotTypes = .frozen t
  layout : d.LayoutFits → d'.LayoutFits

namespace LeadsTo

variable {d d' d'' : Draft}

theorem refl (d : Draft) : d.LeadsTo d :=
  ⟨rfl, fun _ h => h, fun _ h => h, fun h => h⟩

theorem trans (h : d.LeadsTo d') (h' : d'.LeadsTo d'') : d.LeadsTo d'' :=
  ⟨h'.name.trans h.name, fun t ht => h'.attributes t (h.attributes t ht),
    fun t ht => h'.slotTypes t (h.slotTypes t ht), fun hl => h'.layout (h.layout hl)⟩

end LeadsTo

section LeadsTo

variable {d d' : Draft}

theorem freeze_of_frozen {α : Type} {s : TableState α} {t : Table α} (h : s = .frozen t) : s.freeze = .frozen t := by
  rw [h]
  rfl

theorem leadsTo_of_eq (hname : d'.name = d.name) (ha : d'.attributes = d.attributes)
    (hs : d'.slotTypes = d.slotTypes) (hl : d'.layout = d.layout) : d.LeadsTo d' := by
  refine ⟨hname, fun t ht => ha.trans ht, fun t ht => hs.trans ht, fun h layout hlayout => ?_⟩
  rw [ha]
  exact h layout (hl ▸ hlayout)

/-- A change of the attribute table while it is being filled: there is no layout yet. -/
theorem leadsTo_attributes {b : Table.Builder Ty} (h : d.attributes = .building b) (attributes : TableState Ty) :
    d.LeadsTo { d with attributes } := by
  refine ⟨rfl, fun t ht => ?_, fun _ ht => ht, fun hl layout hlayout => ?_⟩
  · rw [h] at ht
    cases ht
  · obtain ⟨t, ht, -⟩ := hl layout hlayout
    rw [h] at ht
    cases ht

theorem leadsTo_slotTypes {b : Table.Builder Signature} (h : d.slotTypes = .building b)
    (slotTypes : TableState Signature) : d.LeadsTo { d with slotTypes } := by
  refine ⟨rfl, fun _ ht => ht, fun t ht => ?_, fun hl => hl⟩
  rw [h] at ht
  cases ht

theorem leadsTo_freezeSlots (d : Draft) : d.LeadsTo d.freezeSlots :=
  ⟨rfl, fun _ ht => ht, fun _ ht => freeze_of_frozen ht, fun hl => hl⟩

theorem leadsTo_freezeAttributes (d : Draft) : d.LeadsTo d.freezeAttributes := by
  refine ⟨rfl, fun _ ht => freeze_of_frozen ht, fun _ ht => ht, fun hl layout hlayout => ?_⟩
  have hor : d.layout.or (some (.ofTable d.attributes.toTable)) = some layout := hlayout
  cases hold : d.layout with
  | none =>
    rw [hold] at hor
    exact ⟨_, rfl, (Option.some.inj hor).symm⟩
  | some l =>
    rw [hold] at hor
    cases hor
    obtain ⟨t, ht, hlayout⟩ := hl layout hold
    exact ⟨t, freeze_of_frozen ht, hlayout⟩

theorem leadsTo_freezeTables (d : Draft) : d.LeadsTo d.freezeTables := by
  refine ⟨rfl, fun _ ht => freeze_of_frozen ht, fun _ ht => freeze_of_frozen ht, fun hl layout hlayout => ?_⟩
  obtain ⟨t, ht, hlayout⟩ := hl layout hlayout
  exact ⟨t, freeze_of_frozen ht, hlayout⟩

theorem leadsTo_inherit (h : d.inherit = .ok d') : d.LeadsTo d' := by
  rw [Draft.inherit] at h
  cases ha : d.attributes with
  | frozen t =>
    rw [ha] at h
    cases h
  | building b =>
    cases hs : d.slotTypes with
    | frozen t =>
      rw [ha, hs] at h
      cases h
    | building b' =>
      obtain ⟨-, rfl⟩ := (inherit_eq_ok_iff (by rw [ha]; rfl) (by rw [hs]; rfl)).mp h
      let d₁ : Draft := { d with attributes := .building (mergeBases d.bases NativeType.attributes) }
      have hslots : d₁.LeadsTo { d₁ with slotTypes := .building (mergeBases d.bases NativeType.slotTypes) } :=
        leadsTo_slotTypes (d := d₁) hs _
      exact ((leadsTo_attributes ha _).trans hslots).trans (leadsTo_of_eq rfl rfl rfl rfl)

/-- **What one operation keeps.** -/
theorem Call.leadsTo {call : Call} (h : call.apply d = .ok d') : d.LeadsTo d' := by
  cases call with
  | inherit => exact leadsTo_inherit h
  | declareAttributes dict =>
    cases h
    exact leadsTo_of_eq rfl rfl rfl rfl
  | setSymbol name v =>
    cases h
    exact leadsTo_of_eq rfl rfl rfl rfl
  | addAttribute name ty =>
    rw [Call.apply, Draft.addAttribute] at h
    cases ha : d.attributes with
    | building b =>
      rw [ha] at h
      cases h
      exact leadsTo_attributes ha _
    | frozen t =>
      rw [ha] at h
      cases h
  | addMethod name s =>
    obtain ⟨r, hr, rfl⟩ := map_eq_ok_iff.mp h
    obtain ⟨methods, hmethods⟩ := (d.addMethod_methods name s).of_ok hr
    rw [hmethods]
    exact leadsTo_of_eq rfl rfl rfl rfl
  | buildAttributes =>
    rw [Call.apply] at h
    cases ha : d.attributes with
    | building b =>
      rw [buildAttributes_eq ha] at h
      cases h
      exact leadsTo_attributes ha _
    | frozen t =>
      rw [buildAttributes_of_frozen ha] at h
      cases hown : d.ownSymbols with
      | nil =>
        rw [hown] at h
        cases h
        exact .refl d
      | cons e own =>
        rw [hown] at h
        cases h
  | buildSlots =>
    rw [Call.apply] at h
    cases hs : d.slotTypes with
    | building b =>
      rw [buildSlots_eq hs] at h
      cases h
      exact leadsTo_slotTypes hs _
    | frozen t =>
      rw [Draft.buildSlots, hs] at h
      cases h
  | freezeAttributes =>
    cases h
    exact leadsTo_freezeAttributes d
  | freezeSlots =>
    cases h
    exact leadsTo_freezeSlots d
  | freezeTables =>
    cases h
    exact leadsTo_freezeTables d

theorem leadsTo_perform (call : Call) (d : Draft) : d.LeadsTo (call.edit.perform d).2 := by
  rw [Call.perform_edit]
  cases hr : call.apply d with
  | ok d' => exact Call.leadsTo hr
  | error e => exact .refl d

/-- **What several operations keep**, whatever they answer. -/
theorem leadsTo_afterCalls (d : Draft) (calls : List Call) : d.LeadsTo (d.afterCalls calls) := by
  induction calls generalizing d with
  | nil => exact .refl d
  | cons call calls ih => exact (leadsTo_perform call d).trans (ih (call.edit.perform d).2)

end LeadsTo

/-! ## Drafts of a class -/

/-- What holds of the draft of a class, whatever was done with it. -/
structure Disciplined (c : BoundClass) (d : Draft) : Prop where
  /-- An operation that fails changes nothing. -/
  atomic : ∀ (call : Call) e, (call.edit.perform d).1 = .error e → (call.edit.perform d).2 = d
  attributes_final : ∀ t, d.attributes = .frozen t → ∀ calls, (d.afterCalls calls).attributes = .frozen t
  slotTypes_final : ∀ t, d.slotTypes = .frozen t → ∀ calls, (d.afterCalls calls).slotTypes = .frozen t
  refuses_addAttribute : d.attributes.isFrozen → ∀ name ty,
    ((Call.addAttribute name ty).edit.perform d).1 = .error (.layout c.name (.frozen .attributes name))
  refuses_addMethod : d.slotTypes.isFrozen → ∀ name s,
    ((Call.addMethod name s).edit.perform d).1 = .error (.layout c.name (.frozen .methods name))
  refuses_buildSlots : d.slotTypes.isFrozen →
    ∃ name, (Call.buildSlots.edit.perform d).1 = .error (.layout c.name (.frozen .methods name))
  refuses_inherit : d.attributes.isFrozen ∨ d.slotTypes.isFrozen →
    ∃ table, (Call.inherit.edit.perform d).1 = .error (.layout c.name (.frozen table "<bases>"))
  /-- A layout is that of the frozen attribute table. -/
  layout : ∀ layout, d.layout = some layout → ∃ t, d.attributes = .frozen t ∧ layout = .ofTable t

/-- **The draft of a class under any operations in any order.** -/
theorem disciplined_afterCalls (c : BoundClass) (calls : List Call) :
    Disciplined c ((ofClass c).afterCalls calls) := by
  have hleads := leadsTo_afterCalls (ofClass c) calls
  generalize (ofClass c).afterCalls calls = d at hleads
  have hname : d.name = c.name := hleads.name
  have hlayout : (ofClass c).LayoutFits := nofun
  refine
    { atomic := fun call e h => Call.perform_of_error h
      attributes_final := fun t ht calls => (leadsTo_afterCalls d calls).attributes t ht
      slotTypes_final := fun t ht calls => (leadsTo_afterCalls d calls).slotTypes t ht
      refuses_addAttribute := fun h name ty => ?_
      refuses_addMethod := fun h name s => ?_
      refuses_buildSlots := fun h => ?_
      refuses_inherit := fun h => ?_
      layout := hleads.layout hlayout }
  · rw [Call.perform_edit, Call.apply, Draft.addAttribute, ← hname]
    cases ha : d.attributes with
    | building b =>
      rw [ha] at h
      cases h
    | frozen t => rfl
  · rw [Call.perform_edit, Call.apply, Draft.addMethod, if_pos h, ← hname]
    rfl
  · rw [Call.perform_edit, Call.apply, Draft.buildSlots, ← hname]
    cases hs : d.slotTypes with
    | building b =>
      rw [hs] at h
      cases h
    | frozen t => exact ⟨_, rfl⟩
  · rw [Call.perform_edit, Call.apply, Draft.inherit, ← hname]
    by_cases ha : d.attributes.isFrozen
    · rw [if_pos ha]
      exact ⟨_, rfl⟩
    · rw [if_neg ha, if_pos (h.resolve_left ha)]
      exact ⟨_, rfl⟩

/-- The attribute that comes after freezing is refused. -/
example (c : BoundClass) : ((ofClass c).afterCalls
    [.addAttribute "x" .int, .freezeAttributes, .addAttribute "y" .int]).attributes.entries.keys = ["x"] := by
  rfl

end NativeClass.Draft
