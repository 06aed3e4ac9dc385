import NativeClass.Proofs.Compilation.Code
/-!
# Finished types and their ancestors

* `NativeType.Finished`: the types that the engines of this library make, base by base.
* `NativeType.IsAncestor`: a type, its bases, their bases, and so on.
* **`NativeType.Finished.slot`**: what holds of every slot of such a type.
* **`NativeType.Finished.mem_names_iff`**: which slots such a type has.
-/

namespace NativeClass

open Compilation (Completes)

theorem BoundClass.mem_extensionBases {c : BoundClass} {b : NativeType} :
    b ∈ c.extensionBases ↔ .extension b ∈ c.bases := by
  rw [extensionBases, List.mem_filterMap]
  constructor
  · rintro ⟨base, hbase, htype⟩
    cases base with
    | extension t =>
      cases htype
      exact hbase
    | external name => cases htype
  · exact fun h => ⟨_, h, rfl⟩

namespace NativeType

/-- The types that the engines of this library make, from bases that are made the same way. Flags, validators
and other bases are free. -/
inductive Finished : NativeType → Prop where
  | ofCompile {c : BoundClass} {o : CompileOptions} {t : NativeType} (ho : o.backend = .reference)
      (bases : ∀ b ∈ c.extensionBases, Finished b) (result : (c.compile o).result = .ok t) :
      Finished t

/-- The type itself, its bases, their bases, and so on. -/
inductive IsAncestor : NativeType → NativeType → Prop where
  | refl (t : NativeType) : IsAncestor t t
  | step {a b t : NativeType} (base : .extension b ∈ t.bases) (h : IsAncestor a b) : IsAncestor a t

/-- All functions of the class and of its ancestors stand under their own names. -/
def NamesFunctions (t : NativeType) : Prop :=
  ∀ a : NativeType, a.IsAncestor t → NativeClass.NamesFunctions a.core.source.members

theorem namesFunctions_of_compile {c : BoundClass} {o : CompileOptions} {t : NativeType}
    (ho : o.backend = .reference) (hc : NativeClass.NamesFunctions c.source.members)
    (hb : ∀ b ∈ c.extensionBases, b.NamesFunctions) (h : (c.compile o).result = .ok t) :
    t.NamesFunctions := by
  obtain ⟨i, hi, -⟩ := BoundClass.exists_completes ho h
  intro a ha
  cases ha with
  | refl =>
    rw [hi.source]
    exact hc
  | step hbase ha =>
    rw [hi.bases] at hbase
    exact hb _ (BoundClass.mem_extensionBases.mpr hbase) a ha

variable {t : NativeType} {name : String} {s : Signature}

namespace Finished

theorem exists_completes (h : t.Finished) :
    ∃ c i, Completes c i t ∧ ∀ b ∈ c.extensionBases, b.Finished := by
  cases h with
  | ofCompile ho bases result =>
    obtain ⟨i, hi, -⟩ := BoundClass.exists_completes ho result
    exact ⟨_, i, hi, bases⟩

theorem map_name_slots (h : t.Finished) : t.vtable.slots.map VTableSlot.name = t.slotTypes.names := by
  obtain ⟨c, i, hi, -⟩ := h.exists_completes
  exact hi.map_name_slots

theorem nodup_name_slots (h : t.Finished) : (t.vtable.slots.map VTableSlot.name).Nodup := by
  rw [h.map_name_slots]
  exact t.slotTypes.nodup_names

theorem eq_of_name (h : t.Finished) {s s' : VTableSlot} (hs : s ∈ t.vtable.slots) (hs' : s' ∈ t.vtable.slots)
    (hname : s.name = s'.name) : s = s' :=
  List.inj_on_of_nodup_map h.nodup_name_slots hs hs' hname

theorem get?_of_mem_slots (h : t.Finished) {s : VTableSlot} (hs : s ∈ t.vtable.slots) :
    t.slotTypes.get? s.name = some s.signature := by
  obtain ⟨c, i, hi, -⟩ := h.exists_completes
  exact hi.get?_of_mem_slots hs

theorem exists_slot_of_get? (h : t.Finished) (hget : t.slotTypes.get? name = some s) :
    ∃ slot ∈ t.vtable.slots, slot.name = name ∧ slot.signature = s := by
  obtain ⟨c, i, hi, -⟩ := h.exists_completes
  exact hi.exists_slot_of_get? hget

theorem layout_eq (h : t.Finished) : t.layout = .ofTable t.attributes := by
  obtain ⟨c, i, hi, -⟩ := h.exists_completes
  exact hi.layout

/-- **Every slot has a known return type, and it is neither a constructor's nor the allocator's.** -/
theorem slot (h : t.Finished) (hs : t.slotTypes.get? name = some s) :
    s.isResolved ∧ s.isConstructor = false ∧ name ≠ newName := by
  induction h generalizing name s with
  | ofCompile ho bases result ih =>
    obtain ⟨i, hi, -⟩ := BoundClass.exists_completes ho result
    rcases hi.slot_cases hs with ⟨m, hm, rfl, rfl, hctor⟩ | ⟨b, hb, hbase⟩
    · obtain ⟨-, -, -, hresolved⟩ := hi.inferred.typed m hm
      refine ⟨hresolved, hctor, fun hnew => ?_⟩
      have hname : m.name ∈ i.methods.map Method.name := List.mem_map_of_mem hm
      rw [hi.inferred.map_name, hnew, ClassSource.methodNames, List.mem_filter] at hname
      exact of_decide_eq_true hname.2 rfl
    · exact ih b hb hbase

/-- **Which slots a type has**: one for every method of the class or of an ancestor that is not taken for a
constructor. -/
theorem mem_names_iff (h : t.Finished) :
    name ∈ t.slotTypes.names ↔ ∃ a : NativeType, a.IsAncestor t ∧ a.core.source.DefinesSlot name := by
  induction h generalizing name with
  | @ofCompile c o t ho bases result ih =>
    obtain ⟨i, hi, -⟩ := BoundClass.exists_completes ho result
    rw [hi.mem_names_iff]
    constructor
    · rintro (⟨b, hb, hname⟩ | hown)
      · obtain ⟨a, ha, hdefines⟩ := (ih b hb).mp hname
        exact ⟨a, .step (hi.bases ▸ BoundClass.mem_extensionBases.mp hb) ha, hdefines⟩
      · exact ⟨t, .refl t, hi.source ▸ hown⟩
    · rintro ⟨a, ha, hdefines⟩
      cases ha with
      | refl => exact Or.inr (hi.source ▸ hdefines)
      | step hbase ha =>
        rw [hi.bases] at hbase
        have hb := BoundClass.mem_extensionBases.mpr hbase
        exact Or.inl ⟨_, hb, (ih _ hb).mpr ⟨a, ha, hdefines⟩⟩

end Finished

end NativeType

/-! ## A small hierarchy -/

namespace Sample

/-- The engines of this library with all optional checks. -/
def options : CompileOptions where
  backend := .reference
  validators := ValidationConfig.validators { attributeTypes := true }
  flags := .empty

/-- A method without a body. -/
def method (name : String) (args : List (Option Ty)) (returns : Option Ty) : String × Declaration :=
  (name, .function {
    name
    params := ⟨"self", none⟩ :: args.map (⟨"value", ·⟩)
    returns
    kind := .instanceMethod
    isAbstract := false
    isVariadic := false
    location := .unknown
    body := none })

/-- The same declaration under another name. -/
def underName (name : String) (e : String × Declaration) : String × Declaration :=
  (name, e.2)

/-- A class with the given members and bases. -/
def classOf (name : String) (members : List (String × Declaration)) (bases : List Base) : BoundClass :=
  ⟨⟨name, .ofList members, .unknown⟩, bases⟩

/-- The finished type of a class that compiles. -/
def typeOf (o : CompileOptions) (c : BoundClass) : NativeType :=
  (c.compile o).result.toOption.getD default

theorem compile_eq {o : CompileOptions} {c : BoundClass} (h : (c.compile o).result.isOk) :
    (c.compile o).result = .ok (typeOf o c) := by
  rw [typeOf]
  cases hr : (c.compile o).result with
  | ok t => rfl
  | error e =>
    rw [hr] at h
    cases h

/-- A class without bases. -/
def shape : BoundClass :=
  classOf "Shape" [("x", .attr .int), ("visible", .attr .bool), method "__init__" [] none,
    method "area" [some .int] (some .float)] []

/-- A class that redeclares an attribute and overrides a method without type hints. -/
def circle : BoundClass :=
  classOf "Circle" [("x", .attr .int), ("radius", .attr .float), method "area" [none] none]
    [.external "Drawable", .extension (typeOf options shape)]

/-- A class that adds a method. -/
def disc : BoundClass :=
  classOf "Disc" [method "fill" [some .int] (some .bool)] [.extension (typeOf options circle)]

/-- A class with a function `__init__` under the name of a slot that it does not match. -/
def cube : BoundClass :=
  classOf "Cube" [underName "area" (method "__init__" [some .float] (some .float))] [.extension (typeOf options shape)]

theorem compile_shape : (shape.compile options).result = .ok (typeOf options shape) :=
  compile_eq (by decide +kernel)

theorem compile_circle : (circle.compile options).result = .ok (typeOf options circle) :=
  compile_eq (by decide +kernel)

theorem compile_disc : (disc.compile options).result = .ok (typeOf options disc) :=
  compile_eq (by decide +kernel)

theorem compile_cube : (cube.compile options).result = .ok (typeOf options cube) :=
  compile_eq (by decide +kernel)

theorem finished_shape : (typeOf options shape).Finished :=
  .ofCompile rfl (List.forall_mem_nil _) compile_shape

theorem finished_circle : (typeOf options circle).Finished :=
  .ofCompile (c := circle) rfl (List.forall_mem_singleton.mpr finished_shape) compile_circle

end Sample

end NativeClass
