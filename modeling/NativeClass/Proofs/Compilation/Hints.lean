import NativeClass.Proofs.Compilation.Attributes
import NativeClass.Proofs.Inference.Hints
import NativeClass.Proofs.NativeType.Finished
/-!
# Compilations with local names in another order

* `CompileError.UpToHint`: two errors that differ at most in the name suggested for an undefined one.
* `Backend.IgnoresOrder`: an inference engine that lets the order of the local names decide on nothing else.
* **`BoundClass.upToHint_compile`**: a class is compiled to the same type in every order, or it fails with errors
  that differ at most in a hint.
-/

namespace NativeClass

/-- Two errors that differ at most in the name that is suggested for an undefined one. -/
inductive CompileError.UpToHint : CompileError → CompileError → Prop
  | same (e : CompileError) : UpToHint e e
  | typing (className method : String) (location : Location) {f f' : TypingFailure} (h : f.UpToHint f') :
    UpToHint (.inference className method location f.problem.message f.suggestions)
      (.inference className method location f'.problem.message f'.suggestions)

instance : Std.Refl CompileError.UpToHint :=
  ⟨.same⟩

theorem CompileError.UpToHint.kind_eq {e e' : CompileError} (h : e.UpToHint e') : e.kind = e'.kind := by
  cases h <;> rfl

/-- The same value, or errors that differ at most in a hint. -/
abbrev CompilesAlike {α : Type} (r r' : Except CompileError α) : Prop :=
  SameUpTo CompileError.UpToHint r r'

/-- The order of the local names decides on nothing but hints. -/
def Backend.IgnoresOrder (b : Backend) : Prop :=
  ∀ r order, (b.infer (r.inOrder order)).UpToHint (b.infer r)

theorem Backend.ignoresOrder_reference : reference.IgnoresOrder :=
  Inference.upToHint_inferMethod

/-- The options with the local names in another order. -/
def CompileOptions.inOrder (o : CompileOptions) (order : LocalOrder) : CompileOptions :=
  { o with order }

theorem CompileOptions.backend_part (o : CompileOptions) (k : Nat) : (o.part k).backend = o.backend :=
  rfl

namespace Compilation

variable {o : CompileOptions} {order : LocalOrder}

theorem upToHint_typingError (className : String) (m : Method) {f f' : TypingFailure} (h : f.UpToHint f') :
    (typingError className m f).UpToHint (typingError className m f') := by
  rw [typingError, typingError, h.location_eq]
  exact .typing _ _ _ h

theorem upToHint_typeMethod (hb : o.backend.IgnoresOrder) (c : Compilation) (m : Method) :
    CompilesAlike (c.typeMethod (o.inOrder order) m) (c.typeMethod o m) := by
  obtain ⟨hresult, hsymbols⟩ := hb (c.request o m) order
  have hbackend : (o.inOrder order).backend = o.backend := rfl
  have hrequest : c.request (o.inOrder order) m = (c.request o m).inOrder order := rfl
  have hdefine : ((c.request o m).inOrder order).mayDefine = (c.request o m).mayDefine := rfl
  unfold typeMethod
  simp only [hbackend, hrequest, hdefine, hsymbols]
  rcases hresult.ok_or_error with ⟨typing, hok', hok⟩ | ⟨f', f, herror', herror, h⟩
  · simp only [hok', hok]
    exact .refl _
  · simp only [herror', herror]
    exact .error (upToHint_typingError _ m h)

theorem upToHint_typeInit (hb : o.backend.IgnoresOrder) (c : Compilation) :
    CompilesAlike (c.typeInit (o.inOrder order)) (c.typeInit o) := by
  unfold typeInit
  split
  · exact upToHint_typeMethod hb c _
  · exact .refl _

/-- **Inference leaves the same compilation in every order, or errors that differ at most in a hint.** -/
theorem upToHint_runInference (hb : o.backend.IgnoresOrder) (c : Compilation) :
    CompilesAlike (c.runInference (o.inOrder order)) (c.runInference o) := by
  have hmethods : ∀ c, CompilesAlike (typeMethods (o.inOrder order) c) (typeMethods o c) :=
    fun _ => .foldlM (upToHint_typeMethod hb) _ _
  exact (SameUpTo.refl _).bind fun _ => (SameUpTo.refl _).bind fun c => (upToHint_typeInit hb c).bind fun _ =>
    (SameUpTo.refl _).bind fun _ => (hmethods _).bind fun _ => .refl _

end Compilation

/-- **A class is compiled to the same type in every order, or it fails with errors that differ at most in a
hint.** -/
theorem BoundClass.upToHint_compile {o : CompileOptions} (hb : o.backend.IgnoresOrder) (c : BoundClass)
    (order : LocalOrder) : CompilesAlike (c.compile (o.inOrder order)).result (c.compile o).result := by
  rw [result_compile, result_compile]
  -- no later stage types anything
  exact (Compilation.upToHint_runInference hb _).bind fun _ => .refl _

/-! ## A misspelt name -/

theorem Compilation.typeMethod_eq_error {o : CompileOptions} {i : Compilation} {m : Method} {f : TypingFailure}
    (h : (o.backend.infer (i.request o m)).result = .error f) :
    i.typeMethod o m = .error (typingError i.draft.name m f) := by
  simp only [typeMethod, h]

theorem BoundClass.compile_of_typeMethods_error {o : CompileOptions} {c : BoundClass} {i : Compilation}
    {e : CompileError} (hi : (Compilation.ofClass c).untilAttributes o = .ok i) (h : i.typeMethods o = .error e) :
    (c.compile o).result = .error e := by
  rw [result_compile, Compilation.runInference_eq, hi]
  show (i.typeMethods o >>= _) >>= _ = _
  rw [h]
  rfl

namespace Sample

open Compilation (ofClass)
open Inference (inferMethod bodyContext initialScope)

/-- A method that returns a misspelt name, which is as near to one of its parameters as to the other. -/
def area : Method where
  name := "area"
  func := {
    name := "area"
    params := [⟨"self", none⟩, ⟨"aab", none⟩, ⟨"aac", none⟩]
    returns := none
    kind := .instanceMethod
    isAbstract := false
    isVariadic := false
    location := .unknown
    body := some ⟨[.ret default (some (.name default "aaa"))], default⟩ }
  signature := { args := [.any, .any], ret := none }
  isDeclared := false

def panel : BoundClass :=
  classOf "Panel" [("area", .function area.func)] []

/-- The compilation of the class when its method is about to be typed. -/
def panelAwaitingMethods : Compilation :=
  ((ofClass panel).untilAttributes options).toOption.getD default

/-- What the engine finds wrong if it suggests the given name. -/
def misspelt (near : String) : TypingFailure :=
  ⟨.undefinedName "aaa", some ((default : Python.LineIndex).locate default), [near]⟩

theorem inferMethod_area {order : LocalOrder} {near : String}
    (h : (order.names ["self", "aab", "aac"]).find? (editDistance "aaa" · = 1) = some near) :
    (inferMethod (panelAwaitingMethods.request (options.inOrder order) area)).result = .error (misspelt near) := by
  let r := panelAwaitingMethods.request (options.inOrder order) area
  have htype : Inference.returnedType (bodyContext r default) (initialScope r) (some (.name default "aaa")) =
      .error (misspelt near) := by
    rw [Inference.returnedType, Inference.typeOf]
    exact Inference.nameType_of_find? default rfl h (by decide)
  have hwalk : Inference.walkAll (bodyContext r default) (initialScope r)
      [.ret default (some (.name default "aaa"))] = .error ⟨misspelt near, (initialScope r).symbols⟩ := by
    rw [Inference.walkAll, Inference.walk, htype]
    rfl
  have hbody : r.method.func.body = some ⟨[.ret default (some (.name default "aaa"))], default⟩ := rfl
  show (inferMethod r).result = _
  simp only [inferMethod, hbody, Inference.inferBody, hwalk]

theorem compile_panel {order : LocalOrder} {near : String}
    (h : (order.names ["self", "aab", "aac"]).find? (editDistance "aaa" · = 1) = some near) :
    (panel.compile (options.inOrder order)).result = .error (Compilation.typingError "Panel" area (misspelt near)) := by
  have hready : (ofClass panel).untilAttributes (options.inOrder order) = .ok panelAwaitingMethods := rfl
  have hmethods : (panelAwaitingMethods.methods.filter fun m => m.name ≠ initName ∧ m.name ≠ newName) = [area] := rfl
  refine BoundClass.compile_of_typeMethods_error hready ?_
  rw [Compilation.typeMethods, hmethods, List.foldlM_cons, Compilation.typeMethod_eq_error (inferMethod_area h)]
  rfl

end Sample

end NativeClass
