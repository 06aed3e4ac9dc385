import NativeClass.Proofs.Inference.Returns
/-!
# Types that are built are canonical

A type hint denotes a canonical type. Inference builds the types of expressions, locals, attributes and results by
the same operations, so where it is given canonical types it finds only canonical types.

* `TypingRequest.Canonical`, `TypingOutcome.Canonical`: the types that inference is given and those that it leaves.
* `Inference.canonical_inferMethod`: one method.
* **`Inference.canonical_types`**: type hints, class-level values and methods.
-/

namespace NativeClass

open Python (Expr)

/-! ## Type hints -/

theorem Ty.canonical_ofHint (e : Expr) : (ofHint e).Canonical :=
  everyUnion_ofHint unionClosed_reduced e

theorem Ty.canonical_ofValue? (e : Expr) : ∀ t ∈ ofValue? e, t.Canonical :=
  everyUnion_ofValue? unionClosed_reduced e

/-! ## Methods -/

/-- The types that a method is typed against are canonical. -/
structure TypingRequest.Canonical (r : TypingRequest) : Prop where
  declared : r.declared.EveryUnion Ty.Reduced
  methods : r.methods.EveryUnion Ty.Reduced
  symbols : r.symbols.EveryUnion Ty.Reduced

theorem TypingRequest.Canonical.everyUnion {r : TypingRequest} (h : r.Canonical) : r.EveryUnion Ty.Reduced :=
  ⟨h.declared.args, h.symbols, h.methods⟩

/-- The types in the typing of a method, if there is one, and in the attributes that are left are canonical. -/
structure TypingOutcome.Canonical (o : TypingOutcome) : Prop where
  typing : ∀ t, o.result = .ok t → t.EveryUnion Ty.Reduced
  symbols : o.symbols.EveryUnion Ty.Reduced

namespace Inference

theorem canonical_inferMethod {r : TypingRequest} (h : r.Canonical) : (inferMethod r).Canonical where
  typing _ ht := (ensures_everyUnion_inferMethod unionClosed_reduced h.everyUnion h.declared.ret).of_ok ht
  symbols := everyUnion_symbols_inferMethod unionClosed_reduced h.everyUnion

/-- **Types that are built are canonical**: those of type hints and of class-level values always, and what
inference finds out about a method if the types that it is given are. -/
theorem canonical_types :
    (∀ e : Expr, (Ty.ofHint e).Canonical ∧ ∀ t ∈ Ty.ofValue? e, t.Canonical) ∧
      ∀ r : TypingRequest, r.Canonical → (inferMethod r).Canonical :=
  ⟨fun e => ⟨Ty.canonical_ofHint e, Ty.canonical_ofValue? e⟩, fun _ => canonical_inferMethod⟩

end Inference

namespace Sample

/-- A body that collects its argument, a truth value and none in a list. -/
def gather : TypingRequest :=
  bodyRequest [("size", .union [.int, .str])] none
    [.ret default (some (.list default
      [.name default "size", .literal default .bool, .literal default .int, .literal default .noneValue]))]

theorem canonical_gather : gather.Canonical where
  declared := by
    refine ⟨?_, nofun⟩
    intro t ht
    cases List.mem_singleton.mp ht
    decide +kernel
  methods := nofun
  symbols := nofun

end Sample

/-- The element type of the list has one member for the number, though the number is among the elements twice. -/
theorem Inference.canonical_types_gather :
    (inferMethod Sample.gather).Canonical ∧
      (inferMethod Sample.gather).result.map (·.signature.ret) =
        .ok (some (.list (.union [.int, .str, .bool, .noneType]))) :=
  ⟨canonical_types.2 _ Sample.canonical_gather, by decide +kernel⟩

end NativeClass
