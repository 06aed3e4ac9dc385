import NativeClass.Inference.Body
import NativeClass.Proofs.Signature
/-!
# The signature that inference finds

* `Inference.resolveReturn_of_declared`: a declared return type is kept.
* **`Inference.ensures_inferMethod`**: the typing of a method refines its declared signature, and its
  return type is known.
-/

namespace NativeClass.Inference

theorem resolveReturn_of_declared {c : BodyContext} {s : Scope} {expected ty : Ty}
    {fallsThrough isAbstract : Bool}
    (h : resolveReturn c s (some expected) fallsThrough isAbstract = .ok ty) : ty = expected := by
  unfold resolveReturn at h
  split at h
  · cases h
    rfl
  · dsimp only at h
    split at h
    · cases h
    · cases h
      rfl

theorem typingOf_refines {declared : Signature} {ret : Ty} (h : ∀ r, declared.ret = some r → ret = r)
    (locals : List (String × Ty)) (statements : Nat) :
    (typingOf declared ret locals statements).signature.Refines declared ∧
      (typingOf declared ret locals statements).signature.isResolved :=
  ⟨⟨⟨rfl, rfl, fun r hr => congrArg some (h r hr)⟩, rfl, rfl⟩, rfl⟩

/-- **The typing of a method refines its declared signature, and its return type is known.** -/
theorem ensures_inferMethod (r : TypingRequest) :
    Ensures (inferMethod r).result
      (fun t => t.signature.Refines r.declared ∧ t.signature.isResolved) fun _ => True := by
  unfold inferMethod
  split
  next body _ =>
    unfold inferBody
    dsimp only
    split
    · exact ensures_error.mpr trivial
    next s _ =>
      dsimp only
      cases hret : resolveReturn (bodyContext r body.lines) s r.declared.ret
          (!blockTerminates body.statements) r.method.func.isAbstract with
      | error f => exact ensures_error.mpr trivial
      | ok ty =>
        refine ensures_ok.mpr (typingOf_refines (fun e he => ?_) _ _)
        rw [he] at hret
        exact resolveReturn_of_declared hret
  · refine ensures_ok.mpr (typingOf_refines (fun e he => ?_) _ _)
    rw [he, Option.getD_some]

end NativeClass.Inference
