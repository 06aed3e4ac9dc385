import NativeClass.Proofs.Ensures
import NativeClass.Signature
/-!
# The theory of signatures

* `Signature.Fits`: a signature that a caller of another one can rely on: same arguments, same kind, and
  the return type if it was known.
* `Signature.Refines`: a later version of a signature, in which only an unknown return type has been
  filled in.
* **`Signature.ensures_reconcile`**: reconciliation refines the new signature and fits the old one.
* **`Signature.exists_reconcile_eq_error_iff`**: it fails for signatures that do not match.
-/

namespace NativeClass.Signature

variable {s s' s'' old new : Signature}

/-- Callers that rely on `old` can rely on `s`. -/
structure Fits (s old : Signature) : Prop where
  kind : s.kind = old.kind
  args : s.args = old.args
  ret : ∀ r, old.ret = some r → s.ret = some r

namespace Fits

theorem refl (s : Signature) : s.Fits s :=
  ⟨rfl, rfl, fun _ h => h⟩

theorem trans (h : s.Fits s') (h' : s'.Fits s'') : s.Fits s'' :=
  ⟨h.kind.trans h'.kind, h.args.trans h'.args, fun r hr => h.ret r (h'.ret r hr)⟩

theorem ret_eq (h : s.Fits old) (hr : old.isResolved) : s.ret = old.ret := by
  obtain ⟨r, hr⟩ := Option.isSome_iff_exists.mp hr
  rw [h.ret r hr, hr]

end Fits

/-- A later version of a signature: an unknown return type may have been filled in. -/
structure Refines (s old : Signature) : Prop extends Fits s old where
  isConstructor : s.isConstructor = old.isConstructor
  isAbstract : s.isAbstract = old.isAbstract

namespace Refines

theorem refl (s : Signature) : s.Refines s :=
  ⟨Fits.refl s, rfl, rfl⟩

theorem trans (h : s.Refines s') (h' : s'.Refines s'') : s.Refines s'' :=
  ⟨h.toFits.trans h'.toFits, h.isConstructor.trans h'.isConstructor,
    h.isAbstract.trans h'.isAbstract⟩

end Refines

/-! ## Reconciliation -/

/-- **Reconciliation refines the new signature and fits the old one.** -/
theorem ensures_reconcile (new old : Signature) :
    Ensures (new.reconcile old) (fun s => s.Refines new ∧ s.Fits old) fun _ => True := by
  unfold reconcile
  split
  · exact ensures_error.mpr trivial
  next hkind =>
  split
  · exact ensures_error.mpr trivial
  next hargs =>
  have hkind' : new.kind = old.kind := not_not.mp hkind
  have hargs' : new.args = old.args := not_not.mp hargs
  split
  next r r' hnew hold =>
    split
    next hr =>
      refine ensures_ok.mpr ⟨.refl new, hkind', hargs', fun x hx => ?_⟩
      rw [hnew, hr, ← hold, hx]
    · exact ensures_error.mpr trivial
  next hold =>
    refine ensures_ok.mpr ⟨.refl new, hkind', hargs', fun x hx => ?_⟩
    rw [hold] at hx
    cases hx
  next hnew =>
    refine ensures_ok.mpr ⟨⟨⟨rfl, rfl, fun x hx => ?_⟩, rfl, rfl⟩, hkind', hargs', fun x hx => hx⟩
    rw [hnew] at hx
    cases hx

/-- Two signatures agree as far as both are known. -/
structure Matches (new old : Signature) : Prop where
  kind : new.kind = old.kind
  args : new.args = old.args
  ret : ∀ r r', new.ret = some r → old.ret = some r' → r = r'

/-- **Reconciliation fails exactly for signatures that do not match.** -/
theorem exists_reconcile_eq_error_iff :
    (∃ conflict, new.reconcile old = .error conflict) ↔ ¬ new.Matches old := by
  constructor
  · rintro ⟨conflict, h⟩ hmatch
    rw [reconcile, if_neg (not_not.mpr hmatch.kind), if_neg (not_not.mpr hmatch.args)] at h
    split at h
    next r r' hnew hold =>
      rw [if_pos (hmatch.ret r r' hnew hold)] at h
      cases h
    · cases h
    · cases h
  · intro hmatch
    rw [reconcile]
    by_cases hkind : new.kind = old.kind
    · by_cases hargs : new.args = old.args
      · rw [if_neg (not_not.mpr hkind), if_neg (not_not.mpr hargs)]
        split
        next r r' hnew hold =>
          have hne : r ≠ r' := fun he => hmatch
            ⟨hkind, hargs, fun x x' hx hx' => by simp_all⟩
          exact ⟨_, if_neg hne⟩
        next hold => exact absurd ⟨hkind, hargs, fun x x' _ hx' => by simp_all⟩ hmatch
        next hnew => exact absurd ⟨hkind, hargs, fun x x' hx _ => by simp_all⟩ hmatch
      · exact ⟨_, by rw [if_neg (not_not.mpr hkind), if_pos hargs]⟩
    · exact ⟨_, if_pos hkind⟩

theorem exists_reconcile_eq_ok_iff : (∃ s, new.reconcile old = .ok s) ↔ new.Matches old := by
  have herror := @exists_reconcile_eq_error_iff old new
  cases hrec : new.reconcile old with
  | ok s =>
    rw [hrec] at herror
    exact iff_of_true ⟨s, rfl⟩ (not_not.mp fun hnot => nomatch herror.mpr hnot)
  | error conflict => exact iff_of_false nofun (herror.mp ⟨conflict, hrec⟩)

theorem reconcile_of_fits (h : s.Fits old) (hr : s.isResolved) : s.reconcile old = .ok s := by
  obtain ⟨r, hr⟩ := Option.isSome_iff_exists.mp hr
  rw [reconcile, if_neg (not_not.mpr h.kind), if_neg (not_not.mpr h.args), hr]
  cases hold : old.ret with
  | none => rfl
  | some r' =>
    rw [h.ret r' hold, Option.some.injEq] at hr
    exact if_pos hr.symm

end NativeClass.Signature
