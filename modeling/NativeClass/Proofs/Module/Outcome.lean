import Mathlib.Data.List.Find
import NativeClass.Module.Basic
import NativeClass.Proofs.Compilation.Blame
import NativeClass.Proofs.Compilation.Hints
import NativeClass.Proofs.Module.Dependency
/-!
# Outcomes by recursion over the bases

What the outcome of a class ought to be, whatever the order in which the classes of a module are compiled: a
class on a cycle has none, any other one is compiled over the outcomes of its bases.

* `HasOutcome`: the outcome of a class by recursion over its bases.
* `HasOutcome.eq`: there is at most one.
* `HasOutcome.error_cases`: an error is that of a cycle, that of a failed base or the class's own.
* `Outcome.UpToHint`: outcomes that differ at most in the name suggested for an undefined one.
* **`HasOutcome.upToHint`**: up to that name an outcome depends only on the class and its ancestors
  (`SameAncestry`).
-/

namespace NativeClass.Module

open Relation (TransGen ReflTransGen)

variable {o : CompileOptions} {registry registry' : Registry NativeType} {decls decls' : List ClassDecl}
  {outs outs' : Nat → Outcome} {d : ClassDecl} {i j k : Nat} {out out' : Outcome}

/-! ## The recursion -/

/-- A base by its name: the outcome of the first class of that name, else what the registry has, else a class
of which only the name is known. -/
def baseOf (registry : Registry NativeType) (decls : List ClassDecl) (outs : Nat → Outcome) (d : ClassDecl)
    (name : String) : Except CompileError Base :=
  match position? decls name with
  | some j =>
    match outs j with
    | .ok t => .ok (.extension t)
    | .error e => .error (.ofBase d.name name (.failed e.kind))
  | none =>
    match registry.get? name with
    | some t => .ok (.extension t)
    | none => .ok (.external name)

/-- The outcome of a class when `outs` holds those of its bases. The first base that failed counts. -/
def outcomeOver (o : CompileOptions) (registry : Registry NativeType) (decls : List ClassDecl)
    (outs : Nat → Outcome) (d : ClassDecl) : Outcome := do
  let bases ← d.baseNames.mapM (baseOf registry decls outs d)
  (BoundClass.compile ⟨d.source, bases⟩ o).result

/-- The outcome of a class by recursion over its bases. -/
inductive HasOutcome (o : CompileOptions) (registry : Registry NativeType) (decls : List ClassDecl) :
    Nat → Outcome → Prop
  | onCycle {i : Nat} {d : ClassDecl} (decl : decls[i]? = some d) (cyclic : OnCycle decls i) :
    HasOutcome o registry decls i (.error (cycleError decls d))
  | overBases {i : Nat} {d : ClassDecl} {outs : Nat → Outcome} (decl : decls[i]? = some d)
    (acyclic : ¬OnCycle decls i) (bases : ∀ j, Derives decls i j → HasOutcome o registry decls j (outs j)) :
    HasOutcome o registry decls i (outcomeOver (o.part i) registry decls outs d)

theorem baseOf_congr {name : String} (h : ∀ j, position? decls name = some j → outs j = outs' j) :
    baseOf registry decls outs d name = baseOf registry decls outs' d name := by
  unfold baseOf
  cases hj : position? decls name with
  | none => rfl
  | some j =>
    dsimp only
    rw [h j hj]

theorem outcomeOver_congr (hd : decls[i]? = some d) (h : ∀ j, Derives decls i j → outs j = outs' j) :
    outcomeOver o registry decls outs d = outcomeOver o registry decls outs' d := by
  rw [outcomeOver, outcomeOver]
  congr 1
  exact mapM_congr fun name hname => baseOf_congr fun j hj => h j ⟨d, name, hd, hname, hj⟩

/-- A base that is no class of the module is always found. -/
theorem exists_of_baseOf_eq_error {name : String} {e : CompileError}
    (h : baseOf registry decls outs d name = .error e) :
    ∃ j cause, position? decls name = some j ∧ outs j = .error cause ∧
      e = .ofBase d.name name (.failed cause.kind) := by
  unfold baseOf at h
  split at h
  next j hj =>
    split at h
    · cases h
    next cause hout =>
      cases h
      exact ⟨j, cause, hj, hout, rfl⟩
  · split at h <;> cases h

/-- A class fails for the first base that failed. -/
theorem outcomeOver_of_failed {before after : List String} {name : String} {cause : CompileError}
    (hnames : d.baseNames = before ++ name :: after) (hj : position? decls name = some j)
    (hout : outs j = .error cause)
    (hbefore : ∀ n ∈ before, ∀ k, position? decls n = some k → ∃ t, outs k = .ok t) :
    outcomeOver o registry decls outs d = .error (.ofBase d.name name (.failed cause.kind)) := by
  have hname : baseOf registry decls outs d name = .error (.ofBase d.name name (.failed cause.kind)) := by
    rw [baseOf, hj]
    dsimp only
    rw [hout]
  cases hm : before.mapM (baseOf registry decls outs d) with
  | error e =>
    obtain ⟨n, hn, herror⟩ := exists_of_mapM_eq_error hm
    obtain ⟨k, _, hk, hcause, -⟩ := exists_of_baseOf_eq_error herror
    obtain ⟨t, ht⟩ := hbefore n hn k hk
    cases ht.symm.trans hcause
  | ok found =>
    rw [outcomeOver, hnames, mapM_append_error hm hname]
    rfl

namespace HasOutcome

/-- **A class has at most one outcome.** -/
theorem eq (h : HasOutcome o registry decls i out) (h' : HasOutcome o registry decls i out') : out = out' := by
  induction h generalizing out' with
  | onCycle hd hc =>
    cases h' with
    | onCycle hd' _ =>
      cases hd.symm.trans hd'
      rfl
    | overBases _ hc' _ => exact absurd hc hc'
  | overBases hd hc _ ih =>
    cases h' with
    | onCycle _ hc' => exact absurd hc' hc
    | overBases hd' _ hb' =>
      cases hd.symm.trans hd'
      exact outcomeOver_congr hd fun j hj => ih j hj (hb' j hj)

theorem exists_decl (h : HasOutcome o registry decls i out) : ∃ d, decls[i]? = some d := by
  cases h with
  | onCycle hd _ => exact ⟨_, hd⟩
  | overBases hd _ _ => exact ⟨_, hd⟩

theorem name_eq (ho : o.backend.IsRegular) {t : NativeType} (h : HasOutcome o registry decls i (.ok t))
    (hd : decls[i]? = some d) : t.name = d.name := by
  generalize hout : (.ok t : Outcome) = out at h
  cases h with
  | onCycle => cases hout
  | overBases hd' _ _ =>
    cases hd.symm.trans hd'
    obtain ⟨bases, -, hcompile⟩ := bind_eq_ok_iff.mp hout.symm
    exact (BoundClass.ensures_isOwn (o := o.part _) ho _).of_ok hcompile

theorem error_cases (ho : o.backend.IsRegular) {e : CompileError}
    (h : HasOutcome o registry decls i (.error e)) :
    (∃ d, OnCycle decls i ∧ e = cycleError decls d) ∨
      ¬OnCycle decls i ∧ ((∃ c base cause, e = .ofBase c base (.failed (CompileError.kind cause))) ∨ e.IsOwn) := by
  generalize hout : (.error e : Outcome) = out at h
  cases h with
  | @onCycle i d hd hc =>
    cases hout
    exact Or.inl ⟨d, hc, rfl⟩
  | @overBases i d outs hd hc hb =>
    refine Or.inr ⟨hc, ?_⟩
    cases hm : d.baseNames.mapM (baseOf registry decls outs d) with
    | ok bases =>
      simp only [outcomeOver, hm] at hout
      exact Or.inr ((BoundClass.ensures_isOwn (o := o.part i) ho _).of_error hout.symm)
    | error e' =>
      simp only [outcomeOver, hm] at hout
      cases hout
      obtain ⟨name, -, hname⟩ := exists_of_mapM_eq_error hm
      obtain ⟨_, cause, -, -, rfl⟩ := exists_of_baseOf_eq_error hname
      exact Or.inl ⟨_, _, cause, rfl⟩

/-- What every compilation passes on from the bases to the finished type holds of all types, if it holds of those that
are registered. -/
theorem forall_type {P : NativeType → Prop} (hr : ∀ name t, registry.get? name = some t → P t)
    (step : ∀ k d bases t, decls[k]? = some d → (∀ b, .extension b ∈ bases → P b) →
      (BoundClass.compile ⟨d.source, bases⟩ (o.part k)).result = .ok t → P t)
    {t : NativeType} (h : HasOutcome o registry decls i (.ok t)) : P t := by
  generalize hout : (.ok t : Outcome) = out at h
  induction h generalizing t with
  | onCycle => cases hout
  | @overBases k d outs hd _ _ ih =>
    obtain ⟨bases, hbases, hresult⟩ := bind_eq_ok_iff.mp hout.symm
    refine step k d bases t hd (fun b hb => ?_) hresult
    obtain ⟨name, hname, hbase⟩ := exists_of_mem_mapM hbases hb
    unfold baseOf at hbase
    split at hbase
    next j hj =>
      split at hbase
      next hout =>
        cases hbase
        exact ih j ⟨d, name, hd, hname, hj⟩ hout.symm
      · cases hbase
    · split at hbase
      next hget =>
        cases hbase
        exact hr name b hget
      · cases hbase

end HasOutcome

/-! ## Messages -/

/-- The message about a failed base is the message about no other problem. -/
theorem message_failed_ne (kind : String) {problem : BaseProblem} (hp : ∀ kind, problem ≠ .failed kind) :
    (BaseProblem.failed kind).message ≠ problem.message := by
  -- no other message begins like it
  have hmessage : (BaseProblem.failed kind).message = "base failed to compile (" ++ kind ++ ")" := rfl
  have hfailed : (BaseProblem.failed kind).message.toList.take 6 = "base f".toList := by
    rw [hmessage, String.toList_append, String.toList_append]
    rfl
  intro h
  rw [h] at hfailed
  cases problem with
  | failed kind => exact hp kind rfl
  | _ => exact absurd hfailed (by decide)

theorem message_failed_injective {kind kind' : String}
    (h : (BaseProblem.failed kind).message = (BaseProblem.failed kind').message) : kind = kind' := by
  have happend : "base failed to compile (" ++ kind ++ ")" = "base failed to compile (" ++ kind' ++ ")" := h
  exact (String.append_right_inj _).mp ((String.append_left_inj _).mp happend)

/-- **Of the errors about the order of compilation only that of a cycle occurs, and only on cycles.** -/
theorem HasOutcome.eq_cycle (ho : o.backend.IsRegular) {c base : String} {problem : BaseProblem}
    (hp : problem = .cycle ∨ problem = .pending ∨ problem = .unordered)
    (h : HasOutcome o registry decls i (.error (.ofBase c base problem))) :
    problem = .cycle ∧ OnCycle decls i := by
  rcases h.error_cases ho with ⟨_, hc, he⟩ | ⟨-, ⟨_, _, cause, he⟩ | hown⟩
  · have hmessage : problem.message = BaseProblem.cycle.message := (CompileError.base.inj he).2.2
    refine ⟨?_, hc⟩
    rcases hp with rfl | rfl | rfl
    · rfl
    · exact absurd hmessage (by decide)
    · exact absurd hmessage (by decide)
  · refine absurd (CompileError.base.inj he).2.2.symm (message_failed_ne cause.kind ?_)
    rintro kind rfl
    simp at hp
  · have hmessage : problem.message = BaseProblem.duplicate.message := hown
    rcases hp with rfl | rfl | rfl <;> exact absurd hmessage (by decide)

/-! ## Dependence on ancestors only -/

/-- The same type, or errors that differ at most in a hint. -/
abbrev Outcome.UpToHint (out out' : Outcome) : Prop :=
  CompilesAlike out out'

/-- A class `i` of one module and its ancestors stand in another module at the places that `f` gives, and the
registries agree on all other names that they mention. -/
structure SameAncestry (registry registry' : Registry NativeType) (decls decls' : List ClassDecl)
    (f : Nat → Nat) (i : Nat) : Prop where
  decl : ∀ k, ReflTransGen (Derives decls) i k → decls'[f k]? = decls[k]?
  position : ∀ k d name, ReflTransGen (Derives decls) i k → decls[k]? = some d → name ∈ d.baseNames →
    position? decls' name = (position? decls name).map f
  registered : ∀ k d name, ReflTransGen (Derives decls) i k → decls[k]? = some d → name ∈ d.baseNames →
    position? decls name = none → registry'.get? name = registry.get? name
  injective : ∀ k l, ReflTransGen (Derives decls) i k → ReflTransGen (Derives decls) i l → f k = f l → k = l

namespace SameAncestry

variable {f : Nat → Nat}

/-- In one module only the registries have to agree. -/
theorem ofRegistered (h : ∀ k d name, ReflTransGen (Derives decls) i k → decls[k]? = some d → name ∈ d.baseNames →
    position? decls name = none → registry'.get? name = registry.get? name) :
    SameAncestry registry registry' decls decls id i where
  decl _ _ := rfl
  position _ _ _ _ _ _ := Option.map_id'.symm
  registered := h
  injective _ _ _ _ := id

theorem refl (registry : Registry NativeType) (decls : List ClassDecl) (i : Nat) :
    SameAncestry registry registry decls decls id i :=
  .ofRegistered fun _ _ _ _ _ _ _ => rfl

theorem base (h : SameAncestry registry registry' decls decls' f i) (hj : Derives decls i j) :
    SameAncestry registry registry' decls decls' f j where
  decl k hk := h.decl k (.head hj hk)
  position k d name hk := h.position k d name (.head hj hk)
  registered k d name hk := h.registered k d name (.head hj hk)
  injective k l hk hl := h.injective k l (.head hj hk) (.head hj hl)

theorem derives_iff (h : SameAncestry registry registry' decls decls' f i)
    (hk : ReflTransGen (Derives decls) i k) {j' : Nat} :
    Derives decls' (f k) j' ↔ ∃ j, Derives decls k j ∧ f j = j' := by
  constructor
  · rintro ⟨d, name, hd, hname, hj'⟩
    rw [h.decl k hk] at hd
    rw [h.position k d name hk hd hname, Option.map_eq_some_iff] at hj'
    obtain ⟨j, hj, rfl⟩ := hj'
    exact ⟨j, ⟨d, name, hd, hname, hj⟩, rfl⟩
  · rintro ⟨j, ⟨d, name, hd, hname, hj⟩, rfl⟩
    refine ⟨d, name, (h.decl k hk).trans hd, hname, ?_⟩
    rw [h.position k d name hk hd hname, hj]
    rfl

theorem transGen_iff (h : SameAncestry registry registry' decls decls' f i) {j' : Nat} :
    TransGen (Derives decls') (f i) j' ↔ ∃ j, TransGen (Derives decls) i j ∧ f j = j' := by
  constructor
  · intro hpath
    induction hpath with
    | single hj' =>
      obtain ⟨j, hj, rfl⟩ := (h.derives_iff .refl).mp hj'
      exact ⟨j, .single hj, rfl⟩
    | tail _ hj' ih =>
      obtain ⟨k, hk, rfl⟩ := ih
      obtain ⟨j, hj, rfl⟩ := (h.derives_iff hk.to_reflTransGen).mp hj'
      exact ⟨j, hk.tail hj, rfl⟩
  · rintro ⟨j, hpath, rfl⟩
    induction hpath with
    | single hj => exact .single ((h.derives_iff .refl).mpr ⟨_, hj, rfl⟩)
    | tail hk hj ih => exact ih.tail ((h.derives_iff hk.to_reflTransGen).mpr ⟨_, hj, rfl⟩)

theorem onCycle_iff (h : SameAncestry registry registry' decls decls' f i) :
    OnCycle decls' (f i) ↔ OnCycle decls i := by
  rw [OnCycle, h.transGen_iff]
  constructor
  · rintro ⟨j, hpath, hj⟩
    obtain rfl := h.injective j i hpath.to_reflTransGen .refl hj
    exact hpath
  · exact fun hpath => ⟨i, hpath, rfl⟩

theorem cycleError_eq (h : SameAncestry registry registry' decls decls' f i) (hd : decls[i]? = some d) :
    cycleError decls' d = cycleError decls d := by
  rw [cycleError, cycleError]
  congr 2
  refine List.find?_congr fun name hname => ?_
  rw [h.position i d name .refl hd hname, Option.isSome_map]

/-- The bases of a class are the same if the outcomes of its bases are, up to the hint. -/
theorem baseOf_eq (h : SameAncestry registry registry' decls decls' f i) (hd : decls[i]? = some d)
    (houts : ∀ j, Derives decls i j → Outcome.UpToHint (outs' (f j)) (outs j)) {name : String}
    (hname : name ∈ d.baseNames) : baseOf registry' decls' outs' d name = baseOf registry decls outs d name := by
  rw [baseOf, baseOf, h.position i d name .refl hd hname]
  cases hj : position? decls name with
  | none => rw [h.registered i d name .refl hd hname hj]; rfl
  | some j =>
    rw [Option.map_some]
    dsimp only
    -- of an error only the kind counts
    rcases (houts j ⟨d, name, hd, hname, hj⟩).ok_or_error with ⟨t, hok', hok⟩ | ⟨e', e, herror', herror, he⟩
    · rw [hok', hok]
    · rw [herror', herror]
      dsimp only
      rw [he.kind_eq]

theorem upToHint_outcomeOver (hb : o.backend.IgnoresOrder) (order : LocalOrder)
    (h : SameAncestry registry registry' decls decls' f i) (hd : decls[i]? = some d)
    (houts : ∀ j, Derives decls i j → Outcome.UpToHint (outs' (f j)) (outs j)) :
    Outcome.UpToHint (outcomeOver (o.inOrder order) registry' decls' outs' d)
      (outcomeOver o registry decls outs d) := by
  rw [outcomeOver, outcomeOver, mapM_congr fun name hname => h.baseOf_eq hd houts hname]
  exact (SameUpTo.refl _).bind fun bases => BoundClass.upToHint_compile hb ⟨d.source, bases⟩ order

end SameAncestry

/-- **Up to the hint an outcome depends only on the class and its ancestors**, whatever the order in which the local
names are enumerated. -/
theorem HasOutcome.upToHint {f : Nat → Nat} {order : LocalOrder} (hb : o.backend.IgnoresOrder)
    (h : HasOutcome o registry decls i out) (hs : SameAncestry registry registry' decls decls' f i)
    (h' : HasOutcome (o.inOrder order) registry' decls' (f i) out') : Outcome.UpToHint out' out := by
  induction h generalizing out' with
  | @onCycle i d hd hc =>
    cases h' with
    | onCycle hd' _ =>
      cases (hs.decl i .refl).trans hd |>.symm.trans hd'
      rw [hs.cycleError_eq hd]
      exact .refl _
    | overBases _ hc' _ => exact absurd (hs.onCycle_iff.mpr hc) hc'
  | @overBases i d outs hd hc _ ih =>
    cases h' with
    | onCycle _ hc' => exact absurd (hs.onCycle_iff.mp hc') hc
    | overBases hd' _ hbases' =>
      cases (hs.decl i .refl).trans hd |>.symm.trans hd'
      exact hs.upToHint_outcomeOver (o := o.part i) hb _ hd fun j hj =>
        ih j hj (hs.base hj) (hbases' (f j) ((hs.derives_iff .refl).mpr ⟨j, hj, rfl⟩))

end NativeClass.Module
