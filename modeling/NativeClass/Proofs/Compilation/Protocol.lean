import NativeClass.Proofs.NativeType.Finished
/-!
# The order of the stages

A caller may ask for the stages of a compilation in any order and as often as it likes. Only the stage that is
due is entered. A stage that fails drops all that was built, so a caller sees a compilation that is whole or
one that is as it was in the beginning.

* `StageCall`: a stage that is asked for; `Compilation.afterCalls` and `Compilation.succeeded`: what some calls
  leave, and which of them succeed.
* `Stage.Passed`: the calls that have succeeded when a stage is reached.
* `Compilation.Standing`: where a compilation stands; `Standing.call` is the step and `Standing.calls` the run.
* **`Compilation.protocol_afterCalls`**: what a caller may rely on after any calls (`Compilation.Protocol`).
-/

namespace NativeClass

/-- A stage that a caller asks for. The last one, which ends the compilation, is not among them. -/
inductive StageCall where
  | infer
  | validate
  | finalize
  deriving DecidableEq

namespace StageCall

/-- The stage in which a call is due. -/
def due : StageCall → Stage
  | infer => .created
  | validate => .inferred
  | finalize => .validated

/-- The stage after a call that succeeds. -/
def reached : StageCall → Stage
  | infer => .inferred
  | validate => .validated
  | finalize => .finalized

/-- The calls in the order in which they are due. -/
def inOrder : List StageCall :=
  [infer, validate, finalize]

theorem due_ne_failed (k : StageCall) : k.due ≠ .failed := by
  cases k <;> decide

end StageCall

/-! ## What has succeeded -/

/-- The calls that have succeeded when a stage is reached. Only inference and validation can fail. -/
inductive Stage.Passed : Stage → List StageCall → Prop
  | created : Passed .created []
  | inferred : Passed .inferred [.infer]
  | validated : Passed .validated [.infer, .validate]
  | finalized : Passed .finalized StageCall.inOrder
  | failedInfer : Passed .failed []
  | failedValidate : Passed .failed [.infer]

namespace Stage.Passed

variable {s : Stage} {done : List StageCall} {k : StageCall}

theorem isPrefix (h : Passed s done) : done <+: StageCall.inOrder := by
  cases h <;> decide

theorem eq_inOrder (h : Passed .finalized done) : done = StageCall.inOrder := by
  cases h
  rfl

theorem succeed (h : Passed k.due done) : Passed k.reached (done ++ [k]) := by
  cases k with
  | infer => cases h; exact .inferred
  | validate => cases h; exact .validated
  | finalize => cases h; exact .finalized

theorem fail (h : Passed k.due done) (hk : k ≠ .finalize) : Passed .failed done := by
  cases k with
  | infer => cases h; exact .failedInfer
  | validate => cases h; exact .failedValidate
  | finalize => exact absurd rfl hk

end Stage.Passed

namespace Compilation

/-! ## Calls -/

/-- One call. -/
def call (o : CompileOptions) (i : Compilation) : StageCall → Step
  | .infer => i.infer o
  | .validate => i.validate o
  | .finalize => i.finalize

/-- The compilation after some calls. -/
def afterCalls (o : CompileOptions) (i : Compilation) (calls : List StageCall) : Compilation :=
  calls.foldl (fun i k => (i.call o k).after) i

/-- Those of the calls that succeed. -/
def succeeded (o : CompileOptions) : Compilation → List StageCall → List StageCall
  | _, [] => []
  | i, k :: calls =>
    let rest := succeeded o (i.call o k).after calls
    match (i.call o k).result with
    | .ok () => k :: rest
    | .error _ => rest

variable {o : CompileOptions} {c : BoundClass} {i : Compilation} {k : StageCall} {done : List StageCall}

theorem call_of_ne (h : i.stage ≠ k.due) : i.call o k = i.refuse k.due := by
  cases k with
  | infer => exact if_neg h
  | validate => exact if_neg h
  | finalize => exact if_neg h

theorem compile_of_ne (h : i.stage ≠ .finalized) :
    i.compile o = ⟨.error (i.outOfOrder .finalized), []⟩ :=
  if_neg h

theorem afterCalls_failed (h : i.stage = .failed) (calls : List StageCall) : i.afterCalls o calls = i := by
  induction calls with
  | nil => rfl
  | cons k calls ih =>
    have hne : i.stage ≠ k.due := h ▸ k.due_ne_failed.symm
    rw [afterCalls, List.foldl_cons, call_of_ne hne]
    exact ih

/-! ## Where a compilation stands -/

/-- Where a compilation of `c` stands once the calls in `done` have succeeded. -/
structure Standing (c : BoundClass) (done : List StageCall) (i : Compilation) : Prop where
  target : i.target = c
  name : i.draft.name = c.name
  passed : i.stage.Passed done
  created : i.stage = .created → i = ofClass c
  failed : i.stage = .failed → i = { ofClass c with stage := .failed }

theorem standing_ofClass (c : BoundClass) : Standing c [] (ofClass c) where
  target := rfl
  name := rfl
  passed := .created
  created _ := rfl
  failed h := nomatch h

theorem standing_failed (c : BoundClass) (h : Stage.Passed .failed done) :
    Standing c done { ofClass c with stage := .failed } where
  target := rfl
  name := rfl
  passed := h
  created h := nomatch h
  failed _ := rfl

/-- The end of a call that was due: the next stage is reached, or nothing of what was built is left. -/
def Serves (c : BoundClass) (k : StageCall) (s : Step) : Prop :=
  Ensures s.result
    (fun _ => s.after.target = c ∧ s.after.draft.name = c.name ∧ s.after.stage = k.reached)
    (fun _ => k ≠ .finalize ∧ s.after = { ofClass c with stage := .failed })

namespace Standing

theorem outOfOrder_eq (h : Standing c done i) (expected : Stage) :
    i.outOfOrder expected = .layout c.name (.outOfOrder expected.text i.stage.text) := by
  rw [outOfOrder, h.name]

/-- **A call that is due.** It reaches the next stage, or it fails and drops everything. -/
theorem serves (h : Standing c done i) (hk : i.stage = k.due) : Serves c k (i.call o k) := by
  cases k with
  | infer =>
    obtain rfl := h.created hk
    cases hr : (ofClass c).runInference o with
    | ok j =>
      have hcall : (ofClass c).call o .infer = ⟨.ok (), _, j.awaitingValidation⟩ := infer_ofClass hr
      have hframed := (framed_runInference o c).of_ok hr
      rw [hcall]
      exact ensures_ok.mpr ⟨hframed.target, hframed.name, rfl⟩
    | error e =>
      have hcall : (ofClass c).call o .infer = ⟨.error e, [.timed "infer"], (ofClass c).discard⟩ := by
        have hcreated : (ofClass c).stage = .created := rfl
        simp [Compilation.call, infer, hr, hcreated]
      rw [hcall]
      exact ensures_error.mpr ⟨by decide, rfl⟩
  | validate =>
    have hstage : i.stage = .inferred := hk
    cases hv : o.validators.validate i.draft with
    | ok _ =>
      have hcall : i.call o .validate = ⟨.ok (), [.timed "validate"], { i with stage := .validated }⟩ := by
        simp [Compilation.call, validate, hv, hstage]
      rw [hcall]
      exact ensures_ok.mpr ⟨h.target, h.name, rfl⟩
    | error e =>
      have hcall : i.call o .validate = ⟨.error e, [.timed "validate"], i.discard⟩ := by
        simp [Compilation.call, validate, hv, hstage]
      rw [hcall]
      refine ensures_error.mpr ⟨by decide, ?_⟩
      show i.discard = _
      rw [discard, h.target]
  | finalize =>
    have hcall : i.call o .finalize = ⟨.ok (), [], _⟩ := if_pos hk
    rw [hcall]
    exact ensures_ok.mpr ⟨h.target, h.name, rfl⟩

/-- **One call.** If it succeeds, it is one more that has. -/
theorem call (h : Standing c done i) (k : StageCall) :
    Ensures (i.call o k).result (fun _ => Standing c (done ++ [k]) (i.call o k).after)
      (fun _ => Standing c done (i.call o k).after) := by
  -- a call that is due may succeed, any other one is refused
  by_cases hk : i.stage = k.due
  · have hpassed : k.due.Passed done := hk ▸ h.passed
    have hserves : Serves c k (i.call o k) := h.serves hk
    cases hr : (i.call o k).result with
    | ok _ =>
      obtain ⟨htarget, hname, hstage⟩ := hserves.of_ok hr
      refine ensures_ok.mpr ⟨htarget, hname, hstage ▸ hpassed.succeed, fun hs => ?_, fun hs => ?_⟩
      · rw [hstage] at hs
        cases k <;> cases hs
      · rw [hstage] at hs
        cases k <;> cases hs
    | error e =>
      obtain ⟨hne, hafter⟩ := hserves.of_error hr
      rw [hafter]
      exact ensures_error.mpr (standing_failed c (hpassed.fail hne))
  · rw [call_of_ne hk]
    exact ensures_error.mpr h

/-- **All calls.** -/
theorem calls (h : Standing c done i) (calls : List StageCall) :
    Standing c (done ++ i.succeeded o calls) (i.afterCalls o calls) := by
  induction calls generalizing i done with
  | nil => simpa [succeeded, afterCalls] using h
  | cons k calls ih =>
    have hstep := h.call k (o := o)
    rw [succeeded, afterCalls, List.foldl_cons]
    cases hr : (i.call o k).result with
    | ok _ =>
      have hrun := ih (hstep.of_ok hr)
      rwa [List.append_assoc, List.singleton_append] at hrun
    | error e => exact ih (hstep.of_error hr)

end Standing

/-! ## What a caller may rely on -/

/-- What a caller may rely on when the calls in `done` have succeeded on a compilation of `c` and have left
`i`. -/
structure Protocol (o : CompileOptions) (c : BoundClass) (done : List StageCall) (i : Compilation) :
    Prop where
  /-- The stages have succeeded in their order. -/
  ordered : done <+: StageCall.inOrder
  /-- The last stage is entered only after all others have succeeded. -/
  complete : ∀ t, (i.compile o).result = .ok t → done = StageCall.inOrder
  /-- A call that is not due is refused, and nothing changes. -/
  refused : ∀ k : StageCall, i.stage ≠ k.due →
    i.call o k = ⟨.error (.layout c.name (.outOfOrder k.due.text i.stage.text)), [], i⟩
  refusedCompile : i.stage ≠ .finalized →
    i.compile o = ⟨.error (.layout c.name (.outOfOrder Stage.finalized.text i.stage.text)), []⟩
  /-- A call that is due reaches the next stage, or it leaves the compilation as it was in the beginning, but
  failed. -/
  due : ∀ k : StageCall, i.stage = k.due →
    ((i.call o k).result = .ok () ∧ (i.call o k).after.stage = k.reached) ∨
      (∃ e, (i.call o k).result = .error e) ∧ k ≠ .finalize ∧
        (i.call o k).after = { ofClass c with stage := .failed }
  /-- A failed compilation holds nothing of what was built, and stays so. -/
  failed : i.stage = .failed →
    i = { ofClass c with stage := .failed } ∧ ∀ calls, i.afterCalls o calls = i

theorem Standing.protocol (h : Standing c done i) : Protocol o c done i where
  ordered := h.passed.isPrefix
  complete t ht := by
    by_cases hs : i.stage = .finalized
    · have hpassed := h.passed
      rw [hs] at hpassed
      exact hpassed.eq_inOrder
    · rw [compile_of_ne hs] at ht
      cases ht
  refused k hk := by
    rw [call_of_ne hk, refuse, h.outOfOrder_eq]
  refusedCompile hs := by
    rw [compile_of_ne hs, h.outOfOrder_eq]
  due k hk := by
    have hserves : Serves c k (i.call o k) := h.serves hk
    cases hr : (i.call o k).result with
    | ok _ => exact Or.inl ⟨rfl, (hserves.of_ok hr).2.2⟩
    | error e => exact Or.inr ⟨⟨e, rfl⟩, hserves.of_error hr⟩
  failed hs := ⟨h.failed hs, afterCalls_failed hs⟩

/-- **The protocol of the stages.** Whatever the class and the engines are, and whatever is called in whatever
order. -/
theorem protocol_afterCalls (o : CompileOptions) (c : BoundClass) (calls : List StageCall) :
    Protocol o c ((ofClass c).succeeded o calls) ((ofClass c).afterCalls o calls) := by
  have hrun := (standing_ofClass c).calls (o := o) calls
  rw [List.nil_append] at hrun
  exact hrun.protocol

/-- Calls that are not due do no harm. -/
example : (ofClass Sample.shape).succeeded Sample.options
    [.validate, .infer, .infer, .finalize, .validate, .finalize] = StageCall.inOrder := by
  decide +kernel

end Compilation

end NativeClass
