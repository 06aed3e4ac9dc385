import Mathlib.Algebra.BigOperators.Group.List.Basic
import Mathlib.Algebra.GroupWithZero.Nat
import NativeClass.Proofs.Compilation.Totality
import NativeClass.Proofs.Module.Trace
import NativeClass.Proofs.NativeType.BaseView
/-!
# The counters of a module

Each class that is tried reports what became of it. A class on a cycle and a class over a failed base are not tried
and report nothing, though the report of the module lists them as failed.

* `amountOf`: how much a list of events adds to a counter, and `Metrics.counter_noteAll`.
* `BoundClass.amountOf_compile`: what a class reports by its own stages.
* `outcomeAmount`: what a class adds to a counter, from its outcome.
* **`counters_of_interleaves`**: the counters of a module from its report.
-/

namespace NativeClass

open Compilation (ofClass Step)

variable {o : CompileOptions} {c : BoundClass} {i : Compilation} {name : String} {events : List Event}

/-! ## Counting events -/

/-- How much an event adds to a counter. -/
def Event.amount (name : String) : Event → Nat
  | .timed _ => 0
  | .counted counter count => if counter = name then count else 0

/-- How much a list of events adds to a counter. -/
def amountOf (name : String) (events : List Event) : Nat :=
  (events.map (Event.amount name)).sum

@[simp] theorem amountOf_nil (name : String) : amountOf name [] = 0 := rfl

@[simp] theorem amountOf_cons (name : String) (e : Event) (events : List Event) :
    amountOf name (e :: events) = e.amount name + amountOf name events := by
  simp [amountOf]

@[simp] theorem amountOf_append (name : String) (first rest : List Event) :
    amountOf name (first ++ rest) = amountOf name first + amountOf name rest := by
  simp [amountOf]

theorem amountOf_flatMap (name : String) (f : Nat → List Event) (positions : List Nat) :
    amountOf name (positions.flatMap f) = (positions.map fun i => amountOf name (f i)).sum := by
  induction positions with
  | nil => rfl
  | cons i positions ih => simp [ih]

theorem Metrics.counter_note (m : Metrics) (nanos : Nat) (e : Event) (name : String) :
    (m.note nanos e).counter name = m.counter name + .ofNat (e.amount name) := by
  cases e with
  | timed stage => simp [note, record, counter, Event.amount]
  | counted k count =>
    simp only [note, add, counter, OrderedMap.get?_insert, Event.amount]
    by_cases hk : k = name
    · subst hk
      simp
    · simp [hk, Ne.symm hk]

theorem Metrics.counter_noteAll (m : Metrics) (events : List Event) (name : String) :
    (m.noteAll events).counter name = m.counter name + .ofNat (amountOf name events) := by
  induction events generalizing m with
  | nil => simp [noteAll]
  | cons e events ih =>
    show ((m.note 0 e).noteAll events).counter name = _
    rw [ih, counter_note, amountOf_cons, UInt64.ofNat_add, UInt64.add_assoc]

/-! ## One class -/

/-- The compiled methods of an outcome. -/
def methodCount : Outcome → Nat
  | .ok t => t.core.compiled.length
  | .error _ => 0

namespace BoundClass

theorem events_compile (c : BoundClass) (o : CompileOptions) :
    (c.compile o).events =
      match (ofClass c).runInference o with
      | .error _ => [.timed "infer"]
      | .ok i =>
        match o.validators.validate i.draft with
        | .error _ => [.timed "infer", .timed "validate"]
        | .ok () => [.timed "infer", .timed "validate"] ++ (i.finalized.compile o).events := by
  have hcreated : (ofClass c).stage = .created := rfl
  cases hi : (ofClass c).runInference o with
  | error e => simp [BoundClass.compile, Compilation.run, Step.andThen, Compilation.infer, hcreated, hi]
  | ok i =>
    have hinferred : i.awaitingValidation.stage = .inferred := rfl
    have hdraft : i.awaitingValidation.draft = i.draft := rfl
    rw [BoundClass.compile, Compilation.run, Compilation.infer_ofClass hi]
    simp only [Step.andThen, Compilation.validate, if_pos hinferred, hdraft]
    cases o.validators.validate i.draft with
    | error e => rfl
    | ok _ => rfl

/-- **A class reports the methods that it has if it compiles, and none otherwise.** -/
theorem amountOf_compile (ho : o.backend = .reference) (hb : ∀ b ∈ c.extensionBases, b.Assembled) (name : String) :
    amountOf name (c.compile o).events =
      if name = "methods_compiled" then methodCount (c.compile o).result else 0 := by
  rw [events_compile, result_compile]
  cases hi : (ofClass c).runInference o with
  | error e => simp [Event.amount, methodCount, bind, Except.bind]
  | ok i =>
    cases hv : o.validators.validate i.draft with
    | error e => simp [hv, Event.amount, methodCount, bind, Except.bind]
    | ok _ =>
      have hinferred := (Compilation.ensures_runInference ho c).of_ok hi
      obtain ⟨t, ht⟩ := Compilation.exists_compile ho hinferred fun b hmem => by
        obtain ⟨_, _, hfinishes⟩ := (hb b hmem).exists_finishes
        exact hfinishes.map_name_slots
      have hresult : ((ofClass c).runInference o >>= fun i => o.validators.validate i.draft >>= fun _ =>
          (i.finalized.compile o).result) = .ok t := by
        rw [hi]
        show (o.validators.validate i.draft >>= fun _ => (i.finalized.compile o).result) = _
        rw [hv]
        exact ht
      obtain ⟨i', hi', -, hcompiled, -⟩ := compile_eq_ok (ho ▸ Backend.assemblesAsGiven_reference)
        ((result_compile c o).trans hresult)
      cases hi.symm.trans hi'
      have hstage : i.finalized.stage = .finalized := rfl
      have hevents : (i.finalized.compile o).events = [.methodsCompiled t.core.compiled.length, .timed "compile"] := by
        rw [Compilation.compile, if_pos hstage, hcompiled]
      rw [hi] at hresult
      rw [hresult]
      simp [hv, hevents, Event.amount, Event.methodsCompiled, methodCount, eq_comm]

end BoundClass

namespace Module

variable {registry : Registry NativeType} {decls : List ClassDecl} {p q : Progress} {d : ClassDecl} {k : Nat}
  {t : NativeType}

/-! ## One class of a module -/

/-- What a class adds to a counter. It is tried unless it fails for another class. -/
def outcomeAmount (name : String) : Outcome → Nat
  | .ok t => if name = "classes_compiled" then 1 else if name = "methods_compiled" then t.core.compiled.length else 0
  | .error e => if name = "classes_failed" ∧ e.IsOwn then 1 else 0

theorem not_isOwn_ofBase {className base : String} {problem : BaseProblem}
    (h : problem.message ≠ BaseProblem.duplicate.message) : ¬(CompileError.ofBase className base problem).IsOwn := h

theorem not_isOwn_cycleError (decls : List ClassDecl) (d : ClassDecl) : ¬(cycleError decls d).IsOwn :=
  not_isOwn_ofBase (by decide)

/-- A base that cannot be found is one that failed. -/
theorem not_isOwn_of_basesOver {e : CompileError} (h : basesOver o registry decls d = .error e) : ¬e.IsOwn := by
  obtain ⟨name, -, hname⟩ := exists_of_mapM_eq_error h
  obtain ⟨_, cause, -, -, rfl⟩ := exists_of_baseOf_eq_error hname
  exact not_isOwn_ofBase (message_failed_ne cause.kind nofun)

theorem amountOf_compileBound (ho : o.backend = .reference) {bases : Except CompileError (List Base)}
    (hok : ∀ bs, bases = .ok bs → ∀ t, .extension t ∈ bs → t.Assembled) (herror : ∀ e, bases = .error e → ¬e.IsOwn)
    (name : String) :
    amountOf name (compileBound o d bases).2 = outcomeAmount name (compileBound o d bases).1 := by
  cases bases with
  | error e => simp [compileBound, outcomeAmount, herror e rfl]
  | ok bs =>
    have hstages := BoundClass.amountOf_compile (c := ⟨d.source, bs⟩) ho
      (fun b hb => hok bs rfl b (BoundClass.mem_extensionBases.mp hb)) name
    have hown := BoundClass.ensures_isOwn (ho ▸ Backend.isRegular_reference) ⟨d.source, bs⟩
    unfold compileBound
    dsimp only
    cases hresult : (BoundClass.compile ⟨d.source, bs⟩ o).result with
    | ok t =>
      rw [hresult] at hstages
      simp only [amountOf_append, hstages]
      by_cases hname : name = "methods_compiled"
      · simp [hname, methodCount, outcomeAmount, Event.amount, Event.classCompiled]
      · simp [hname, outcomeAmount, Event.amount, Event.classCompiled, eq_comm]
    | error e =>
      rw [hresult] at hstages
      simp only [amountOf_append, hstages]
      simp [methodCount, outcomeAmount, Event.amount, Event.classFailed, hown.of_error hresult, eq_comm]

theorem HasOutcome.assembled (ho : o.backend = .reference) (h : HasOutcome o registry decls k (.ok t)) :
    t.Assembled := by
  generalize hout : (.ok t : Outcome) = out at h
  cases h with
  | onCycle => cases hout
  | overBases _ _ _ =>
    obtain ⟨bases, -, hresult⟩ := bind_eq_ok_iff.mp hout.symm
    exact ⟨_, o.part k, (o.backend_part k).trans ho ▸ Backend.assemblesAsGiven_reference, hresult⟩

/-- A class on a cycle has a base on the cycle, so it is not tried. -/
theorem eventsAt_of_onCycle (ho : o.backend.IsRegular) (hc : OnCycle decls k) : eventsAt o registry decls k = [] := by
  obtain ⟨j, hj, hpath⟩ := Relation.TransGen.head'_iff.mp hc
  obtain ⟨d, name, hd, hname, hposition⟩ := id hj
  obtain ⟨base, hbase⟩ : ∃ base, decls[j]? = some base := ⟨_, List.getElem?_eq_getElem hj.lt⟩
  have hcycle : OnCycle decls j := .tail' hpath hj
  have hout : outcomeAt o registry decls j = .error (cycleError decls base) :=
    HasOutcome.outcomeAt_eq ho (.onCycle hbase hcycle)
  rw [eventsAt_eq hd]
  cases hbases : basesOver o registry decls d with
  | error e => rfl
  | ok bases =>
    obtain ⟨b, hb⟩ := exists_mapM_eq_ok_iff.mp ⟨bases, hbases⟩ name hname
    simp [baseOf, hposition, hout] at hb

theorem assembled_of_outcomeAt (ho : o.backend = .reference) (h : outcomeAt o registry decls k = .ok t) :
    t.Assembled := by
  have hregular : o.backend.IsRegular := ho ▸ Backend.isRegular_reference
  cases hk : (compileClasses o registry decls).outcomes[k]? with
  | none =>
    rw [outcomeAt, hk] at h
    cases h
  | some out =>
    rw [outcomeAt, hk, Option.getD_some] at h
    rw [h, getElem?_compileClasses_iff hregular] at hk
    exact hk.assembled ho

/-- Every type of the registry has been compiled by some engines. -/
def IsAssembled (registry : Registry NativeType) : Prop :=
  ∀ name t, registry.get? name = some t → t.Assembled

theorem assembled_of_basesOver (ho : o.backend = .reference) (hr : IsAssembled registry) {bases : List Base}
    (hbases : basesOver o registry decls d = .ok bases) (ht : .extension t ∈ bases) : t.Assembled := by
  obtain ⟨name, -, hname⟩ := exists_of_mem_mapM hbases ht
  unfold baseOf at hname
  split at hname
  · split at hname
    next hout =>
      cases hname
      exact assembled_of_outcomeAt ho hout
    · cases hname
  · split at hname
    next hget =>
      cases hname
      exact hr name t hget
    · cases hname

/-- **What a class reports is what its outcome says.** -/
theorem amountOf_eventsAt (ho : o.backend = .reference) (hr : IsAssembled registry) (hk : k < decls.length)
    (name : String) :
    amountOf name (eventsAt o registry decls k) = outcomeAmount name (outcomeAt o registry decls k) := by
  have hregular : o.backend.IsRegular := ho ▸ Backend.isRegular_reference
  have hd := List.getElem?_eq_getElem hk
  by_cases hc : OnCycle decls k
  · rw [eventsAt_of_onCycle hregular hc, HasOutcome.outcomeAt_eq hregular (.onCycle hd hc)]
    simp [outcomeAmount, not_isOwn_cycleError]
  · rw [eventsAt_eq hd, ← fst_compileBound_basesOver hregular hd hc]
    exact amountOf_compileBound ((o.backend_part k).trans ho)
      (fun bases hbases t ht => assembled_of_basesOver ho hr hbases ht) (fun e => not_isOwn_of_basesOver) name

/-! ## The whole module -/

theorem IsAssembled.registerAll (ho : o.backend = .reference) (hr : IsAssembled registry) (positions : List Nat) :
    IsAssembled (registerAll (outcomeAt o registry decls) registry positions) := by
  intro name t hget
  rw [get?_registerAll] at hget
  rcases Option.or_eq_some_iff.mp hget with hget | ⟨-, hget⟩
  · exact hr name t hget
  · obtain ⟨k, -, hk⟩ := List.exists_of_findSome?_eq_some hget
    exact assembled_of_outcomeAt ho (registers_eq_some_iff.mp hk).1

/-- The counters agree with a report, but classes that fail for other classes are not counted. -/
structure Accounts (m : Metrics) (r : Report) : Prop where
  compiled : m.counter "classes_compiled" = .ofNat r.compiled.length
  failed : m.counter "classes_failed" = .ofNat (r.errors.countP fun e => e.IsOwn)
  methods : m.counter "methods_compiled" = .ofNat (r.compiled.map fun t => t.core.compiled.length).sum

theorem sum_compiled (classes : List (String × Outcome)) :
    (classes.map fun e => outcomeAmount "classes_compiled" e.2).sum =
      (classes.filterMap fun e => e.2.toOption).length := by
  induction classes with
  | nil => rfl
  | cons e classes ih =>
    rw [List.map_cons, List.sum_cons, ih, List.filterMap_cons]
    cases e.2 <;> simp [outcomeAmount, Except.toOption, Nat.add_comm]

theorem sum_failed (classes : List (String × Outcome)) :
    (classes.map fun e => outcomeAmount "classes_failed" e.2).sum =
      (classes.filterMap fun e => Report.error? e.2).countP fun e => e.IsOwn := by
  induction classes with
  | nil => rfl
  | cons e classes ih =>
    rw [List.map_cons, List.sum_cons, ih, List.filterMap_cons]
    cases e.2 with
    | ok t => simp [outcomeAmount, Report.error?]
    | error cause => simp [outcomeAmount, Report.error?, List.countP_cons, Nat.add_comm]

theorem sum_methods (classes : List (String × Outcome)) :
    (classes.map fun e => outcomeAmount "methods_compiled" e.2).sum =
      ((classes.filterMap fun e => e.2.toOption).map fun t => t.core.compiled.length).sum := by
  induction classes with
  | nil => rfl
  | cons e classes ih =>
    rw [List.map_cons, List.sum_cons, ih, List.filterMap_cons]
    cases e.2 <;> simp [outcomeAmount, Except.toOption]

theorem accounts_of_counter_eq {m : Metrics} {r : Report}
    (h : ∀ name, m.counter name = .ofNat (r.classes.map fun e => outcomeAmount name e.2).sum) : Accounts m r where
  compiled := by rw [h, sum_compiled]; rfl
  failed := by rw [h, sum_failed]; rfl
  methods := by rw [h, sum_methods]; rfl

theorem Interleaves.reported_eq_map (ho : o.backend.IsRegular)
    (h : Interleaves o decls (start registry decls) (layers (baseGraph decls)) q) :
    q.reported decls = (List.range decls.length).map (outcomeAt o registry decls) := by
  refine List.ext_getElem? fun k => ?_
  by_cases hk : k < decls.length
  · rw [(h.getElem?_reported_iff ho).mpr (hasOutcome_outcomeAt ho hk)]
    simp [hk]
  · have hlen := h.length_reported ho
    rw [List.getElem?_eq_none (by omega), List.getElem?_eq_none (by simpa using hk)]

/-- **What a module reports is what the outcomes say.** -/
theorem Interleaves.amountOf_events (ho : o.backend = .reference) (hr : IsAssembled registry)
    (h : Interleaves o decls (start registry decls) (layers (baseGraph decls)) q) (name : String) :
    amountOf name q.events = ((q.reported decls).map (outcomeAmount name)).sum := by
  have hregular : o.backend.IsRegular := ho ▸ Backend.isRegular_reference
  obtain ⟨reported, -, hreported, -, hevents, -⟩ := h.traced hregular (awaits_start o registry decls)
  let amount (k : Nat) : Nat := amountOf name (eventsAt o registry decls k)
  have hperm : (reported.flatten ++ cyclicClasses (baseGraph decls)).Perm (List.range decls.length) := by
    have hall := perm_flatten_layers_append_cyclicClasses (baseGraph decls)
    rw [baseGraph, List.length_map, ← baseGraph] at hall
    exact ((List.Perm.flatten_congr hreported).append_right _).trans hall
  have hzero : ((cyclicClasses (baseGraph decls)).map amount).sum = 0 := by
    refine List.sum_eq_zero fun n hn => ?_
    obtain ⟨k, hk, rfl⟩ := List.mem_map.mp hn
    simp only [amount, eventsAt_of_onCycle hregular (mem_cyclicClasses_baseGraph.mp hk), amountOf_nil]
  calc amountOf name q.events
      = (reported.flatten.map amount).sum := by
        rw [hevents]
        exact amountOf_flatMap name _ _
    _ = ((reported.flatten ++ cyclicClasses (baseGraph decls)).map amount).sum := by
        rw [List.map_append, List.sum_append, hzero, Nat.add_zero]
    _ = ((List.range decls.length).map amount).sum := (hperm.map amount).sum_eq
    _ = ((List.range decls.length).map fun k => outcomeAmount name (outcomeAt o registry decls k)).sum := by
        congr 1
        exact List.map_congr_left fun k hk => amountOf_eventsAt ho hr (List.mem_range.mp hk) name
    _ = ((q.reported decls).map (outcomeAmount name)).sum := by
        rw [h.reported_eq_map hregular, List.map_map]
        rfl

/-- The report of a module. -/
def reportOf (path : String) (decls : List ClassDecl) (q : Progress) : Report :=
  ⟨path, (decls.map ClassDecl.name).zip (q.reported decls)⟩

theorem map_snd_classes_reportOf (ho : o.backend.IsRegular)
    (h : Interleaves o decls (start registry decls) (layers (baseGraph decls)) q) (path : String) :
    (reportOf path decls q).classes.map Prod.snd = q.reported decls :=
  List.map_snd_zip (by rw [h.length_reported ho, List.length_map])

theorem Interleaves.accounts (ho : o.backend = .reference) (hr : IsAssembled registry)
    (h : Interleaves o decls (start registry decls) (layers (baseGraph decls)) q) (path : String) :
    Accounts (Metrics.empty.noteAll (q.events ++ [.timed "module"])) (reportOf path decls q) := by
  refine accounts_of_counter_eq fun name => ?_
  have hempty : Metrics.empty.counter name = 0 := rfl
  rw [Metrics.counter_noteAll, hempty, UInt64.zero_add, amountOf_append, h.amountOf_events ho hr,
    ← map_snd_classes_reportOf (ho ▸ Backend.isRegular_reference) h path, List.map_map]
  rfl

/-- **The counters of a module from its report.** The compiled classes and their methods are all counted. Of the
classes that failed those are counted that were tried, that is, those that fail for their own reasons: a class on a
cycle and a class over a failed base are missing. -/
theorem counters_of_interleaves (ho : o.backend = .reference) (hr : IsAssembled registry) {path source : String}
    (hs : markedClasses path source = .ok decls) :
    (∀ q, Interleaves o decls (start registry decls) (layers (baseGraph decls)) q →
      Accounts (Metrics.empty.noteAll (q.events ++ [.timed "module"])) (reportOf path decls q)) ∧
    (∃ r, (compileSource o registry path source).report = .ok r ∧
      Accounts (Metrics.empty.noteAll (compileSource o registry path source).events) r) ∧
    IsAssembled (compileSource o registry path source).registry := by
  obtain ⟨row, hrow, hresult⟩ := interleaves_compileClasses o registry decls
  have hsource : compileSource o registry path source =
      ⟨.ok (reportOf path decls row), row.registry, row.events ++ [.timed "module"]⟩ := by
    rw [compileSource, hs]
    simp only [hresult, reportOf]
  obtain ⟨-, registered, -, -, -, hregistry⟩ :=
    hrow.traced (ho ▸ Backend.isRegular_reference) (awaits_start o registry decls)
  rw [hsource]
  refine ⟨fun q h => h.accounts ho hr path, ⟨_, rfl, hrow.accounts ho hr path⟩, ?_⟩
  rw [hregistry]
  exact hr.registerAll ho _

end Module

namespace Sample

/-- A class that does not compile and a class over it. -/
def orphanSource : String :=
  "@jit\nclass Base:\n    def __init__(self) -> int:\n        return 1\n\n@jit\nclass Child(Base):\n    pass\n"

end Sample

namespace Module

open Sample (options orphanSource)

theorem counters_of_interleaves_orphanSource :
    IsAssembled .empty ∧ ∃ r, (compileSource options .empty "m.py" orphanSource).report = .ok r ∧
      Accounts (Metrics.empty.noteAll (compileSource options .empty "m.py" orphanSource).events) r := by
  have hempty : IsAssembled .empty := fun _ _ h => nomatch h
  have hok : (markedClasses "m.py" orphanSource).isOk := by decide +kernel
  cases hs : markedClasses "m.py" orphanSource with
  | error e =>
    rw [hs] at hok
    cases hok
  | ok decls =>
    obtain ⟨-, hreport, -⟩ := counters_of_interleaves (o := options) rfl hempty hs
    exact ⟨hempty, hreport⟩

/-- The class over the failed one is missing. -/
theorem counter_failed_ne_orphanSource :
    ¬ ∀ (o : CompileOptions) (registry : Registry NativeType) (path source : String) (r : Report),
      (compileSource o registry path source).report = .ok r →
        (Metrics.empty.noteAll (compileSource o registry path source).events).counter "classes_failed" =
          .ofNat r.errors.length := by
  intro h
  have hcounter : (Metrics.empty.noteAll (compileSource options .empty "m.py" orphanSource).events).counter
      "classes_failed" = 1 := by decide +kernel
  have herrors : (compileSource options .empty "m.py" orphanSource).report.toOption.map (·.errors.length) =
      some 2 := by decide +kernel
  cases hr : (compileSource options .empty "m.py" orphanSource).report with
  | error e =>
    rw [hr] at herrors
    cases herrors
  | ok r =>
    rw [hr] at herrors
    have hlen : r.errors.length = 2 := Option.some.inj herrors
    have hfailed := h options .empty "m.py" orphanSource r hr
    rw [hcounter, hlen] at hfailed
    exact absurd hfailed (by decide)

end Module

end NativeClass
