import Mathlib.Data.List.Forall2
import Mathlib.Logic.Function.Basic
import NativeClass.Proofs.Module.Outcome
/-!
# The classes of a layer side by side

The classes of one layer may be compiled at the same time. They share the registry: each class looks up its
bases there and registers its type there in the end. Every look-up and every registration is one step, and the
steps of different classes may come in any order.

* `Call`, `LayerState`: how far the classes of a layer have come; `LayerState.advance` is one step.
* `Interleaves`: a module compiled layer by layer, each layer in any order of steps.
* `LayerState.IsSound`: what holds after every step, and `LayerState.IsSound.advance` shows it.
* **`Interleaves.awaits`**: what holds after all layers.
* **`interleaves_compileLayers`**: one class after another is such an order.
-/

namespace NativeClass.Module

/-! ## Steps -/

/-- How far the compilation of one class of a layer has come. -/
inductive Call where
  /-- Some bases have been looked up, the others are known by their names only. -/
  | resolving (found : List Base) (rest : List String)
  /-- The class has its outcome. A finished type is not registered yet. -/
  | compiled (outcome : Outcome)
  | ended (outcome : Outcome)

/-- A layer while its classes are compiled. -/
structure LayerState where
  /-- The classes of the layer, by position. -/
  calls : Nat → Option Call
  registry : Registry NativeType
  events : List Event

namespace LayerState

/-- The layer before the first step. -/
def ofLayer (decls : List ClassDecl) (p : Progress) (layer : List Nat) : LayerState where
  calls i := if i ∈ layer then (decls[i]?).map fun d => .resolving [] d.baseNames else none
  registry := p.registry
  events := p.events

/-- The layer with one class further on. -/
def setCall (s : LayerState) (i : Nat) (call : Call) : LayerState :=
  { s with calls := Function.update s.calls i (some call) }

/-- The next step of one class: a base is looked up, the class is compiled, or its type is registered. -/
def advance (o : CompileOptions) (decls : List ClassDecl) (earlier : List (Option Outcome))
    (s : LayerState) (i : Nat) : LayerState :=
  match s.calls i, decls[i]? with
  | some (.resolving found (name :: rest)), some d =>
    match resolveBase s.registry decls earlier d name with
    | .ok b => s.setCall i (.resolving (found ++ [b]) rest)
    | .error e => s.setCall i (.ended (.error e))
  | some (.resolving found []), some d =>
    let r := compileBound (o.part i) d (.ok found)
    { s.setCall i (.compiled r.1) with events := s.events ++ r.2 }
  | some (.compiled outcome), _ =>
    { s.setCall i (.ended outcome) with registry := registerOutcome s.registry outcome }
  | _, _ => s

/-- The steps of a schedule, which says whose turn it is. -/
def run (o : CompileOptions) (decls : List ClassDecl) (earlier : List (Option Outcome)) (s : LayerState)
    (schedule : List Nat) : LayerState :=
  schedule.foldl (advance o decls earlier) s

/-- The outcome of a class that has ended. -/
def ended? (s : LayerState) (i : Nat) : Option Outcome :=
  match s.calls i with
  | some (.ended outcome) => some outcome
  | _ => none

/-- All classes of the layer have ended. -/
def isComplete (s : LayerState) (layer : List Nat) : Bool :=
  layer.all fun i => (s.ended? i).isSome

/-- What has been reached once the classes of a layer have ended. -/
def toProgress (s : LayerState) (earlier : List (Option Outcome)) : Progress where
  outcomes := earlier.mapIdx fun i old => (s.ended? i).or old
  registry := s.registry
  events := s.events

end LayerState

/-- A module compiled layer by layer, the steps of each layer in any order. -/
inductive Interleaves (o : CompileOptions) (decls : List ClassDecl) :
    Progress → List (List Nat) → Progress → Prop
  | nil (p : Progress) : Interleaves o decls p [] p
  | cons {p q : Progress} {layer : List Nat} {rest : List (List Nat)} {s : LayerState} (schedule : List Nat)
    (run : (LayerState.ofLayer decls p layer).run o decls p.outcomes schedule = s) (complete : s.isComplete layer)
    (next : Interleaves o decls (s.toProgress p.outcomes) rest q) : Interleaves o decls p (layer :: rest) q

variable {o : CompileOptions} {registry : Registry NativeType} {decls : List ClassDecl}
  {earlier : List (Option Outcome)} {p q : Progress} {s : LayerState} {d : ClassDecl} {call : Call}
  {outcome : Outcome} {i j : Nat} {layer : List Nat}

/-! ## What every step preserves -/

/-- The registries agree on all names that no class of the module has. -/
def AgreesOutside (decls : List ClassDecl) (registry registry' : Registry NativeType) : Prop :=
  ∀ name, position? decls name = none → registry'.get? name = registry.get? name

theorem AgreesOutside.registerOutcome {registry' : Registry NativeType} (ho : o.backend.IsRegular)
    (h : AgreesOutside decls registry registry') (hout : HasOutcome o registry decls i outcome) :
    AgreesOutside decls registry (registerOutcome registry' outcome) := by
  intro name hname
  cases outcome with
  | error e => exact h name hname
  | ok t =>
    obtain ⟨d, hd⟩ := hout.exists_decl
    have hne : name ≠ t.name := by
      rintro rfl
      have hd' : d ∈ decls := List.mem_of_getElem? hd
      rw [hout.name_eq ho hd] at hname
      have hall := List.findIdx?_eq_none_iff.mp hname d hd'
      simp at hall
    show (registry'.register t.name t).2.get? name = _
    rw [Registry.get?_register, if_neg hne, h name hname]

/-- The outcome of a class among those that are known. -/
def known (outcomes : List (Option Outcome)) (i : Nat) : Outcome :=
  ((outcomes[i]?).join).getD default

/-- What has been reached is what it ought to be. -/
structure Progress.IsSound (o : CompileOptions) (registry : Registry NativeType) (decls : List ClassDecl)
    (p : Progress) : Prop where
  length : p.outcomes.length = decls.length
  outcomes : ∀ i outcome, p.outcomes[i]? = some (some outcome) → HasOutcome o registry decls i outcome
  agrees : AgreesOutside decls registry p.registry

/-- The bases of the classes of a layer have their outcomes. -/
def IsDue (decls : List ClassDecl) (p : Progress) (layer : List Nat) : Prop :=
  ∀ i ∈ layer, ¬OnCycle decls i ∧ ∀ j, Derives decls i j → ∃ outcome, p.outcomes[j]? = some (some outcome)

/-- How far a class has come is what it ought to be. -/
inductive Call.Fits (o : CompileOptions) (registry : Registry NativeType) (decls : List ClassDecl)
    (outs : Nat → Outcome) (i : Nat) : Call → Prop
  | resolving {d : ClassDecl} {before rest : List String} {found : List Base} (decl : decls[i]? = some d)
    (names : d.baseNames = before ++ rest) (bases : before.mapM (baseOf registry decls outs d) = .ok found) :
    Fits o registry decls outs i (.resolving found rest)
  | compiled {outcome : Outcome} (h : HasOutcome o registry decls i outcome) :
    Fits o registry decls outs i (.compiled outcome)
  | ended {outcome : Outcome} (h : HasOutcome o registry decls i outcome) :
    Fits o registry decls outs i (.ended outcome)

/-- What holds of a layer after every step. -/
structure LayerState.IsSound (o : CompileOptions) (registry : Registry NativeType) (decls : List ClassDecl)
    (p : Progress) (layer : List Nat) (s : LayerState) : Prop where
  agrees : AgreesOutside decls registry s.registry
  calls : ∀ i call, s.calls i = some call → i ∈ layer ∧ call.Fits o registry decls (known p.outcomes) i

/-- A look-up finds what it ought to find, whatever else has been registered meanwhile. -/
theorem resolveBase_eq {registry' : Registry NativeType} (h : AgreesOutside decls registry registry')
    {name : String} (hbases : ∀ j, position? decls name = some j → ∃ outcome, p.outcomes[j]? = some (some outcome)) :
    resolveBase registry' decls p.outcomes d name = baseOf registry decls (known p.outcomes) d name := by
  unfold resolveBase baseOf
  cases hj : position? decls name with
  | none =>
    cases hget : registry.get? name <;> simp only [h name hj, hget]
  | some j =>
    obtain ⟨outcome, hout⟩ := hbases j hj
    cases outcome <;> simp [known, hout]

theorem fst_compileBound (o : CompileOptions) (d : ClassDecl) (bases : Except CompileError (List Base)) :
    (compileBound o d bases).1 = bases >>= fun bases => (BoundClass.compile ⟨d.source, bases⟩ o).result := by
  cases bases with
  | error e => rfl
  | ok bases =>
    unfold compileBound
    dsimp only
    show _ = (BoundClass.compile ⟨d.source, bases⟩ o).result
    split <;> simp [*]

theorem Progress.IsSound.hasOutcome (hp : p.IsSound o registry decls) (hdue : IsDue decls p layer)
    (hi : i ∈ layer) (hd : decls[i]? = some d) :
    HasOutcome o registry decls i (outcomeOver (o.part i) registry decls (known p.outcomes) d) := by
  obtain ⟨hc, hbases⟩ := hdue i hi
  refine .overBases hd hc fun j hj => ?_
  obtain ⟨outcome, hout⟩ := hbases j hj
  have hknown : known p.outcomes j = outcome := by simp [known, hout]
  rw [hknown]
  exact hp.outcomes j outcome hout

namespace LayerState

theorem calls_setCall (s : LayerState) (i j : Nat) (call : Call) :
    (s.setCall i call).calls j = if j = i then some call else s.calls j :=
  Function.update_apply s.calls i (some call) j

theorem IsSound.setCall (h : s.IsSound o registry decls p layer) (hi : i ∈ layer)
    (hcall : call.Fits o registry decls (known p.outcomes) i) :
    (s.setCall i call).IsSound o registry decls p layer where
  agrees := h.agrees
  calls j call' hj := by
    rw [calls_setCall] at hj
    by_cases hji : j = i
    · rw [if_pos hji, Option.some.injEq] at hj
      exact hji ▸ hj ▸ ⟨hi, hcall⟩
    · rw [if_neg hji] at hj
      exact h.calls j call' hj

/-- **One step.** -/
theorem IsSound.advance (ho : o.backend.IsRegular) (hp : p.IsSound o registry decls) (hdue : IsDue decls p layer)
    (h : s.IsSound o registry decls p layer) (i : Nat) :
    (s.advance o decls p.outcomes i).IsSound o registry decls p layer := by
  unfold LayerState.advance
  split
  next found name rest d hcall hd =>
    obtain ⟨hi, hfits⟩ := h.calls i _ hcall
    cases hfits with
    | @resolving d' before _ _ hd' hnames hbases =>
    cases hd.symm.trans hd'
    have hname : name ∈ d.baseNames := hnames ▸ List.mem_append_right before List.mem_cons_self
    -- a name that is looked up in the registry is none that a class of the module registers
    rw [resolveBase_eq h.agrees fun j hj => (hdue i hi).2 j ⟨d, name, hd, hname, hj⟩]
    split
    next b hb =>
      refine h.setCall hi (.resolving hd ?_ (mapM_concat_ok hbases hb))
      rw [hnames, List.append_assoc, List.singleton_append]
    next e he =>
      have hout := hp.hasOutcome hdue hi hd
      rw [outcomeOver, hnames, mapM_append_error hbases he rest] at hout
      exact h.setCall hi (.ended hout)
  next found d hcall hd =>
    obtain ⟨hi, hfits⟩ := h.calls i _ hcall
    cases hfits with
    | @resolving d' before _ _ hd' hnames hbases =>
    cases hd.symm.trans hd'
    have hout := hp.hasOutcome hdue hi hd
    rw [outcomeOver, hnames, List.append_nil, hbases, ← fst_compileBound] at hout
    obtain ⟨hagrees, hcalls⟩ := h.setCall hi (.compiled hout)
    exact ⟨hagrees, hcalls⟩
  next outcome hcall =>
    obtain ⟨hi, hfits⟩ := h.calls i _ hcall
    cases hfits with
    | compiled hout =>
    obtain ⟨hagrees, hcalls⟩ := h.setCall hi (.ended hout)
    exact ⟨hagrees.registerOutcome ho hout, hcalls⟩
  · exact h

/-- **All steps of a schedule.** -/
theorem IsSound.run (ho : o.backend.IsRegular) (hp : p.IsSound o registry decls) (hdue : IsDue decls p layer)
    (h : s.IsSound o registry decls p layer) (schedule : List Nat) :
    (s.run o decls p.outcomes schedule).IsSound o registry decls p layer := by
  induction schedule generalizing s with
  | nil => exact h
  | cons i schedule ih => exact ih (h.advance ho hp hdue i)

theorem isSound_ofLayer (hp : p.IsSound o registry decls) (layer : List Nat) :
    (ofLayer decls p layer).IsSound o registry decls p layer where
  agrees := hp.agrees
  calls i call hi := by
    simp only [ofLayer] at hi
    split at hi
    next hmem =>
      obtain ⟨d, hd, rfl⟩ := Option.map_eq_some_iff.mp hi
      exact ⟨hmem, .resolving hd (List.nil_append _).symm rfl⟩
    · cases hi

/-! ## The end of a layer -/

theorem ended?_eq_some_iff : s.ended? i = some outcome ↔ s.calls i = some (.ended outcome) := by
  unfold ended?
  split
  next hcall => simp [hcall]
  next hcall =>
    constructor
    · intro h
      cases h
    · exact fun h => absurd h (hcall outcome)

theorem getElem?_toProgress (s : LayerState) (earlier : List (Option Outcome)) (i : Nat) :
    (s.toProgress earlier).outcomes[i]? = (earlier[i]?).map (s.ended? i).or :=
  List.getElem?_mapIdx

theorem IsSound.toProgress (hp : p.IsSound o registry decls) (h : s.IsSound o registry decls p layer) :
    (s.toProgress p.outcomes).IsSound o registry decls where
  length := by
    rw [← hp.length]
    exact List.length_mapIdx
  outcomes i outcome hi := by
    rw [getElem?_toProgress, Option.map_eq_some_iff] at hi
    obtain ⟨old, hold, hi⟩ := hi
    rcases Option.or_eq_some_iff.mp hi with hended | ⟨-, rfl⟩
    · obtain ⟨-, hfits⟩ := h.calls i _ (ended?_eq_some_iff.mp hended)
      cases hfits with
      | ended hout => exact hout
    · exact hp.outcomes i outcome hold
  agrees := h.agrees

theorem exists_outcome_toProgress (hs : s.isComplete layer)
    (hi : (∃ outcome, earlier[i]? = some (some outcome)) ∨ i ∈ layer ∧ i < earlier.length) :
    ∃ outcome, (s.toProgress earlier).outcomes[i]? = some (some outcome) := by
  rw [getElem?_toProgress]
  rcases hi with ⟨outcome, hout⟩ | ⟨hmem, hlt⟩
  · cases hended : s.ended? i <;> simp [hout]
  · obtain ⟨outcome, hended⟩ := Option.isSome_iff_exists.mp (List.all_eq_true.mp hs i hmem)
    exact ⟨outcome, by simp [hlt, hended]⟩

end LayerState

/-! ## All layers -/

/-- What holds while layers are still to be compiled: their classes find the bases that they need, and every other
class has its outcome. -/
structure Progress.Awaits (o : CompileOptions) (registry : Registry NativeType) (decls : List ClassDecl)
    (p : Progress) (rest : List (List Nat)) : Prop where
  isSound : p.IsSound o registry decls
  basesFirst : BasesFirst (baseGraph decls) (fun i => ∃ outcome, p.outcomes[i]? = some (some outcome)) rest
  placed : ∀ i < decls.length, (∃ outcome, p.outcomes[i]? = some (some outcome)) ∨ i ∈ rest.flatten

namespace Progress.Awaits

variable {rest : List (List Nat)}

theorem nodup (h : p.Awaits o registry decls (layer :: rest)) : layer.Nodup :=
  h.basesFirst.1

theorem lt_length (h : p.Awaits o registry decls (layer :: rest)) (hi : i ∈ layer) : i < decls.length := by
  simpa [baseGraph] using (h.basesFirst.2.1 i hi).1

theorem isDue (h : p.Awaits o registry decls (layer :: rest)) : IsDue decls p layer := fun i hi =>
  ⟨fun hc => (h.basesFirst.2.1 i hi).2.1 (mem_cyclicClasses_baseGraph.mpr hc),
    fun j hj => (h.basesFirst.2.1 i hi).2.2 j (isBase_baseGraph.mpr hj)⟩

theorem isSound_run (ho : o.backend.IsRegular) (h : p.Awaits o registry decls (layer :: rest))
    (schedule : List Nat) :
    ((LayerState.ofLayer decls p layer).run o decls p.outcomes schedule).IsSound o registry decls p layer :=
  (LayerState.isSound_ofLayer h.isSound layer).run ho h.isSound h.isDue schedule

theorem next (h : p.Awaits o registry decls (layer :: rest)) (hs : s.IsSound o registry decls p layer)
    (hcomplete : s.isComplete layer) : (s.toProgress p.outcomes).Awaits o registry decls rest := by
  have hready : ∀ i, (∃ outcome, p.outcomes[i]? = some (some outcome)) ∨ i ∈ layer →
      ∃ outcome, (s.toProgress p.outcomes).outcomes[i]? = some (some outcome) := fun i hi =>
    LayerState.exists_outcome_toProgress hcomplete
      (hi.imp_right fun hmem => ⟨hmem, h.isSound.length ▸ h.lt_length hmem⟩)
  refine ⟨hs.toProgress h.isSound, h.basesFirst.2.2.mono hready, fun i hi => ?_⟩
  have hplace := h.placed i hi
  rw [List.flatten_cons, List.mem_append, ← or_assoc] at hplace
  exact hplace.imp_left (hready i)

end Progress.Awaits

/-- **What holds after all layers.** -/
theorem Interleaves.awaits (ho : o.backend.IsRegular) {rest : List (List Nat)} (h : Interleaves o decls p rest q)
    (hp : p.Awaits o registry decls rest) : q.Awaits o registry decls [] := by
  induction h with
  | nil => exact hp
  | cons schedule hrun hcomplete _ ih =>
    subst hrun
    exact ih (hp.next (hp.isSound_run ho schedule) hcomplete)

/-! ## The whole module -/

theorem getElem?_start (registry : Registry NativeType) (decls : List ClassDecl) (i : Nat) :
    (start registry decls).outcomes[i]? = (decls[i]?).map fun d =>
      if (cyclicClasses (baseGraph decls)).contains i then some (.error (cycleError decls d)) else none := by
  simp [start, List.getElem?_zipIdx, Function.comp_def]

theorem isSound_start (o : CompileOptions) (registry : Registry NativeType) (decls : List ClassDecl) :
    (start registry decls).IsSound o registry decls where
  length := by simp [start]
  outcomes i outcome hi := by
    rw [getElem?_start] at hi
    obtain ⟨d, hd, hi⟩ := Option.map_eq_some_iff.mp hi
    split at hi
    next hc =>
      cases hi
      exact .onCycle hd (mem_cyclicClasses_baseGraph.mp (by simpa using hc))
    · cases hi
  agrees _ _ := rfl

theorem awaits_start (o : CompileOptions) (registry : Registry NativeType) (decls : List ClassDecl) :
    (start registry decls).Awaits o registry decls (layers (baseGraph decls)) := by
  have hcyclic : ∀ i, i ∈ cyclicClasses (baseGraph decls) →
      ∃ outcome, (start registry decls).outcomes[i]? = some (some outcome) := fun i hi => by
    obtain ⟨d, hd⟩ := (mem_cyclicClasses_baseGraph.mp hi).exists_decl
    exact ⟨.error (cycleError decls d), by rw [getElem?_start, hd]; simp [hi]⟩
  refine ⟨isSound_start o registry decls, (basesFirst_layers (inRange_baseGraph decls)).mono hcyclic, fun i hi => ?_⟩
  by_cases hc : i ∈ cyclicClasses (baseGraph decls)
  · exact Or.inl (hcyclic i hc)
  · exact Or.inr (mem_flatten_layers (by simpa [baseGraph] using hi) hc)

/-- **Every class of a module ends with the outcome that it ought to have**, in whatever order the steps
come. -/
theorem Interleaves.hasOutcome (ho : o.backend.IsRegular)
    (h : Interleaves o decls (start registry decls) (layers (baseGraph decls)) q) :
    q.outcomes.length = decls.length ∧ ∀ i, i < decls.length →
      ∃ outcome, q.outcomes[i]? = some (some outcome) ∧ HasOutcome o registry decls i outcome := by
  obtain ⟨hq, -, hplaced⟩ := h.awaits ho (awaits_start o registry decls)
  refine ⟨hq.length, fun i hi => ?_⟩
  obtain ⟨outcome, hout⟩ := (hplaced i hi).resolve_right List.not_mem_nil
  exact ⟨outcome, hout, hq.outcomes i outcome hout⟩

/-! ## One class after another -/

namespace LayerState

theorem setCall_setCall (s : LayerState) (i : Nat) (call call' : Call) :
    (s.setCall i call).setCall i call' = s.setCall i call' := by
  simp only [setCall, Function.update_idem]

/-- The layer after one class has been compiled and registered. -/
def withOutcome (s : LayerState) (i : Nat) (r : Outcome × List Event) : LayerState :=
  { s.setCall i (.ended r.1) with
    registry := registerOutcome s.registry r.1
    events := s.events ++ r.2 }

theorem withOutcome_setCall (s : LayerState) (i : Nat) (call : Call) (r : Outcome × List Event) :
    (s.setCall i call).withOutcome i r = s.withOutcome i r := by
  rw [withOutcome, setCall_setCall]
  rfl

/-- Once all bases have been looked up, two steps compile the class and register it. -/
theorem run_eq_withOutcome (o : CompileOptions) (earlier : List (Option Outcome)) (hd : decls[i]? = some d)
    {found : List Base} (hcall : s.calls i = some (.resolving found [])) :
    s.run o decls earlier [i, i] = s.withOutcome i (compileBound (o.part i) d (.ok found)) := by
  generalize hr : compileBound (o.part i) d (.ok found) = r
  have hfirst : s.advance o decls earlier i = { s.setCall i (.compiled r.1) with events := s.events ++ r.2 } := by
    simp only [advance, hcall, hd, hr]
  show (s.advance o decls earlier i).advance o decls earlier i = _
  rw [hfirst]
  simp only [advance, setCall, Function.update_self, Function.update_idem, withOutcome]

/-- If only one class takes its turn, it ends as if it were compiled alone. -/
theorem exists_run_eq_withOutcome (o : CompileOptions) (earlier : List (Option Outcome))
    (hd : decls[i]? = some d) {rest : List String} {found : List Base}
    (hcall : s.calls i = some (.resolving found rest)) :
    ∃ schedule, s.run o decls earlier schedule =
      s.withOutcome i (compileBound (o.part i) d
        ((rest.mapM (resolveBase s.registry decls earlier d)).map (found ++ ·))) := by
  induction rest generalizing s found with
  | nil =>
    have hbases : (List.mapM (resolveBase s.registry decls earlier d) []).map (found ++ ·) = .ok found := by
      simp [Except.map, pure, Except.pure]
    rw [hbases]
    exact ⟨[i, i], run_eq_withOutcome o earlier hd hcall⟩
  | cons name rest ih =>
    rw [List.mapM_cons]
    cases hname : resolveBase s.registry decls earlier d name with
    | error e =>
      refine ⟨[i], ?_⟩
      show s.advance o decls earlier i = _
      simp [advance, hcall, hd, hname, withOutcome, setCall, compileBound, Except.map, bind, Except.bind,
        registerOutcome]
    | ok b =>
      have hnext : (s.setCall i (.resolving (found ++ [b]) rest)).calls i =
          some (.resolving (found ++ [b]) rest) := by
        rw [calls_setCall, if_pos rfl]
      obtain ⟨schedule, hrun⟩ := ih hnext
      refine ⟨i :: schedule, ?_⟩
      have hfirst : s.advance o decls earlier i = s.setCall i (.resolving (found ++ [b]) rest) := by
        simp only [advance, hcall, hd, hname]
      show (s.advance o decls earlier i).run o decls earlier schedule = _
      rw [hfirst, hrun, withOutcome_setCall]
      congr 2
      show Except.map _ (rest.mapM (resolveBase s.registry decls earlier d)) = _
      cases rest.mapM (resolveBase s.registry decls earlier d) <;>
        simp [Except.map, bind, Except.bind, pure, Except.pure]

theorem exists_run_eq_resolveBases (o : CompileOptions) (earlier : List (Option Outcome))
    (hd : decls[i]? = some d) (hcall : s.calls i = some (.resolving [] d.baseNames)) :
    ∃ schedule, s.run o decls earlier schedule =
      s.withOutcome i (compileBound (o.part i) d (resolveBases s.registry decls earlier d)) := by
  obtain ⟨schedule, hrun⟩ := exists_run_eq_withOutcome o earlier hd hcall
  refine ⟨schedule, hrun.trans ?_⟩
  congr 2
  rw [resolveBases]
  cases d.baseNames.mapM (resolveBase s.registry decls earlier d) <;> rfl

theorem calls_withOutcome (s : LayerState) (i j : Nat) (r : Outcome × List Event) :
    (s.withOutcome i r).calls j = if j = i then some (.ended r.1) else s.calls j :=
  calls_setCall s i j (.ended r.1)

theorem run_append (s : LayerState) (first rest : List Nat) :
    s.run o decls earlier (first ++ rest) = (s.run o decls earlier first).run o decls earlier rest :=
  List.foldl_append

theorem ended?_withOutcome (s : LayerState) (i j : Nat) (r : Outcome × List Event) :
    (s.withOutcome i r).ended? j = if j = i then some r.1 else s.ended? j := by
  by_cases hji : j = i <;> simp [ended?, calls_withOutcome, hji]

theorem ended?_ofLayer (decls : List ClassDecl) (p : Progress) (layer : List Nat) (i : Nat) :
    (ofLayer decls p layer).ended? i = none := by
  unfold ended? ofLayer
  split
  next hcall =>
    dsimp only at hcall
    split at hcall
    · simp at hcall
    · cases hcall
  · rfl

theorem toProgress_ofLayer (decls : List ClassDecl) (p : Progress) (layer : List Nat) :
    (ofLayer decls p layer).toProgress p.outcomes = p := by
  have houtcomes : p.outcomes.mapIdx (fun i old => ((ofLayer decls p layer).ended? i).or old) = p.outcomes := by
    refine List.ext_getElem? fun i => ?_
    simp [ended?_ofLayer]
  rw [toProgress, houtcomes]
  rfl

theorem toProgress_withOutcome (hd : decls[i]? = some d) :
    (s.withOutcome i (compileBound (o.part i) d (resolveBases s.registry decls earlier d))).toProgress earlier =
      compileNext o decls earlier (s.toProgress earlier) i := by
  generalize hr : compileBound (o.part i) d (resolveBases s.registry decls earlier d) = r
  have hnext : compileNext o decls earlier (s.toProgress earlier) i =
      { outcomes := (s.toProgress earlier).outcomes.set i (some r.1)
        registry := registerOutcome s.registry r.1
        events := s.events ++ r.2 } := by
    simp only [compileNext, hd, ← hr]
    rfl
  have houtcomes : ((s.withOutcome i r).toProgress earlier).outcomes =
      (s.toProgress earlier).outcomes.set i (some r.1) := by
    refine List.ext_getElem? fun j => ?_
    rw [getElem?_toProgress, List.getElem?_set, getElem?_toProgress, ended?_withOutcome]
    by_cases hji : j = i
    · subst hji
      cases hold : earlier[j]? with
      | none => simp [LayerState.toProgress, List.getElem?_eq_none_iff.mp hold]
      | some old => simp [LayerState.toProgress, (List.getElem?_eq_some_iff.mp hold).1]
    · rw [if_neg hji, if_neg (Ne.symm hji)]
  rw [hnext, ← houtcomes]
  rfl

end LayerState

/-- **One class after another is one of the orders in which the steps of a layer may come.** -/
theorem exists_schedule (o : CompileOptions) (decls : List ClassDecl) (earlier : List (Option Outcome))
    {todo : List Nat} (hnodup : todo.Nodup) (s : LayerState)
    (htodo : ∀ i ∈ todo, ∃ d, decls[i]? = some d ∧ s.calls i = some (.resolving [] d.baseNames))
    (hdone : ∀ i ∈ layer, i ∉ todo → (s.ended? i).isSome) :
    ∃ schedule, (s.run o decls earlier schedule).isComplete layer ∧
      (s.run o decls earlier schedule).toProgress earlier =
        todo.foldl (compileNext o decls earlier) (s.toProgress earlier) := by
  induction todo generalizing s with
  | nil => exact ⟨[], List.all_eq_true.mpr fun i hi => hdone i hi List.not_mem_nil, rfl⟩
  | cons i todo ih =>
    -- one class takes all its turns, and the others are where they were
    obtain ⟨hi, hnodup⟩ := List.nodup_cons.mp hnodup
    obtain ⟨d, hd, hcall⟩ := htodo i List.mem_cons_self
    obtain ⟨first, hfirst⟩ := LayerState.exists_run_eq_resolveBases o earlier hd hcall
    generalize hr : compileBound (o.part i) d (resolveBases s.registry decls earlier d) = r at hfirst
    have htodo' : ∀ j ∈ todo, ∃ d, decls[j]? = some d ∧
        (s.withOutcome i r).calls j = some (.resolving [] d.baseNames) := fun j hj => by
      have hji : j ≠ i := fun e => hi (e ▸ hj)
      rw [LayerState.calls_withOutcome, if_neg hji]
      exact htodo j (List.mem_cons_of_mem i hj)
    have hdone' : ∀ j ∈ layer, j ∉ todo → ((s.withOutcome i r).ended? j).isSome := fun j hmem hj => by
      rw [LayerState.ended?_withOutcome]
      by_cases hji : j = i
      · simp [hji]
      · rw [if_neg hji]
        exact hdone j hmem (by simp [hji, hj])
    obtain ⟨schedule, hcomplete, hprogress⟩ := ih hnodup (s.withOutcome i r) htodo' hdone'
    refine ⟨first ++ schedule, ?_⟩
    rw [LayerState.run_append, hfirst, List.foldl_cons, ← LayerState.toProgress_withOutcome hd, hr]
    exact ⟨hcomplete, hprogress⟩

theorem exists_schedule_of_perm {ready : Nat → Prop} {rest : List (List Nat)} {todo : List Nat}
    (h : BasesFirst (baseGraph decls) ready (layer :: rest)) (htodo : todo.Perm layer) (o : CompileOptions)
    (p : Progress) :
    ∃ schedule, ((LayerState.ofLayer decls p layer).run o decls p.outcomes schedule).isComplete layer ∧
      ((LayerState.ofLayer decls p layer).run o decls p.outcomes schedule).toProgress p.outcomes =
        compileLayer o decls p todo := by
  obtain ⟨hnodup, hlayer, -⟩ := h
  have hcalls : ∀ i ∈ todo, ∃ d, decls[i]? = some d ∧
      (LayerState.ofLayer decls p layer).calls i = some (.resolving [] d.baseNames) := fun i hi => by
    have hmem := htodo.mem_iff.mp hi
    have hlt : i < decls.length := by simpa [baseGraph] using (hlayer i hmem).1
    exact ⟨decls[i], List.getElem?_eq_getElem hlt, by simp [LayerState.ofLayer, hmem, hlt]⟩
  obtain ⟨schedule, hcomplete, hprogress⟩ := exists_schedule o decls p.outcomes (htodo.nodup_iff.mpr hnodup)
    (LayerState.ofLayer decls p layer) hcalls fun i hi hnot => absurd (htodo.mem_iff.mpr hi) hnot
  rw [LayerState.toProgress_ofLayer] at hprogress
  exact ⟨schedule, hcomplete, hprogress⟩

/-- **Compiling the classes of each layer in a row is an order of steps**, so that there is one for every
module. -/
theorem interleaves_compileLayers {rest orders : List (List Nat)} {ready : Nat → Prop}
    (h : BasesFirst (baseGraph decls) ready rest) (horders : List.Forall₂ List.Perm orders rest)
    (o : CompileOptions) (p : Progress) : Interleaves o decls p rest (compileLayers o decls p orders) := by
  induction horders generalizing ready p with
  | nil => exact .nil p
  | cons htodo _ ih =>
    obtain ⟨schedule, hcomplete, hprogress⟩ := exists_schedule_of_perm h htodo o p
    refine .cons schedule rfl hcomplete ?_
    rw [hprogress]
    exact ih h.2.2 _

end NativeClass.Module
