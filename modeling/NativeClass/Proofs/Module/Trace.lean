import NativeClass.Proofs.Module.Driver
/-!
# What a module leaves behind

The classes of a layer reach the registry and the event log in some order. Both end as if the classes had been
dealt with one after another in that order, each with its own outcome and its own events.

* `outcomeAt`, `eventsAt`: the outcome of a class and what its compilation reports, by recursion over the bases.
* `registerAll`: a list of classes registered one after another.
* `get?_registerAll`: a name keeps what it has, else it gets what is registered first.
* `LayerState.Traced`: a layer after every step, and `LayerState.Traced.advance` shows it.
* **`Interleaves.traced`**: the registry and the events after all layers, for some orders within the layers.
* **`compileLayers_registry`**: every choice of such orders occurs.
-/

namespace NativeClass.Module

open Relation (TransGen)

variable {o : CompileOptions} {registry registry' : Registry NativeType} {decls : List ClassDecl}
  {p q : Progress} {s : LayerState} {d : ClassDecl} {call old : Call} {out : Outcome} {i j : Nat}
  {layer todo reported registered : List Nat} {name : String}

/-! ## Outcomes and events by position -/

/-- The outcome of a class by its position. -/
def outcomeAt (o : CompileOptions) (registry : Registry NativeType) (decls : List ClassDecl) (i : Nat) : Outcome :=
  ((compileClasses o registry decls).outcomes[i]?).getD default

/-- The bases of a class over the outcomes of all classes. -/
def basesOver (o : CompileOptions) (registry : Registry NativeType) (decls : List ClassDecl) (d : ClassDecl) :
    Except CompileError (List Base) :=
  d.baseNames.mapM (baseOf registry decls (outcomeAt o registry decls) d)

/-- What the compilation of a class reports, by its position. -/
def eventsAt (o : CompileOptions) (registry : Registry NativeType) (decls : List ClassDecl) (i : Nat) : List Event :=
  match decls[i]? with
  | some d => (compileBound (o.part i) d (basesOver o registry decls d)).2
  | none => []

theorem HasOutcome.outcomeAt_eq (ho : o.backend.IsRegular) (h : HasOutcome o registry decls i out) :
    outcomeAt o registry decls i = out := by
  rw [outcomeAt, (getElem?_compileClasses_iff ho).mpr h]
  rfl

theorem hasOutcome_outcomeAt (ho : o.backend.IsRegular) (hi : i < decls.length) :
    HasOutcome o registry decls i (outcomeAt o registry decls i) := by
  have hlt : i < (compileClasses o registry decls).outcomes.length := (length_compileClasses ho).symm ▸ hi
  rw [← getElem?_compileClasses_iff ho, outcomeAt, List.getElem?_eq_getElem hlt]
  rfl

theorem fst_compileBound_basesOver (ho : o.backend.IsRegular) (hd : decls[i]? = some d) (hc : ¬OnCycle decls i) :
    (compileBound (o.part i) d (basesOver o registry decls d)).1 = outcomeAt o registry decls i := by
  have hout : HasOutcome o registry decls i (outcomeOver (o.part i) registry decls (outcomeAt o registry decls) d) :=
    .overBases hd hc fun j hj => hasOutcome_outcomeAt ho hj.lt
  rw [fst_compileBound, hout.outcomeAt_eq ho]
  rfl

theorem eventsAt_eq (hd : decls[i]? = some d) :
    eventsAt o registry decls i = (compileBound (o.part i) d (basesOver o registry decls d)).2 := by
  rw [eventsAt, hd]

/-- A due class is compiled over what is known of its bases. -/
theorem Progress.IsSound.compileBound_known (ho : o.backend.IsRegular) (hp : p.IsSound o registry decls)
    (hdue : IsDue decls p layer) (hi : i ∈ layer) (hd : decls[i]? = some d) :
    compileBound (o.part i) d (d.baseNames.mapM (baseOf registry decls (known p.outcomes) d)) =
      (outcomeAt o registry decls i, eventsAt o registry decls i) := by
  have hbases : d.baseNames.mapM (baseOf registry decls (known p.outcomes) d) = basesOver o registry decls d := by
    refine mapM_congr fun name hname => baseOf_congr fun j hj => ?_
    obtain ⟨out, hout⟩ := (hdue i hi).2 j ⟨d, name, hd, hname, hj⟩
    rw [(hp.outcomes j out hout).outcomeAt_eq ho]
    simp [known, hout]
  rw [hbases, ← fst_compileBound_basesOver ho hd (hdue i hi).1, eventsAt_eq hd]

/-! ## A list of registrations -/

/-- The registry after the classes at these positions have been registered in this order. -/
def registerAll (outs : Nat → Outcome) (registry : Registry NativeType) (positions : List Nat) :
    Registry NativeType :=
  positions.foldl (fun registry i => registerOutcome registry (outs i)) registry

theorem registerAll_concat (outs : Nat → Outcome) (registry : Registry NativeType) (positions : List Nat) (i : Nat) :
    registerAll outs registry (positions ++ [i]) = registerOutcome (registerAll outs registry positions) (outs i) :=
  List.foldl_append

theorem registerAll_append (outs : Nat → Outcome) (registry : Registry NativeType) (first rest : List Nat) :
    registerAll outs registry (first ++ rest) = registerAll outs (registerAll outs registry first) rest :=
  List.foldl_append

/-- The type that an outcome registers under a name. -/
def registers (name : String) : Outcome → Option NativeType
  | .ok t => if t.name = name then some t else none
  | .error _ => none

theorem registers_eq_some_iff {t : NativeType} : registers name out = some t ↔ out = .ok t ∧ t.name = name := by
  cases out with
  | error e => simp [registers]
  | ok t' =>
    rw [registers, Except.ok.injEq, Option.ite_none_right_eq_some, Option.some.injEq, and_comm]
    exact and_congr_right fun ht => ht ▸ Iff.rfl

theorem get?_registerOutcome (registry : Registry NativeType) (out : Outcome) (name : String) :
    (registerOutcome registry out).get? name = (registry.get? name).or (registers name out) := by
  cases out with
  | error e => exact (Option.or_none).symm
  | ok t =>
    show (registry.register t.name t).2.get? name = _
    rw [Registry.get?_register, registers]
    by_cases hname : t.name = name
    · subst hname
      unfold Registry.register
      cases registry.get? t.name <;> simp
    · rw [if_neg (Ne.symm hname), if_neg hname, Option.or_none]

/-- **A name keeps what it has, else it gets what is registered first.** -/
theorem get?_registerAll (outs : Nat → Outcome) (registry : Registry NativeType) (order : List Nat) (name : String) :
    (registerAll outs registry order).get? name =
      (registry.get? name).or (order.findSome? fun i => registers name (outs i)) := by
  induction order generalizing registry with
  | nil => exact (Option.or_none).symm
  | cons i order ih =>
    show (registerAll outs (registerOutcome registry (outs i)) order).get? name = _
    rw [ih, get?_registerOutcome, Option.or_assoc, List.findSome?_cons]
    cases registers name (outs i) <;> rfl

/-! ## Classes that have come as far as something -/

/-- The list has the classes whose calls have come as far as `reached` says, each once. -/
structure Lists (calls : Nat → Option Call) (reached : Call → Bool) (positions : List Nat) : Prop where
  nodup : positions.Nodup
  mem_iff : ∀ i, i ∈ positions ↔ ∃ call, calls i = some call ∧ reached call

namespace Lists

variable {reached : Call → Bool} {positions : List Nat}

theorem setCall_of_eq (h : Lists s.calls reached positions) (hold : s.calls i = some old)
    (hreached : reached call = reached old) : Lists (s.setCall i call).calls reached positions where
  nodup := h.nodup
  mem_iff j := by
    rw [h.mem_iff, LayerState.calls_setCall]
    by_cases hji : j = i
    · simp [hji, hold, hreached]
    · rw [if_neg hji]

theorem setCall_concat (h : Lists s.calls reached positions) (hold : s.calls i = some old) (hnot : ¬reached old)
    (hreached : reached call) : Lists (s.setCall i call).calls reached (positions ++ [i]) where
  nodup := by
    refine List.nodup_append.mpr ⟨h.nodup, List.nodup_singleton i, fun j hj k hk hjk => ?_⟩
    obtain rfl := hjk.trans (List.mem_singleton.mp hk)
    obtain ⟨call', hcall', hr⟩ := (h.mem_iff j).mp hj
    cases hold.symm.trans hcall'
    exact hnot hr
  mem_iff j := by
    rw [List.mem_append, List.mem_singleton, h.mem_iff, LayerState.calls_setCall]
    by_cases hji : j = i
    · simp [hji, hreached]
    · simp [hji]

theorem perm (h : Lists s.calls reached positions) (hnodup : layer.Nodup)
    (hlayer : ∀ i call, s.calls i = some call → i ∈ layer)
    (hall : ∀ i ∈ layer, ∃ call, s.calls i = some call ∧ reached call) : positions.Perm layer := by
  refine (List.perm_ext_iff_of_nodup h.nodup hnodup).mpr fun i => ⟨fun hi => ?_, fun hi => (h.mem_iff i).mpr (hall i hi)⟩
  obtain ⟨call, hcall, -⟩ := (h.mem_iff i).mp hi
  exact hlayer i call hcall

end Lists

namespace Call

/-- The bases have been looked up, and the class has its outcome. -/
def isReported : Call → Bool
  | .resolving _ _ => false
  | .compiled _ | .ended _ => true

/-- A finished type is registered. -/
def isEnded : Call → Bool
  | .ended _ => true
  | .resolving _ _ | .compiled _ => false

end Call

/-! ## Steps -/

namespace LayerState

/-- What the classes of a layer have left behind after any number of steps. -/
structure Traced (o : CompileOptions) (registry : Registry NativeType) (decls : List ClassDecl) (p : Progress)
    (s : LayerState) (reported registered : List Nat) : Prop where
  events : s.events = p.events ++ reported.flatMap (eventsAt o registry decls)
  registry : s.registry = registerAll (outcomeAt o registry decls) p.registry registered
  reported : Lists s.calls Call.isReported reported
  registered : Lists s.calls Call.isEnded registered

theorem traced_ofLayer (o : CompileOptions) (registry : Registry NativeType) (decls : List ClassDecl) (p : Progress)
    (layer : List Nat) : (ofLayer decls p layer).Traced o registry decls p [] [] where
  events := (List.append_nil _).symm
  registry := rfl
  reported := ⟨List.nodup_nil, fun i => by simp [ofLayer, Call.isReported]⟩
  registered := ⟨List.nodup_nil, fun i => by simp [ofLayer, Call.isEnded]⟩

/-- **One step** reports at most one class and registers at most one. -/
theorem Traced.advance (ho : o.backend.IsRegular) (hp : p.IsSound o registry decls) (hdue : IsDue decls p layer)
    (hs : s.IsSound o registry decls p layer) (h : s.Traced o registry decls p reported registered) (i : Nat) :
    ∃ reported' registered', (s.advance o decls p.outcomes i).Traced o registry decls p reported' registered' := by
  unfold LayerState.advance
  split
  next found name rest d hcall hd =>
    obtain ⟨hi, hfits⟩ := hs.calls i _ hcall
    cases hfits with
    | @resolving d' before _ _ hd' hnames hbases =>
    cases hd.symm.trans hd'
    have hname : name ∈ d.baseNames := hnames ▸ List.mem_append_right before List.mem_cons_self
    rw [resolveBase_eq hs.agrees fun j hj => (hdue i hi).2 j ⟨d, name, hd, hname, hj⟩]
    split
    next b hb =>
      exact ⟨_, _, h.events, h.registry, h.reported.setCall_of_eq hcall rfl, h.registered.setCall_of_eq hcall rfl⟩
    next e he =>
      -- a class over a failed base reports nothing and is not registered
      have hown := hp.compileBound_known ho hdue hi hd
      rw [hnames, mapM_append_error hbases he rest, compileBound, Prod.mk.injEq] at hown
      refine ⟨reported ++ [i], registered ++ [i], ?_, ?_, ?_, ?_⟩
      · rw [List.flatMap_append, List.flatMap_singleton, ← hown.2, List.append_nil]
        exact h.events
      · rw [registerAll_concat, ← hown.1]
        exact h.registry
      · exact h.reported.setCall_concat hcall Bool.false_ne_true rfl
      · exact h.registered.setCall_concat hcall Bool.false_ne_true rfl
  next found d hcall hd =>
    obtain ⟨hi, hfits⟩ := hs.calls i _ hcall
    cases hfits with
    | @resolving d' before _ _ hd' hnames hbases =>
    cases hd.symm.trans hd'
    have hown := hp.compileBound_known ho hdue hi hd
    rw [hnames, List.append_nil, hbases] at hown
    refine ⟨reported ++ [i], registered, ?_, ?_, ?_, ?_⟩
    · rw [List.flatMap_append, List.flatMap_singleton, ← List.append_assoc, ← h.events, hown]
    · exact h.registry
    · exact h.reported.setCall_concat hcall Bool.false_ne_true rfl
    · exact h.registered.setCall_of_eq hcall rfl
  next out hcall =>
    obtain ⟨hi, hfits⟩ := hs.calls i _ hcall
    cases hfits with
    | compiled hout =>
    refine ⟨reported, registered ++ [i], h.events, ?_, ?_, ?_⟩
    · rw [registerAll_concat, hout.outcomeAt_eq ho, ← h.registry]
    · exact h.reported.setCall_of_eq hcall rfl
    · exact h.registered.setCall_concat hcall Bool.false_ne_true rfl
  · exact ⟨_, _, h⟩

/-- **All steps of a schedule.** -/
theorem Traced.run (ho : o.backend.IsRegular) (hp : p.IsSound o registry decls) (hdue : IsDue decls p layer)
    (hs : s.IsSound o registry decls p layer) (h : s.Traced o registry decls p reported registered)
    (schedule : List Nat) :
    ∃ reported' registered', (s.run o decls p.outcomes schedule).Traced o registry decls p reported' registered' := by
  induction schedule generalizing s reported registered with
  | nil => exact ⟨_, _, h⟩
  | cons i schedule ih =>
    obtain ⟨_, _, h'⟩ := h.advance ho hp hdue hs i
    exact ih (hs.advance ho hp hdue i) h'

theorem Traced.perm (hs : s.IsSound o registry decls p layer) (h : s.Traced o registry decls p reported registered)
    (hnodup : layer.Nodup) (hcomplete : s.isComplete layer) : reported.Perm layer ∧ registered.Perm layer := by
  have hended : ∀ i ∈ layer, ∃ out, s.calls i = some (.ended out) := fun i hi => by
    obtain ⟨out, hout⟩ := Option.isSome_iff_exists.mp (List.all_eq_true.mp hcomplete i hi)
    exact ⟨out, ended?_eq_some_iff.mp hout⟩
  have hlayer := fun i call hcall => (hs.calls i call hcall).1
  refine ⟨h.reported.perm hnodup hlayer fun i hi => ?_, h.registered.perm hnodup hlayer fun i hi => ?_⟩
  all_goals
    obtain ⟨out, hout⟩ := hended i hi
    exact ⟨_, hout, rfl⟩

end LayerState

/-! ## All layers -/

/-- **What all layers leave behind**: the events of each class and its type, as if the classes of each layer had
been dealt with one after another. Their order need not be the same for both. -/
theorem Interleaves.traced (ho : o.backend.IsRegular) {rest : List (List Nat)} (h : Interleaves o decls p rest q)
    (hp : p.Awaits o registry decls rest) :
    ∃ reported registered : List (List Nat), List.Forall₂ List.Perm reported rest ∧
      List.Forall₂ List.Perm registered rest ∧
      q.events = p.events ++ reported.flatten.flatMap (eventsAt o registry decls) ∧
      q.registry = registerAll (outcomeAt o registry decls) p.registry registered.flatten := by
  induction h with
  | nil p => exact ⟨[], [], .nil, .nil, (List.append_nil _).symm, rfl⟩
  | @cons p q layer rest s schedule hrun hcomplete _ ih =>
    have hs := hrun ▸ hp.isSound_run ho schedule
    obtain ⟨reported, registered, htraced⟩ := (LayerState.traced_ofLayer o registry decls p layer).run ho hp.isSound
      hp.isDue (LayerState.isSound_ofLayer hp.isSound layer) schedule
    rw [hrun] at htraced
    obtain ⟨hreported, hregistered⟩ := htraced.perm hs hp.nodup hcomplete
    obtain ⟨reports, registers, hreports, hregisters, hevents, hregistry⟩ := ih (hp.next hs hcomplete)
    refine ⟨reported :: reports, registered :: registers, .cons hreported hreports, .cons hregistered hregisters, ?_, ?_⟩
    · rw [hevents, List.flatten_cons, List.flatMap_append, ← List.append_assoc, ← htraced.events]
      rfl
    · rw [hregistry, List.flatten_cons, registerAll_append, ← htraced.registry]
      rfl

/-! ## One class after another -/

theorem foldl_compileNext_registry (ho : o.backend.IsRegular) (hp : p.IsSound o registry decls)
    (hdue : IsDue decls p layer) (htodo : ∀ i ∈ todo, i ∈ layer ∧ i < decls.length)
    (hq : AgreesOutside decls registry q.registry) :
    (todo.foldl (compileNext o decls p.outcomes) q).registry =
      registerAll (outcomeAt o registry decls) q.registry todo := by
  induction todo generalizing q with
  | nil => rfl
  | cons i todo ih =>
    obtain ⟨⟨hi, hlt⟩, htodo⟩ := List.forall_mem_cons.mp htodo
    have hd := List.getElem?_eq_getElem hlt
    have hbases : resolveBases q.registry decls p.outcomes decls[i] =
        decls[i].baseNames.mapM (baseOf registry decls (known p.outcomes) decls[i]) :=
      mapM_congr fun name hname => resolveBase_eq hq fun j hj => (hdue i hi).2 j ⟨_, name, hd, hname, hj⟩
    have hregistry : (compileNext o decls p.outcomes q i).registry =
        registerOutcome q.registry (outcomeAt o registry decls i) := by
      simp only [compileNext, hd, hbases, hp.compileBound_known ho hdue hi hd]
    have hagrees : AgreesOutside decls registry (compileNext o decls p.outcomes q i).registry := by
      rw [hregistry]
      exact hq.registerOutcome ho (hasOutcome_outcomeAt ho hlt)
    rw [List.foldl_cons, ih htodo hagrees, hregistry]
    rfl

/-- **Every choice of orders within the layers occurs.** -/
theorem compileLayers_registry (ho : o.backend.IsRegular) {orders rest : List (List Nat)}
    (horders : List.Forall₂ List.Perm orders rest) (hp : p.Awaits o registry decls rest) :
    (compileLayers o decls p orders).registry =
      registerAll (outcomeAt o registry decls) p.registry orders.flatten := by
  induction horders generalizing p with
  | nil => rfl
  | @cons todo layer orders rest htodo _ ih =>
    obtain ⟨schedule, hcomplete, hprogress⟩ := exists_schedule_of_perm hp.basesFirst htodo o p
    have hnext := hp.next (hp.isSound_run ho schedule) hcomplete
    rw [hprogress] at hnext
    have hlayer : (compileLayer o decls p todo).registry = registerAll (outcomeAt o registry decls) p.registry todo :=
      foldl_compileNext_registry ho hp.isSound hp.isDue
        (fun i hi => ⟨htodo.mem_iff.mp hi, hp.lt_length (htodo.mem_iff.mp hi)⟩) hp.isSound.agrees
    rw [List.flatten_cons, registerAll_append, ← hlayer]
    exact ih hnext

end NativeClass.Module
