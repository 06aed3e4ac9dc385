import NativeClass.Proofs.Module.Driver
/-!
# The base that an error names

An error about the bases of a class names one of them. That of a failed base names a base that has failed. That
of a cycle names the first base that is a class of the module, and this one need not be on the cycle.

* `IsFirst`: the first name of a list that has a property.
* `IsGuilty`: a base on the same cycle as its class; `OnCycle.exists_isFirst`: there always is one.
* `HasOutcome.names_of_cycle`, `HasOutcome.names_of_failed`: the base that an error names.
* **`compileClasses_blamesBases`**: whom the errors of a module blame, in any order of the steps.
-/

namespace NativeClass

namespace Module

open Relation (TransGen ReflTransGen)

variable {o : CompileOptions} {registry : Registry NativeType} {decls : List ClassDecl} {outcomes : List Outcome}
  {p q : String → Prop} {names : List String} {c base name name' kind : String} {d : ClassDecl} {i j : Nat}

/-! ## The first name that has a property -/

/-- The name is the first one in the list that has the property. -/
def IsFirst (p : String → Prop) (names : List String) (name : String) : Prop :=
  ∃ before after, names = before ++ name :: after ∧ p name ∧ ∀ n ∈ before, ¬p n

namespace IsFirst

theorem mem (h : IsFirst p names name) : name ∈ names := by
  obtain ⟨before, after, rfl, -, -⟩ := h
  exact List.mem_append_right before List.mem_cons_self

theorem prop (h : IsFirst p names name) : p name := by
  obtain ⟨_, _, -, hp, -⟩ := h
  exact hp

theorem iff_find? {test : String → Bool} : IsFirst (test ·) names name ↔ names.find? test = some name := by
  rw [List.find?_eq_some_iff_append, IsFirst]
  simp only [Bool.not_eq_true', Bool.not_eq_true]
  constructor
  · rintro ⟨before, after, hnames, hp, hbefore⟩
    exact ⟨hp, before, after, hnames, hbefore⟩
  · rintro ⟨hp, before, after, hnames, hbefore⟩
    exact ⟨before, after, hnames, hp, hbefore⟩

theorem eq (h : IsFirst p names name) (h' : IsFirst p names name') : name = name' := by
  classical
  have hfind : ∀ {n}, IsFirst p names n → names.find? (decide <| p ·) = some n := fun hn =>
    iff_find?.mp (by simpa only [decide_eq_true_eq] using hn)
  exact Option.some.inj ((hfind h).symm.trans (hfind h'))

/-- A property that fewer names have is had first by the same name, if this name has it. -/
theorem of_imp (h : IsFirst p names name) (hq : ∀ n, q n → p n) (hname : q name) : IsFirst q names name := by
  obtain ⟨before, after, hnames, -, hbefore⟩ := h
  exact ⟨before, after, hnames, hname, fun n hn hqn => hbefore n hn (hq n hqn)⟩

end IsFirst

theorem exists_isFirst (hname : name ∈ names) (h : p name) : ∃ name, IsFirst p names name := by
  classical
  have hsome : (names.find? (decide <| p ·)).isSome := List.find?_isSome.mpr ⟨name, hname, decide_eq_true h⟩
  obtain ⟨first, hfirst⟩ := Option.isSome_iff_exists.mp hsome
  exact ⟨first, by simpa only [decide_eq_true_eq] using IsFirst.iff_find?.mpr hfirst⟩

/-! ## The bases on a cycle -/

/-- The classes are ancestors of each other, or one and the same. -/
def SameComponent (decls : List ClassDecl) (i j : Nat) : Prop :=
  ReflTransGen (Derives decls) i j ∧ ReflTransGen (Derives decls) j i

/-- The name is that of a class of the module. -/
def IsInModule (decls : List ClassDecl) (name : String) : Prop :=
  (position? decls name).isSome

/-- The name is that of a class on the same cycle as class `i`. -/
def IsGuilty (decls : List ClassDecl) (i : Nat) (name : String) : Prop :=
  ∃ j, position? decls name = some j ∧ SameComponent decls i j

theorem IsGuilty.isInModule (h : IsGuilty decls i name) : IsInModule decls name := by
  obtain ⟨j, hj, -⟩ := h
  exact Option.isSome_iff_exists.mpr ⟨j, hj⟩

/-- **A class on a cycle has a base on the same cycle.** -/
theorem OnCycle.exists_isFirst (h : OnCycle decls i) (hd : decls[i]? = some d) :
    ∃ name, IsFirst (IsGuilty decls i) d.baseNames name := by
  obtain ⟨b, hb, hback⟩ := TransGen.head'_iff.mp h
  obtain ⟨d', name, hd', hname, hposition⟩ := hb
  cases hd.symm.trans hd'
  exact Module.exists_isFirst hname ⟨b, hposition, .single ⟨d, name, hd, hname, hposition⟩, hback⟩

theorem isFirst_of_cycleError (h : OnCycle decls i) (hd : decls[i]? = some d)
    (he : .ofBase c base .cycle = cycleError decls d) : c = d.name ∧ IsFirst (IsInModule decls) d.baseNames base := by
  obtain ⟨hc, hbase, -⟩ := CompileError.base.inj he
  obtain ⟨name, hguilty⟩ := h.exists_isFirst hd
  obtain ⟨first, hfirst⟩ := Module.exists_isFirst hguilty.mem hguilty.prop.isInModule
  have hfind : d.baseNames.find? (fun n => (position? decls n).isSome) = some first := IsFirst.iff_find?.mp hfirst
  rw [hbase, hfind]
  exact ⟨hc, hfirst⟩

/-! ## The base that an error names -/

namespace HasOutcome

/-- **The error of a cycle** names the first base that is a class of the module. -/
theorem names_of_cycle (ho : o.backend.IsRegular)
    (h : HasOutcome o registry decls i (.error (.ofBase c base .cycle))) (hd : decls[i]? = some d) :
    OnCycle decls i ∧ c = d.name ∧ IsFirst (IsInModule decls) d.baseNames base := by
  obtain ⟨-, hcycle⟩ := h.eq_cycle ho (Or.inl rfl)
  have herror := h.eq (.onCycle hd hcycle)
  exact ⟨hcycle, isFirst_of_cycleError hcycle hd (Except.error.inj herror)⟩

/-- **The error of a failed base** names the first base that has failed. -/
theorem names_of_failed (ho : o.backend.IsRegular)
    (h : HasOutcome o registry decls i (.error (.ofBase c base (.failed kind)))) (hd : decls[i]? = some d) :
    ¬OnCycle decls i ∧ c = d.name ∧
      (∃ j cause, position? decls base = some j ∧ HasOutcome o registry decls j (.error cause) ∧
        cause.kind = kind) ∧
      IsFirst (fun n => ∃ j cause, position? decls n = some j ∧ HasOutcome o registry decls j (.error cause))
        d.baseNames base := by
  generalize hout : (.error (.ofBase c base (.failed kind)) : Outcome) = out at h
  cases h with
  | onCycle hd' hcycle =>
    exact absurd (CompileError.base.inj (Except.error.inj hout)).2.2 (message_failed_ne kind (by simp))
  | @overBases i d' outs hd' hcycle hbases =>
    cases hd.symm.trans hd'
    cases hm : d.baseNames.mapM (baseOf registry decls outs d) with
    | ok bases =>
      simp only [outcomeOver, hm] at hout
      have hown : CompileError.IsOwn (.ofBase c base (.failed kind)) :=
        (BoundClass.ensures_isOwn (o := o.part i) ho _).of_error hout.symm
      exact absurd hown (message_failed_ne kind (by simp))
    | error e =>
      simp only [outcomeOver, hm] at hout
      obtain ⟨before, name, after, hnames, hbefore, hname⟩ := mapM_eq_error_iff.mp hm
      obtain ⟨j, cause, hj, hcause, rfl⟩ := exists_of_baseOf_eq_error hname
      obtain ⟨rfl, rfl, hkind⟩ := CompileError.base.inj (Except.error.inj hout)
      have hbase : ∀ n ∈ d.baseNames, ∀ k, position? decls n = some k →
          HasOutcome o registry decls k (outs k) :=
        fun n hn k hk => hbases k ⟨d, n, hd, hn, hk⟩
      have hmem : base ∈ d.baseNames := hnames ▸ List.mem_append_right before List.mem_cons_self
      have herror : HasOutcome o registry decls j (.error cause) := hcause ▸ hbase base hmem j hj
      refine ⟨hcycle, rfl, ⟨j, cause, hj, herror, (message_failed_injective hkind).symm⟩,
        before, after, hnames, ⟨j, cause, hj, herror⟩, ?_⟩
      rintro n hn ⟨k, cause', hk, hfailed⟩
      obtain ⟨b, hb⟩ := hbefore n hn
      have hout := hfailed.eq (hbase n (hnames ▸ List.mem_append_left _ hn) k hk)
      rw [baseOf, hk] at hb
      simp only [← hout] at hb
      cases hb

end HasOutcome

/-! ## The errors of a module -/

/-- The name is that of a class of the module that failed. -/
def HasFailed (decls : List ClassDecl) (outcomes : List Outcome) (name : String) : Prop :=
  ∃ j cause, position? decls name = some j ∧ outcomes[j]? = some (.error cause)

/-- Whom the errors about bases blame. -/
structure BlamesBases (decls : List ClassDecl) (outcomes : List Outcome) : Prop where
  length : outcomes.length = decls.length
  /-- The error of a cycle is that of a class on a cycle. It names the first base that is a class of the module. -/
  cycle : ∀ (i : Nat) (d : ClassDecl) (c base : String), decls[i]? = some d →
    outcomes[i]? = some (.error (.ofBase c base .cycle)) →
    OnCycle decls i ∧ c = d.name ∧ IsFirst (IsInModule decls) d.baseNames base
  /-- The class has a base on its cycle. The error blames such a base exactly if no class of the module stands in
  front of the first one. -/
  guilty : ∀ (i : Nat) (d : ClassDecl) (c base : String), decls[i]? = some d →
    outcomes[i]? = some (.error (.ofBase c base .cycle)) →
    ∃ name, IsFirst (IsGuilty decls i) d.baseNames name ∧
      (IsGuilty decls i base ↔ IsFirst (IsInModule decls) d.baseNames name)
  /-- The error of a failed base names the first base that failed, and the kind of its error. -/
  failed : ∀ (i : Nat) (d : ClassDecl) (c base kind : String), decls[i]? = some d →
    outcomes[i]? = some (.error (.ofBase c base (.failed kind))) →
    c = d.name ∧ IsFirst (HasFailed decls outcomes) d.baseNames base ∧
      ∃ j cause, position? decls base = some j ∧ outcomes[j]? = some (.error cause) ∧ cause.kind = kind

theorem isGuilty_iff_isFirst (hbase : IsFirst (IsInModule decls) d.baseNames base)
    (hname : IsFirst (IsGuilty decls i) d.baseNames name) :
    IsGuilty decls i base ↔ IsFirst (IsInModule decls) d.baseNames name := by
  constructor
  · intro h
    have hfirst := hbase.of_imp (fun _ => IsGuilty.isInModule) h
    rwa [← hfirst.eq hname]
  · intro h
    rw [hbase.eq h]
    exact hname.prop

theorem blamesBases_of_outcome (ho : o.backend.IsRegular) (hlen : outcomes.length = decls.length)
    (houtcome : ∀ i out, outcomes[i]? = some out ↔ HasOutcome o registry decls i out) :
    BlamesBases decls outcomes where
  length := hlen
  cycle i d c base hd hi := ((houtcome _ _).mp hi).names_of_cycle ho hd
  guilty i d c base hd hi := by
    obtain ⟨hcycle, -, hbase⟩ := ((houtcome _ _).mp hi).names_of_cycle ho hd
    obtain ⟨name, hname⟩ := hcycle.exists_isFirst hd
    exact ⟨name, hname, isGuilty_iff_isFirst hbase hname⟩
  failed i d c base kind hd hi := by
    obtain ⟨-, hc, hcause, hfirst⟩ := ((houtcome _ _).mp hi).names_of_failed ho hd
    simp only [← houtcome] at hcause hfirst
    exact ⟨hc, hfirst, hcause⟩

/-- **The base that an error names**, in the order of the module and in any order of the steps. -/
theorem compileClasses_blamesBases (ho : o.backend.IsRegular) (registry : Registry NativeType)
    (decls : List ClassDecl) :
    BlamesBases decls (compileClasses o registry decls).outcomes ∧
      ∀ q, Interleaves o decls (start registry decls) (layers (baseGraph decls)) q →
        BlamesBases decls (q.reported decls) :=
  ⟨blamesBases_of_outcome ho (length_compileClasses ho) fun _ _ => getElem?_compileClasses_iff ho,
    fun _ h => blamesBases_of_outcome ho (h.length_reported ho) fun _ _ => h.getElem?_reported_iff ho⟩

end Module

namespace Sample

/-- A cycle of two classes. The first one has a base in front that is on no cycle. -/
def tangle : List ClassDecl :=
  [node, declOf "Ping" [] ["Node", "Pong"], declOf "Pong" [] ["Ping"], declOf "Mixed" [] ["Node", "Ping"]]

end Sample

namespace Module

open Sample (options tangle)

theorem compileClasses_blamesBases_tangle :
    options.backend.IsRegular ∧ BlamesBases tangle (compileClasses options .empty tangle).outcomes ∧
      ∃ q, Interleaves options tangle (start .empty tangle) (layers (baseGraph tangle)) q ∧
        BlamesBases tangle (q.reported tangle) := by
  obtain ⟨hblames, hany⟩ :=
    compileClasses_blamesBases (o := options) Backend.isRegular_reference .empty tangle
  have hlayers : layers (baseGraph tangle) = [[0], [3]] := by decide +kernel
  obtain ⟨q, h⟩ : ∃ q, Interleaves options tangle (start .empty tangle) [[0], [3]] q :=
    ⟨_, .cons [0, 0] rfl (by decide +kernel) (.cons [3, 3] rfl (by decide +kernel) (.nil _))⟩
  rw [← hlayers] at h
  exact ⟨Backend.isRegular_reference, hblames, q, h, hany q h⟩

/-- The error of a cycle may blame a base that is on no cycle. -/
theorem not_isGuilty_tangle :
    ¬ ∀ (o : CompileOptions) (registry : Registry NativeType) (decls : List ClassDecl) (i : Nat) (c base : String),
      o.backend.IsRegular → (compileClasses o registry decls).outcomes[i]? = some (.error (.ofBase c base .cycle)) →
        IsGuilty decls i base := by
  intro h
  have hcycle : OnCycle tangle 1 := mem_cyclicClasses_baseGraph.mp (by decide +kernel)
  have herror : (compileClasses options .empty tangle).outcomes[1]? = some (.error (.ofBase "Ping" "Node" .cycle)) :=
    (getElem?_compileClasses_iff Backend.isRegular_reference).mpr (.onCycle rfl hcycle)
  obtain ⟨j, hj, -, hback⟩ := h options .empty tangle 1 "Ping" "Node" Backend.isRegular_reference herror
  have hnode : position? tangle "Node" = some 0 := by decide +kernel
  cases hnode.symm.trans hj
  -- the blamed class has no bases
  rcases Relation.ReflTransGen.cases_head hback with heq | ⟨b, ⟨d, name, hd, hname, -⟩, -⟩
  · cases heq
  · cases hd
    cases hname

end Module

end NativeClass
