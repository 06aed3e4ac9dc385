import NativeClass.CommandLine.Run
import NativeClass.Proofs.Module.Counters
/-!
# What the exit code tells

The files of a command line are compiled one after another, until there are as many errors as the configuration
allows. The exit code is zero if there was none.

* `Compiles`: a file compiled, the steps of its module in any order.
* `Runs`: files compiled in order, with the result of each; `exists_runs_compileFiles`: the loop is such a run.
* `Runs.errorCount_eq`, `Runs.eq_or_reached`, `Runs.lt_limit`: how many errors there are, and when a run ends.
* `Compiles.errorCount_eq_zero_iff`: a file without errors was read, parsed and compiled as a whole.
* **`exitCode_tells`**: what the exit code says about the files.
-/

namespace NativeClass

open NativeClass.Module (SourceResult Interleaves start layers baseGraph markedClasses reportOf)

/-- The number of errors that a file adds. -/
def Module.SourceResult.errorCount (r : SourceResult) : Nat :=
  match r.report with
  | .ok report => report.errors.length
  | .error _ => 1

namespace CommandLine

variable {o : CompileOptions} {registry : Registry NativeType} {limit : Nat} {p q : Progress} {f : SourceFile}
  {files : List SourceFile} {r : SourceResult} {trace : List (SourceFile × SourceResult)}

/-! ## Runs -/

/-- A file compiled, the steps of its module in some order within the layers. -/
inductive Compiles (o : CompileOptions) (registry : Registry NativeType) (f : SourceFile) : SourceResult → Prop
  | unreadable {problem : FileProblem} (text : f.text = .error problem) :
    Compiles o registry f ⟨.error (.parse (f.path ++ ": " ++ problem.message)), registry, []⟩
  | malformed {source : String} {e : CompileError} (text : f.text = .ok source)
      (parsed : markedClasses f.path source = .error e) : Compiles o registry f ⟨.error e, registry, []⟩
  | parsed {source : String} {decls : List ClassDecl} {q : Module.Progress} (text : f.text = .ok source)
      (parsed : markedClasses f.path source = .ok decls)
      (order : Interleaves o decls (start registry decls) (layers (baseGraph decls)) q) :
    Compiles o registry f ⟨.ok (reportOf f.path decls q), q.registry, q.events ++ [.timed "module"]⟩

/-- One more file, with its result. -/
def Progress.record (p : Progress) (f : SourceFile) (r : SourceResult) : Progress :=
  match r.report with
  | .ok report => ⟨r.registry, p.reports ++ [report], p.rejected, p.events ++ r.events⟩
  | .error e => ⟨r.registry, p.reports, p.rejected ++ [(f.path, e)], p.events ++ r.events⟩

/-- Files compiled in order, and the result of each. There is no further file once the number of errors reaches the
limit. -/
inductive Runs (limit : Nat) :
    CompileOptions → Progress → List SourceFile → List (SourceFile × SourceResult) → Progress → Prop
  | nil (o : CompileOptions) (p : Progress) : Runs limit o p [] [] p
  | stop {o : CompileOptions} {p : Progress} {f : SourceFile} {files : List SourceFile} {r : SourceResult}
      (compiles : Compiles (o.part 0) p.registry f r) (reached : limit ≤ (p.record f r).errorCount) :
    Runs limit o p (f :: files) [(f, r)] (p.record f r)
  | next {o : CompileOptions} {p q : Progress} {f : SourceFile} {files : List SourceFile} {r : SourceResult}
      {trace : List (SourceFile × SourceResult)} (compiles : Compiles (o.part 0) p.registry f r)
      (below : (p.record f r).errorCount < limit) (rest : Runs limit (o.part 1) (p.record f r) files trace q) :
    Runs limit o p (f :: files) ((f, r) :: trace) q

theorem compiles_compileFile (o : CompileOptions) (registry : Registry NativeType) (f : SourceFile) :
    Compiles o registry f (compileFile o registry f) := by
  unfold compileFile
  split
  next source htext =>
    rw [Module.compileSource]
    split
    next e he => exact .malformed htext he
    next decls hdecls =>
      obtain ⟨q, hq, hresult⟩ := Module.interleaves_compileClasses o registry decls
      rw [hresult]
      exact .parsed htext hdecls hq
  next problem htext => exact .unreadable htext

/-- **The loop over the files is a run.** -/
theorem exists_runs_compileFiles (o : CompileOptions) (limit : Nat) (p : Progress) (files : List SourceFile) :
    ∃ trace, Runs limit o p files trace (compileFiles o limit p files) := by
  induction files generalizing o p with
  | nil => exact ⟨[], .nil o p⟩
  | cons f files ih =>
    have hcompiles := compiles_compileFile (o.part 0) p.registry f
    rw [compileFiles]
    split
    next hreached => exact ⟨_, .stop hcompiles hreached⟩
    next hbelow =>
      obtain ⟨trace, hrest⟩ := ih (o.part 1) (compileNext (o.part 0) p f)
      exact ⟨_, .next hcompiles (Nat.lt_of_not_le hbelow) hrest⟩

/-! ## The number of errors -/

/-- The number of errors in the results. -/
def errorsIn (trace : List (SourceFile × SourceResult)) : Nat :=
  (trace.map fun e => e.2.errorCount).sum

@[simp] theorem errorsIn_nil : errorsIn [] = 0 := rfl

@[simp] theorem errorsIn_cons (e : SourceFile × SourceResult) (trace : List (SourceFile × SourceResult)) :
    errorsIn (e :: trace) = e.2.errorCount + errorsIn trace := by
  simp [errorsIn]

theorem errorsIn_eq_zero_iff : errorsIn trace = 0 ↔ ∀ e ∈ trace, e.2.errorCount = 0 := by
  induction trace with
  | nil => simp
  | cons e trace ih => rw [errorsIn_cons, Nat.add_eq_zero_iff, ih, List.forall_mem_cons]

theorem Progress.errorCount_eq (p : Progress) :
    p.errorCount = (p.reports.map fun r => r.errors.length).sum + p.rejected.length := by
  rw [errorCount]
  induction p.reports with
  | nil => simp
  | cons r reports ih => simp [ih, Nat.add_assoc]

theorem Progress.errorCount_record (p : Progress) (f : SourceFile) (r : SourceResult) :
    (p.record f r).errorCount = p.errorCount + r.errorCount := by
  rw [errorCount_eq, errorCount_eq, record, SourceResult.errorCount]
  cases r.report with
  | ok report => simp [Nat.add_right_comm]
  | error e => simp [Nat.add_assoc]

namespace Runs

theorem errorCount_eq (h : Runs limit o p files trace q) : q.errorCount = p.errorCount + errorsIn trace := by
  induction h with
  | nil o p => simp
  | stop _ _ => simp [Progress.errorCount_record]
  | next _ _ _ ih => rw [ih, Progress.errorCount_record, errorsIn_cons, Nat.add_assoc]

/-! ## The end of a run -/

theorem isPrefix (h : Runs limit o p files trace q) : trace.map Prod.fst <+: files := by
  induction h with
  | nil o p => exact List.prefix_rfl
  | stop _ _ => exact List.cons_prefix_cons.mpr ⟨rfl, List.nil_prefix⟩
  | next _ _ _ ih => exact List.cons_prefix_cons.mpr ⟨rfl, ih⟩

/-- A run leaves files out only if there are as many errors as the limit allows. -/
theorem eq_or_reached (h : Runs limit o p files trace q) : trace.map Prod.fst = files ∨ limit ≤ q.errorCount := by
  induction h with
  | nil o p => exact Or.inl rfl
  | stop _ hreached => exact Or.inr hreached
  | next _ _ _ ih =>
    rcases ih with heq | hreached
    · exact Or.inl (by rw [List.map_cons, heq])
    · exact Or.inr hreached

/-- Before the last file the limit was not reached. -/
theorem lt_limit (h : Runs limit o p files trace q) {before after : List (SourceFile × SourceResult)}
    {e : SourceFile × SourceResult} (htrace : trace = before ++ e :: after) (hne : before ≠ []) :
    p.errorCount + errorsIn before < limit := by
  induction h generalizing before with
  | nil o p => simp at htrace
  | stop _ _ =>
    cases before with
    | nil => exact absurd rfl hne
    | cons first before => simp at htrace
  | @next o p q f files r trace _ hbelow _ ih =>
    cases before with
    | nil => exact absurd rfl hne
    | cons first before =>
      obtain ⟨rfl, hrest⟩ := List.cons.inj htrace
      rw [Progress.errorCount_record] at hbelow ih
      rw [errorsIn_cons, ← Nat.add_assoc]
      cases before with
      | nil => exact hbelow
      | cons second before => exact ih hrest (List.cons_ne_nil second before)

/-- With no errors allowed, the first file is also the last one. -/
theorem eq_take_one (h : Runs 0 o p files trace q) : trace.map Prod.fst = files.take 1 := by
  cases h with
  | nil => rfl
  | stop _ _ => rfl
  | next _ hbelow _ => exact absurd hbelow (Nat.not_lt_zero _)

/-- Every file is compiled with these options, but with the local names in an order of its own. -/
theorem exists_compiles (h : Runs limit o p files trace q) {e : SourceFile × SourceResult} (he : e ∈ trace) :
    ∃ order registry, Compiles (o.inOrder order) registry e.1 e.2 := by
  induction h with
  | nil o p => cases he
  | stop hcompiles _ =>
    cases List.mem_singleton.mp he
    exact ⟨_, _, hcompiles⟩
  | next hcompiles _ _ ih =>
    rcases List.mem_cons.mp he with rfl | he
    · exact ⟨_, _, hcompiles⟩
    · exact ih he

end Runs

/-! ## Files without errors -/

/-- The file was read and parsed, and all its marked classes were compiled. -/
def IsCompiled (f : SourceFile) (r : SourceResult) : Prop :=
  ∃ source decls report, f.text = .ok source ∧ markedClasses f.path source = .ok decls ∧ r.report = .ok report ∧
    report.classes.map Prod.fst = decls.map ClassDecl.name ∧ ∀ e ∈ report.classes, ∃ t, e.2 = .ok t

theorem errors_eq_nil_iff {report : Module.Report} :
    report.errors = [] ↔ ∀ e ∈ report.classes, ∃ t, e.2 = .ok t := by
  rw [Module.Report.errors, List.filterMap_eq_nil_iff]
  refine forall₂_congr fun e _ => ?_
  cases e.2 <;> simp [Module.Report.error?]

/-- **A file adds no error exactly if it was compiled as a whole.** -/
theorem Compiles.errorCount_eq_zero_iff (ho : o.backend.IsRegular) (h : Compiles o registry f r) :
    r.errorCount = 0 ↔ IsCompiled f r := by
  constructor
  · intro hzero
    cases h with
    | unreadable _ => cases hzero
    | malformed _ _ => cases hzero
    | @parsed source decls q htext hparsed horder =>
      have hnames : (reportOf f.path decls q).classes.map Prod.fst = decls.map ClassDecl.name :=
        List.map_fst_zip (by rw [horder.length_reported ho, List.length_map])
      have herrors : (reportOf f.path decls q).errors = [] := List.length_eq_zero_iff.mp hzero
      exact ⟨source, decls, _, htext, hparsed, rfl, hnames, errors_eq_nil_iff.mp herrors⟩
  · rintro ⟨source, decls, report, -, -, hreport, -, hclasses⟩
    rw [SourceResult.errorCount, hreport]
    exact List.length_eq_zero_iff.mpr (errors_eq_nil_iff.mpr hclasses)

/-! ## The exit code -/

theorem exitCode_outputOf (a : Arguments) (c : Config) (p : Progress) (fileCount : Nat) :
    (outputOf a c p fileCount).exitCode = if p.errorCount = 0 then 0 else 1 := by
  have hplain : ∀ color,
      (plainOutput color p fileCount).exitCode = if p.errorCount = 0 then 0 else 1 := fun color => by
    unfold plainOutput
    split <;> rfl
  unfold outputOf
  dsimp only
  split <;> split
  · rfl
  · exact hplain _
  · rfl
  · exact hplain _

/-- What an exit code says about a list of files of which those in the trace were compiled. -/
structure ExitTells (limit : Nat) (files : List SourceFile) (trace : List (SourceFile × SourceResult)) (code : Nat) :
    Prop where
  /-- The files that were compiled stand in front, in order. -/
  inOrder : trace.map Prod.fst <+: files
  /-- Zero: each of them was compiled as a whole. -/
  zero : code = 0 ↔ ∀ e ∈ trace, IsCompiled e.1 e.2
  /-- Zero: no file was left out, but a limit of zero leaves out all files after the first one. -/
  complete : code = 0 → (trace.map Prod.fst = files ↔ limit ≠ 0 ∨ files.length ≤ 1)
  /-- One: there was an error. -/
  one : code = 1 ↔ 0 < errorsIn trace
  binary : code = 0 ∨ code = 1
  /-- Files are left out only if there are as many errors as the limit allows. -/
  cutShort : trace.map Prod.fst ≠ files → limit ≤ errorsIn trace
  /-- There were fewer before the last file. -/
  below : ∀ before e after, trace = before ++ e :: after → before ≠ [] → errorsIn before < limit

theorem Runs.exitTells (ho : o.backend.IsRegular) (h : Runs limit o p files trace q) (hp : p.errorCount = 0) :
    ExitTells limit files trace (if q.errorCount = 0 then 0 else 1) := by
  have hcount : q.errorCount = errorsIn trace := by rw [h.errorCount_eq, hp, Nat.zero_add]
  have hcut : trace.map Prod.fst ≠ files → limit ≤ errorsIn trace := fun hne => by
    rw [← hcount]
    exact h.eq_or_reached.resolve_left hne
  have hzero : (if q.errorCount = 0 then 0 else 1) = 0 ↔ errorsIn trace = 0 := by
    rw [hcount]
    split <;> simp [*]
  refine ⟨h.isPrefix, ?_, fun hcode => ?_, ?_, ?_, hcut, fun before e after htrace hne => ?_⟩
  · rw [hzero, errorsIn_eq_zero_iff]
    refine forall₂_congr fun e he => ?_
    obtain ⟨order, registry, hcompiles⟩ := h.exists_compiles he
    exact Compiles.errorCount_eq_zero_iff (o := o.inOrder order) ho hcompiles
  · by_cases hlimit : limit = 0
    · subst hlimit
      simp [h.eq_take_one, List.take_eq_self_iff]
    · have hall : trace.map Prod.fst = files := by
        by_contra hne
        have := hcut hne
        have := hzero.mp hcode
        omega
      simp [hall, hlimit]
  · rw [hcount]
    split <;> omega
  · split <;> simp
  · have := h.lt_limit htrace hne
    omega

/-- **What the exit code says**, of a run in any order of the steps and of the local names and with any types
registered before, and of the files that a command line names. -/
theorem exitCode_tells (a : Arguments) (order : LocalOrder) :
    (∀ (c : Config) (registry : Registry NativeType) (files : List SourceFile)
      (trace : List (SourceFile × SourceResult)) (q : Progress),
      Runs c.errors.maxErrors (optionsOf c order) ⟨registry, [], [], []⟩ files trace q →
        ExitTells c.errors.maxErrors files trace (outputOf a c q files.length).exitCode) ∧
    ∀ (root : FileTree) (cwd : List String) (out : Output), compile root cwd a order = .ok out →
      ∃ c paths trace, configOf root cwd a = .ok c ∧ collectFiles root cwd c a.paths = .ok paths ∧
        Runs c.errors.maxErrors (optionsOf c order) .empty (paths.map (SourceFile.read root cwd)) trace
          (compileAll c (paths.map (SourceFile.read root cwd)) order) ∧
        ExitTells c.errors.maxErrors (paths.map (SourceFile.read root cwd)) trace out.exitCode := by
  have htells : ∀ (c : Config) registry files trace q,
      Runs c.errors.maxErrors (optionsOf c order) ⟨registry, [], [], []⟩ files trace q →
        ExitTells c.errors.maxErrors files trace (outputOf a c q files.length).exitCode :=
    fun c registry files trace q h => by
      rw [exitCode_outputOf]
      exact h.exitTells Backend.isRegular_reference rfl
  refine ⟨htells, fun root cwd out hout => ?_⟩
  obtain ⟨c, hc, hout⟩ := bind_eq_ok_iff.mp hout
  obtain ⟨paths, hpaths, hout⟩ := bind_eq_ok_iff.mp hout
  cases hout
  obtain ⟨trace, hruns⟩ := exists_runs_compileFiles (optionsOf c order) c.errors.maxErrors .empty
    (paths.map (SourceFile.read root cwd))
  exact ⟨c, paths, trace, hc, hpaths, hruns, htells c _ _ _ _ hruns⟩

end CommandLine

namespace Sample

/-- A file with a marked class and one that is no module. -/
def shapeFiles : List CommandLine.SourceFile :=
  [⟨"shape.py", .ok "@jit\nclass Shape:\n    x: int\n"⟩, ⟨"draft.py", .ok "class :\n"⟩]

end Sample

namespace CommandLine

open Sample (shapeFiles)

theorem exitCode_tells_shapeFiles :
    ∃ trace, Runs 100 (optionsOf {}) .empty shapeFiles trace (compileAll {} shapeFiles) ∧
      ExitTells 100 shapeFiles trace 1 := by
  obtain ⟨trace, hruns⟩ := exists_runs_compileFiles (optionsOf {}) 100 .empty shapeFiles
  have hcode : (outputOf default {} (compileAll {} shapeFiles) 2).exitCode = 1 := by decide +kernel
  have htells := (exitCode_tells default .asInserted).1 {} .empty shapeFiles trace (compileAll {} shapeFiles) hruns
  rw [← hcode]
  exact ⟨trace, hruns, htells⟩

/-- With no errors allowed, files are left out though there is no error. -/
theorem not_isCompiled_shapeFiles :
    ¬ ∀ (a : Arguments) (c : Config) (files : List SourceFile),
      (outputOf a c (compileAll c files) files.length).exitCode = 0 → ∀ f ∈ files, ∃ r, IsCompiled f r := by
  intro h
  have hcode : (outputOf default { errors := { maxErrors := 0 } }
      (compileAll { errors := { maxErrors := 0 } } shapeFiles) 2).exitCode = 0 := by decide +kernel
  obtain ⟨r, source, decls, report, htext, hparsed, -⟩ := h default _ shapeFiles hcode
    ⟨"draft.py", .ok "class :\n"⟩ (List.mem_cons_of_mem _ List.mem_cons_self)
  cases htext
  have hmalformed : (markedClasses "draft.py" "class :\n").isOk = false := by decide +kernel
  rw [hparsed] at hmalformed
  cases hmalformed

end CommandLine

end NativeClass
