import Mathlib.Logic.Relation
import NativeClass.Proofs.Inference.Resolution
import NativeClass.Proofs.Inference.Returns
/-!
# Blocks that terminate are never run off

Control passes through a body step by step. A test may come out either way, so a branch goes on with either of its
blocks and a loop makes any number of rounds; a compound statement or a definition may end in any way; and every
statement that is evaluated may fail, which leaves the function.

* `Control`, `Control.Step`: where control stands, and where it may go next.
* `Control.Closed`: every way from here comes to a block that terminates; **`Control.closed_of_step`**: no step gives
  this up, so no run does (`Control.closed_of_run`).
* **`Control.run_of_blockPath`**: each path through a block is a run of its control.
* `Inference.not_runsOffEnd`, `Inference.runsOffEnd_iff_of_isPlain`: the blocks that are not run off.
* **`Inference.never_falls_through`**: blocks that terminate, and the bodies of methods that must not return none.
-/

namespace NativeClass

open Python (Expr Stmt)
open Inference (blockTerminates terminates)

/-! ## Control -/

/-- A block around the one that control is in, with the statements that are left of it. -/
inductive Frame where
  /-- The statements behind a branch, or behind a loop that is done with its rounds. -/
  | after (rest : List Stmt)
  /-- The loop whose body control is in, and the statements behind it. -/
  | loop (stmt : Stmt) (rest : List Stmt)

/-- Where control stands in the body of a function. -/
inductive Control where
  /-- In front of the statements that are left of a block, within the blocks around it. -/
  | running (todo : List Stmt) (frames : List Frame)
  /-- Behind the body. It has been run off if the exit is `falls`. -/
  | ended (e : Exit)

/-- The ways in which a statement may end without one of its blocks being entered. -/
def Python.Stmt.mayEnd : Stmt → Exit → Bool
  | .ret .., e | .raise _, e | .branch .., e | .whileLoop .., e | .forLoop .., e => e = .leaves
  | .breakLoop _, e => e = .breaks
  | .continueLoop _, e => e = .continues
  | .compound .., _ | .functionDef .., _ | .classDef .., _ => true
  | _, e => e = .falls || e = .leaves

namespace Control

variable {c c' : Control} {stmt : Stmt} {todo rest block : List Stmt} {frames : List Frame} {e : Exit}

/-- Where control goes from a block that ends in some way. -/
def leave : List Frame → Exit → Control
  | [], e => .ended e
  | .after rest :: frames, .falls => .running rest frames
  | .after _ :: frames, e => leave frames e
  | .loop stmt rest :: frames, .falls | .loop stmt rest :: frames, .continues => .running (stmt :: rest) frames
  | .loop _ rest :: frames, .breaks => .running rest frames
  | .loop _ _ :: frames, .leaves => leave frames .leaves

/-- Where control goes from a statement that ends in some way. -/
def exit (rest : List Stmt) (frames : List Frame) : Exit → Control
  | .falls => .running rest frames
  | e => leave frames e

/-- Where control may go next. -/
inductive Step : Control → Control → Prop
  | ends {stmt : Stmt} {rest : List Stmt} {frames : List Frame} {e : Exit} (h : stmt.mayEnd e) :
    Step (.running (stmt :: rest) frames) (exit rest frames e)
  | branch {span : Python.Span} {test : Expr} {body orelse rest block : List Stmt} {frames : List Frame}
    (h : block = body ∨ block = orelse) :
    Step (.running (.branch span test body orelse :: rest) frames) (.running block (.after rest :: frames))
  /-- The test of a loop holds. -/
  | round {stmt : Stmt} {body orelse rest : List Stmt} {frames : List Frame} (h : stmt.loop? = some (body, orelse)) :
    Step (.running (stmt :: rest) frames) (.running body (.loop stmt rest :: frames))
  /-- The test of a loop fails. -/
  | done {stmt : Stmt} {body orelse rest : List Stmt} {frames : List Frame} (h : stmt.loop? = some (body, orelse)) :
    Step (.running (stmt :: rest) frames) (.running orelse (.after rest :: frames))
  | blockEnd {frames : List Frame} : Step (.running [] frames) (leave frames .falls)

/-- A run of control. -/
def Run : Control → Control → Prop :=
  Relation.ReflTransGen Step

/-! ## The invariant -/

/-- Control that falls out of the current block comes to a block that terminates. -/
def ClosedBehind : List Frame → Prop
  | [] => False
  | .after rest :: frames | .loop _ rest :: frames => blockTerminates rest ∨ ClosedBehind frames

/-- Control that breaks out of a loop comes to a block that terminates. -/
def LoopsClosed : List Frame → Prop
  | [] => True
  | .after _ :: frames => LoopsClosed frames
  | .loop _ rest :: frames => (blockTerminates rest ∨ ClosedBehind frames) ∧ LoopsClosed frames

/-- Every way from here comes to a block that terminates, or leaves the function. -/
def Closed : Control → Prop
  | .running todo frames => (blockTerminates todo ∨ ClosedBehind frames) ∧ LoopsClosed frames
  | .ended e => e ≠ .falls

theorem blockTerminates_cons_iff :
    blockTerminates (stmt :: rest) ↔ (rest = [] ∧ terminates stmt) ∨ blockTerminates rest := by
  cases rest with
  | nil => simp [blockTerminates]
  | cons next rest => simp [blockTerminates]

/-- Behind a statement that does not terminate, what is closed stays closed. -/
theorem closed_rest (hstmt : ¬ terminates stmt) (h : blockTerminates (stmt :: rest) ∨ ClosedBehind frames) :
    blockTerminates rest ∨ ClosedBehind frames :=
  h.imp_left fun h => (blockTerminates_cons_iff.mp h).resolve_left fun hlast => hstmt hlast.2

theorem closed_leave_falls (hbehind : ClosedBehind frames) (hloops : LoopsClosed frames) :
    (leave frames .falls).Closed := by
  cases frames with
  | nil => exact hbehind.elim
  | cons frame frames =>
    cases frame with
    | after rest => exact ⟨hbehind, hloops⟩
    | loop stmt rest =>
      exact ⟨hbehind.imp_left fun h => blockTerminates_cons_iff.mpr (Or.inr h), hloops.2⟩

theorem closed_leave (he : e ≠ .falls) (hloops : LoopsClosed frames) : (leave frames e).Closed := by
  induction frames with
  | nil => exact he
  | cons frame frames ih =>
    cases frame with
    | after rest =>
      cases e with
      | falls => exact absurd rfl he
      | leaves | breaks | continues => exact ih hloops
    | loop stmt rest =>
      cases e with
      | falls => exact absurd rfl he
      | leaves => exact ih hloops.2
      | breaks => exact hloops
      | continues =>
        exact ⟨hloops.1.imp_left fun h => blockTerminates_cons_iff.mpr (Or.inr h), hloops.2⟩

theorem not_mayEnd_falls_of_terminates (h : terminates stmt) : ¬ stmt.mayEnd .falls := by
  cases stmt <;> simp_all [terminates, Python.Stmt.mayEnd]

theorem not_terminates_of_loop {body orelse : List Stmt} (h : stmt.loop? = some (body, orelse)) :
    ¬ terminates stmt := by
  cases stmt <;> simp_all [terminates, Python.Stmt.loop?]

theorem exit_of_ne_falls (rest : List Stmt) (frames : List Frame) (he : e ≠ .falls) :
    exit rest frames e = leave frames e := by
  cases e with
  | falls => exact absurd rfl he
  | leaves | breaks | continues => rfl

/-- **No step gives up what is closed.** -/
theorem closed_of_step (hc : c.Closed) (h : Step c c') : c'.Closed := by
  cases h with
  | @ends stmt rest frames e hend =>
    by_cases he : e = .falls
    · subst he
      exact ⟨closed_rest (fun hterm => not_mayEnd_falls_of_terminates hterm hend) hc.1, hc.2⟩
    · rw [exit_of_ne_falls rest frames he]
      exact closed_leave he hc.2
  | @branch span test body orelse rest block frames hblock =>
    refine ⟨?_, hc.2⟩
    rcases hc.1 with h | hbehind
    · rcases blockTerminates_cons_iff.mp h with ⟨-, hstmt⟩ | hrest
      · rw [terminates, Bool.and_eq_true] at hstmt
        rcases hblock with rfl | rfl
        · exact Or.inl hstmt.1
        · exact Or.inl hstmt.2
      · exact Or.inr (Or.inl hrest)
    · exact Or.inr (Or.inr hbehind)
  | round hloop =>
    -- whatever the body does, what is behind the loop is closed
    have hrest := closed_rest (not_terminates_of_loop hloop) hc.1
    exact ⟨Or.inr hrest, hrest, hc.2⟩
  | done hloop => exact ⟨Or.inr (closed_rest (not_terminates_of_loop hloop) hc.1), hc.2⟩
  | blockEnd => exact closed_leave_falls (hc.1.resolve_left Bool.false_ne_true) hc.2

theorem closed_of_run (hc : c.Closed) (h : Run c c') : c'.Closed := by
  induction h with
  | refl => exact hc
  | tail _ hstep ih => exact closed_of_step ih hstep

/-! ## Paths are runs -/

theorem leave_after (rest : List Stmt) (frames : List Frame) (e : Exit) :
    leave (.after rest :: frames) e = exit rest frames e := by
  cases e <;> rfl

/-- **Each path through a block is a run of its control.** -/
theorem run_of_blockPath (h : BlockPath block e) (frames : List Frame) :
    Run (.running block frames) (leave frames e) := by
  refine @BlockPath.rec
    (fun stmt e _ => ∀ rest frames, Run (.running (stmt :: rest) frames) (exit rest frames e))
    (fun block e _ => ∀ frames, Run (.running block frames) (leave frames e))
    ?straight ?ret ?raise ?breakLoop ?continueLoop ?branchBody ?branchElse ?loopElse ?loopRound ?loopBreak ?loopLeave
    ?compound ?nil ?next ?stop block e h frames
  case straight =>
    intro stmt h rest frames
    refine .single (.ends ?_)
    cases stmt <;> simp_all [Python.Stmt.isStraight, Python.Stmt.mayEnd]
  case ret | raise | breakLoop | continueLoop | compound =>
    intros
    exact .single (.ends (by simp [Python.Stmt.mayEnd]))
  case branchBody => exact fun _ ih rest frames => .head (.branch (Or.inl rfl)) (leave_after rest frames _ ▸ ih _)
  case branchElse => exact fun _ ih rest frames => .head (.branch (Or.inr rfl)) (leave_after rest frames _ ▸ ih _)
  case loopElse => exact fun hl _ ih rest frames => .head (.done hl) (leave_after rest frames _ ▸ ih _)
  case loopRound =>
    intro stmt body orelse x e hl hx _ _ ihBody ihRest rest frames
    -- a round that falls out of the body and one that continues both go back to the test
    have hround : leave (.loop stmt rest :: frames) x = .running (stmt :: rest) frames := by
      rcases hx with rfl | rfl <;> rfl
    have hbody := ihBody (.loop stmt rest :: frames)
    rw [hround] at hbody
    exact .head (.round hl) (hbody.trans (ihRest rest frames))
  case loopBreak => exact fun hl _ ih rest frames => .head (.round hl) (ih _)
  case loopLeave => exact fun hl _ ih rest frames => .head (.round hl) (ih _)
  case nil => exact fun frames => .single .blockEnd
  case next => exact fun _ _ ih ihRest frames => (ih _ frames).trans (ihRest frames)
  case stop =>
    intro stmt rest e _ he ih frames
    have hstmt := ih rest frames
    rwa [exit_of_ne_falls rest frames he] at hstmt

end Control

/-! ## Blocks that are run off -/

mutual

/-- The statement has no dead code, and no `break` or `continue` that belongs to a loop around it. Loops have no else
clause. -/
def Python.Stmt.isPlain : Stmt → Bool
  | .branch _ _ body orelse => isPlainBlock body && isPlainBlock orelse
  | .whileLoop _ _ _ orelse | .forLoop _ _ _ _ orelse => orelse.isEmpty
  | .breakLoop _ | .continueLoop _ => false
  | _ => true

/-- The statements of a block are plain, and only the last one may leave the function on every path. -/
def Python.isPlainBlock : List Stmt → Bool
  | [] => true
  | [stmt] => stmt.isPlain
  | stmt :: next :: rest => !terminates stmt && stmt.isPlain && isPlainBlock (next :: rest)

end

namespace Inference

/-- Some run of a function body comes to its end. -/
def RunsOffEnd (block : List Stmt) : Prop :=
  Control.Run (.running block []) (.ended .falls)

theorem not_runsOffEnd {block : List Stmt} (h : blockTerminates block) : ¬ RunsOffEnd block := fun hrun =>
  Control.closed_of_run (c := .running block []) ⟨Or.inl h, trivial⟩ hrun rfl

mutual

theorem stmtPath_falls_of_isPlain {stmt : Stmt} (hplain : stmt.isPlain) (h : ¬ terminates stmt) :
    StmtPath stmt .falls := by
  cases stmt with
  | branch span test body orelse =>
    rw [Python.Stmt.isPlain, Bool.and_eq_true] at hplain
    rw [terminates, Bool.and_eq_true, not_and_or] at h
    rcases h with h | h
    · exact .branchBody (blockPath_falls_of_isPlain hplain.1 h)
    · exact .branchElse (blockPath_falls_of_isPlain hplain.2 h)
  | whileLoop span test body orelse | forLoop span target iter body orelse =>
    rw [Python.Stmt.isPlain, List.isEmpty_iff] at hplain
    exact .loopElse rfl (hplain ▸ .nil)
  | ret | raise => exact absurd rfl h
  | breakLoop | continueLoop => cases hplain
  | compound span body => exact .compound span body .falls
  | _ => exact .straight rfl

/-- **A block without dead code that does not terminate has a path to its end.** -/
theorem blockPath_falls_of_isPlain {block : List Stmt} (hplain : Python.isPlainBlock block)
    (h : ¬ blockTerminates block) : BlockPath block .falls := by
  match block with
  | [] => exact .nil
  | [stmt] => exact .next (stmtPath_falls_of_isPlain hplain h) .nil
  | stmt :: next :: rest =>
    rw [Python.isPlainBlock, Bool.and_eq_true, Bool.and_eq_true, Bool.not_eq_true'] at hplain
    exact .next (stmtPath_falls_of_isPlain hplain.1.2 (by simp [hplain.1.1])) (blockPath_falls_of_isPlain hplain.2 h)

end

/-- Other blocks are run off, if they have no dead code. -/
theorem runsOffEnd_iff_of_isPlain {block : List Stmt} (hplain : Python.isPlainBlock block) :
    RunsOffEnd block ↔ ¬ blockTerminates block :=
  ⟨fun hrun hterm => not_runsOffEnd hterm hrun,
    fun h => Control.run_of_blockPath (blockPath_falls_of_isPlain hplain h) []⟩

/-! ## Methods -/

/-- A body is accepted under a type hint without a place for none only if it terminates. -/
theorem blockTerminates_of_inferMethod {r : TypingRequest} {body : FunctionBody} {expected : Ty} {t : Typing}
    (hbody : r.method.func.body = some body) (habstract : r.method.func.isAbstract = false)
    (hdeclared : r.declared.ret = some expected)
    (hnone : ¬ expected.isAssignableFrom .noneType (r.flags.getBool promotionFlag true))
    (h : (inferMethod r).result = .ok t) : blockTerminates body.statements := by
  simp only [inferMethod, hbody, inferBody] at h
  split at h
  · cases h
  next s _ =>
    obtain ⟨ret, hret, -⟩ := map_eq_ok_iff.mp h
    rw [habstract, hdeclared] at hret
    have hcovers := covers_of_resolveReturn hret fun h => absurd h (Option.some_ne_none expected)
    by_contra hend
    have hresult : .noneType ∈ resultTypes s !blockTerminates body.statements := by
      rw [resultTypes, if_pos (by simpa using hend)]
      exact List.mem_append_right _ (List.mem_singleton_self _)
    rw [resolveReturn_of_declared hret] at hcovers
    exact hnone ((hcovers _ hresult).fits (Or.inl rfl))

/-- **No run of a block that terminates comes to its end, and so does no run of the body of a method whose type hint has
no place for none.** Where nothing is dead code, the blocks that terminate are all that are not run off. -/
theorem never_falls_through :
    (∀ block : List Stmt, blockTerminates block → ¬ RunsOffEnd block) ∧
    (∀ block : List Stmt, Python.isPlainBlock block → (RunsOffEnd block ↔ ¬ blockTerminates block)) ∧
    ∀ (r : TypingRequest) (body : FunctionBody) (expected : Ty) (t : Typing),
      r.method.func.body = some body → r.method.func.isAbstract = false → r.declared.ret = some expected →
      ¬ expected.isAssignableFrom .noneType (r.flags.getBool promotionFlag true) →
      (inferMethod r).result = .ok t → ¬ RunsOffEnd body.statements :=
  ⟨fun _ => not_runsOffEnd, fun _ => runsOffEnd_iff_of_isPlain,
    fun _ _ _ _ hbody habstract hdeclared hnone h =>
      not_runsOffEnd (blockTerminates_of_inferMethod hbody habstract hdeclared hnone h)⟩

end Inference

namespace Sample

/-- A branch that returns or fails, or one without an else clause. -/
def decision (orelse : List Stmt) : List Stmt :=
  [.branch default (.name default "count") [returnOf .int] orelse]

/-- A body with a loop that may be broken off, and a decision behind it. -/
def search : TypingRequest :=
  let count := Expr.name default "count"
  bodyRequest [("count", .int)] (some .int)
    (.whileLoop default count [.branch default count [.breakLoop default] []] [] :: decision [.raise default])

end Sample

theorem Inference.never_falls_through_search :
    blockTerminates (Sample.decision [.raise default]) ∧ ¬ RunsOffEnd (Sample.decision [.raise default]) ∧
    Python.isPlainBlock (Sample.decision []) ∧ RunsOffEnd (Sample.decision []) ∧
    ∃ body t, Sample.search.method.func.body = some body ∧ Sample.search.method.func.isAbstract = false ∧
      Sample.search.declared.ret = some .int ∧
      ¬ Ty.int.isAssignableFrom .noneType (Sample.search.flags.getBool promotionFlag true) ∧
      (inferMethod Sample.search).result = .ok t ∧ ¬ RunsOffEnd body.statements := by
  have hterm : blockTerminates (Sample.decision [.raise default]) := by decide
  have hplain : Python.isPlainBlock (Sample.decision []) := by decide
  have hok : (inferMethod Sample.search).result.isOk := by decide +kernel
  have hnone : ¬ Ty.int.isAssignableFrom .noneType (Sample.search.flags.getBool promotionFlag true) := by
    decide +kernel
  obtain ⟨hblocks, hiff, hmethods⟩ := never_falls_through
  refine ⟨hterm, hblocks _ hterm, hplain, (hiff _ hplain).mpr (by decide), ?_⟩
  cases h : (inferMethod Sample.search).result with
  | error f =>
    rw [h] at hok
    cases hok
  | ok t => exact ⟨_, t, rfl, rfl, rfl, hnone, rfl, hmethods _ _ _ _ rfl rfl rfl hnone h⟩

end NativeClass
