import NativeClass.Module.Basic
import NativeClass.NativeType.Summary
/-!
# Summaries of module reports

* `Module.Report.toJson`: the types and the errors of a report as a JSON object.
-/

namespace NativeClass

/-- An error as a JSON object. -/
def CompileError.toJson (e : CompileError) : Json :=
  .obj [("kind", .str e.kind), ("class", (e.className?.map Json.str).getD .null),
    ("message", .str e.message)]

namespace Module.Report

/-- The summaries of the compiled types. -/
def summaries (r : Report) : List TypeSummary :=
  r.compiled.map NativeType.summary

/-- A report as a JSON object. -/
def toJson (r : Report) : Json :=
  .obj [("path", .str r.path), ("types", .arr (r.summaries.map TypeSummary.toJson)),
    ("errors", .arr (r.errors.map CompileError.toJson))]

end Module.Report

end NativeClass
