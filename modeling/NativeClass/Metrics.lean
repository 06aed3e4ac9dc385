import NativeClass.OrderedMap.Basic
import NativeClass.Padding
import NativeClass.Rounding
/-!
# Metrics

How long stages took and how often things happened.

* `Event`: what a stage reports. Durations are measured by whoever runs the stages.
* `Metrics.record`, `Metrics.add`: a measured duration and a count.
* `Metrics.reportLines`: the figures in words.
-/

namespace NativeClass

/-- What the compilation of a class or a module reports. -/
inductive Event where
  /-- A stage was run. -/
  | timed (stage : String)
  /-- Something happened a number of times. -/
  | counted (name : String) (count : Nat)
  deriving DecidableEq, Inhabited

namespace Event

/-- A class was compiled. -/
def classCompiled : Event :=
  .counted "classes_compiled" 1

/-- A class was tried and failed. -/
def classFailed : Event :=
  .counted "classes_failed" 1

/-- Methods were compiled. -/
def methodsCompiled (count : Nat) : Event :=
  .counted "methods_compiled" count

end Event

/-! ## Durations -/

/-- The text of a duration in nanoseconds: two places in the largest unit that it reaches. -/
def durationText (nanos : Nat) : String :=
  let (unit, word) :=
    if 1_000_000_000 ≤ nanos then (1_000_000_000, "s")
    else if 1_000_000 ≤ nanos then (1_000_000, "ms")
    else if 1_000 ≤ nanos then (1_000, "µs")
    else (1, "ns")
  let hundredths := roundDiv (nanos * 100) unit
  toString (hundredths / 100) ++ "." ++ padLeft '0' 2 (toString (hundredths % 100)) ++ word

/-- The figures of one stage, in nanoseconds. -/
structure TimingStats where
  count : Nat
  total : Nat
  mean : Nat
  max : Nat
  deriving DecidableEq, Inhabited

/-- The figures of a list of durations. -/
def TimingStats.ofDurations (durations : List Nat) : TimingStats where
  count := durations.length
  total := durations.foldr (· + ·) 0
  mean := durations.foldr (· + ·) 0 / durations.length
  max := durations.foldl Nat.max 0

/-! ## Metrics -/

/-- Durations of stages and counters, by name. -/
structure Metrics where
  timings : OrderedMap (List Nat)
  counters : OrderedMap UInt64
  deriving Inhabited

namespace Metrics

/-- Nothing measured. -/
def empty : Metrics :=
  ⟨.empty, .empty⟩

/-- One more duration of a stage. -/
def record (m : Metrics) (stage : String) (nanos : Nat) : Metrics :=
  { m with timings := m.timings.insert stage ((m.timings.get? stage).getD [] ++ [nanos]) }

/-- The value of a counter; one that was never counted is zero. -/
def counter (m : Metrics) (name : String) : UInt64 :=
  (m.counters.get? name).getD 0

/-- A counter with an amount added. -/
def add (m : Metrics) (name : String) (amount : UInt64) : Metrics :=
  { m with counters := m.counters.insert name (m.counter name + amount) }

/-- The metrics after an event, a timed one of the given duration. -/
def note (m : Metrics) (nanos : Nat) : Event → Metrics
  | .timed stage => m.record stage nanos
  | .counted name count => m.add name (.ofNat count)

/-- The metrics after events whose durations nobody measured. -/
def noteAll (m : Metrics) (events : List Event) : Metrics :=
  events.foldl (fun m e => m.note 0 e) m

/-- The figures of a stage, if it was measured. -/
def stats? (m : Metrics) (stage : String) : Option TimingStats :=
  (m.timings.get? stage).map .ofDurations

/-- The figures of all stages, in increasing order of the names. -/
def sortedStats (m : Metrics) : List (String × TimingStats) :=
  (m.timings.mapValues .ofDurations).entries.mergeSort fun x y => x.1 ≤ y.1

/-- All counters, in increasing order of the names. -/
def sortedCounters (m : Metrics) : List (String × UInt64) :=
  m.counters.entries.mergeSort fun x y => x.1 ≤ y.1

/-- The line of a stage. -/
def stageLine (e : String × TimingStats) : String :=
  padRight ' ' 10 e.1 ++ " count " ++ padLeft ' ' 4 (toString e.2.count) ++
    "  total " ++ durationText e.2.total ++
    "  mean " ++ durationText e.2.mean ++
    "  max " ++ durationText e.2.max

/-- The line of a counter. -/
def counterLine (e : String × UInt64) : String :=
  e.1 ++ ": " ++ toString e.2.toNat

/-- The figures in words, stages first. -/
def reportLines (m : Metrics) : List String :=
  "=== Stages ===" :: m.sortedStats.map stageLine ++
    "=== Counters ===" :: m.sortedCounters.map counterLine

end Metrics

end NativeClass
