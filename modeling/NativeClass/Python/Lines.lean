import NativeClass.CompileError
import NativeClass.Python.Token
/-!
# Lines and columns

* `LineIndex.ofSource`: the bytes at which the lines of a text begin.
* `LineIndex.position`: the line and the column of a byte.
-/

namespace NativeClass.Python

/-- The bytes at which lines begin, in increasing order. -/
structure LineIndex where
  starts : List Nat
  deriving DecidableEq, Inhabited

namespace LineIndex

/-- The bytes after each line feed, counted from `pos`. -/
def startsAfter (pos : Nat) : List Char → List Nat
  | [] => []
  | c :: cs =>
    let next := pos + c.utf8Size
    if c = '\n' then next :: startsAfter next cs else startsAfter next cs

/-- The line index of a text. The first line begins at its first byte. -/
def ofSource (source : String) : LineIndex :=
  ⟨0 :: startsAfter 0 source.toList⟩

/-- The number of lines. -/
def lineCount (index : LineIndex) : Nat :=
  index.starts.length

/-- The line, from one on, and the column of a byte. Bytes beyond the text belong to the last line. -/
def position (index : LineIndex) (offset : Nat) : Nat × Nat :=
  let before := index.starts.takeWhile (· ≤ offset)
  (before.length, offset - before.getLastD 0)

/-- The location of a stretch of the text. -/
def locate (index : LineIndex) (span : Span) : Location :=
  let (line, column) := index.position span.start
  let (endLine, endColumn) := index.position span.stop
  ⟨line, column, endLine, endColumn⟩

end LineIndex

/-- The characters of a text from byte `start` up to byte `stop`, where the first one stands at `pos`. -/
def sliceFrom (span : Span) (pos : Nat) : List Char → List Char
  | [] => []
  | c :: cs =>
    if span.stop ≤ pos then []
    else
      let rest := sliceFrom span (pos + c.utf8Size) cs
      if span.start ≤ pos then c :: rest else rest

/-- The text of a stretch of the source. -/
def Span.slice (span : Span) (source : String) : String :=
  String.ofList (sliceFrom span 0 source.toList)

end NativeClass.Python
