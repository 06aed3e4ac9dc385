/-!
# Edit distance and suggestions

* `editDistance`: the number of one-character insertions, deletions and substitutions between two words,
  computed row by row.
* `similarNames`: the candidates near a misspelt name, nearest first.
-/

namespace NativeClass

/-- The row of distances after one more character `c` of the first word. `diag` is the entry of the last
row before its rest, `left` the new row's entry just written. -/
def nextDistances (c : Char) (diag left : Nat) : List Char → List Nat → List Nat
  | d :: ds, up :: row =>
    let best := min (min (up + 1) (left + 1)) (diag + if c = d then 0 else 1)
    best :: nextDistances c up best ds row
  | _, _ => []

/-- The row of distances from a word of `i` characters more than the last row's word. -/
def distanceRow (c : Char) (i : Nat) (bs : List Char) : List Nat → List Nat
  | [] => []
  | first :: row => i :: nextDistances c first i bs row

/-- The distances from the whole of `as` to every initial part of `bs`, starting at row `i`. -/
def distanceRows (bs : List Char) : Nat → List Nat → List Char → List Nat
  | _, row, [] => row
  | i, row, a :: as => distanceRows bs (i + 1) (distanceRow a (i + 1) bs row) as

/-- The edit distance of two words. -/
def editDistance (a b : String) : Nat :=
  let bs := b.toList
  (distanceRows bs 0 (List.range (bs.length + 1)) a.toList).getLastD 0

/-- The candidates at a distance from 1 to `limit`, nearest first; equally near ones keep their order. -/
def similarNames (target : String) (candidates : List String) (limit : Nat) : List String :=
  let measured := candidates.map fun c => (c, editDistance target c)
  let near := measured.filter fun e => e.2 ≤ limit && 0 < e.2
  (near.mergeSort fun x y => x.2 ≤ y.2).map Prod.fst

end NativeClass
