import NativeClass.ClassSource.Basic
/-!
# Dependencies between the classes of a module

A class depends on the classes of the module that its bases name. A name means the first class that has it.

* `baseGraph`: for each class, the positions of its bases within the module.
* `cyclicClasses`: the classes that are among their own ancestors.
* `depths`: the length of the longest chain of bases below each class.
* `layers`: the classes by depth; the bases of a class are in earlier layers.
-/

namespace NativeClass.Module

/-- The position of the first class of a name. -/
def position? (decls : List ClassDecl) (name : String) : Option Nat :=
  decls.findIdx? (·.name = name)

/-- For each class, the positions of its bases within the module. -/
def baseGraph (decls : List ClassDecl) : List (List Nat) :=
  decls.map fun d => d.baseNames.filterMap (position? decls)

/-- A step repeated a number of times. -/
def iterate {α : Type} (step : α → α) : Nat → α → α
  | 0, a => a
  | n + 1, a => iterate step n (step a)

/-- For each class its bases and their ancestors as far as they are known. -/
def ancestorStep (graph : List (List Nat)) (known : List (List Nat)) : List (List Nat) :=
  graph.map fun bases => (bases ++ bases.flatMap fun b => (known[b]?).getD []).eraseDups

/-- For each class its ancestors within the module. -/
def ancestors (graph : List (List Nat)) : List (List Nat) :=
  iterate (ancestorStep graph) graph.length (graph.map fun _ => [])

/-- The positions of the classes that are among their own ancestors. -/
def cyclicClasses (graph : List (List Nat)) : List Nat :=
  let all := ancestors graph
  (List.range graph.length).filter fun i => (all[i]?.getD []).contains i

/-- One more than the greatest known depth among bases; without bases, zero. -/
def depthAbove (known : List Nat) (bases : List Nat) : Nat :=
  (bases.map fun b => (known[b]?).getD 0 + 1).foldl max 0

/-- The depths as far as chains of bases are followed one step further. Classes on a cycle stay at zero. -/
def depthStep (graph : List (List Nat)) (cyclic : List Nat) (known : List Nat) : List Nat :=
  graph.zipIdx.map fun e => if cyclic.contains e.2 then 0 else depthAbove known e.1

/-- The length of the longest chain of bases below each class. -/
def depths (graph : List (List Nat)) : List Nat :=
  iterate (depthStep graph (cyclicClasses graph)) graph.length (graph.map fun _ => 0)

/-- The classes that can be compiled, by depth. -/
def layers (graph : List (List Nat)) : List (List Nat) :=
  let cyclic := cyclicClasses graph
  let ds := depths graph
  (List.range (ds.foldl max 0 + 1)).map fun depth =>
    (List.range graph.length).filter fun i => !cyclic.contains i && ds[i]? = some depth

end NativeClass.Module
