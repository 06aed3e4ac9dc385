import NativeClass.FileTree
import NativeClass.Glob.Pattern
/-!
# Expansion of glob patterns

The files and directories of a tree that a pattern matches, part by part between slashes. Parts without
wildcards are followed as they are; others are compared with the entries of a directory.

* `Pattern.parts?`: the parts of a pattern.
* `expandFrom`: the places that a list of parts leads to, in the order in which they are found.
* `expand?`: the same for the text of a pattern.
-/

namespace NativeClass.Glob

/-- A place in a tree together with the way it is written. -/
structure Place where
  path : String
  /-- The names that lead to the place from the root. -/
  location : List String
  deriving DecidableEq, Inhabited

namespace Place

/-- The path of an entry of the place. In the current directory it is the name alone. -/
def pathOf (p : Place) (name : String) : String :=
  if Path.isHere p.path then name else Path.join p.path name

/-- The place of an entry. -/
def entry (p : Place) (name : String) : Place :=
  ⟨p.pathOf name, p.location ++ [name]⟩

/-- The place at the end of a chain of entries. -/
def descendant (p : Place) (names : List String) : Place :=
  names.foldl entry p

/-- The directory at the place. -/
def directory? (root : FileTree) (p : Place) : Option FileTree :=
  (root.at? p.location).filter (·.isDirectory)

/-- The place that a name leads to: the current directory, the one above it, an entry, or, with a path that
ends in a slash, the same directory. -/
def follow? (root : FileTree) (p : Place) (name : String) : Option Place := do
  let t ← p.directory? root
  match name with
  | "" => if Path.isHere p.path then none else some ⟨Path.join p.path "", p.location⟩
  | "." => some ⟨p.pathOf ".", p.location⟩
  | ".." => some ⟨p.pathOf "..", p.location.dropLast⟩
  | name => (t.child? name).map fun _ => p.entry name

/-- The current directory and the one above it, as far as the pattern asks for them with a leading point. -/
def dots (p : Place) (pattern : Pattern) : List Place :=
  let above : Place := ⟨Path.join p.path "..", p.location.dropLast⟩
  let here : Place := ⟨Path.join p.path ".", p.location⟩
  if pattern.tokens.head? = some (.char '.') then
    (if pattern.accepts .sensitive ".." then [above] else []) ++
      (if pattern.accepts .sensitive "." then [here] else [])
  else []

/-- The entries of the place that a pattern matches. -/
def matching (root : FileTree) (p : Place) (pattern : Pattern) : List Place :=
  match p.directory? root with
  | none => []
  | some t =>
    p.dots pattern ++
      (t.entries.filter fun e => pattern.accepts .sensitive e.1).map fun e => p.entry e.1

/-- Everything below the place, with its name and whether it is a directory. -/
def below (root : FileTree) (p : Place) : List (Place × String × Bool) :=
  match p.directory? root with
  | none => []
  | some t =>
    t.descendants.map fun d => (p.descendant d.1, d.1.getLastD "", d.2.isDirectory)

end Place

/-! ## Patterns by parts -/

/-- The part stands for any number of whole directories. -/
def Pattern.isRecursive (p : Pattern) : Bool :=
  p.tokens.contains .anyDirectories

/-- The parts with neighbours that stand for whole directories made one. -/
def mergeRecursive : List Pattern → List Pattern
  | p :: q :: ps =>
    if p.isRecursive && q.isRecursive then mergeRecursive (q :: ps) else p :: mergeRecursive (q :: ps)
  | ps => ps

/-- The parts of a pattern. The whole and each part must be well formed. -/
def parts? (pattern : String) : Option (List Pattern) := do
  let _ ← Pattern.parse? pattern
  let parts ← (Path.components pattern).mapM Pattern.parse?
  return mergeRecursive parts

/-- The places that one part leads to. -/
def step (root : FileTree) (pattern : Pattern) (p : Place) : List Place :=
  match pattern.literal? with
  | some name => (p.follow? root name).toList
  | none => p.matching root pattern

/-- The places that a list of parts leads to, in the order in which they are found. -/
def expandFrom (root : FileTree) : List Pattern → Place → List Place
  | [], p => [p]
  | [part], p =>
    if part.isRecursive then ((p.below root).filter (·.2.2)).map Prod.fst
    else step root part p
  | part :: next :: parts, p =>
    if part.isRecursive then
      ((p.below root).filter fun d => next.accepts .sensitive d.2.1).flatMap fun d =>
        expandFrom root parts d.1
    else (step root part p).flatMap (expandFrom root (next :: parts))

/-- The place where the expansion of a pattern starts. -/
def start (cwd : List String) (pattern : String) : Place :=
  if Path.isAbsolute pattern then ⟨"/", []⟩ else ⟨".", cwd⟩

/-- The paths that a pattern matches, in the order in which they are found. A pattern that is not well formed
has none. -/
def expand? (root : FileTree) (cwd : List String) (pattern : String) : Option (List Place) :=
  (parts? pattern).map fun parts => expandFrom root parts (start cwd pattern)

end NativeClass.Glob
