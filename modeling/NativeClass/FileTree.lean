/-!
# File trees

Files and directories as a tree. Paths are texts that are followed from a current directory, which is given by
the names that lead to it from the root.

* `FileTree.insert`: a file put at a place, with the directories that lead to it.
* `FileTree.locate`: the place that a path leads to.
* `FileTree.readText`: the text of a file.
* `FileTree.descendants`: everything below a directory, each directory before its entries.
-/

namespace NativeClass

/-- A file with its bytes, or a directory with its entries in increasing order of their names. -/
inductive FileTree where
  | file (bytes : ByteArray)
  | directory (entries : List (String × FileTree))

/-- The reason why a path cannot be followed or a file cannot be read. -/
inductive FileProblem where
  | notFound
  /-- A file stands where a directory is needed. -/
  | notDirectory
  /-- A directory stands where a file is needed. -/
  | isDirectory
  /-- The bytes are not text. -/
  | notText
  deriving DecidableEq, Inhabited

/-- The message of a problem. -/
def FileProblem.message : FileProblem → String
  | .notFound => "No such file or directory (os error 2)"
  | .notDirectory => "Not a directory (os error 20)"
  | .isDirectory => "Is a directory (os error 21)"
  | .notText => "stream did not contain valid UTF-8"

/-! ## Paths as texts -/

namespace Path

/-- The parts of a path between slashes. -/
def components (path : String) : List String :=
  path.splitOn "/"

/-- The path starts at the root. -/
def isAbsolute (path : String) : Bool :=
  path.startsWith "/"

/-- A path with a further part. -/
def join (path part : String) : String :=
  if path.isEmpty || path.endsWith "/" then path ++ part else path ++ "/" ++ part

/-- The path is only dots: it names the current directory. -/
def isHere (path : String) : Bool :=
  match components path with
  | "." :: parts => parts.all fun part => part = "" || part = "."
  | _ => false

end Path

namespace FileTree

instance : Inhabited FileTree := ⟨.directory []⟩

/-- The tree without any file. -/
def empty : FileTree :=
  .directory []

/-- The entries of a directory. -/
def entries : FileTree → List (String × FileTree)
  | .file _ => []
  | .directory es => es

/-- It is a directory. -/
def isDirectory : FileTree → Bool
  | .file _ => false
  | .directory _ => true

/-- It is a file. -/
def isFile (t : FileTree) : Bool :=
  !t.isDirectory

/-- The entry of a name. -/
def child? (t : FileTree) (name : String) : Option FileTree :=
  t.entries.lookup name

/-- What the names lead to. -/
def at? (t : FileTree) : List String → Option FileTree
  | [] => some t
  | name :: names => (t.child? name).bind (·.at? names)

/-! ## Building -/

/-- The entries with one set, at the place that its name has in the order. -/
def insertEntry (name : String) (t : FileTree) : List (String × FileTree) → List (String × FileTree)
  | [] => [(name, t)]
  | (k, u) :: es =>
    if name < k then (name, t) :: (k, u) :: es
    else if name = k then (name, t) :: es
    else (k, u) :: insertEntry name t es

/-- The tree with another one put where the names lead. Missing directories are made, and a file in the way is
replaced. -/
def insert (t : FileTree) (names : List String) (new : FileTree) : FileTree :=
  match names with
  | [] => new
  | name :: names =>
    .directory (insertEntry name (((t.child? name).getD empty).insert names new) t.entries)

/-! ## Following paths -/

/-- The place that the parts of a path lead to from a place. -/
def walk (root : FileTree) (here : List String) : List String → Except FileProblem (List String)
  | [] => .ok here
  | part :: parts =>
    match root.at? here with
    | none => .error .notFound
    | some (.file _) => .error .notDirectory
    | some (.directory es) =>
      if part = "" ∨ part = "." then walk root here parts
      else if part = ".." then walk root here.dropLast parts
      else if (es.lookup part).isSome then walk root (here ++ [part]) parts
      else .error .notFound

/-- The place that a path leads to from the current directory. -/
def locate (root : FileTree) (cwd : List String) (path : String) : Except FileProblem (List String) :=
  if path.isEmpty then .error .notFound
  else root.walk (if Path.isAbsolute path then [] else cwd) (Path.components path)

/-- The file or the directory that a path leads to. -/
def find (root : FileTree) (cwd : List String) (path : String) : Except FileProblem FileTree := do
  match root.at? (← root.locate cwd path) with
  | some t => return t
  | none => throw .notFound

/-- The text of a file. -/
def text : FileTree → Except FileProblem String
  | .directory _ => .error .isDirectory
  | .file bytes =>
    match String.fromUTF8? bytes with
    | some s => .ok s
    | none => .error .notText

/-- The text of the file that a path leads to. -/
def readText (root : FileTree) (cwd : List String) (path : String) : Except FileProblem String := do
  (← root.find cwd path).text

/-- The nearest file of a name in the directories above a place, which is given by its names from the last to
the first. -/
def nearest? (root : FileTree) (name : String) : List String → Option FileTree
  | [] => (root.child? name).filter isFile
  | part :: above =>
    match ((root.at? (part :: above).reverse).bind (·.child? name)).filter isFile with
    | some t => some t
    | none => nearest? root name above

/-! ## Everything below a directory -/

mutual

/-- Everything below a directory, with the names that lead to it, each directory before its entries. -/
def descendants : FileTree → List (List String × FileTree)
  | .file _ => []
  | .directory es => descendantsOf es

/-- A list of entries and everything below them. -/
def descendantsOf : List (String × FileTree) → List (List String × FileTree)
  | [] => []
  | (name, t) :: es =>
    ([name], t) :: (descendants t).map (fun d => (name :: d.1, d.2)) ++ descendantsOf es

end

end FileTree

end NativeClass
