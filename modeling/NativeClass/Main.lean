import NativeClass.CommandLine.Run
/-!
# The program

The part of the file system that the arguments name is read into a tree, on which the command line runs.

* `main`: prints what the command line prints and returns its exit code.
-/

open NativeClass

/-- The place that the parts of a path name, counted from the root, whether it exists or not. -/
def placeOf (cwd : List String) (path : String) : List String :=
  let start := if Path.isAbsolute path then [] else cwd
  (Path.components path).foldl
    (fun here part =>
      if part = "" || part = "." then here else if part = ".." then here.dropLast else here ++ [part])
    start

/-- A file with its bytes, or a directory with the modules below it. -/
partial def readEntry (e : IO.FS.DirEntry) : IO FileTree := do
  if ← e.path.isDir then
    let mut tree := FileTree.empty
    for e in ← e.path.readDir do
      if e.fileName.endsWith ".py" || (← e.path.isDir) then
        tree := tree.insert [e.fileName] (← readEntry e)
    return tree
  return .file (← IO.FS.readBinFile e.path)

/-- The tree with what stands at a place, if anything can be read there. -/
def addEntry (root : FileTree) (place : List String) (e : IO.FS.DirEntry) : IO FileTree := do
  try
    return root.insert place (← readEntry e)
  catch _ =>
    return root

/-- The paths with all paths to the directories on their way. -/
def waysOf (paths : List String) : List String :=
  paths.flatMap fun path =>
    let parts := Path.components path
    (List.range parts.length).map fun n => "/".intercalate (parts.take (n + 1))

/-- The path up to the first part with a wildcard, below which a pattern may lead anywhere. -/
def fixedPart (path : String) : String :=
  let parts := Path.components path
  let fixed := parts.takeWhile fun part => !part.any fun c => c = '*' || c = '?' || c = '['
  if fixed.length = parts.length then path
  else if fixed.isEmpty then "."
  else "/".intercalate (fixed ++ [""])

/-- The files and directories that the arguments name, and the configuration files above the current
directory. What lies inside something else comes after it. -/
def readTree (cwd : List String) (start : IO.FS.DirEntry) (paths : List String) : IO FileTree := do
  let entryAt (path : String) : IO.FS.DirEntry := { start with fileName := path }
  let isDir (path : String) : IO Bool := (entryAt path).path.isDir
  let mut root := FileTree.empty.insert cwd .empty
  for way in ← (waysOf paths).filterM isDir do
    if (root.at? (placeOf cwd way)).isNone then
      root := root.insert (placeOf cwd way) .empty
  for path in (← paths.filterM isDir).map fixedPart do
    root ← addEntry root (placeOf cwd path) (entryAt path)
  for path in ← paths.filterM fun path => return !(← isDir path) do
    root ← addEntry root (placeOf cwd path) (entryAt path)
  for n in List.range (cwd.length + 1) do
    let place := cwd.take n ++ [Config.fileName]
    root ← addEntry root place (entryAt ("/" ++ "/".intercalate place))
  return root

/-- The paths of a list of arguments. -/
def pathsOf (args : List String) : List String :=
  match CommandLine.Request.parse? args with
  | some (.compile a) => a.paths ++ a.config.toList
  | _ => []

/-- Runs the command line. -/
def main (args : List String) : IO UInt32 := do
  let dir ← IO.currentDir
  let cwd := (Path.components dir.toString).filter fun part => part ≠ ""
  let root ← readTree cwd { root := dir, fileName := "" } (pathsOf args)
  let out := CommandLine.run root cwd args
  IO.print out.stdout
  IO.eprint out.stderr
  return .ofNat out.exitCode
