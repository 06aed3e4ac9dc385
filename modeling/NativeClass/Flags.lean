import NativeClass.Binary64
/-!
# Compilation flags

Named values that are handed to type inference as they are.

* `Flags.insert`: a flag under its name; names stay in increasing order.
* `Flags.getBool`: a boolean flag with a default.
-/

namespace NativeClass

/-- The value of a flag. -/
inductive FlagValue where
  | bool (b : Bool)
  | int (i : Int64)
  | float (x : Binary64)
  | str (s : String)
  deriving DecidableEq, Inhabited

namespace FlagValue

/-- The name of a value's type. -/
def typeName : FlagValue → String
  | .bool _ => "bool"
  | .int _ => "int"
  | .float _ => "float"
  | .str _ => "str"

/-- The spelling of a value. -/
def text : FlagValue → String
  | .bool b => if b then "true" else "false"
  | .int i => toString i.toInt
  | .float x => x.text
  | .str s => s

/-- The value of a number as it is written: an integer if it is written as one and fits, otherwise a
floating-point number. -/
def ofNumber? (s : String) : Option FlagValue :=
  match s.toInt? with
  | some n => if Int64.minValue.toInt ≤ n ∧ n ≤ Int64.maxValue.toInt then some (.int (.ofInt n))
    else (Binary64.ofText? s).map .float
  | none => (Binary64.ofText? s).map .float

/-- Equality of values; numbers are compared as numbers. -/
def same : FlagValue → FlagValue → Bool
  | .float x, .float y => x.numEq y
  | v, w => v = w

end FlagValue

/-- Flags in increasing order of their names. -/
structure Flags where
  entries : List (String × FlagValue)
  deriving DecidableEq, Inhabited

namespace Flags

/-- No flags. -/
def empty : Flags :=
  ⟨[]⟩

/-- The entries with a flag set, at the place that its name has in the order. -/
def insertEntry (name : String) (value : FlagValue) :
    List (String × FlagValue) → List (String × FlagValue)
  | [] => [(name, value)]
  | (k, v) :: es =>
    if name < k then (name, value) :: (k, v) :: es
    else if name = k then (name, value) :: es
    else (k, v) :: insertEntry name value es

/-- The flags with one flag set. -/
def insert (flags : Flags) (name : String) (value : FlagValue) : Flags :=
  ⟨insertEntry name value flags.entries⟩

/-- The flags of a list of pairs; a later pair replaces an earlier one of its name. -/
def ofList (pairs : List (String × FlagValue)) : Flags :=
  pairs.foldl (fun flags e => flags.insert e.1 e.2) empty

/-- The value of a flag. -/
def get? (flags : Flags) (name : String) : Option FlagValue :=
  flags.entries.lookup name

/-- The value of a boolean flag. A missing flag and one of another type have the default. -/
def getBool (flags : Flags) (name : String) (default : Bool) : Bool :=
  match flags.get? name with
  | some (.bool b) => b
  | _ => default

/-- The number of flags. -/
def size (flags : Flags) : Nat :=
  flags.entries.length

/-- No flag is set. -/
def isEmpty (flags : Flags) : Bool :=
  flags.entries.isEmpty

/-- Two lists of entries have the same names and equal values. -/
def sameEntries : List (String × FlagValue) → List (String × FlagValue) → Bool
  | [], [] => true
  | (k, v) :: es, (k', v') :: es' => k = k' && v.same v' && sameEntries es es'
  | _, _ => false

/-- The flags have the same names and equal values. -/
def same (flags others : Flags) : Bool :=
  sameEntries flags.entries others.entries

end Flags

end NativeClass
