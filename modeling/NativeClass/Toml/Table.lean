import NativeClass.Toml.Basic
/-!
# Tables under construction

A table is named by a header, implied by the header of a table inside it, or made by a dotted key. How it came
to be decides what may still be added to it.

* `Entries.assign`: a value under a dotted key.
* `Entries.addTable`, `Entries.addElement`: the table of a header, and that of a doubled header.
* `Entries.toValues`: the values when all is read.
-/

namespace NativeClass.Toml

/-- How a table has come to be. -/
inductive Origin where
  /-- A header names it. -/
  | header
  /-- The header of a table inside it implies it. -/
  | implied
  /-- A dotted key made it. -/
  | dotted
  deriving DecidableEq, Inhabited

/-- What stands under a name while a document is read. -/
inductive Item where
  /-- A finished value. -/
  | leaf (v : Value)
  | table (origin : Origin) (entries : List (String × Item))
  /-- The tables of a doubled header. Only the last one grows. -/
  | tables (elems : List (List (String × Item)))
  deriving Inhabited

/-- The names of a table under construction. -/
abbrev Entries := List (String × Item)

namespace Entries

/-- The entries with another item under a name that they have. -/
def replace (es : Entries) (key : String) (item : Item) : Entries :=
  es.map fun e => if e.1 = key then (key, item) else e

/-- A change of the entries at the end of a path. Tables that are missing on the way are made. The change is
told whether the table at the end was made by dotted keys. -/
def change (byDots : Bool) (f : Bool → Entries → Except Error Entries) (isDotted : Bool) :
    List String → Entries → Except Error Entries
  | [], es => f isDotted es
  | key :: keys, es =>
    match es.lookup key with
    | none => do
      let sub ← change byDots f byDots keys []
      return es ++ [(key, .table (if byDots then .dotted else .implied) sub)]
    | some (.leaf _) => .error (.notATable key)
    | some (.tables elems) => do
      let last ← change byDots f false keys (elems.getLastD [])
      return es.replace key (.tables (elems.dropLast ++ [last]))
    | some (.table origin sub) =>
      if byDots && origin = .header then .error (.duplicateKey key)
      else do
        let sub ← change byDots f (origin = .dotted) keys sub
        return es.replace key (.table origin sub)

/-- A value under a new name. -/
def addLeaf (key : String) (v : Value) (es : Entries) : Except Error Entries :=
  match es.lookup key with
  | none => .ok (es ++ [(key, .leaf v)])
  | some _ => .error (.duplicateKey key)

/-- A value under a dotted key. The table that the key leads to must have been made by dotted keys. -/
def assign (keys : List String) (v : Value) (es : Entries) : Except Error Entries :=
  let key := keys.getLastD ""
  let path := keys.dropLast
  es.change true
    (fun isDotted es =>
      if path.isEmpty || isDotted then es.addLeaf key v else .error (.duplicateKey key))
    false path

/-- The table that a header names. It may have been implied before, but nothing else. -/
def addTable (keys : List String) (es : Entries) : Except Error Entries :=
  let key := keys.getLastD ""
  es.change false
    (fun _ es =>
      match es.lookup key with
      | none => .ok (es ++ [(key, .table .header [])])
      | some (.table .implied sub) => .ok (es.replace key (.table .header sub))
      | some _ => .error (.duplicateKey key))
    false keys.dropLast

/-- One more table under a doubled header. -/
def addElement (keys : List String) (es : Entries) : Except Error Entries :=
  let key := keys.getLastD ""
  es.change false
    (fun _ es =>
      match es.lookup key with
      | none => .ok (es ++ [(key, .tables [[]])])
      | some (.tables elems) => .ok (es.replace key (.tables (elems ++ [[]])))
      | some _ => .error (.duplicateKey key))
    false keys.dropLast

/-- A value under a dotted key of the table at a path. -/
def assignAt (path keys : List String) (v : Value) (es : Entries) : Except Error Entries :=
  es.change false (fun _ es => es.assign keys v) false path

end Entries

mutual

/-- The value of an item. -/
def Item.toValue : Item → Value
  | .leaf v => v
  | .table _ es => .table (Entries.toValues es)
  | .tables elems => .array (Entries.toTables elems)

/-- The values of the entries of a table. -/
def Entries.toValues : List (String × Item) → List (String × Value)
  | [] => []
  | (key, item) :: es => (key, item.toValue) :: Entries.toValues es

/-- The tables of a doubled header. -/
def Entries.toTables : List (List (String × Item)) → List Value
  | [] => []
  | es :: elems => .table (Entries.toValues es) :: Entries.toTables elems

end

end NativeClass.Toml
