import NativeClass.OrderedMap.Basic
/-!
# Tables of attributes and methods

The place of an entry in a table fixes a storage offset (attributes) or a dispatch slot (methods). A
table is filled while its class is being compiled and then frozen.

* `Table.Builder.inheritFrom`: the flat merge of a base's table; later bases win, places stay.
* `Table.Builder.insertOwn`: an entry of the class itself.
* `TableState.freeze`: from then on the table has no builder.
-/

namespace NativeClass

/-- Where a table entry comes from. -/
inductive Origin where
  /-- The class being compiled. -/
  | own
  /-- The named direct base. -/
  | inherited (base : String)
  deriving DecidableEq, Inhabited

/-- The base an entry comes from, if it is not the class's own. -/
def Origin.base? : Origin → Option String
  | .own => none
  | .inherited base => some base

/-- A table entry. -/
structure Entry (α : Type) where
  /-- The type of the attribute or the signature of the method. -/
  value : α
  /-- Where the entry comes from. -/
  origin : Origin
  deriving Inhabited

/-- The entry comes from a base. -/
def Entry.isInherited {α : Type} (e : Entry α) : Bool :=
  e.origin.base?.isSome

/-- A frozen table. -/
structure Table (α : Type) where
  /-- The entries, at fixed places. -/
  entries : OrderedMap (Entry α)
  deriving Inhabited

namespace Table

variable {α : Type}

/-- The value of a name. -/
def get? (t : Table α) (name : String) : Option α :=
  (t.entries.get? name).map Entry.value

/-- The place of a name. -/
def index? (t : Table α) (name : String) : Option Nat :=
  t.entries.index? name

/-- The names in place order. -/
def names (t : Table α) : List String :=
  t.entries.keys

/-- A table being filled, with the tables of the direct bases. -/
structure Builder (α : Type) where
  /-- The tables of the direct bases. -/
  parents : List (Table α)
  /-- The entries so far. -/
  entries : OrderedMap (Entry α)
  deriving Inhabited

namespace Builder

/-- The builder of a class with the given base tables, nothing merged yet. -/
def ofParents (parents : List (Table α)) : Builder α :=
  ⟨parents, .empty⟩

/-- The value of a name. -/
def get? (b : Builder α) (name : String) : Option α :=
  (b.entries.get? name).map Entry.value

/-- Every entry of a base's table, taking the place its name already has. -/
def inheritFrom (b : Builder α) (base : String) (parent : Table α) : Builder α :=
  let merged := parent.entries.mapValues fun e => ⟨e.value, .inherited base⟩
  { b with entries := b.entries.insertAll merged.entries }

/-- An entry of the class itself, taking the place its name already has. -/
def insertOwn (b : Builder α) (name : String) (value : α) : Builder α :=
  { b with entries := b.entries.insert name ⟨value, .own⟩ }

/-- The frozen table. -/
def freeze (b : Builder α) : Table α :=
  ⟨b.entries⟩

end Builder

/-- The table of a class with these entries and no bases. -/
def ofOwn (pairs : List (String × α)) : Table α :=
  (pairs.foldl (fun b e => b.insertOwn e.1 e.2) (Builder.ofParents [])).freeze

end Table

/-- A table of a class under compilation: being filled, or frozen. -/
inductive TableState (α : Type) where
  | building (builder : Table.Builder α)
  | frozen (table : Table α)
  deriving Inhabited

namespace TableState

variable {α : Type}

/-- A table without bases and entries. -/
def empty : TableState α :=
  .building (.ofParents [])

/-- The entries so far. -/
def entries : TableState α → OrderedMap (Entry α)
  | .building b => b.entries
  | .frozen t => t.entries

/-- The value of a name. -/
def get? (s : TableState α) (name : String) : Option α :=
  (s.entries.get? name).map Entry.value

/-- The table is frozen. -/
def isFrozen : TableState α → Bool
  | .building _ => false
  | .frozen _ => true

/-- The builder, unless the table is frozen. -/
def builder? : TableState α → Option (Table.Builder α)
  | .building b => some b
  | .frozen _ => none

/-- The table, once it is frozen. -/
def table? : TableState α → Option (Table α)
  | .building _ => none
  | .frozen t => some t

/-- The table with the entries so far. -/
def toTable (s : TableState α) : Table α :=
  ⟨s.entries⟩

/-- The frozen table; freezing a frozen table changes nothing. -/
def freeze (s : TableState α) : TableState α :=
  .frozen s.toTable

@[simp] theorem entries_freeze (s : TableState α) : s.freeze.entries = s.entries := rfl

@[simp] theorem freeze_freeze (s : TableState α) : s.freeze.freeze = s.freeze := rfl

@[simp] theorem builder?_freeze (s : TableState α) : s.freeze.builder? = none := rfl

end TableState

end NativeClass
