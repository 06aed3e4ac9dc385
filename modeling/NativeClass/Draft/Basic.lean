import NativeClass.NativeType.Basic
/-!
# Types under construction

A draft collects attributes and methods until its tables are frozen. An operation on a frozen table fails and
leaves the draft as it was.

* `Draft.inherit`: fresh tables with the entries of all bases.
* `Draft.addAttribute`, `Draft.addMethod`: what the class itself brings.
* `Draft.freezeAttributes`, `Draft.freezeSlots`: the end of construction.
-/

namespace NativeClass

/-- A type under construction. -/
structure Draft where
  name : String
  /-- The bases that are finished types, in order. -/
  bases : List NativeType
  symbols : SymbolTable
  attributes : TableState Ty
  /-- The signatures of the slots of the dispatch table. -/
  slotTypes : TableState Signature
  /-- The signatures of the methods that the class defines. -/
  methods : OrderedMap Signature
  /-- The places of the attributes, once they are fixed. -/
  layout : Option Layout
  deriving Inhabited

namespace Draft

/-- The draft of a class before anything is known about it. -/
def ofClass (c : BoundClass) : Draft where
  name := c.name
  bases := c.extensionBases
  symbols := .empty
  attributes := .empty
  slotTypes := .empty
  methods := .empty
  layout := none

/-- Both tables are frozen. -/
def isFrozen (d : Draft) : Bool :=
  d.attributes.isFrozen && d.slotTypes.isFrozen

/-! ## Inheritance -/

/-- The first name of a list that occurs again before, among `seen` or in the list. -/
def firstRepeated? (seen : List String) : List String → Option String
  | [] => none
  | name :: rest => if name ∈ seen then some name else firstRepeated? (name :: seen) rest

/-- The merge of one table of each base, in order. -/
def mergeBases {α : Type} (bases : List NativeType) (table : NativeType → Table α) : Table.Builder α :=
  bases.foldl (fun b base => b.inheritFrom base.name (table base)) (.ofParents (bases.map table))

/-- The attributes of a table as inherited symbols. -/
def inheritedSymbols (b : Table.Builder Ty) : List (String × Variable) :=
  b.entries.entries.map fun e => (e.1, .inherited e.2.value)

/-- The draft with fresh tables that hold the entries of all bases, and with the inherited attributes in the
symbol table. Bases must have distinct names. -/
def inherit (d : Draft) : Except CompileError Draft :=
  if d.attributes.isFrozen then .error (.ofFrozen d.name .attributes "<bases>")
  else if d.slotTypes.isFrozen then .error (.ofFrozen d.name .methods "<bases>")
  else match firstRepeated? [] (d.bases.map NativeType.name) with
    | some name => .error (.ofBase d.name name .duplicate)
    | none =>
      let attributes := mergeBases d.bases NativeType.attributes
      let slotTypes := mergeBases d.bases NativeType.slotTypes
      .ok { d with
        symbols := d.symbols.insertAll (inheritedSymbols attributes)
        attributes := .building attributes
        slotTypes := .building slotTypes }

/-! ## Attributes -/

/-- The draft with a symbol set. -/
def setSymbol (d : Draft) (name : String) (v : Variable) : Draft :=
  { d with symbols := d.symbols.insert name v }

/-- The attribute types that a class dictionary declares. -/
def declaredSymbols (dict : ClassDict) : List (String × Variable) :=
  dict.entries.filterMap fun e => e.2.declaredType?.map fun ty => (e.1, .declared ty)

/-- The draft with the declared attribute types in the symbol table. -/
def declareAttributes (d : Draft) (dict : ClassDict) : Draft :=
  { d with symbols := d.symbols.insertAll (declaredSymbols dict) }

/-- The draft with an attribute of the class itself. -/
def addAttribute (d : Draft) (name : String) (ty : Ty) : Except CompileError Draft :=
  match d.attributes with
  | .building b => .ok { d with attributes := .building (b.insertOwn name ty) }
  | .frozen _ => .error (.ofFrozen d.name .attributes name)

/-- The symbols that are not inherited, with their types. -/
def ownSymbols (d : Draft) : List (String × Ty) :=
  (d.symbols.entries.filter (·.2.origin ≠ .inherited)).map fun e => (e.1, e.2.ty)

/-- The draft with every symbol that is not inherited in the attribute table. -/
def buildAttributes (d : Draft) : Except CompileError Draft :=
  d.ownSymbols.foldlM (fun d e => d.addAttribute e.1 e.2) d

/-! ## Methods -/

/-- The signature that a new one for a method has to agree with: the one already recorded for the class, or
that of the inherited slot unless the method is a constructor. -/
def knownSignature? (d : Draft) (name : String) (s : Signature) : Option Signature :=
  match d.methods.get? name with
  | some own => some own
  | none => if s.isConstructor then none else d.slotTypes.get? name

/-- The signature that is recorded for a method, after reconciling it with the known one. -/
def mergedSignature (d : Draft) (name : String) (s : Signature) : Except CompileError Signature :=
  match d.knownSignature? name s with
  | none => .ok s
  | some old =>
    match s.reconcile old with
    | .ok merged => .ok merged
    | .error conflict => .error (.signature d.name name conflict.message)

/-- The draft with a signature recorded for a method, and that signature. -/
def addMethod (d : Draft) (name : String) (s : Signature) : Except CompileError (Signature × Draft) :=
  if d.slotTypes.isFrozen then .error (.ofFrozen d.name .methods name)
  else do
    let merged ← d.mergedSignature name s
    return (merged, { d with methods := d.methods.insert name merged })

/-- The methods that get a slot: all but constructors. -/
def slotMethods (d : Draft) : List (String × Signature) :=
  d.methods.entries.filter (!·.2.isConstructor)

/-- The draft with the methods of the class in the table of slots. -/
def buildSlots (d : Draft) : Except CompileError Draft :=
  match d.slotTypes with
  | .building b =>
    .ok { d with slotTypes := .building (d.slotMethods.foldl (fun b e => b.insertOwn e.1 e.2) b) }
  | .frozen _ =>
    .error (.ofFrozen d.name .methods ((d.slotMethods.head?.map Prod.fst).getD "<methods>"))

/-! ## Freezing -/

/-- The draft with the attribute table frozen and the layout fixed. -/
def freezeAttributes (d : Draft) : Draft :=
  { d with
    attributes := d.attributes.freeze
    layout := d.layout.or (some (.ofTable d.attributes.toTable)) }

/-- The draft with the table of slots frozen. -/
def freezeSlots (d : Draft) : Draft :=
  { d with slotTypes := d.slotTypes.freeze }

/-- The draft with both tables frozen and no layout fixed by that. -/
def freezeTables (d : Draft) : Draft :=
  { d with attributes := d.attributes.freeze, slotTypes := d.slotTypes.freeze }

/-! ## Views -/

/-- The attributes that the class adds or overrides. -/
def ownAttributes (d : Draft) : List String :=
  (d.attributes.entries.entries.filter (!·.2.isInherited)).map Prod.fst

/-- The slots that have no implementation yet. -/
def abstractMethods (d : Draft) : List String :=
  (d.slotTypes.entries.entries.filter (·.2.value.isAbstract)).map Prod.fst

/-- The accessors of the attributes, once the layout is fixed. -/
def descriptors (d : Draft) : Except CompileError (List Descriptor) :=
  match d.layout with
  | some layout => .ok layout.descriptors
  | none => .error (.layout d.name (.notFinalized .attributes))

/-- The entry points of all slots: those of the bases, later ones first, then those of the class. -/
def resolveEntries (d : Draft) (own : List (String × EntryPoint)) : OrderedMap EntryPoint :=
  OrderedMap.ofList (d.bases.flatMap (·.vtable.entryPoints) ++ own)

/-- The dispatch table, once the table of slots is frozen. -/
def buildVTable (d : Draft) (entries : OrderedMap EntryPoint) : Except CompileError VTable :=
  match d.slotTypes with
  | .frozen methods => VTable.build d.name methods entries
  | .building _ => .error (.layout d.name (.notFinalized .methods))

end Draft

/-- The dictionary with the accessors under the names of their attributes. -/
def ClassDict.withDescriptors (dict : ClassDict) (ds : List Descriptor) : ClassDict :=
  dict.insertAll (ds.map fun d => (d.name, .descriptor d))

end NativeClass
