import NativeClass.Draft.Basic
/-!
# Operations on a draft in place

The operations of a draft as they act on one draft that is kept: each reads and writes it step by step, and what
was written before a failure stays written.

* `Draft.Edit`: such a computation; `Draft.Edit.perform`: its result and the draft after it.
* `Draft.Call`: the operations with their arguments.
* `Draft.afterCalls`: the draft after several operations, whatever they answer.
-/

namespace NativeClass.Draft

/-- A computation on a draft in place. What it wrote before it failed stays written. -/
abbrev Edit (α : Type) : Type :=
  ExceptT CompileError (StateM Draft) α

namespace Edit

/-- The result of a computation, and the draft after it. -/
def perform {α : Type} (x : Edit α) (d : Draft) : Except CompileError α × Draft :=
  StateT.run (ExceptT.run x) d

/-- One write. -/
def write (f : Draft → Draft) : Edit Unit :=
  modify f

/-- A computation that reads and writes nothing. -/
def ofExcept {α : Type} (r : Except CompileError α) : Edit α :=
  ExceptT.mk (pure r)

/-! ## Symbols -/

/-- A symbol is set. -/
def setSymbol (name : String) (v : Variable) : Edit Unit :=
  write (·.setSymbol name v)

/-- The type of a member that declares one is set. -/
def declareAttribute (name : String) (m : Member) : Edit Unit :=
  match m.declaredType? with
  | some ty => setSymbol name (.declared ty)
  | none => pure ()

/-- The declared attribute types of a class dictionary are set one by one. -/
def declareAttributes (dict : ClassDict) : Edit Unit :=
  dict.entries.forM fun e => declareAttribute e.1 e.2

/-! ## Inheritance -/

/-- The bases are merged into fresh tables, which replace the old ones at the end. -/
def inherit : Edit Unit := do
  let d ← get
  if d.attributes.isFrozen then throw (.ofFrozen d.name .attributes "<bases>")
  else if d.slotTypes.isFrozen then throw (.ofFrozen d.name .methods "<bases>")
  else match firstRepeated? [] (d.bases.map NativeType.name) with
    | some name => throw (.ofBase d.name name .duplicate)
    | none =>
      let attributes := mergeBases d.bases NativeType.attributes
      let slotTypes := mergeBases d.bases NativeType.slotTypes
      (inheritedSymbols attributes).forM fun e => setSymbol e.1 e.2
      write ({ · with attributes := .building attributes })
      write ({ · with slotTypes := .building slotTypes })

/-! ## Attributes and methods -/

/-- An attribute of the class itself is entered. -/
def addAttribute (name : String) (ty : Ty) : Edit Unit := do
  let d ← get
  match d.attributes with
  | .building b => write ({ · with attributes := .building (b.insertOwn name ty) })
  | .frozen _ => throw (.ofFrozen d.name .attributes name)

/-- All symbols that are not inherited are entered one by one. -/
def buildAttributes : Edit Unit := do
  let d ← get
  d.ownSymbols.forM fun e => addAttribute e.1 e.2

/-- The signature of a method is reconciled with the known one and recorded. -/
def addMethod (name : String) (s : Signature) : Edit Signature := do
  let d ← get
  if d.slotTypes.isFrozen then throw (.ofFrozen d.name .methods name)
  else
    let merged ← ofExcept (d.mergedSignature name s)
    write fun d => { d with methods := d.methods.insert name merged }
    return merged

/-- A slot of the class itself is entered, if the table of slots is being filled. -/
def insertSlot (name : String) (s : Signature) (d : Draft) : Draft :=
  match d.slotTypes with
  | .building b => { d with slotTypes := .building (b.insertOwn name s) }
  | .frozen _ => d

/-- The methods of the class are entered into the table of slots one by one. -/
def buildSlots : Edit Unit := do
  let d ← get
  match d.slotTypes with
  | .building _ => d.slotMethods.forM fun e => write (insertSlot e.1 e.2)
  | .frozen _ => throw (.ofFrozen d.name .methods ((d.slotMethods.head?.map Prod.fst).getD "<methods>"))

/-! ## Freezing -/

/-- The attribute table is frozen, and the layout fixed unless it is. -/
def freezeAttributes : Edit Unit := do
  write fun d => { d with attributes := d.attributes.freeze }
  let d ← get
  match d.layout with
  | some _ => pure ()
  | none => write ({ · with layout := some (.ofTable d.attributes.toTable) })

/-- The table of slots is frozen. -/
def freezeSlots : Edit Unit :=
  write fun d => { d with slotTypes := d.slotTypes.freeze }

/-- Both tables are frozen, one after the other, and no layout is fixed by that. -/
def freezeTables : Edit Unit := do
  write fun d => { d with attributes := d.attributes.freeze }
  write fun d => { d with slotTypes := d.slotTypes.freeze }

end Edit

/-! ## Operations in any order -/

/-- An operation with its arguments. -/
inductive Call where
  | inherit
  | declareAttributes (dict : ClassDict)
  | setSymbol (name : String) (v : Variable)
  | addAttribute (name : String) (ty : Ty)
  | addMethod (name : String) (s : Signature)
  | buildAttributes
  | buildSlots
  | freezeAttributes
  | freezeSlots
  | freezeTables

/-- What an operation does to a draft in place. -/
def Call.edit : Call → Edit Unit
  | .inherit => Edit.inherit
  | .declareAttributes dict => Edit.declareAttributes dict
  | .setSymbol name v => Edit.setSymbol name v
  | .addAttribute name ty => Edit.addAttribute name ty
  | .addMethod name s => do let _ ← Edit.addMethod name s
  | .buildAttributes => Edit.buildAttributes
  | .buildSlots => Edit.buildSlots
  | .freezeAttributes => Edit.freezeAttributes
  | .freezeSlots => Edit.freezeSlots
  | .freezeTables => Edit.freezeTables

/-- The draft after several operations, whatever they answer. -/
def afterCalls (d : Draft) (calls : List Call) : Draft :=
  calls.foldl (fun d call => (call.edit.perform d).2) d

end NativeClass.Draft
