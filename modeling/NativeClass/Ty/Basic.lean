/-!
# Static types

The types that type hints name and that inference assigns, ordered by subtyping.

* `Ty.isSubtype`: the subtype test, covariant in containers and results, contravariant in parameters.
* `Ty.unionOf`: the union of a list of types, flattened one level and cleared of redundant members.
* `Ty.join`: the least type that inference assigns to a name bound to both of two types.
* `Ty.isAssignableFrom`: storing a value into a slot, with the optional widening into `float`.
-/

namespace NativeClass

/-- A static type. A `union` may hold any list of members; `unionOf` builds the reduced ones. -/
inductive Ty where
  | any
  | never
  | noneType
  | bool
  | int
  | float
  | str
  | bytes
  | list (elem : Ty)
  | tuple (elems : List Ty)
  | dict (key value : Ty)
  | set (elem : Ty)
  | function (params : List Ty) (ret : Ty)
  | union (members : List Ty)
  | nominal (name : String)
  deriving Inhabited

namespace Ty

/-! ## Equality -/

mutual

/-- Equality of types is decidable. -/
def decEq (a b : Ty) : Decidable (a = b) := by
  cases a <;> cases b <;>
    first
      | exact isTrue rfl
      | (refine isFalse ?_; intro h; cases h; done)
      | skip
  case list.list a b =>
    exact match decEq a b with
      | isTrue h => isTrue (by rw [h])
      | isFalse h => isFalse (by intro e; injection e; contradiction)
  case set.set a b =>
    exact match decEq a b with
      | isTrue h => isTrue (by rw [h])
      | isFalse h => isFalse (by intro e; injection e; contradiction)
  case tuple.tuple a b =>
    exact match decEqList a b with
      | isTrue h => isTrue (by rw [h])
      | isFalse h => isFalse (by intro e; injection e; contradiction)
  case union.union a b =>
    exact match decEqList a b with
      | isTrue h => isTrue (by rw [h])
      | isFalse h => isFalse (by intro e; injection e; contradiction)
  case dict.dict a b c d =>
    exact match decEq a c, decEq b d with
      | isTrue h, isTrue h' => isTrue (by rw [h, h'])
      | isFalse h, _ => isFalse (by intro e; injection e; contradiction)
      | _, isFalse h => isFalse (by intro e; injection e; contradiction)
  case function.function a b c d =>
    exact match decEqList a c, decEq b d with
      | isTrue h, isTrue h' => isTrue (by rw [h, h'])
      | isFalse h, _ => isFalse (by intro e; injection e; contradiction)
      | _, isFalse h => isFalse (by intro e; injection e; contradiction)
  case nominal.nominal a b =>
    exact if h : a = b then isTrue (by rw [h])
      else isFalse (by intro e; injection e; contradiction)

/-- Equality of lists of types is decidable. -/
def decEqList : (as bs : List Ty) → Decidable (as = bs)
  | [], [] => isTrue rfl
  | [], _ :: _ => isFalse (by intro h; cases h)
  | _ :: _, [] => isFalse (by intro h; cases h)
  | a :: as, b :: bs =>
    match decEq a b, decEqList as bs with
    | isTrue h, isTrue h' => isTrue (by rw [h, h'])
    | isFalse h, _ => isFalse (by intro e; injection e; contradiction)
    | _, isFalse h => isFalse (by intro e; injection e; contradiction)

end

instance : DecidableEq Ty := decEq

/-! ## Subtyping -/

mutual

/-- The subtype test. `any` is the greatest type and `never` the least; a type on the left of a union
is compared with each member before a union on the left is taken apart. -/
def isSubtype (a b : Ty) : Bool :=
  if b = .any ∨ a = .never ∨ a = b then true
  else match a, b with
    | a, .union ts => isSubtypeOfAny a ts
    | .union ts, b => areSubtypesOf ts b
    | .list a, .list b => isSubtype a b
    | .set a, .set b => isSubtype a b
    | .dict k v, .dict k' v' => isSubtype k k' && isSubtype v v'
    | .tuple as, .tuple bs => areSubtypes as bs
    | .function ps r, .function ps' r' => areSubtypes ps' ps && isSubtype r r'
    | _, _ => false
termination_by sizeOf a + sizeOf b

/-- Some type of the list is a supertype of `a`. -/
def isSubtypeOfAny (a : Ty) (ts : List Ty) : Bool :=
  match ts with
  | [] => false
  | t :: ts => isSubtype a t || isSubtypeOfAny a ts
termination_by sizeOf a + sizeOf ts

/-- Every type of the list is a subtype of `b`. -/
def areSubtypesOf (ts : List Ty) (b : Ty) : Bool :=
  match ts with
  | [] => true
  | t :: ts => isSubtype t b && areSubtypesOf ts b
termination_by sizeOf ts + sizeOf b

/-- The lists have one length and each type is a subtype of the one at its place. -/
def areSubtypes (as bs : List Ty) : Bool :=
  match as, bs with
  | [], [] => true
  | a :: as, b :: bs => isSubtype a b && areSubtypes as bs
  | _, _ => false
termination_by sizeOf as + sizeOf bs

end

/-- The native number types, which arithmetic accepts. -/
def isNumeric : Ty → Bool
  | .bool | .int | .float => true
  | _ => false

/-- A value of type `value` may be stored into a slot of type `slot`. With `promote`, integers and
booleans widen into `float` slots. -/
def isAssignableFrom (slot value : Ty) (promote : Bool) : Bool :=
  value.isSubtype slot || (promote && slot = .float && (value = .int || value = .bool))

/-! ## Native slots -/

/-- Bytes of an object pointer. -/
def pointerSize : Nat := 8

/-- Bytes of a native slot of the type. -/
def nativeSize : Ty → Nat
  | .bool => 1
  | .int | .float => 8
  | _ => pointerSize

/-- Alignment of a native slot of the type. -/
def nativeAlign : Ty → Nat
  | .bool => 1
  | _ => 8

/-! ## Unions and joins -/

/-- The list with unions replaced by their members and `never` left out. -/
def flatten : List Ty → List Ty
  | [] => []
  | .union members :: ts => members ++ flatten ts
  | .never :: ts => flatten ts
  | t :: ts => t :: flatten ts

/-- `kept` with `t` added, unless a kept type covers `t`; kept types that `t` covers go. -/
def absorb (kept : List Ty) (t : Ty) : List Ty :=
  if kept.any (t.isSubtype ·) then kept else kept.filter (fun k => !k.isSubtype t) ++ [t]

/-- The union with exactly these members: `never` for none, the member itself for one. -/
def ofMembers : List Ty → Ty
  | [] => .never
  | [t] => t
  | ts => .union ts

/-- The union of a list of types: flattened, without members that another member covers. -/
def unionOf (ts : List Ty) : Ty :=
  ofMembers ((flatten ts).foldl absorb [])

/-- The type of a name bound to both an `a` and a `b`. With `promote`, `int` and `float` meet in
`float`. -/
def join (a b : Ty) (promote : Bool) : Ty :=
  if a = b then a
  else match a, b, promote with
    | .int, .float, true | .float, .int, true => .float
    | _, _, _ => unionOf [a, b]

/-- The join of a list from the left, if it is not empty. -/
def joinAll? (ts : List Ty) (promote : Bool) : Option Ty :=
  match ts with
  | [] => .none
  | t :: ts => some (ts.foldl (join · · promote) t)

end Ty

end NativeClass
