import NativeClass.OrderedMap.Basic
/-!
# Registries

Values under names, for later look-up. A name keeps the value that was registered first.

* `Registry.register`: a value under a name, unless the name is taken.
-/

namespace NativeClass

/-- Values under names. -/
structure Registry (α : Type) where
  entries : OrderedMap α
  deriving Inhabited

namespace Registry

variable {α : Type}

/-- No names. -/
def empty : Registry α :=
  ⟨.empty⟩

/-- The value of a name. -/
def get? (r : Registry α) (name : String) : Option α :=
  r.entries.get? name

/-- The name is taken. -/
def contains (r : Registry α) (name : String) : Bool :=
  r.entries.contains name

/-- The value that the name has from now on, and the registry with it: the value given, unless the name is
taken. -/
def register (r : Registry α) (name : String) (value : α) : α × Registry α :=
  match r.get? name with
  | some old => (old, r)
  | none => (value, ⟨r.entries.insert name value⟩)

/-- The names in increasing order. -/
def names (r : Registry α) : List String :=
  r.entries.keys.mergeSort fun x y => x ≤ y

/-- The number of names. -/
def size (r : Registry α) : Nat :=
  r.entries.size

/-- No name is taken. -/
def isEmpty (r : Registry α) : Bool :=
  r.entries.isEmpty

theorem get?_register (r : Registry α) (name k : String) (value : α) :
    (r.register name value).2.get? k =
      if k = name then some (r.register name value).1 else r.get? k := by
  unfold register
  split
  · next old h =>
    split
    · next hk => rw [hk]; exact h
    · rfl
  · simp [get?]

end Registry

end NativeClass
