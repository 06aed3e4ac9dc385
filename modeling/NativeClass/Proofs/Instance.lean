import Mathlib.Data.List.Induction
import NativeClass.Layout.Instance
import NativeClass.Proofs.Binary64
import NativeClass.Proofs.Layout
/-!
# Instances as records

* `Value.Becomes`: the value that a slot should hold after another one was stored into it; `Value.convert?`
  computes it. **`Value.decode_encode?`**: reading the bytes of a stored value gives the converted value.
* `Descriptor.Stores`: what a successful store does. **`Descriptor.exists_stores`**,
  **`Descriptor.set_eq_error`**: a store succeeds if the value can be converted, and fails else.
* `Instance.run`: an instance after a list of accesses; `LastStored`: the value that an attribute should have.
* **`Instance.Holds.after`**, **`Instance.Holds.run`**: the header stands and every attribute has its value,
  after one access and after all of them.
* **`Instance.actsAsRecord_run`**: through its descriptors, an instance is a record of the last values stored.
-/

namespace NativeClass

/-! ## Values in slots -/

namespace Value

/-- A slot of the type accepts the value: booleans, integers and floats have slots of their own, which take
smaller numbers too, and any other slot takes objects and none. -/
def Fits : Ty → Value → Prop
  | .bool, v => ∃ b, v = .bool b
  | .int, v => (∃ i, v = .int i) ∨ ∃ b, v = .bool b
  | .float, v => (∃ x, v = .float x) ∨ (∃ i, v = .int i) ∨ ∃ b, v = .bool b
  | _, v => v = .noneValue ∨ ∃ handle, v = .object handle

/-- The value `w` that a slot of the type should hold after a value was stored: a boolean counts as zero or one in
the slot of a number, a float slot holds the number nearest to an integer, and the handle zero is none. -/
def Becomes : Ty → Value → Value → Prop
  | .bool, .bool b, w => w = .bool b
  | .int, .int i, w => w = .int i
  | .int, .bool b, w => w = .int (if b then 1 else 0)
  | .float, .float x, w => w = .float x
  | .float, .int i, w => ∃ x : Binary64, w = .float x ∧ x.IsNearest i.toInt
  | .float, .bool b, w => ∃ x : Binary64, w = .float x ∧ x.IsNearest (if b then 1 else 0)
  | .bool, _, _ | .int, _, _ | .float, _, _ => False
  | _, .noneValue, w => w = .noneValue
  | _, .object handle, w => w = if handle = 0 then .noneValue else .object handle
  | _, _, _ => False

/-- The value of a slot of the type after the given one was stored, if the slot accepts it. -/
def convert? : Ty → Value → Option Value
  | .bool, .bool b => some (.bool b)
  | .int, .int i => some (.int i)
  | .int, .bool b => some (.int (if b then 1 else 0))
  | .float, .float x => some (.float x)
  | .float, .int i => some (.float (.ofInt i.toInt))
  | .float, .bool b => some (.float (.ofInt (if b then 1 else 0)))
  | .bool, _ | .int, _ | .float, _ => none
  | _, .noneValue => some .noneValue
  | _, .object handle => some (if handle = 0 then .noneValue else .object handle)
  | _, _ => none

/-- The value of a slot of the type in which nothing was stored. -/
def zero : Ty → Value
  | .bool => .bool false
  | .int => .int 0
  | .float => .float ⟨0⟩
  | _ => .noneValue

theorem convert?_isSome_iff (ty : Ty) (v : Value) : (convert? ty v).isSome ↔ Fits ty v := by
  cases ty <;> cases v <;> simp [convert?, Fits]

theorem log2_natAbs_toInt_lt (i : Int64) : i.toInt.natAbs.log2 < 1023 := by
  have hlow := i.le_toInt
  have hhigh := i.toInt_lt
  have hbound : i.toInt.natAbs < 2 ^ 64 := by omega
  rcases Nat.eq_zero_or_pos i.toInt.natAbs with hzero | hpos
  · rw [hzero]
    decide
  · have := (Nat.log2_lt (Nat.ne_of_gt hpos)).mpr hbound
    omega

theorem becomes_of_convert? {ty : Ty} {v w : Value} (h : convert? ty v = some w) : Becomes ty v w := by
  cases ty with
  | float =>
    cases v with
    | int i =>
      obtain rfl := Option.some.inj h
      exact ⟨_, rfl, Binary64.isNearest_ofInt (log2_natAbs_toInt_lt i)⟩
    | bool b =>
      obtain rfl := Option.some.inj h
      exact ⟨_, rfl, Binary64.isNearest_ofInt (by cases b <;> decide)⟩
    | _ => simp_all [convert?, Becomes]
  | _ => cases v <;> simp_all [convert?, Becomes]

theorem length_encode? {ty : Ty} {v : Value} {bs : List UInt8} (h : encode? ty v = some bs) :
    bs.length = ty.nativeSize := by
  cases ty <;> cases v <;> simp only [encode?, Option.some.injEq, reduceCtorEq] at h <;> subst h <;>
    simp [Ty.nativeSize, Ty.pointerSize]

/-- **Reading the bytes of a stored value gives the converted value.** -/
theorem decode_encode? (ty : Ty) (v : Value) (rest : List UInt8) :
    (encode? ty v).map (fun bs => decode ty (bs ++ rest)) = convert? ty v := by
  cases ty with
  | bool =>
    cases v with
    | bool b => cases b <;> rfl
    | _ => rfl
  | int =>
    cases v with
    | int i => simp [encode?, convert?, decode, LittleEndian.toWord_ofWord_append]
    | bool b => cases b <;> simp [encode?, convert?, decode, boolWord, LittleEndian.toWord_ofWord_append]
    | _ => rfl
  | float =>
    cases v with
    | noneValue | object => rfl
    | _ => simp [encode?, convert?, decode, LittleEndian.toWord_ofWord_append]
  | _ =>
    cases v with
    | noneValue | object => simp [encode?, convert?, decode, LittleEndian.toWord_ofWord_append]
    | _ => rfl

theorem decode_take (ty : Ty) (bs : List UInt8) : decode ty (bs.take ty.nativeSize) = decode ty bs := by
  cases ty with
  | bool => cases bs <;> rfl
  | _ => simp [decode, Ty.nativeSize, Ty.pointerSize, LittleEndian.toWord_take]

theorem decode_replicate_zero (ty : Ty) (n : Nat) : decode ty (List.replicate n 0) = zero ty := by
  cases ty with
  | bool => cases n <;> rfl
  | _ => simp [decode, zero, LittleEndian.toWord_replicate_zero]

end Value

/-! ## Bytes -/

namespace Instance

variable {x : Instance} {offset i : Nat} {bs : List UInt8}

theorem size_write (h : offset + bs.length ≤ x.size) : (x.write offset bs).size = x.size := by
  simp only [size, write, List.length_append, List.length_take, List.length_drop] at h ⊢
  omega

theorem drop_write (h : offset ≤ x.size) :
    (x.write offset bs).bytes.drop offset = bs ++ x.bytes.drop (offset + bs.length) := by
  have htake : (x.bytes.take offset).length = offset := List.length_take_of_le h
  rw [write, List.append_assoc, List.drop_left' htake]

theorem getElem?_write_of_outside (h : offset + bs.length ≤ x.size) (hi : i < offset ∨ offset + bs.length ≤ i) :
    (x.write offset bs).bytes[i]? = x.bytes[i]? := by
  have htake : (x.bytes.take offset).length = offset :=
    List.length_take_of_le (Nat.le_of_add_right_le h)
  rw [write, List.append_assoc]
  rcases hi with hi | hi
  · rw [List.getElem?_append_left (htake.symm ▸ hi), List.getElem?_take_of_lt hi]
  · rw [List.getElem?_append_right (by omega), List.getElem?_append_right (by omega), List.getElem?_drop]
    congr 1
    omega

end Instance

/-- The same bytes stand in two lists from `offset` on, `count` of them. -/
theorem take_drop_congr {bytes bytes' : List UInt8} {offset count : Nat}
    (h : ∀ i, offset ≤ i → i < offset + count → bytes'[i]? = bytes[i]?) :
    (bytes'.drop offset).take count = (bytes.drop offset).take count := by
  refine List.ext_getElem? fun i => ?_
  rw [List.getElem?_take, List.getElem?_take]
  split_ifs with hi
  · rw [List.getElem?_drop, List.getElem?_drop]
    exact h (offset + i) (Nat.le_add_right _ _) (Nat.add_lt_add_left hi offset)
  · rfl

/-! ## One access -/

namespace Descriptor

variable {d d' : Descriptor} {x x' : Instance} {v w : Value}

/-- The attribute lies within the instance. -/
def InBounds (d : Descriptor) (x : Instance) : Prop :=
  d.offset + d.ty.nativeSize ≤ x.size

theorem InBounds.of_size_eq (h : d.InBounds x) (hs : x'.size = x.size) : d.InBounds x' := by
  rwa [InBounds, hs]

theorem checkBounds_eq (h : d.InBounds x) : d.checkBounds x = .ok () :=
  if_neg (Nat.not_lt.mpr h)

theorem get_eq (h : d.InBounds x) : d.get x = .ok (Value.decode d.ty (x.bytes.drop d.offset)) := by
  rw [get, checkBounds_eq h]
  rfl

/-- The state after a successful store: the attribute has a new value, and no byte outside it changes. -/
structure Stores (d : Descriptor) (x : Instance) (w : Value) (x' : Instance) : Prop where
  size : x'.size = x.size
  get : d.get x' = .ok w
  frame : ∀ i, i < d.offset ∨ d.offset + d.ty.nativeSize ≤ i → x'.bytes[i]? = x.bytes[i]?

theorem exists_stores (h : d.InBounds x) (hv : Value.convert? d.ty v = some w) :
    ∃ x', d.set x v = .ok x' ∧ d.Stores x w x' := by
  rw [← Value.decode_encode? d.ty v (x.bytes.drop (d.offset + d.ty.nativeSize)), Option.map_eq_some_iff] at hv
  obtain ⟨bs, hbs, rfl⟩ := hv
  have hlen : bs.length = d.ty.nativeSize := Value.length_encode? hbs
  have hroom : d.offset + bs.length ≤ x.size := hlen.symm ▸ h
  refine ⟨x.write d.offset bs, ?_, Instance.size_write hroom, ?_, fun i hi => ?_⟩
  · rw [set, checkBounds_eq h]
    simp only [hbs]
    rfl
  · rw [get_eq (h.of_size_eq (Instance.size_write hroom)), Instance.drop_write (Nat.le_of_add_right_le hroom), hlen]
  · exact Instance.getElem?_write_of_outside hroom (hlen.symm ▸ hi)

theorem set_eq_error (h : d.InBounds x) (hv : Value.convert? d.ty v = none) :
    d.set x v = .error (.typeMismatch d.name d.ty v.typeName) := by
  rw [← Value.decode_encode? d.ty v [], Option.map_eq_none_iff] at hv
  rw [set, checkBounds_eq h]
  simp only [hv]
  rfl

namespace Stores

theorem get_of_disjoint (h : d.Stores x w x') (hin : d'.InBounds x)
    (hdisjoint : d.offset + d.ty.nativeSize ≤ d'.offset ∨ d'.offset + d'.ty.nativeSize ≤ d.offset) :
    d'.get x' = d'.get x := by
  have hbytes : (x'.bytes.drop d'.offset).take d'.ty.nativeSize =
      (x.bytes.drop d'.offset).take d'.ty.nativeSize :=
    take_drop_congr fun i hlow hhigh => h.frame i (by omega)
  rw [get_eq (hin.of_size_eq h.size), get_eq hin, ← Value.decode_take, hbytes, Value.decode_take]

theorem wordAt_of_le (h : d.Stores x w x') {offset : Nat} (hle : offset + 8 ≤ d.offset) :
    x'.wordAt offset = x.wordAt offset := by
  have hbytes : (x'.bytes.drop offset).take 8 = (x.bytes.drop offset).take 8 :=
    take_drop_congr fun i _ hhigh => h.frame i (Or.inl (by omega))
  rw [Instance.wordAt, ← LittleEndian.toWord_take, hbytes, LittleEndian.toWord_take]
  rfl

end Stores

end Descriptor

/-! ## Lists of accesses -/

/-- One call of an accessor. -/
inductive Access where
  | get (d : Descriptor)
  | set (d : Descriptor) (v : Value)

namespace Access

/-- The accessor that is called. -/
def descriptor : Access → Descriptor
  | .get d | .set d _ => d

/-- The call stores a value that fits the attribute. -/
def StoresIn (d : Descriptor) : Access → Prop
  | .get _ => False
  | .set d' v => d'.name = d.name ∧ Value.Fits d.ty v

end Access

/-- The value that an attribute should have after a list of calls: what the last value stored there has become,
else the zero value. -/
inductive LastStored (d : Descriptor) : List Access → Value → Prop
  | zero : LastStored d [] (Value.zero d.ty)
  | stored {calls : List Access} {d' : Descriptor} {v w : Value} (name : d'.name = d.name)
      (becomes : Value.Becomes d.ty v w) : LastStored d (calls ++ [.set d' v]) w
  | kept {calls : List Access} {c : Access} {w : Value} (last : LastStored d calls w) (other : ¬ c.StoresIn d) :
      LastStored d (calls ++ [c]) w

namespace Instance

/-- The instance after one call; a failed store leaves it as it is. -/
def after (x : Instance) : Access → Instance
  | .get _ => x
  | .set d v =>
    match d.set x v with
    | .ok x' => x'
    | .error _ => x

/-- The instance after a list of calls. -/
def run (x : Instance) (calls : List Access) : Instance :=
  calls.foldl after x

open Layout (ofTable refcountOffset)

variable (t : Table Ty) (vtabId : UInt64) (calls : List Access) (x : Instance)

/-- The header stands and every attribute has the value that the calls should have left. -/
structure Holds : Prop where
  size : x.size = (ofTable t).instanceSize
  get : ∀ d ∈ (ofTable t).descriptors, ∃ w, d.get x = .ok w ∧ LastStored d calls w
  refcount : x.wordAt refcountOffset = 1
  vtabId : x.vtabId = vtabId

/-- Through the accessors of a table, an instance is a record with the values that the calls should have left:
reading never fails and storing fails exactly for values that do not fit; it then changes nothing, and else
no byte of another attribute or of the header. -/
structure ActsAsRecord : Prop where
  get : ∀ d ∈ (ofTable t).descriptors, ∃ w, d.get x = .ok w ∧ LastStored d calls w
  set : ∀ d ∈ (ofTable t).descriptors, ∀ v, Value.Fits d.ty v → ∃ x', d.set x v = .ok x' ∧
    x.after (.set d v) = x' ∧ x'.size = x.size ∧ (∃ w, d.get x' = .ok w ∧ Value.Becomes d.ty v w) ∧
    (∀ i, i < d.offset ∨ d.offset + d.ty.nativeSize ≤ i → x'.bytes[i]? = x.bytes[i]?) ∧
    ∀ d' ∈ (ofTable t).descriptors, d'.name ≠ d.name → d'.get x' = d'.get x
  reject : ∀ d ∈ (ofTable t).descriptors, ∀ v, ¬ Value.Fits d.ty v →
    d.set x v = .error (.typeMismatch d.name d.ty v.typeName) ∧ x.after (.set d v) = x
  inBounds : ∀ d ∈ (ofTable t).descriptors, d.checkBounds x = .ok ()
  refcount : x.wordAt refcountOffset = 1
  vtabId : x.vtabId = vtabId

variable {t vtabId calls x} {d d' : Descriptor} {v w : Value}

theorem after_stores (hin : d.InBounds x) (hv : Value.convert? d.ty v = some w) :
    d.set x v = .ok (x.after (.set d v)) ∧ d.Stores x w (x.after (.set d v)) := by
  obtain ⟨x', hset, hs⟩ := Descriptor.exists_stores hin hv
  have hafter : x.after (.set d v) = x' := by simp only [after, hset]
  exact hafter ▸ ⟨hset, hs⟩

theorem after_eq_self (hin : d.InBounds x) (hv : Value.convert? d.ty v = none) : x.after (.set d v) = x := by
  simp only [after, Descriptor.set_eq_error hin hv]

theorem bytes_zeroed (className : String) (size : Nat) (vtabId : UInt64) :
    (zeroed className size vtabId).bytes.drop Layout.attributesOffset =
      List.replicate (size - Layout.attributesOffset) 0 := by
  refine List.drop_left' ?_
  simp [Layout.attributesOffset]

theorem size_zeroed {size : Nat} (className : String) (vtabId : UInt64) (h : Layout.attributesOffset ≤ size) :
    (zeroed className size vtabId).size = size := by
  simp only [Instance.size, zeroed, List.length_append, List.length_replicate, LittleEndian.length_ofWord]
  exact Nat.add_sub_of_le h

theorem refcount_zeroed (className : String) (size : Nat) (vtabId : UInt64) :
    (zeroed className size vtabId).wordAt refcountOffset = 1 := by
  simp only [wordAt, zeroed, List.append_assoc]
  rw [List.drop_left' (by rfl), LittleEndian.toWord_ofWord_append]

theorem vtabId_zeroed (className : String) (size : Nat) (vtabId : UInt64) :
    (zeroed className size vtabId).vtabId = vtabId := by
  simp only [Instance.vtabId, wordAt, zeroed, List.append_assoc]
  rw [← List.append_assoc, List.drop_left' (by rfl), LittleEndian.toWord_ofWord_append]

theorem get_zeroed {size : Nat} (className : String) (vtabId : UInt64) (hheader : Layout.attributesOffset ≤ d.offset)
    (hin : d.InBounds (zeroed className size vtabId)) :
    d.get (zeroed className size vtabId) = .ok (Value.zero d.ty) := by
  rw [Descriptor.get_eq hin, ← Nat.add_sub_of_le hheader, ← List.drop_drop, bytes_zeroed, List.drop_replicate,
    Value.decode_replicate_zero]

theorem holds_zeroed (t : Table Ty) (className : String) (vtabId : UInt64) :
    (zeroed className (ofTable t).instanceSize vtabId).Holds t vtabId [] where
  size := size_zeroed className vtabId (Layout.attributesOffset_le_instanceSize t)
  get d hd := by
    have hbounds := Layout.bounds_descriptors hd
    refine ⟨Value.zero d.ty, get_zeroed className vtabId hbounds.1 ?_, .zero⟩
    rw [Descriptor.InBounds, size_zeroed className vtabId (Layout.attributesOffset_le_instanceSize t)]
    exact hbounds.2
  refcount := refcount_zeroed className _ vtabId
  vtabId := vtabId_zeroed className _ vtabId

namespace Holds

theorem inBounds (h : x.Holds t vtabId calls) (hd : d ∈ (ofTable t).descriptors) : d.InBounds x :=
  Nat.le_trans (Layout.bounds_descriptors hd).2 (Nat.le_of_eq h.size.symm)

theorem get_of_stores {x' : Instance} (h : x.Holds t vtabId calls)
    (hd : d ∈ (ofTable t).descriptors) (hd' : d' ∈ (ofTable t).descriptors) (hs : d.Stores x w x')
    (hne : d'.name ≠ d.name) : d'.get x' = d'.get x :=
  hs.get_of_disjoint (h.inBounds hd')
    (Layout.disjoint_descriptors hd hd' fun heq => hne (congrArg Descriptor.name heq.symm))

/-- A store that succeeds leaves the value in its attribute and the others as they were. -/
theorem after_set (h : x.Holds t vtabId calls) (hd : d ∈ (ofTable t).descriptors)
    (hv : Value.convert? d.ty v = some w) : (x.after (.set d v)).Holds t vtabId (calls ++ [.set d v]) := by
  have hs := (after_stores (h.inBounds hd) hv).2
  have hheader : Layout.attributesOffset ≤ d.offset := (Layout.bounds_descriptors hd).1
  refine ⟨hs.size.trans h.size, fun d' hd' => ?_, ?_, ?_⟩
  · by_cases hname : d.name = d'.name
    · obtain rfl := Layout.eq_of_name_eq hd hd' hname
      exact ⟨w, hs.get, .stored hname (Value.becomes_of_convert? hv)⟩
    · obtain ⟨w', hget, hlast⟩ := h.get d' hd'
      exact ⟨w', (h.get_of_stores hd hd' hs (Ne.symm hname)).trans hget, .kept hlast fun hc => hname hc.1⟩
  · rw [hs.wordAt_of_le (Nat.le_trans (by decide) hheader), h.refcount]
  · exact (hs.wordAt_of_le hheader).trans h.vtabId

theorem append_of_not_storesIn (h : x.Holds t vtabId calls) {c : Access}
    (hc : ∀ d ∈ (ofTable t).descriptors, ¬ c.StoresIn d) : x.Holds t vtabId (calls ++ [c]) where
  size := h.size
  get d hd := by
    obtain ⟨w, hget, hlast⟩ := h.get d hd
    exact ⟨w, hget, .kept hlast (hc d hd)⟩
  refcount := h.refcount
  vtabId := h.vtabId

theorem after (h : x.Holds t vtabId calls) {c : Access} (hc : c.descriptor ∈ (ofTable t).descriptors) :
    (x.after c).Holds t vtabId (calls ++ [c]) := by
  cases c with
  | get d => exact h.append_of_not_storesIn fun _ _ hstores => hstores
  | set d v =>
    rw [Access.descriptor] at hc
    cases hv : Value.convert? d.ty v with
    | some w => exact h.after_set hc hv
    | none =>
      rw [after_eq_self (h.inBounds hc) hv]
      refine h.append_of_not_storesIn fun d' hd' hstores => ?_
      obtain rfl := Layout.eq_of_name_eq hc hd' hstores.1
      rw [Access.StoresIn, ← Value.convert?_isSome_iff, hv] at hstores
      exact Bool.noConfusion hstores.2

theorem run (h : x.Holds t vtabId []) (hcalls : ∀ c ∈ calls, c.descriptor ∈ (ofTable t).descriptors) :
    (x.run calls).Holds t vtabId calls := by
  induction calls using List.reverseRecOn with
  | nil => exact h
  | append_singleton calls c ih =>
    obtain ⟨hinit, hlast⟩ := List.forall_mem_append.mp hcalls
    rw [Instance.run, List.foldl_append]
    exact (ih hinit).after (hlast c List.mem_cons_self)

theorem actsAsRecord (h : x.Holds t vtabId calls) : x.ActsAsRecord t vtabId calls where
  get := h.get
  set d hd v hfits := by
    obtain ⟨w, hv⟩ := Option.isSome_iff_exists.mp ((Value.convert?_isSome_iff d.ty v).mpr hfits)
    obtain ⟨hset, hs⟩ := after_stores (h.inBounds hd) hv
    exact ⟨_, hset, rfl, hs.size, ⟨w, hs.get, Value.becomes_of_convert? hv⟩, hs.frame,
      fun d' hd' => h.get_of_stores hd hd' hs⟩
  reject d hd v hfits := by
    rw [← Value.convert?_isSome_iff, Option.not_isSome_iff_eq_none] at hfits
    exact ⟨Descriptor.set_eq_error (h.inBounds hd) hfits, after_eq_self (h.inBounds hd) hfits⟩
  inBounds d hd := Descriptor.checkBounds_eq (h.inBounds hd)
  refcount := h.refcount
  vtabId := h.vtabId

end Holds

/-- **Through its descriptors, an instance is a record of the last values stored.** -/
theorem actsAsRecord_run (t : Table Ty) (className : String) (vtabId : UInt64) {calls : List Access}
    (hcalls : ∀ c ∈ calls, c.descriptor ∈ (ofTable t).descriptors) :
    ((zeroed className (ofTable t).instanceSize vtabId).run calls).ActsAsRecord t vtabId calls :=
  ((holds_zeroed t className vtabId).run hcalls).actsAsRecord

end Instance

/-! ## Accesses to a gauge -/

namespace Sample

/-- A byte in front of three words. -/
def gauge : Table Ty :=
  .ofOwn [("ready", .bool), ("level", .int), ("ratio", .float), ("owner", .str)]

def ready : Descriptor := ⟨"ready", .bool, 0, 24⟩

def level : Descriptor := ⟨"level", .int, 1, 32⟩

def ratio : Descriptor := ⟨"ratio", .float, 2, 40⟩

/-- Stores that keep a value, convert it and reject it. -/
def gaugeCalls : List Access :=
  [.set ratio (.int 3), .set ready (.bool true), .set level (.int (-7)), .get ready, .set level (.object 4),
    .set ready (.int 0)]

end Sample

namespace Instance

open Sample
open Layout (ofTable)

theorem actsAsRecord_run_gauge :
    (∀ c ∈ gaugeCalls, c.descriptor ∈ (ofTable gauge).descriptors) ∧
      ∃ x, (zeroed "Gauge" (ofTable gauge).instanceSize 9).run gaugeCalls = x ∧ x.vtabId = 9 ∧
        ready.get x = .ok (.bool true) ∧ level.get x = .ok (.int (-7)) ∧
        ratio.get x = .ok (.float ⟨0x4008000000000000⟩) ∧
        LastStored ratio gaugeCalls (.float ⟨0x4008000000000000⟩) := by
  have hcalls : ∀ c ∈ gaugeCalls, c.descriptor ∈ (ofTable gauge).descriptors := by decide +kernel
  have hrecord := actsAsRecord_run gauge "Gauge" 9 hcalls
  obtain ⟨w, hget, hlast⟩ := hrecord.get ratio (by decide +kernel)
  have hratio : ratio.get ((zeroed "Gauge" (ofTable gauge).instanceSize 9).run gaugeCalls) =
      .ok (.float ⟨0x4008000000000000⟩) := by rfl
  obtain rfl := Except.ok.inj (hratio.symm.trans hget)
  exact ⟨hcalls, _, rfl, hrecord.vtabId, rfl, rfl, hratio, hlast⟩

end Instance

end NativeClass
