/-!
# Numbers as bytes, least byte first

* `LittleEndian.number`, `LittleEndian.bytes`: reading and writing.
* `LittleEndian.number_bytes`: reading what was written gives the number back, up to its size.
-/

namespace NativeClass.LittleEndian

/-- The number that the bytes spell. -/
def number : List UInt8 → Nat
  | [] => 0
  | b :: bs => b.toNat + 256 * number bs

/-- The lowest `count` bytes of a number. -/
def bytes : (count n : Nat) → List UInt8
  | 0, _ => []
  | count + 1, n => UInt8.ofNat n :: bytes count (n / 256)

/-- The eight bytes of a word. -/
def ofWord (w : UInt64) : List UInt8 :=
  bytes 8 w.toNat

/-- The word that the first eight bytes spell. -/
def toWord (bs : List UInt8) : UInt64 :=
  UInt64.ofNat (number (bs.take 8))

@[simp] theorem length_bytes (count n : Nat) : (bytes count n).length = count := by
  induction count generalizing n with
  | zero => rfl
  | succ count ih => simp [bytes, ih]

theorem number_bytes (count n : Nat) : number (bytes count n) = n % Nat.pow 256 count := by
  induction count generalizing n with
  | zero => simp [number, bytes, Nat.mod_one]
  | succ count ih =>
    have hp : Nat.pow 256 (count + 1) = 256 * Nat.pow 256 count := Nat.pow_succ'
    rw [bytes, number, ih, hp, Nat.mod_mul]
    simp

@[simp] theorem length_ofWord (w : UInt64) : (ofWord w).length = 8 :=
  length_bytes 8 w.toNat

theorem toWord_ofWord_append (w : UInt64) (rest : List UInt8) : toWord (ofWord w ++ rest) = w := by
  unfold toWord
  rw [List.take_left' (length_ofWord w), ofWord, number_bytes, Nat.mod_eq_of_lt]
  · simp
  · exact w.toNat_lt

theorem toWord_take (bs : List UInt8) : toWord (bs.take 8) = toWord bs := by
  rw [toWord, toWord, List.take_take, Nat.min_self]

theorem number_replicate_zero (n : Nat) : number (List.replicate n 0) = 0 := by
  induction n with
  | zero => rfl
  | succ n ih =>
    rw [List.replicate_succ, number, ih]
    rfl

theorem toWord_replicate_zero (n : Nat) : toWord (List.replicate n 0) = 0 := by
  rw [toWord, List.take_replicate, number_replicate_zero]
  rfl

end NativeClass.LittleEndian
