import NativeClass.Rounding
/-!
# Binary64 numbers

Floating-point numbers as their 64 bits: a sign, eleven bits of exponent and 52 bits of fraction.

* `Binary64.ofRatio`: the number nearest to a fraction, a tie going to the even one.
* `Binary64.ofInt`, `Binary64.ofDecimal`: integers and decimal texts as numbers.
* `Binary64.text`: the fewest digits that read back, always positional.
-/

namespace NativeClass

/-- A floating-point number, given by its bits. -/
structure Binary64 where
  bits : UInt64
  deriving DecidableEq, Inhabited

namespace Binary64

/-! ## Parts -/

/-- The sign bit is set. -/
def isNegative (x : Binary64) : Bool :=
  Nat.pow 2 63 ≤ x.bits.toNat

/-- The exponent field. -/
def exponentField (x : Binary64) : Nat :=
  x.bits.toNat / Nat.pow 2 52 % Nat.pow 2 11

/-- The fraction field. -/
def fraction (x : Binary64) : Nat :=
  x.bits.toNat % Nat.pow 2 52

/-- Not a number. -/
def isNaN (x : Binary64) : Bool :=
  x.exponentField = 2047 && x.fraction ≠ 0

/-- Plus or minus infinity. -/
def isInfinite (x : Binary64) : Bool :=
  x.exponentField = 2047 && x.fraction = 0

/-- Plus or minus zero. -/
def isZero (x : Binary64) : Bool :=
  x.exponentField = 0 && x.fraction = 0

/-- The integer `m` with the number's absolute value `m * 2 ^ (e - 1075)`, where `e` is the exponent field
or one, whichever is greater. -/
def significand (x : Binary64) : Nat :=
  if x.exponentField = 0 then x.fraction else Nat.pow 2 52 + x.fraction

/-- The power of two that belongs to `significand`. -/
def scale (x : Binary64) : Int :=
  (max x.exponentField 1 : Nat) - 1075

/-- Equality of the numbers: the two zeros are equal and nothing equals a NaN. -/
def numEq (x y : Binary64) : Bool :=
  !x.isNaN && !y.isNaN && (x.bits = y.bits || (x.isZero && y.isZero))

/-- The number with this sign and these lower 63 bits. -/
def ofParts (negative : Bool) (magnitude : Nat) : Binary64 :=
  ⟨UInt64.ofNat ((if negative then Nat.pow 2 63 else 0) + magnitude)⟩

/-- The bits of infinity. -/
def infinityBits : Nat := 2047 * Nat.pow 2 52

/-- The quiet NaN. -/
def nan (negative : Bool) : Binary64 :=
  ofParts negative (infinityBits + Nat.pow 2 51)

/-- Infinity. -/
def infinity (negative : Bool) : Binary64 :=
  ofParts negative infinityBits

/-! ## Nearest numbers -/

/-- `num / den` times `2 ^ (-e)`, as a fraction. -/
def shifted (num den : Nat) (e : Int) : Nat × Nat :=
  match e with
  | .ofNat k => (num, den * Nat.pow 2 k)
  | .negSucc k => (num * Nat.pow 2 (k + 1), den)

/-- The exponent that brings `num / den` between `2 ^ 52` and `2 ^ 53`, but at least the least one. -/
def ratioExponent (num den : Nat) : Int :=
  let e : Int := (num.log2 : Int) - den.log2 - 52
  let (n, d) := shifted num den e
  max (if n / d < Nat.pow 2 52 then e - 1 else e) (-1074)

/-- The number nearest to `num / den`, a tie going to the even one. Beyond the greatest number it is
infinity. -/
def ofRatio (negative : Bool) (num den : Nat) : Binary64 :=
  if num = 0 then ofParts negative 0
  else
    let e := ratioExponent num den
    let (n, d) := shifted num den e
    let magnitude := (e + 1074).toNat * Nat.pow 2 52 + roundDiv n d
    ofParts negative (min magnitude infinityBits)

/-- The number nearest to an integer. -/
def ofInt (n : Int) : Binary64 :=
  ofRatio (n < 0) n.natAbs 1

/-- The number nearest to `digits * 10 ^ exponent`. Exponents so large or so small that the result is
infinity or zero for certain are not computed with. -/
def ofDecimal (negative : Bool) (digits : Nat) (exponent : Int) : Binary64 :=
  let places : Int := (Nat.toDigits 10 digits).length
  if digits = 0 ∨ exponent + places < -400 then ofParts negative 0
  else if 400 < exponent + places then infinity negative
  else match exponent with
    | .ofNat k => ofRatio negative (digits * Nat.pow 10 k) 1
    | .negSucc k => ofRatio negative digits (Nat.pow 10 (k + 1))

/-! ## Reading decimal text -/

/-- The number that a list of decimal digits spells, appended to the digits of `n`. -/
def appendDigits (n : Nat) (ds : List Char) : Nat :=
  ds.foldl (fun n d => 10 * n + (d.toNat - '0'.toNat)) n

/-- A sign in front of a list of characters: whether it is a minus, and the characters after it. -/
def splitSign : List Char → Bool × List Char
  | '-' :: cs => (true, cs)
  | '+' :: cs => (false, cs)
  | cs => (false, cs)

/-- The exponent at the end of a decimal. -/
def exponent? : List Char → Option Int
  | [] => some 0
  | e :: cs =>
    let (negative, ds) := splitSign cs
    if (e = 'e' || e = 'E') && !ds.isEmpty && ds.all Char.isDigit then
      some (if negative then -appendDigits 0 ds else appendDigits 0 ds)
    else none

/-- The digits after a point, and the characters after them. -/
def splitFraction : List Char → List Char × List Char
  | '.' :: cs => (cs.takeWhile Char.isDigit, cs.dropWhile Char.isDigit)
  | cs => ([], cs)

/-- The number that a decimal with an optional sign, fraction and exponent spells. -/
def ofText? (s : String) : Option Binary64 :=
  let (negative, cs) := splitSign s.toList
  let whole := cs.takeWhile Char.isDigit
  let (fraction, rest) := splitFraction (cs.dropWhile Char.isDigit)
  if whole.isEmpty && fraction.isEmpty then none
  else (exponent? rest).map fun e =>
    ofDecimal negative (appendDigits 0 (whole ++ fraction)) (e - fraction.length)

/-! ## Decimal text -/

/-- The value, and the widths of the interval of reals that round to it below and above, all counted in
quarters of its last place. -/
def interval (x : Binary64) : Nat × Nat × Nat :=
  let m := x.significand
  (4 * m, if m = Nat.pow 2 52 ∧ 1 < x.exponentField then 1 else 2, 2)

/-- The decimal `digit * 10 ^ k` lies among the reals that round to `x`. -/
def roundsTo (x : Binary64) (digit : Nat) (k : Int) : Bool :=
  let (v, below, above) := x.interval
  let (unitNum, unitDen) := shifted 1 1 (2 - x.scale)
  let (num, den) := match k with
    | .ofNat j => (digit * Nat.pow 10 j * unitDen, unitNum)
    | .negSucc j => (digit * unitDen, Nat.pow 10 (j + 1) * unitNum)
  let low := (v - below) * den
  let high := (v + above) * den
  if x.significand % 2 = 0 then low ≤ num && num ≤ high else low < num && num < high

/-- The value of `x` over `10 ^ k`, as a fraction. -/
def overPower (x : Binary64) (k : Int) : Nat × Nat :=
  let (num, den) := shifted x.significand 1 (-x.scale)
  match k with
  | .ofNat j => (num, den * Nat.pow 10 j)
  | .negSucc j => (num * Nat.pow 10 (j + 1), den)

/-- The exponent `k` for which `x` over `10 ^ k` has one digit before the point. -/
def leadingExponent (x : Binary64) : Int :=
  let estimate : Int := ((x.significand.log2 : Int) + x.scale) * 30103 / 100000
  let reaches (k : Int) : Bool :=
    let (n, d) := x.overPower k
    d ≤ n
  if reaches (estimate + 1) then estimate + 1
  else if reaches estimate then estimate
  else estimate - 1

/-- The decimal of `digits` digits that rounds to `x` and is nearest to it, the greater one in a tie. -/
def nearestOfLength? (x : Binary64) (digits : Nat) : Option (Nat × Int) :=
  let k := x.leadingExponent - (digits - 1 : Nat)
  let (n, d) := x.overPower k
  let lower := n / d
  let lowerFits := x.roundsTo lower k && 0 < lower
  let upperFits := x.roundsTo (lower + 1) k
  if lowerFits && upperFits then
    some (if 2 * (n % d) < d then lower else lower + 1, k)
  else if lowerFits then some (lower, k)
  else if upperFits then some (lower + 1, k)
  else none

/-- The shortest decimal that rounds to `x`, nearest to it among those; `x` is positive. -/
def shortest (x : Binary64) : Nat × Int :=
  ((List.range' 1 17).findSome? x.nearestOfLength?).getD (0, 0)

/-- A decimal in positional notation, without a fraction when it is an integer. -/
def positional (digits : Nat) (k : Int) : String :=
  let ds := Nat.toDigits 10 digits
  match k with
  | .ofNat j => String.ofList (ds ++ List.replicate j '0')
  | .negSucc j =>
    let padded := List.replicate (j + 2 - ds.length) '0' ++ ds
    let whole := padded.take (padded.length - (j + 1))
    let rest := padded.drop (padded.length - (j + 1))
    let kept := (rest.reverse.dropWhile (· = '0')).reverse
    String.ofList (if kept.isEmpty then whole else whole ++ '.' :: kept)

/-- The fewest digits that read back, in positional notation. -/
def text (x : Binary64) : String :=
  if x.isNaN then "NaN"
  else
    let sign := if x.isNegative then "-" else ""
    if x.isInfinite then sign ++ "inf"
    else if x.isZero then sign ++ "0"
    else
      let (digits, k) := x.shortest
      sign ++ positional digits k

end Binary64

end NativeClass
