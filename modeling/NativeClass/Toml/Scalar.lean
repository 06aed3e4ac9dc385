import NativeClass.Toml.Basic
/-!
# Numbers, dates and words

* `readScalar`: the number, date or word that begins a text.
* `scalar?`: the value that a run of characters spells.
-/

namespace NativeClass.Toml

/-! ## Digits -/

/-- Hexadecimal, octal and binary digits. -/
def isDigitOf (base : Nat) (c : Char) : Bool :=
  if base = 16 then c.isDigit || ('a' ≤ c && c ≤ 'f') || ('A' ≤ c && c ≤ 'F')
  else '0' ≤ c && c.toNat < '0'.toNat + base

/-- The value of a digit of any base. -/
def digitValue (c : Char) : Nat :=
  if c.isDigit then c.toNat - '0'.toNat else c.toLower.toNat - 'a'.toNat + 10

/-- The number that digits spell. -/
def numberOf (base : Nat) (ds : List Char) : Nat :=
  ds.foldl (fun n d => base * n + digitValue d) 0

/-- Digits without the single underscores that may stand between them. -/
def digits? (base : Nat) : List Char → Option (List Char)
  | [] => none
  | [d] => if isDigitOf base d then some [d] else none
  | d :: '_' :: ds => if isDigitOf base d then (digits? base ds).map (d :: ·) else none
  | d :: ds => if isDigitOf base d then (digits? base ds).map (d :: ·) else none

/-- The character may stand in a number between its other signs. -/
def isDigitOrLine (c : Char) : Bool :=
  c.isDigit || c = '_'

/-! ## Integers -/

/-- An integer that fits into 64 bits. -/
def fitting (text : String) (n : Int) : Except Error Value :=
  if Int64.minValue.toInt ≤ n ∧ n ≤ Int64.maxValue.toInt then .ok (.int (.ofInt n))
  else .error (.outOfRange text)

/-- Whether a sign is a minus. -/
def splitSign : List Char → Bool × List Char
  | '-' :: cs => (true, cs)
  | '+' :: cs => (false, cs)
  | cs => (false, cs)

/-- Decimal digits of a whole number, without leading zeros. -/
def wholeDigits? (cs : List Char) : Option (List Char) :=
  (digits? 10 cs).filter fun ds => ds.head? ≠ some '0' || cs = ['0']

/-- The base that a number's first two characters announce. -/
def announcedBase? : List Char → Option (Nat × List Char)
  | '0' :: 'x' :: cs => some (16, cs)
  | '0' :: 'o' :: cs => some (8, cs)
  | '0' :: 'b' :: cs => some (2, cs)
  | _ => none

/-! ## Floating-point numbers -/

/-- The exponent at the end of a number; without one it is zero. -/
def exponentOf? : List Char → Option Int
  | [] => some 0
  | e :: cs =>
    let (negative, ds) := splitSign cs
    if e = 'e' || e = 'E' then
      (digits? 10 ds).map fun ds => if negative then -(numberOf 10 ds : Int) else numberOf 10 ds
    else none

/-- The digits of a fraction, and the text behind them. -/
def fractionOf? : List Char → Option (List Char × List Char)
  | '.' :: cs => (digits? 10 (cs.takeWhile isDigitOrLine)).map (·, cs.dropWhile isDigitOrLine)
  | cs => some ([], cs)

/-- A number without its sign: an integer, or a floating-point number if it has a fraction or an exponent. -/
def number? (text : String) (negative : Bool) (cs : List Char) : Option (Except Error Value) := do
  let whole ← wholeDigits? (cs.takeWhile isDigitOrLine)
  let rest := cs.dropWhile isDigitOrLine
  if rest.isEmpty then
    let n : Int := numberOf 10 whole
    return fitting text (if negative then -n else n)
  let (fraction, rest) ← fractionOf? rest
  let exponent ← exponentOf? rest
  let x := Binary64.ofDecimal negative (numberOf 10 (whole ++ fraction)) (exponent - fraction.length)
  return if x = .infinity false then .error (.outOfRange text) else .ok (.float x)

/-! ## Dates and times -/

/-- The number that two digits spell, if it lies in a range. -/
def twoDigits? (low high : Nat) (a b : Char) : Option Nat :=
  let n := numberOf 10 [a, b]
  if a.isDigit && b.isDigit && low ≤ n && n ≤ high then some n else none

/-- The number of days of a month. -/
def daysOf (year month : Nat) : Nat :=
  if month = 2 then if year % 4 = 0 ∧ (year % 100 ≠ 0 ∨ year % 400 = 0) then 29 else 28
  else if month ∈ [4, 6, 9, 11] then 30
  else 31

/-- A year, a month and a day that the calendar has. -/
def isDate : List Char → Bool
  | [y₁, y₂, y₃, y₄, '-', m₁, m₂, '-', d₁, d₂] =>
    [y₁, y₂, y₃, y₄].all Char.isDigit &&
      match twoDigits? 1 12 m₁ m₂ with
      | some month => (twoDigits? 1 (daysOf (numberOf 10 [y₁, y₂, y₃, y₄]) month) d₁ d₂).isSome
      | none => false
  | _ => false

/-- A point and the digits of a fraction of a second, or nothing. -/
def isSecondFraction : List Char → Bool
  | [] => true
  | c :: ds => c = '.' && !ds.isEmpty && ds.all Char.isDigit

/-- Hours, minutes and seconds. -/
def isTime : List Char → Bool
  | h₁ :: h₂ :: ':' :: m₁ :: m₂ :: ':' :: s₁ :: s₂ :: rest =>
    (twoDigits? 0 23 h₁ h₂).isSome && (twoDigits? 0 59 m₁ m₂).isSome &&
      (twoDigits? 0 60 s₁ s₂).isSome && isSecondFraction rest
  | _ => false

/-- The distance of a time zone, or nothing. -/
def isOffset : List Char → Bool
  | [] => true
  | [c] => c = 'Z' || c = 'z'
  | [sign, h₁, h₂, ':', m₁, m₂] =>
    (sign = '+' || sign = '-') && (twoDigits? 0 23 h₁ h₂).isSome && (twoDigits? 0 59 m₁ m₂).isSome
  | _ => false

/-- A time that an offset may follow. -/
def isZonedTime (cs : List Char) : Bool :=
  let isTimeChar := fun c : Char => c.isDigit || c = ':' || c = '.'
  isTime (cs.takeWhile isTimeChar) && isOffset (cs.dropWhile isTimeChar)

/-- A date, a time, or both with a letter between them. -/
def isDateTime (cs : List Char) : Bool :=
  isDate cs || isTime cs ||
    match cs[10]? with
    | some c => (c = 'T' || c = 't') && isDate (cs.take 10) && isZonedTime (cs.drop 11)
    | none => false

/-! ## Any of them -/

/-- The value of a word. -/
def word? (negative : Bool) : String → Option Value
  | "inf" => some (.float (.infinity negative))
  | "nan" => some (.float (.nan negative))
  | _ => none

/-- The value that a run of characters spells. -/
def scalar? (cs : List Char) : Option (Except Error Value) :=
  let text := String.ofList cs
  if text = "true" then some (.ok (.bool true))
  else if text = "false" then some (.ok (.bool false))
  else if isDateTime cs then some (.ok (.dateTime text))
  else
    match announcedBase? cs with
    | some (base, ds) => (digits? base ds).map fun ds => fitting text (numberOf base ds)
    | none =>
      let (negative, rest) := splitSign cs
      ((word? negative (String.ofList rest)).map .ok).or (number? text negative rest)

/-- The character may stand in a number, a date or a word. -/
def isScalarChar (c : Char) : Bool :=
  c.isAlphanum || c = '+' || c = '-' || c = '_' || c = '.' || c = ':'

/-- The number, date or word that begins a text, and the text behind it. A blank and a time may follow a
date. -/
def readScalar (cs : List Char) : Except Error (Value × List Char) :=
  let run := cs.takeWhile isScalarChar
  let rest := cs.dropWhile isScalarChar
  let time := (rest.drop 1).takeWhile isScalarChar
  if isDate run && rest.head? = some ' ' && time.head?.any Char.isDigit then
    if isZonedTime time then
      .ok (.dateTime (String.ofList (run ++ ' ' :: time)), (rest.drop 1).dropWhile isScalarChar)
    else .error (.malformedScalar (String.ofList (run ++ ' ' :: time)))
  else
    match scalar? run with
    | some value => value.map (·, rest)
    | none => .error (.malformedScalar (String.ofList run))

end NativeClass.Toml
