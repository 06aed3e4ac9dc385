/-!
# Rounding a quotient

* `roundDiv`: the nearest integer, a tie going to the even one.
-/

namespace NativeClass

/-- The integer nearest to `num / den`, a tie going to the even one. -/
def roundDiv (num den : Nat) : Nat :=
  let q := num / den
  let r := num % den
  if 2 * r < den then q
  else if den < 2 * r then q + 1
  else q + q % 2

end NativeClass
