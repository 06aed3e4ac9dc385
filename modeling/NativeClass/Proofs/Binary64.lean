import NativeClass.Binary64
import Mathlib.Algebra.Order.Ring.Nat
import Mathlib.Tactic.Ring
/-!
# The numbers nearest to integers

* `roundDiv_nearest`, `even_roundDiv_of_tie`: no multiple of the divisor is nearer to the dividend, and of two
  that are equally near the even one is taken.
* `Binary64.units`: a finite number as a multiple of the least positive one, `2 ^ (-1074)`.
* `Binary64.IsNearest`: the number that an integer rounds to.
* **`Binary64.isNearest_ofInt`**: `ofInt` rounds to the nearest number, a tie going to the even one, and is exact
  up to `2 ^ 53`.
-/

namespace NativeClass

/-! ## Rounded quotients -/

/-- The distance of a multiple of `den` from `num`. -/
def gap (num den q : Nat) : Nat :=
  ((q * den : Nat) - (num : Int)).natAbs

section roundDiv

variable {num den : Nat}

/-- The quotient is rounded down below a half, up above it, and to the even neighbour at a half. -/
theorem roundDiv_cases (num den : Nat) :
    (roundDiv num den = num / den ∧ 2 * (num % den) < den) ∨
      (roundDiv num den = num / den + 1 ∧ den < 2 * (num % den)) ∨
      (2 * (num % den) = den ∧ roundDiv num den % 2 = 0 ∧
        (roundDiv num den = num / den ∨ roundDiv num den = num / den + 1)) := by
  unfold roundDiv
  simp only
  split_ifs with hlow hhigh <;> omega

/-- A multiple of the divisor lies a step below the quotient, is one of its two neighbours or lies beyond. -/
theorem multiple_cases (num den q : Nat) :
    q * den + den ≤ num / den * den ∨ q = num / den ∨ q = num / den + 1 ∨
      num / den * den + 2 * den ≤ q * den := by
  rcases Nat.lt_or_ge q (num / den) with h | h
  · have := Nat.mul_le_mul_right den h
    rw [Nat.succ_mul] at this
    exact .inl this
  · rcases Nat.lt_or_ge (num / den + 1) q with h' | h'
    · have := Nat.mul_le_mul_right den h'
      rw [Nat.succ_mul, Nat.add_one_mul] at this
      omega
    · omega

theorem roundDiv_nearest (hden : 0 < den) (q : Nat) : gap num den (roundDiv num den) ≤ gap num den q := by
  have hmod := Nat.mod_lt num hden
  have hdiv := Nat.div_add_mod' num den
  have hsucc := Nat.add_one_mul (num / den) den
  unfold gap
  rcases roundDiv_cases num den with ⟨hr, hlt⟩ | ⟨hr, hlt⟩ | ⟨htie, -, hr | hr⟩ <;> rw [hr] <;>
    rcases multiple_cases num den q with hq | rfl | rfl | hq <;> omega

theorem even_roundDiv_of_tie (hden : 0 < den) {q : Nat} (hne : q ≠ roundDiv num den)
    (htie : gap num den q = gap num den (roundDiv num den)) : roundDiv num den % 2 = 0 := by
  have hmod := Nat.mod_lt num hden
  have hdiv := Nat.div_add_mod' num den
  have hsucc := Nat.add_one_mul (num / den) den
  unfold gap at htie
  rcases roundDiv_cases num den with ⟨hr, hlt⟩ | ⟨hr, hlt⟩ | ⟨-, heven, -⟩
  · rw [hr] at htie hne
    rcases multiple_cases num den q with hq | rfl | rfl | hq <;> omega
  · rw [hr] at htie hne
    rcases multiple_cases num den q with hq | rfl | rfl | hq <;> omega
  · exact heven

theorem roundDiv_mul_right (num den : Nat) {c : Nat} (hc : 0 < c) :
    roundDiv (num * c) (den * c) = roundDiv num den := by
  have hlow : 2 * (num % den * c) < den * c ↔ 2 * (num % den) < den := by
    rw [← Nat.mul_assoc, Nat.mul_lt_mul_right hc]
  have hhigh : den * c < 2 * (num % den * c) ↔ den < 2 * (num % den) := by
    rw [← Nat.mul_assoc, Nat.mul_lt_mul_right hc]
  simp only [roundDiv, Nat.mul_div_mul_right _ _ hc, Nat.mul_mod_mul_right, hlow, hhigh]

/-- Equal fractions are rounded alike. -/
theorem roundDiv_congr {num' den' : Nat} (hden : 0 < den) (hden' : 0 < den') (h : num * den' = num' * den) :
    roundDiv num den = roundDiv num' den' := by
  rw [← roundDiv_mul_right num den hden', h, Nat.mul_comm den den', roundDiv_mul_right num' den' hden]

theorem le_roundDiv {q : Nat} (hden : 0 < den) (h : q * den ≤ num) : q ≤ roundDiv num den := by
  have hle := (Nat.le_div_iff_mul_le hden).mpr h
  rcases roundDiv_cases num den with ⟨hr, -⟩ | ⟨hr, -⟩ | ⟨-, -, hr | hr⟩ <;> omega

theorem roundDiv_le {q : Nat} (hden : 0 < den) (h : num < q * den) : roundDiv num den ≤ q := by
  have hlt := (Nat.div_lt_iff_lt_mul hden).mpr h
  rcases roundDiv_cases num den with ⟨hr, -⟩ | ⟨hr, -⟩ | ⟨-, -, hr | hr⟩ <;> omega

end roundDiv

namespace Binary64

/-! ## Values -/

/-- Neither infinite nor a NaN. -/
def IsFinite (x : Binary64) : Prop :=
  x.exponentField < 2047

/-- The absolute value of a finite number, as a multiple of the least positive one. -/
def absUnits (x : Binary64) : Nat :=
  x.significand * 2 ^ (x.scale + 1074).toNat

/-- A finite number, as a multiple of the least positive one, `2 ^ (-1074)`. -/
def units (x : Binary64) : Int :=
  if x.isNegative then -x.absUnits else x.absUnits

/-- The number one, in the same units. -/
@[irreducible] def unitsPerOne : Nat :=
  Nat.pow 2 1074

/-- The distance of a finite number from an integer, in the same units. -/
def distance (x : Binary64) (n : Int) : Nat :=
  (x.units - n * unitsPerOne).natAbs

/-- The number that an integer rounds to: it has the integer's sign, none is nearer, and of two that are equally
near it is the one with an even fraction. Up to `2 ^ 53` it is the integer itself. -/
structure IsNearest (x : Binary64) (n : Int) : Prop where
  finite : x.IsFinite
  sign : x.isNegative = decide (n < 0)
  nearest : ∀ y : Binary64, y.IsFinite → x.distance n ≤ y.distance n
  even : ∀ y : Binary64, y.IsFinite → y.units ≠ x.units → y.distance n = x.distance n → x.fraction % 2 = 0
  exact : n.natAbs ≤ 2 ^ 53 → x.units = n * unitsPerOne

theorem significand_lt (x : Binary64) : x.significand < 2 ^ 53 := by
  have hlt : x.fraction < 2 ^ 52 := Nat.mod_lt _ (by decide)
  unfold significand
  rw [Nat.pow_eq]
  split_ifs <;> omega

section ofParts

variable (negative : Bool) {magnitude : Nat}

theorem toNat_ofParts (h : magnitude < 2 ^ 63) :
    (ofParts negative magnitude).bits.toNat = (if negative then 2 ^ 63 else 0) + magnitude := by
  unfold ofParts
  rw [UInt64.toNat_ofNat', Nat.pow_eq]
  apply Nat.mod_eq_of_lt
  split_ifs <;> omega

theorem isNegative_ofParts (h : magnitude < 2 ^ 63) : (ofParts negative magnitude).isNegative = negative := by
  rw [isNegative, toNat_ofParts negative h, Nat.pow_eq]
  cases negative
  · simpa using h
  · simp

theorem exponentField_ofParts (h : magnitude < 2 ^ 63) :
    (ofParts negative magnitude).exponentField = magnitude / 2 ^ 52 := by
  rw [exponentField, toNat_ofParts negative h, Nat.pow_eq, Nat.pow_eq]
  split_ifs <;> omega

theorem fraction_ofParts (h : magnitude < 2 ^ 63) :
    (ofParts negative magnitude).fraction = magnitude % 2 ^ 52 := by
  rw [fraction, toNat_ofParts negative h, Nat.pow_eq]
  split_ifs <;> omega

/-- A significand of 53 bits above a power of two; `2 ^ 53` carries into the exponent. -/
theorem absUnits_ofParts {k s : Nat} (hk : k ≤ 2044) (hlow : 2 ^ 52 ≤ s) (hhigh : s ≤ 2 ^ 53) :
    (ofParts negative (k * 2 ^ 52 + s)).absUnits = s * 2 ^ k := by
  have hroom : k * 2 ^ 52 + s < 2 ^ 63 := by omega
  rw [absUnits, significand, scale, exponentField_ofParts negative hroom, fraction_ofParts negative hroom, Nat.pow_eq]
  rcases Nat.lt_or_eq_of_le hhigh with hlt | rfl
  · have hfield : (k * 2 ^ 52 + s) / 2 ^ 52 = k + 1 := by omega
    have hfraction : 2 ^ 52 + (k * 2 ^ 52 + s) % 2 ^ 52 = s := by omega
    rw [hfield, if_neg (Nat.succ_ne_zero k), hfraction]
    congr 2
    omega
  · have hfield : (k * 2 ^ 52 + 2 ^ 53) / 2 ^ 52 = k + 2 := by omega
    have hfraction : 2 ^ 52 + (k * 2 ^ 52 + 2 ^ 53) % 2 ^ 52 = 2 ^ 52 := by omega
    have hscale : (((max (k + 2) 1 : Nat) : Int) - 1075 + 1074).toNat = k + 1 := by omega
    rw [hfield, if_neg (Nat.succ_ne_zero (k + 1)), hfraction, hscale, pow_succ 2 k]
    ring

end ofParts

/-- A finite number is a multiple of a power of two or has a significand's room below it. -/
theorem absUnits_cases (y : Binary64) (k : Nat) :
    (∃ q, y.absUnits = q * 2 ^ k) ∨ y.absUnits < 2 ^ 52 * 2 ^ k := by
  unfold absUnits
  generalize (y.scale + 1074).toNat = j
  rcases Nat.lt_or_ge j k with h | h
  · right
    have hlt : y.significand * 2 ^ j < 2 ^ 53 * 2 ^ j :=
      Nat.mul_lt_mul_of_pos_right y.significand_lt (Nat.two_pow_pos j)
    have hle : 2 ^ 53 * 2 ^ j ≤ 2 ^ 52 * 2 ^ k := by
      rw [← Nat.pow_add, ← Nat.pow_add]
      exact Nat.pow_le_pow_right (by decide) (by omega)
    exact Nat.lt_of_lt_of_le hlt hle
  · left
    refine ⟨y.significand * 2 ^ (j - k), ?_⟩
    rw [Nat.mul_assoc, ← Nat.pow_add, Nat.sub_add_cancel h]

/-! ## Signs -/

section distance

variable {x : Binary64} {n : Int}

theorem mul_unitsPerOne (n : Int) :
    n * (unitsPerOne : Int) =
      if n < 0 then -((n.natAbs * unitsPerOne : Nat) : Int) else (n.natAbs * unitsPerOne : Nat) := by
  rw [Int.natCast_mul]
  split_ifs with h
  · rw [Int.ofNat_natAbs_of_nonpos (Int.le_of_lt h), Int.neg_mul, Int.neg_neg]
  · rw [Int.natAbs_of_nonneg (Int.not_lt.mp h)]

theorem distance_of_sign (h : x.isNegative = decide (n < 0)) :
    x.distance n = ((x.absUnits : Int) - (n.natAbs * unitsPerOne : Nat)).natAbs := by
  rw [distance, units, mul_unitsPerOne, h]
  by_cases hn : n < 0
  · simp only [hn, decide_true, ↓reduceIte]
    omega
  · simp only [hn, decide_false, ↓reduceIte, Bool.false_eq_true]

theorem distance_of_other_sign (h : x.isNegative ≠ decide (n < 0)) :
    x.distance n = x.absUnits + n.natAbs * unitsPerOne := by
  have hsign : x.isNegative = !decide (n < 0) := Bool.eq_not_of_ne h
  rw [distance, units, mul_unitsPerOne, hsign]
  by_cases hn : n < 0
  · simp only [hn, decide_true, Bool.not_true, ↓reduceIte, Bool.false_eq_true]
    omega
  · simp only [hn, decide_false, Bool.not_false, ↓reduceIte]
    omega

theorem le_distance (x : Binary64) (n : Int) :
    ((x.absUnits : Int) - (n.natAbs * unitsPerOne : Nat)).natAbs ≤ x.distance n := by
  by_cases h : x.isNegative = decide (n < 0)
  · exact Nat.le_of_eq (distance_of_sign h).symm
  · rw [distance_of_other_sign h]
    omega

end distance

/-! ## Integers -/

section ofInt

variable {n : Int}

/-- The exponent of an integer's number, counted from the least one. -/
def unitExponent (n : Int) : Nat :=
  n.natAbs.log2 + 1022

/-- The significand of an integer's number: `2 ^ 53` stands for `2 ^ 52` with the next exponent. -/
def unitSignificand (n : Int) : Nat :=
  roundDiv (n.natAbs * unitsPerOne) (2 ^ unitExponent n)

theorem pow_mul_unitsPerOne {a b c : Nat} (h : a + b = c + 1074) : 2 ^ a * 2 ^ b = 2 ^ c * unitsPerOne := by
  unfold unitsPerOne
  generalize 1074 = d at h ⊢
  rw [Nat.pow_eq, ← Nat.pow_add, ← Nat.pow_add, h]

theorem unitsPerOne_pos : 0 < unitsPerOne := by
  decide +kernel

theorem bounds_natAbs (hn : n ≠ 0) :
    2 ^ 52 * 2 ^ unitExponent n ≤ n.natAbs * unitsPerOne ∧
      n.natAbs * unitsPerOne < 2 ^ 53 * 2 ^ unitExponent n := by
  have hlow := Nat.log2_self_le (Int.natAbs_ne_zero.mpr hn)
  have hhigh := Nat.lt_log2_self (n := n.natAbs)
  rw [pow_mul_unitsPerOne (show 52 + unitExponent n = n.natAbs.log2 + 1074 by unfold unitExponent; omega),
    pow_mul_unitsPerOne (show 53 + unitExponent n = n.natAbs.log2 + 1 + 1074 by unfold unitExponent; omega)]
  exact ⟨Nat.mul_le_mul_right _ hlow, Nat.mul_lt_mul_of_pos_right hhigh unitsPerOne_pos⟩

theorem bounds_unitSignificand (hn : n ≠ 0) : 2 ^ 52 ≤ unitSignificand n ∧ unitSignificand n ≤ 2 ^ 53 :=
  have hbounds := bounds_natAbs hn
  ⟨le_roundDiv (Nat.two_pow_pos _) hbounds.1, roundDiv_le (Nat.two_pow_pos _) hbounds.2⟩

theorem shifted_den_pos (m : Nat) (e : Int) : 0 < (shifted m 1 e).2 := by
  cases e <;> simp [shifted]

/-- The shifted fraction is the integer over the power of two. -/
theorem shifted_mul {k : Nat} {e : Int} (m : Nat) (h : (k : Int) = e + 1074) :
    (shifted m 1 e).1 * 2 ^ k = m * unitsPerOne * (shifted m 1 e).2 := by
  cases e with
  | ofNat j =>
    have hsum : k + 0 = j + 1074 := by rw [Int.ofNat_eq_natCast] at h; omega
    simp only [shifted]
    rw [Nat.one_mul, Nat.pow_eq, Nat.mul_assoc, Nat.mul_comm unitsPerOne, ← pow_mul_unitsPerOne hsum, Nat.pow_zero,
      Nat.mul_one]
  | negSucc j =>
    have hsum : j + 1 + k = 0 + 1074 := by omega
    simp only [shifted]
    rw [Nat.mul_one, Nat.pow_eq, Nat.mul_assoc, pow_mul_unitsPerOne hsum, Nat.pow_zero, Nat.one_mul]

theorem unitExponent_eq (n : Int) : (unitExponent n : Int) = (unitExponent n : Int) - 1074 + 1074 := by
  omega

theorem ratioExponent_natAbs (hn : n ≠ 0) : ratioExponent n.natAbs 1 = (unitExponent n : Int) - 1074 := by
  have hexponent : (n.natAbs.log2 : Int) - (1 : Nat).log2 - 52 = (unitExponent n : Int) - 1074 := by
    rw [show (1 : Nat).log2 = 0 from rfl, unitExponent]
    omega
  have hden := shifted_den_pos n.natAbs ((unitExponent n : Int) - 1074)
  have hreaches : Nat.pow 2 52 ≤ (shifted n.natAbs 1 ((unitExponent n : Int) - 1074)).1 /
      (shifted n.natAbs 1 ((unitExponent n : Int) - 1074)).2 := by
    rw [Nat.le_div_iff_mul_le hden, Nat.pow_eq]
    refine Nat.le_of_mul_le_mul_right ?_ (Nat.two_pow_pos (unitExponent n))
    rw [shifted_mul n.natAbs (unitExponent_eq n), Nat.mul_right_comm]
    exact Nat.mul_le_mul_right _ (bounds_natAbs hn).1
  simp only [ratioExponent, hexponent]
  rw [if_neg (Nat.not_lt.mpr hreaches)]
  refine max_eq_left ?_
  omega

/-- An integer's number is its significand above its exponent. -/
theorem ofInt_eq_ofParts (hn : n ≠ 0) (hle : unitExponent n ≤ 2044) :
    ofInt n = ofParts (n < 0) (unitExponent n * 2 ^ 52 + unitSignificand n) := by
  have hround : roundDiv (shifted n.natAbs 1 ((unitExponent n : Int) - 1074)).1
      (shifted n.natAbs 1 ((unitExponent n : Int) - 1074)).2 = unitSignificand n :=
    roundDiv_congr (shifted_den_pos _ _) (Nat.two_pow_pos _) (shifted_mul n.natAbs (unitExponent_eq n))
  have hfinite : unitExponent n * 2 ^ 52 + unitSignificand n ≤ infinityBits := by
    have := (bounds_unitSignificand hn).2
    rw [infinityBits, Nat.pow_eq]
    omega
  simp only [ofInt, ofRatio, ratioExponent_natAbs hn, if_neg (Int.natAbs_ne_zero.mpr hn), hround,
    ← unitExponent_eq, Int.toNat_natCast]
  rw [Nat.pow_eq, Nat.min_eq_left hfinite]

/-- No finite number has an absolute value nearer to the integer's than its significand above its exponent, and
if another one is equally near, the significand is even. -/
theorem unitSignificand_nearest (hn : n ≠ 0) (y : Binary64) :
    gap (n.natAbs * unitsPerOne) (2 ^ unitExponent n) (unitSignificand n) ≤
        ((y.absUnits : Int) - (n.natAbs * unitsPerOne : Nat)).natAbs ∧
      (((y.absUnits : Int) - (n.natAbs * unitsPerOne : Nat)).natAbs =
          gap (n.natAbs * unitsPerOne) (2 ^ unitExponent n) (unitSignificand n) →
        y.absUnits ≠ unitSignificand n * 2 ^ unitExponent n → unitSignificand n % 2 = 0) := by
  have hpos : 0 < 2 ^ unitExponent n := Nat.two_pow_pos _
  rcases y.absUnits_cases (unitExponent n) with ⟨q, hq⟩ | hlt
  · have hgap : ((y.absUnits : Int) - (n.natAbs * unitsPerOne : Nat)).natAbs =
        gap (n.natAbs * unitsPerOne) (2 ^ unitExponent n) q := by rw [hq, gap]
    rw [hgap, hq]
    refine ⟨roundDiv_nearest hpos q, fun htie hne => ?_⟩
    have hother : q ≠ unitSignificand n := fun heq => hne (congrArg (· * 2 ^ unitExponent n) heq)
    exact even_roundDiv_of_tie hpos hother htie
  · -- The number lies below the integer's binade, so the binade's least number is nearer.
    have hnear : gap (n.natAbs * unitsPerOne) (2 ^ unitExponent n) (unitSignificand n) ≤
        gap (n.natAbs * unitsPerOne) (2 ^ unitExponent n) (2 ^ 52) := roundDiv_nearest hpos (2 ^ 52)
    have hlow := (bounds_natAbs hn).1
    have hfarther : gap (n.natAbs * unitsPerOne) (2 ^ unitExponent n) (2 ^ 52) <
        ((y.absUnits : Int) - (n.natAbs * unitsPerOne : Nat)).natAbs := by
      unfold gap
      omega
    exact ⟨(hnear.trans_lt hfarther).le, fun htie => absurd htie (hnear.trans_lt hfarther).ne'⟩

theorem gap_unitSignificand_lt (hn : n ≠ 0) :
    gap (n.natAbs * unitsPerOne) (2 ^ unitExponent n) (unitSignificand n) < n.natAbs * unitsPerOne := by
  have hpos : 0 < 2 ^ unitExponent n := Nat.two_pow_pos _
  have hnear : gap (n.natAbs * unitsPerOne) (2 ^ unitExponent n) (unitSignificand n) ≤
      gap (n.natAbs * unitsPerOne) (2 ^ unitExponent n) (2 ^ 52) := roundDiv_nearest hpos (2 ^ 52)
  have hlow := (bounds_natAbs hn).1
  unfold gap at hnear ⊢
  omega

theorem isNearest_zero : (ofInt 0).IsNearest 0 where
  finite := by unfold IsFinite; decide
  sign := by decide
  nearest y _ := by
    have hzero : (ofInt 0).distance 0 = 0 := by
      rw [distance, Int.zero_mul, show (ofInt 0).units = 0 by decide +kernel]
      rfl
    rw [hzero]
    exact Nat.zero_le _
  even _ _ _ _ := by decide
  exact _ := by decide +kernel

/-- The parts of an integer's number. -/
structure HasParts (x : Binary64) (n : Int) : Prop where
  finite : x.IsFinite
  sign : x.isNegative = decide (n < 0)
  absUnits : x.absUnits = unitSignificand n * 2 ^ unitExponent n
  fraction : x.fraction % 2 = unitSignificand n % 2

theorem hasParts_ofInt (hn : n ≠ 0) (hbits : n.natAbs.log2 < 1023) : (ofInt n).HasParts n := by
  have hle : unitExponent n ≤ 2044 := by unfold unitExponent; omega
  have hsignificand := bounds_unitSignificand hn
  have hroom : unitExponent n * 2 ^ 52 + unitSignificand n < 2 ^ 63 := by omega
  rw [ofInt_eq_ofParts hn hle]
  refine ⟨?_, isNegative_ofParts _ hroom, absUnits_ofParts _ hle hsignificand.1 hsignificand.2, ?_⟩
  · rw [IsFinite, exponentField_ofParts _ hroom]
    omega
  · rw [fraction_ofParts _ hroom]
    omega

theorem HasParts.distance {x : Binary64} (h : x.HasParts n) :
    x.distance n = gap (n.natAbs * unitsPerOne) (2 ^ unitExponent n) (unitSignificand n) := by
  rw [distance_of_sign h.sign, h.absUnits, gap]

/-- An integer of at most 53 bits is a multiple of the last place of its number. -/
theorem exists_multiple (hn : n ≠ 0) (hbound : n.natAbs ≤ 2 ^ 53) :
    ∃ q, n.natAbs * unitsPerOne = q * 2 ^ unitExponent n := by
  rcases Nat.lt_or_eq_of_le hbound with hlt | heq
  · have hlog : n.natAbs.log2 < 53 := (Nat.log2_lt (Int.natAbs_ne_zero.mpr hn)).mpr hlt
    refine ⟨n.natAbs * 2 ^ (52 - n.natAbs.log2), ?_⟩
    rw [Nat.mul_assoc, pow_mul_unitsPerOne (c := 0) (by unfold unitExponent; omega), Nat.pow_zero, Nat.one_mul]
  · refine ⟨2 ^ 52, ?_⟩
    rw [pow_mul_unitsPerOne (c := 53) (by rw [unitExponent, heq, Nat.log2_two_pow]), heq]

theorem HasParts.units_eq {x : Binary64} (h : x.HasParts n) (hn : n ≠ 0) (hbound : n.natAbs ≤ 2 ^ 53) :
    x.units = n * unitsPerOne := by
  obtain ⟨q, hq⟩ := exists_multiple hn hbound
  have hdistance : x.distance n = 0 := by
    rw [h.distance]
    refine Nat.le_zero.mp ((roundDiv_nearest (Nat.two_pow_pos _) q).trans (Nat.le_of_eq ?_))
    rw [gap, hq, Int.sub_self, Int.natAbs_zero]
  rw [Binary64.distance] at hdistance
  omega

/-- **`ofInt` rounds to the nearest number.** -/
theorem isNearest_ofInt (hbits : n.natAbs.log2 < 1023) : (ofInt n).IsNearest n := by
  rcases eq_or_ne n 0 with rfl | hn
  · exact isNearest_zero
  have hparts := hasParts_ofInt hn hbits
  refine ⟨hparts.finite, hparts.sign, fun y _ => ?_, fun y _ hne htie => ?_, hparts.units_eq hn⟩
  · exact hparts.distance ▸ (unitSignificand_nearest hn y).1.trans (y.le_distance n)
  · rw [hparts.fraction]
    by_cases hy : y.isNegative = decide (n < 0)
    · rw [distance_of_sign hy, hparts.distance] at htie
      refine (unitSignificand_nearest hn y).2 htie fun habs => hne ?_
      rw [units, units, hy, hparts.sign, habs, hparts.absUnits]
    · -- A number of the other sign lies beyond zero, so it is not as near.
      have hlt := gap_unitSignificand_lt hn
      rw [distance_of_other_sign hy, hparts.distance] at htie
      omega

end ofInt

end Binary64

end NativeClass
