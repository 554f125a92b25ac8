import Mathlib.Data.Rat.Floor

set_option autoImplicit false

/-! # Numbers of the C++ standard library

`std::round`, `std::to_string(double)` and conversions to integers, on exact numbers. Most of the program
is modelled in exact arithmetic, where these are the only places at which a number is rounded. Where the
rounding of the arithmetic itself decides, a function takes it as a parameter: `nearestDouble` is that of
`double`, the identity that of exact arithmetic. -/

namespace TradeBot

/-- `std::round`: to the nearest integer, halves away from zero. -/
def stdRound (x : ℚ) : ℤ := if 0 ≤ x then ⌊x + 1 / 2⌋ else ⌈x - 1 / 2⌉

/-- `static_cast` and `duration_cast` to an integer truncate towards zero. -/
def truncToInt (q : ℚ) : ℤ := if 0 ≤ q then ⌊q⌋ else ⌈q⌉

/-- To the nearest integer, halves to even. -/
def roundHalfEven (x : ℚ) : ℤ :=
  let floor := ⌊x⌋
  let rest := x - floor
  if rest < 1 / 2 then floor
  else if 1 / 2 < rest then floor + 1
  else if floor % 2 = 0 then floor
  else floor + 1

/-- The exponent of the leading binary digit of a positive number. -/
def binaryExponent (q : ℚ) : ℤ :=
  let e : ℤ := (Nat.log2 q.num.natAbs : ℤ) - Nat.log2 q.den
  if q < 2 ^ e then e - 1 else e

/-- The `double` nearest to a number, halves to an even last digit. Doubles have 53 binary digits, the
    smallest ones fewer; what lies beyond the greatest one is not a number here. -/
def nearestDouble (q : ℚ) : ℚ :=
  if q = 0 then 0
  else
    let ulp : ℚ := 2 ^ max (binaryExponent |q| - 52) (-1074)
    roundHalfEven (q / ulp) * ulp

/-- `0.1 + 0.2` is the double after `0.3`. -/
example : nearestDouble (nearestDouble (1 / 10) + nearestDouble (2 / 10)) ≠ nearestDouble (3 / 10) := by
  decide +kernel

/-- `std::to_string` of a `double`: six decimals. -/
def stdToString (x : ℚ) : String :=
  let micros := (roundHalfEven (|x| * 1000000)).toNat
  let decimals := Nat.toDigits 10 (micros % 1000000)
  (if x < 0 then "-" else "") ++ toString (micros / 1000000) ++ "." ++
    .ofList (List.replicate (6 - decimals.length) '0' ++ decimals)

/-- `numeric/PriceUtils.hpp`. -/
def roundToTick (val tick : ℚ) : ℚ := if tick ≤ 0 then val else stdRound (val / tick) * tick

/-- `static_cast<size_t>` of an `int`: a negative value wraps around. -/
def toSizeT (n : ℤ) : ℕ := (n % 2 ^ 64).toNat

example : stdToString (-5 / 2) = "-2.500000" := by decide +kernel

/-! ## Fixed-point prices and sizes

`numeric/FixedPoint.hpp`: prices as whole ticks and sizes as whole units, from the inverse of the
increment. What is not positive, and what is less than half an increment, becomes `0`. -/

/-- `std::clamp(t, 0.0, 1e15)`. -/
def clampFixed (t : ℤ) : ℤ := max 0 (min t (10 ^ 15))

/-- `PriceTick::from_price`. -/
def priceTickOf (price increment : ℚ) : ℤ :=
  if price ≤ 0 then 0 else clampFixed (stdRound (price / increment))

/-- `PriceTick::from_price_inv`. -/
def priceTick (price invIncrement : ℚ) : ℤ :=
  if price ≤ 0 then 0
  else if 9223372036854775807 < price * invIncrement then 10 ^ 15
  else clampFixed (stdRound (price * invIncrement))

/-- `SizeFix::from_double_inv`. -/
def sizeFix (size invIncrement : ℚ) : ℤ :=
  if size ≤ 0 then 0 else clampFixed (stdRound (size * invIncrement))

theorem clampFixed_nonneg (t : ℤ) : 0 ≤ clampFixed t := le_max_left _ _

theorem priceTick_of_nonpos {price : ℚ} (h : price ≤ 0) (invIncrement : ℚ) :
    priceTick price invIncrement = 0 := if_pos h

/-- Both roundings of a price agree, as the bound on the product lies above the clamp. -/
theorem priceTickOf_eq (price increment : ℚ) :
    priceTickOf price increment = priceTick price (1 / increment) := by
  unfold priceTickOf priceTick
  by_cases hprice : price ≤ 0
  · rw [if_pos hprice, if_pos hprice]
  rw [if_neg hprice, if_neg hprice, mul_one_div]
  by_cases hlarge : 9223372036854775807 < price / increment
  · rw [if_pos hlarge]
    have hround : (10 ^ 15 : ℤ) ≤ stdRound (price / increment) := by
      rw [stdRound, if_pos (le_trans (by norm_num) hlarge.le), Int.le_floor]
      push_cast
      linarith
    rw [clampFixed, min_eq_right hround]
    rfl
  · rw [if_neg hlarge]

theorem sizeFix_of_nonpos {size : ℚ} (h : size ≤ 0) (invIncrement : ℚ) :
    sizeFix size invIncrement = 0 := if_pos h

theorem sizeFix_nonneg (size invIncrement : ℚ) : 0 ≤ sizeFix size invIncrement := by
  unfold sizeFix
  split_ifs
  · exact le_rfl
  · exact clampFixed_nonneg _

/-- A size that rounds to something was positive. -/
theorem pos_of_sizeFix_pos {size invIncrement : ℚ} (h : 0 < sizeFix size invIncrement) :
    0 < size := by
  by_contra hle
  rw [sizeFix_of_nonpos (not_lt.1 hle)] at h
  exact absurd h (lt_irrefl 0)

end TradeBot
