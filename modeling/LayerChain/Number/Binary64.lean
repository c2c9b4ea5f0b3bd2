/-!
# Finite binary floating-point numbers

A `Binary64` is a sign, a significand of at most 53 bits and a scale; its magnitude is
`significand * 2 ^ scale` in units of the least positive number, `2 ^ (-1074)`. Infinities and
NaN are left out, so an operation whose exact result is too large answers `none`.

* `ofRatio` rounds an exact quotient to the nearest number, a tie to the even significand;
* `mul` and `div` round the exact product and quotient by `ofRatio`, and so does `ofNat`;
* `equal` is numerical equality: it does not tell the two zeros apart.
-/

namespace LayerChain

/-- Two to the power 52, the least significand with the full 53 bits. -/
abbrev Binary64.leastFull : Nat := 4503599627370496

/-- Two to the power 53, beyond the greatest significand. -/
abbrev Binary64.bound : Nat := 9007199254740992

/-- The exponent of the unit: the least positive number is two to the power of its negative. -/
def Binary64.unitExponent : Nat := 1074

/-- The greatest scale. -/
abbrev Binary64.maxScale : Nat := 2045

/-- A finite floating-point number in canonical form: either the scale is least, or the
significand has its full 53 bits. -/
structure Binary64 where
  negative : Bool
  significand : Nat
  scale : Nat
  significand_lt : significand < Binary64.bound
  scale_le : scale ≤ Binary64.maxScale
  canonical : scale = 0 ∨ Binary64.leastFull ≤ significand
deriving DecidableEq

namespace Binary64

/-- The number with these parts, if they are canonical. -/
def ofParts? (negative : Bool) (significand scale : Nat) : Option Binary64 :=
  if h : significand < bound ∧ scale ≤ maxScale ∧ (scale = 0 ∨ leastFull ≤ significand) then
    some ⟨negative, significand, scale, h.1, h.2.1, h.2.2⟩
  else
    none

/-- Zero of either sign. -/
def zero (negative : Bool) : Binary64 :=
  ⟨negative, 0, 0, by decide, by decide, .inl rfl⟩

instance : Inhabited Binary64 := ⟨zero false⟩

/-- Whether the magnitude is zero. -/
def isZero (x : Binary64) : Bool := x.significand == 0

/-- The number of opposite sign. -/
def neg (x : Binary64) : Binary64 := { x with negative := !x.negative }

/-- Numerical equality. The two zeros are equal although they are different numbers. -/
def equal (x y : Binary64) : Bool := x == y || (x.isZero && y.isZero)

/-! ## Rounding -/

/-- The natural number nearest to `num / den`, a tie going to the even one. -/
def roundHalfEven (num den : Nat) : Nat :=
  let quotient := num / den
  let twice := 2 * (num % den)
  if twice > den ∨ (twice = den ∧ quotient % 2 = 1) then quotient + 1 else quotient

/-- How many binary digits a natural number has; zero has none. -/
def bitLength (n : Nat) : Nat := if n = 0 then 0 else n.log2 + 1

/-- The number nearest to `num / den` with the given sign, a tie going to the even significand;
`none` if it would be infinite. The denominator is positive. -/
def ofRatio (negative : Bool) (num den : Nat) : Option Binary64 :=
  let units := num * Nat.pow 2 unitExponent
  -- the scale that leaves 53 bits of the quotient in units, or zero if it has fewer
  let scale := bitLength (units / den) - 53
  let significand := roundHalfEven units (den * Nat.pow 2 scale)
  -- rounding up may have carried into a further bit
  if significand = bound then ofParts? negative leastFull (scale + 1)
  else ofParts? negative significand scale

/-- The magnitude as an exact quotient: numerator and denominator. -/
def magnitude (x : Binary64) : Nat × Nat :=
  (x.significand * Nat.pow 2 x.scale, Nat.pow 2 unitExponent)

/-- The number nearest to a natural number, `none` if that is infinite. -/
def ofNat? (n : Nat) : Option Binary64 := ofRatio false n 1

/-- The rounded product. -/
def mul (x y : Binary64) : Option Binary64 :=
  ofRatio (x.negative != y.negative) (x.magnitude.1 * y.magnitude.1)
    (x.magnitude.2 * y.magnitude.2)

/-- The rounded quotient of `x` by a number other than zero. -/
def div (x y : Binary64) : Option Binary64 :=
  ofRatio (x.negative != y.negative) (x.magnitude.1 * y.magnitude.2)
    (x.magnitude.2 * y.magnitude.1)

/-- The number nearest to `digits * 10 ^ exponent`, `none` if that is infinite. Exponents far
outside the range are answered from the count of digits alone. -/
def ofDecimal (negative : Bool) (digits : Nat) (exponent : Int) : Option Binary64 :=
  if digits = 0 then some (zero negative)
  else
    let leading := exponent + (Nat.toDigits 10 digits).length
    if leading > 400 then none
    else if leading < -400 then some (zero negative)
    else ofRatio negative (digits * Nat.pow 10 exponent.toNat) (Nat.pow 10 (-exponent).toNat)

end Binary64

end LayerChain
