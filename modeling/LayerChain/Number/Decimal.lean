import LayerChain.Number.Binary64

/-!
# Decimal text of floating-point numbers

A number is written with the fewest decimal digits that still round to it, and of those the
nearest to it. The digits are chosen by exact arithmetic (`shortest`); what the text looks like
is a `Layout`: where positional notation ends, how an exponent is written, and which of two
equally near digit strings is taken.

* `Layout.document` is the layout of numbers in JSON documents;
* `Layout.literal` is the layout of numbers in listings and in generated source.
-/

namespace LayerChain

/-- A decimal number `digits * 10 ^ exponent`. -/
structure Decimal where
  digits : Nat
  exponent : Int
deriving DecidableEq, Repr

/-- Which of two equally near digit strings is taken. -/
inductive TieRule where
  | toEven
  | upward
deriving DecidableEq, Repr

/-- The form of a decimal text. -/
structure Layout where
  /-- The least decimal exponent of the leading digit that is written positionally. -/
  least : Int
  /-- The greatest decimal exponent of the leading digit that is written positionally. -/
  greatest : Int
  /-- The sign written before an exponent that is not negative. -/
  exponentSign : List Char
  ties : TieRule

namespace Layout

/-- Numbers in JSON documents: positional from `0.00001` up to sixteen whole digits, and an
exponent always has its sign. -/
def document : Layout := ⟨-5, 15, ['+'], .toEven⟩

/-- Numbers in listings and source: positional from `0.0001` up to sixteen whole digits, and only
a negative exponent has a sign. -/
def literal : Layout := ⟨-4, 15, [], .upward⟩

end Layout

/-! ## The shortest digits -/

namespace Binary64

/-- The decimal exponent of the leading digit of a positive quotient `num / den`. -/
def leadingExponent (num den : Nat) : Int :=
  if den ≤ num then ((Nat.toDigits 10 (num / den)).length : Int) - 1
  else Int.negOfNat (Nat.toDigits 10 ((den + num - 1) / num - 1)).length

/-- The decimal on the grid of multiples of `10 ^ exponent` that rounds to `x`, if there is one:
of the two neighbours of `x` on the grid the nearer one that lies in the interval of reals that
round to `x`. The ends of the interval belong to it iff the significand is even. -/
def nearestOnGrid (ties : TieRule) (x : Binary64) (exponent : Int) : Option Decimal :=
  -- in these terms `x` is `4 * significand * unit`, and the grid has the multiples of `step`
  let unit := Nat.pow 2 x.scale * Nat.pow 10 (-exponent).toNat
  let step := 4 * Nat.pow 2 unitExponent * Nat.pow 10 exponent.toNat
  -- beneath a power of two the numbers are twice as dense
  let below := if x.significand = leastFull ∧ 0 < x.scale then 1 else 2
  let closed := x.significand % 2 = 0
  let floor := 4 * x.significand * unit / step
  let rest := 4 * x.significand * unit % step
  let lower := (4 * x.significand - below) * unit
  let upper := (4 * x.significand + 2) * unit
  let floorFits := lower < floor * step ∨ (closed ∧ lower = floor * step)
  let ceilingFits := (floor + 1) * step < upper ∨ (closed ∧ (floor + 1) * step = upper)
  -- of two neighbours that fit the nearer one wins
  let upNearer := step < 2 * rest ∨
    (step = 2 * rest ∧ (ties = .upward ∨ floor % 2 = 1))
  if floorFits ∧ ¬(ceilingFits ∧ upNearer) then some ⟨floor, exponent⟩
  else if ceilingFits then some ⟨floor + 1, exponent⟩
  else none

/-- The first grid, from one digit to seventeen, that holds a decimal rounding to `x`. -/
def shortest (ties : TieRule) (x : Binary64) : Decimal :=
  let leading := leadingExponent x.magnitude.1 x.magnitude.2
  let found := (List.range 17).findSome? fun (n : Nat) => x.nearestOnGrid ties (leading - n)
  found.getD ⟨0, 0⟩

end Binary64

/-! ## The text -/

/-- The decimal digits of a natural number without its trailing zeros, and how many those were. -/
def Decimal.stripped (digits : Nat) : List Char × Nat :=
  let reversed := (Nat.toDigits 10 digits).reverse
  let kept := reversed.dropWhile (· == '0')
  (kept.reverse, reversed.length - kept.length)

namespace Layout

/-- Positional text of a digit string whose leading digit stands at the power `leading` of ten.
There is always a digit on either side of the point. -/
def positional (digits : List Char) (leading : Int) : List Char :=
  if leading < 0 then
    '0' :: '.' :: (List.replicate ((-leading).toNat - 1) '0' ++ digits)
  else
    let whole := leading.toNat + 1
    if digits.length ≤ whole then
      digits ++ List.replicate (whole - digits.length) '0' ++ ['.', '0']
    else
      digits.take whole ++ '.' :: digits.drop whole

/-- Text of a digit string with an exponent; a point follows the leading digit only if there are
further digits. -/
def scientific (layout : Layout) (digits : List Char) (leading : Int) : List Char :=
  let mantissa := match digits with
    | [] => []
    | [d] => [d]
    | d :: rest => d :: '.' :: rest
  let sign := if leading < 0 then ['-'] else layout.exponentSign
  mantissa ++ 'e' :: (sign ++ Nat.toDigits 10 leading.natAbs)

/-- The characters of a number in this layout. -/
def chars (layout : Layout) (x : Binary64) : List Char :=
  let sign := if x.negative then ['-'] else []
  if x.isZero then sign ++ ['0', '.', '0']
  else
    let decimal := x.shortest layout.ties
    let (digits, zeros) := Decimal.stripped decimal.digits
    let leading := decimal.exponent + zeros + digits.length - 1
    sign ++
      if layout.least ≤ leading ∧ leading ≤ layout.greatest then positional digits leading
      else layout.scientific digits leading

/-- The text of a number in this layout. -/
def text (layout : Layout) (x : Binary64) : String := String.ofList (layout.chars x)

end Layout

end LayerChain
