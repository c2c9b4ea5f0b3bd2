import LayerChain.Number.Binary64

/-!
# Numbers as typed

The number forms of a setting literal: an integer is an optional sign and digits; a real number
may also have a point, with digits on at least one side of it, and an exponent; the words `inf`,
`infinity` and `nan`, in any case, name numbers that are not finite. Real numbers are rounded
correctly.
-/

namespace LayerChain

namespace Literal

/-- A leading sign, if there is one, and the rest: whether the sign is a minus. -/
def splitSign : List Char → Bool × List Char
  | '-' :: rest => (true, rest)
  | '+' :: rest => (false, rest)
  | cs => (false, cs)

/-- The value of a digit string. -/
def digitsValue (digits : List Char) : Nat :=
  digits.foldl (fun n c => 10 * n + (c.toNat - '0'.toNat)) 0

/-- The integer a literal stands for, if it has integer form and fits 64 bits. -/
def int64? (literal : List Char) : Option Int64 :=
  let (negative, digits) := splitSign literal
  if digits ≠ [] ∧ digits.all Char.isDigit then
    let n : Int := digitsValue digits
    let value := if negative then -n else n
    if Int64.minValue.toInt ≤ value ∧ value ≤ Int64.maxValue.toInt then some (Int64.ofInt value)
    else none
  else
    none

/-- A real number as written: sign, all digits, and the power of ten of the last digit. -/
structure Real where
  negative : Bool
  digits : Nat
  exponent : Int
deriving DecidableEq, Repr

/-- The exponent part of a real number: nothing, or `e`, an optional sign and digits. -/
def exponent? : List Char → Option Int
  | [] => some 0
  | mark :: rest =>
    let (negative, digits) := splitSign rest
    if (mark = 'e' ∨ mark = 'E') ∧ digits ≠ [] ∧ digits.all Char.isDigit then
      let n : Int := digitsValue digits
      some (if negative then -n else n)
    else
      none

/-- The real number form of a literal. -/
def real? (literal : List Char) : Option Real :=
  let (negative, body) := splitSign literal
  let whole := body.takeWhile Char.isDigit
  let (fraction, rest) := match body.dropWhile Char.isDigit with
    | '.' :: rest => (rest.takeWhile Char.isDigit, rest.dropWhile Char.isDigit)
    | rest => ([], rest)
  if whole = [] ∧ fraction = [] then none
  else
    (exponent? rest).map fun exponent =>
      ⟨negative, digitsValue (whole ++ fraction), exponent - fraction.length⟩

/-- The words for numbers that are not finite. -/
def namesNonfinite (literal : List Char) : Bool :=
  let word := String.ofList ((splitSign literal).2.map Char.toLower)
  word == "inf" || word == "infinity" || word == "nan"

/-- What a literal says as a real number. -/
inductive RealValue where
  | finite (x : Binary64)
  | nonfinite
  | notANumber
deriving DecidableEq

/-- Reads a literal as a real number. One too large for the format counts as not finite. -/
def readReal (literal : List Char) : RealValue :=
  match real? literal with
  | some r =>
    match Binary64.ofDecimal r.negative r.digits r.exponent with
    | some x => .finite x
    | none => .nonfinite
  | none => if namesNonfinite literal then .nonfinite else .notANumber

end Literal

end LayerChain
