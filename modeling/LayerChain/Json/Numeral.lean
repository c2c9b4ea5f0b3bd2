import LayerChain.Json.Fault
import LayerChain.Text.Symbol

/-!
# JSON numbers

A `Numeral` is a number as it is spelled: sign, digits, fraction, exponent. `Numeral.scan` splits
it off the front of a text, and `Numeral.value` is the number it stands for: a whole number of at
most 64 bits, or else a floating-point number.

The floating-point value is not the nearest one. The digits are collected into a 64-bit
significand, digits that do not fit are dropped, and the rounded significand is multiplied or
divided once by a rounded power of ten; so a number of more than some fifteen digits can come out
one step beside the nearest.
-/

namespace LayerChain.Json

/-- A number as it is spelled; a digit is its value. -/
structure Numeral where
  negative : Bool
  whole : List Nat
  fraction : List Nat
  /-- Whether the exponent is negative, and its digits. -/
  exponent : Option (Bool × List Nat)
deriving DecidableEq, Repr

/-- The number that a numeral stands for. -/
inductive Number where
  | whole (n : Int)
  | float (x : Binary64)
deriving DecidableEq

namespace Numeral

/-! ## Spelling -/

/-- The value of a decimal digit. -/
def digit? : Symbol → Option Nat
  | .char c => if c.isDigit then some (c.toNat - '0'.toNat) else none
  | .stray _ => none

/-- The digits at the front of a text, and the rest. -/
def digits : Content → List Nat × Content
  | [] => ([], [])
  | s :: rest =>
    match digit? s with
    | some d => (d :: (digits rest).1, (digits rest).2)
    | none => ([], s :: rest)

theorem length_digits_le (cs : Content) : (digits cs).2.length ≤ cs.length := by
  induction cs with
  | nil => simp [digits]
  | cons s rest ih =>
    rw [digits]
    cases digit? s with
    | none => simp
    | some d => simp only [List.length_cons]; omega

/-- Digits where at least one is needed; without one the answer says whether the text ends. -/
def someDigits (cs : Content) : Except Bool (List Nat × Content) :=
  match digits cs with
  | ([], rest) => .error rest.isEmpty
  | found => .ok found

/-- The whole part: a zero, or digits that do not start with a zero. -/
def scanWhole (cs : Content) : Except Bool (List Nat × Content) :=
  match someDigits cs with
  | .ok (0 :: _ :: _, _) => .error false
  | found => found

/-- The fraction: nothing, or a point and digits. -/
def scanFraction : Content → Except Bool (List Nat × Content)
  | .char '.' :: rest => someDigits rest
  | cs => .ok ([], cs)

/-- The sign of an exponent, and the rest: whether it is a minus. -/
def scanSign : Content → Bool × Content
  | .char '-' :: rest => (true, rest)
  | .char '+' :: rest => (false, rest)
  | cs => (false, cs)

/-- The exponent: nothing, or `e`, an optional sign and digits. -/
def scanExponent : Content → Except Bool (Option (Bool × List Nat) × Content)
  | [] => .ok (none, [])
  | s :: rest =>
    if s = .char 'e' ∨ s = .char 'E' then
      (someDigits (scanSign rest).2).map fun (digits, rest') =>
        (some ((scanSign rest).1, digits), rest')
    else
      .ok (none, s :: rest)

/-- Splits an unsigned numeral off the front of a text. A malformed numeral answers whether the
text ends where a digit is missing. -/
def scanUnsigned (negative : Bool) (cs : Content) : Except Bool (Numeral × Content) := do
  let (whole, rest) ← scanWhole cs
  let (fraction, rest) ← scanFraction rest
  let (exponent, rest) ← scanExponent rest
  return (⟨negative, whole, fraction, exponent⟩, rest)

/-! Scanning never lengthens a text, and an unsigned numeral takes at least one symbol. -/

theorem length_of_someDigits {cs rest : Content} {ds : List Nat}
    (h : someDigits cs = .ok (ds, rest)) : rest.length < cs.length := by
  cases cs with
  | nil => simp [someDigits, digits] at h
  | cons s tail =>
    simp only [someDigits, digits] at h
    cases hd : digit? s with
    | none => simp [hd] at h
    | some d =>
      simp only [hd, Except.ok.injEq, Prod.mk.injEq] at h
      have := length_digits_le tail
      rw [← h.2, List.length_cons]
      omega

theorem length_of_scanWhole {cs rest : Content} {ds : List Nat}
    (h : scanWhole cs = .ok (ds, rest)) : rest.length < cs.length := by
  unfold scanWhole at h
  split at h
  · simp at h
  · exact length_of_someDigits h

theorem length_of_scanFraction {cs rest : Content} {ds : List Nat}
    (h : scanFraction cs = .ok (ds, rest)) : rest.length ≤ cs.length := by
  unfold scanFraction at h
  split at h
  · have := length_of_someDigits h
    simp only [List.length_cons]
    omega
  · simp only [Except.ok.injEq, Prod.mk.injEq] at h
    obtain ⟨_, rfl⟩ := h
    exact Nat.le_refl _

theorem length_scanSign_le (cs : Content) : (scanSign cs).2.length ≤ cs.length := by
  unfold scanSign
  split <;> simp

theorem length_of_scanExponent {cs rest : Content} {e : Option (Bool × List Nat)}
    (h : scanExponent cs = .ok (e, rest)) : rest.length ≤ cs.length := by
  cases cs with
  | nil =>
    simp only [scanExponent, Except.ok.injEq, Prod.mk.injEq] at h
    simp [← h.2]
  | cons s tail =>
    simp only [scanExponent] at h
    split at h
    · cases hd : someDigits (scanSign tail).2 with
      | error _ => simp [hd, Except.map] at h
      | ok found =>
        obtain ⟨ds, after⟩ := found
        simp only [hd, Except.map, Except.ok.injEq, Prod.mk.injEq] at h
        have := length_of_someDigits hd
        have := length_scanSign_le tail
        rw [← h.2, List.length_cons]
        omega
    · simp only [Except.ok.injEq, Prod.mk.injEq] at h
      simp [← h.2]

theorem length_of_scanUnsigned {negative : Bool} {cs rest : Content} {numeral : Numeral}
    (h : scanUnsigned negative cs = .ok (numeral, rest)) : rest.length < cs.length := by
  simp only [scanUnsigned, bind, Except.bind, pure, Except.pure] at h
  split at h
  · simp at h
  · rename_i whole hw
    obtain ⟨_, afterWhole⟩ := whole
    have := length_of_scanWhole hw
    split at h
    · simp at h
    · rename_i fraction hf
      obtain ⟨_, afterFraction⟩ := fraction
      have := length_of_scanFraction hf
      split at h
      · simp at h
      · rename_i exponent he
        obtain ⟨_, afterExponent⟩ := exponent
        have := length_of_scanExponent he
        simp only [Except.ok.injEq, Prod.mk.injEq] at h
        rw [← h.2]
        simp only at *
        omega

/-! ## Value -/

/-- The greatest significand. -/
def maxSignificand : Nat := UInt64.size - 1

/-- The greatest power of ten that is used as one factor. -/
def maxPower : Nat := 308

/-- The greatest exponent that is read, the greatest 32-bit integer. -/
def maxExponent : Nat := 2147483647

/-- The greatest magnitude of a negative 64-bit integer. -/
def maxNegative : Nat := 9223372036854775808

/-- Appends digits to a significand as long as it stays in range: the significand and the digits
that were left over. -/
def collect (significand : Nat) : List Nat → Nat × List Nat
  | [] => (significand, [])
  | d :: ds =>
    if significand * 10 + d ≤ maxSignificand then collect (significand * 10 + d) ds
    else (significand, d :: ds)

/-- The rounded power of ten. -/
def power (exponent : Nat) : Binary64 := (Binary64.ofNat? (Nat.pow 10 exponent)).getD default

/-- A number times a power of ten, in one rounded step or, for exponents below the least power,
in several. -/
def scaleBy (x : Binary64) (exponent : Int) : Except Fault Binary64 :=
  if exponent.natAbs ≤ maxPower then
    if 0 ≤ exponent then
      match x.mul (power exponent.natAbs) with
      | some y => .ok y
      | none => .error .numberOutOfRange
    else .ok ((x.div (power exponent.natAbs)).getD default)
  else if x.isZero then .ok x
  else if 0 ≤ exponent then .error .numberOutOfRange
  else scaleBy ((x.div (power maxPower)).getD default) (exponent + maxPower)
termination_by exponent.natAbs
decreasing_by simp only [maxPower] at *; omega

/-- The number `significand * 10 ^ exponent`, as far as the steps of `scaleBy` give it. -/
def compose (negative : Bool) (significand : Nat) (exponent : Int) : Except Fault Binary64 := do
  let x ← scaleBy ((Binary64.ofNat? significand).getD default) exponent
  return if negative then x.neg else x

/-- The value of a written exponent, with the sign applied; `none` if it is too large to be
read. -/
def exponentValue (negative : Bool) (digits : List Nat) : Option Int :=
  let n := digits.foldl (fun n d => n * 10 + d) 0
  if n ≤ maxExponent then some (if negative then -n else n) else none

/-- The floating-point number for a significand that is due a power of ten, and a written
exponent. -/
def valueFrom (negative : Bool) (significand : Nat) (due : Int) :
    Option (Bool × List Nat) → Except Fault Binary64
  | none => compose negative significand due
  | some (negativeExponent, digits) =>
    match exponentValue negativeExponent digits with
    | some e => compose negative significand (due + e)
    | none =>
      if significand ≠ 0 ∧ !negativeExponent then .error .numberOutOfRange
      else .ok (Binary64.zero negative)

/-- The number that a numeral stands for. A whole number with up to 64 bits is exact, but a
negative zero is a floating-point number. -/
def value (numeral : Numeral) : Except Fault Number :=
  let (significand, dropped) := collect 0 numeral.whole
  if dropped = [] ∧ numeral.fraction = [] ∧ numeral.exponent = none then
    if !numeral.negative then .ok (.whole significand)
    -- no 64-bit integer is minus zero or that small
    else if significand = 0 ∨ maxNegative < significand then
      .ok (.float ((Binary64.ofNat? significand).getD default).neg)
    else .ok (.whole (-significand))
  else
    -- each dropped digit is due a factor of ten, and each digit of the fraction a divisor
    let (full, unread) := collect significand numeral.fraction
    let due : Int := dropped.length - (numeral.fraction.length - unread.length : Nat)
    (valueFrom numeral.negative full due numeral.exponent).map .float

end Numeral

end LayerChain.Json
