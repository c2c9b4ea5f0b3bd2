import LayerChain.Number.Binary64
import Mathlib.Algebra.Order.Field.Power
import Mathlib.Tactic.FieldSimp
import Mathlib.Tactic.NormNum
import Mathlib.Tactic.Positivity
import Mathlib.Tactic.Ring

/-!
# Correct rounding

The numbers that are rounded to `x` form an interval around it: it ends half-way to the neighbours
of `x`, and the ends belong to it iff the significand of `x` is even. `Binary64.RoundsTo` is this
interval, as one of rational numbers; signs are left out. `Binary64.ofRatio` gives `x` for exactly
the quotients in the interval (`Binary64.ofRatio_eq_some_iff`), and so do all operations that are
made of it: decimals (`Binary64.ofDecimal_eq_some_iff`), products and quotients of numbers.

The ends are whole numbers of quarters of the unit `2 ^ (-1074)`, so for a quotient of natural
numbers all comparisons are ones of natural numbers (`Binary64.roundsTo_div_iff`).
-/

namespace LayerChain

/-- A value lies between two others, or it is one of them and the ends belong to the interval. -/
def Within {α : Type} [LT α] (closed : Prop) (low high a : α) : Prop :=
  (low < a ∨ closed ∧ low = a) ∧ (a < high ∨ closed ∧ a = high)

section

variable {α : Type} [LinearOrder α] {closed : Prop} {low high a b c : α}

lemma Within.low_le (h : Within closed low high a) : low ≤ a :=
  h.1.elim le_of_lt fun h => h.2.le

lemma Within.le_high (h : Within closed low high a) : a ≤ high :=
  h.2.elim le_of_lt fun h => h.2.le

/-- What lies between two values of an interval is in it. -/
lemma Within.between (ha : Within closed low high a) (hb : Within closed low high b) (hac : a ≤ c)
    (hcb : c ≤ b) : Within closed low high c := by
  constructor
  · rcases ha.1 with h | ⟨hclosed, rfl⟩
    · exact .inl (lt_of_lt_of_le h hac)
    · exact (lt_or_eq_of_le hac).imp_right fun h => ⟨hclosed, h⟩
  · rcases hb.2 with h | ⟨hclosed, rfl⟩
    · exact .inl (lt_of_le_of_lt hcb h)
    · exact (lt_or_eq_of_le hcb).imp_right fun h => ⟨hclosed, h⟩

end

/-- Natural numbers are in an interval iff their multiples are in the multiplied one, as rational
numbers. -/
lemma within_mul_iff {closed : Prop} {low high a n : Nat} {q : ℚ} (hn : 0 < n)
    (hq : q * n = (a : ℚ)) :
    Within closed (low : ℚ) high q ↔ Within closed (low * n) (high * n) a := by
  have hpos : (0 : ℚ) < n := Nat.cast_pos.2 hn
  have hlow : (low : ℚ) < q ↔ low * n < a := by
    rw [← mul_lt_mul_iff_left₀ hpos, hq]
    exact_mod_cast Iff.rfl
  have hhigh : q < (high : ℚ) ↔ a < high * n := by
    rw [← mul_lt_mul_iff_left₀ hpos, hq]
    exact_mod_cast Iff.rfl
  have hlow' : (low : ℚ) = q ↔ low * n = a := by
    rw [← mul_left_inj' hpos.ne', hq]
    exact_mod_cast Iff.rfl
  have hhigh' : q = (high : ℚ) ↔ a = high * n := by
    rw [← mul_left_inj' hpos.ne', hq]
    exact_mod_cast Iff.rfl
  rw [Within, Within, hlow, hhigh, hlow', hhigh']

namespace Binary64

/-! ## The interval of a number -/

/-- How many quarters of the unit a number is. -/
def quarters (x : Binary64) : Nat := 4 * x.significand * Nat.pow 2 x.scale

/-- How many quarters of a step of the significand the interval reaches down. Beneath a power of two
the numbers are twice as dense. -/
def below (x : Binary64) : Nat := if x.significand = leastFull ∧ 0 < x.scale then 1 else 2

/-- The lower end of the interval of a number, in quarters of the unit. -/
def lowerEnd (x : Binary64) : Nat := (4 * x.significand - x.below) * Nat.pow 2 x.scale

/-- The upper end of the interval of a number, in quarters of the unit. -/
def upperEnd (x : Binary64) : Nat := (4 * x.significand + 2) * Nat.pow 2 x.scale

/-- How many quarters of the unit a one is. -/
def quartersOfOne : Nat := 4 * Nat.pow 2 unitExponent

/-- Whether a magnitude is rounded to a number. -/
def RoundsTo (x : Binary64) (r : ℚ) : Prop :=
  Within (x.significand % 2 = 0) (x.lowerEnd : ℚ) x.upperEnd (r * quartersOfOne)

variable {x y z : Binary64} {r r' : ℚ} {num den : Nat}

lemma two_pow_pos (n : Nat) : 0 < Nat.pow 2 n := Nat.pow_pos Nat.two_pos

lemma two_pow_le {m n : Nat} (h : m ≤ n) : Nat.pow 2 m ≤ Nat.pow 2 n :=
  Nat.pow_le_pow_right Nat.two_pos h

/-- A multiple is at least one unit below the next ones. -/
lemma mul_add_le_of_lt {m n : Nat} (h : m < n) (unit : Nat) : m * unit + unit ≤ n * unit := by
  rw [← Nat.succ_mul]
  exact Nat.mul_le_mul_right unit h

lemma quartersOfOne_pos : 0 < quartersOfOne := Nat.mul_pos (by decide) (two_pow_pos unitExponent)

lemma roundsTo_div_iff (hden : 0 < den) :
    x.RoundsTo (num / den) ↔ Within (x.significand % 2 = 0) (x.lowerEnd * den) (x.upperEnd * den)
      (num * quartersOfOne) := by
  have hpos : (den : ℚ) ≠ 0 := Nat.cast_ne_zero.2 hden.ne'
  refine within_mul_iff hden ?_
  rw [Nat.cast_mul, div_mul_eq_mul_div, div_mul_cancel₀ _ hpos]

/-! ## Rounding to whole numbers -/

/-- A quotient is rounded to a whole number iff twice the quotient is between the odd numbers beside
twice the whole number, or is one of them and the whole number is even. -/
lemma roundHalfEven_eq_iff (hden : 0 < den) {n : Nat} :
    roundHalfEven num den = n ↔
      Within (n % 2 = 0) (2 * (n * den)) (2 * (n * den) + 2 * den) (2 * num + den) := by
  have hdiv := Nat.div_add_mod num den
  have hmod := Nat.mod_lt num hden
  unfold roundHalfEven
  generalize num / den = k at hdiv ⊢
  generalize num % den = rest at hdiv hmod ⊢
  -- all is linear in the multiple of the denominator below the numerator
  have hsucc : (k + 1) * den = k * den + den := Nat.succ_mul k den
  rw [Nat.mul_comm] at hdiv
  constructor
  · rintro rfl
    unfold Within
    dsimp only
    split_ifs with hup
    · rw [hsucc]
      omega
    · omega
  · intro h
    have hle := h.low_le
    have hge := h.le_high
    have hn : n = k ∨ n = k + 1 := by
      rcases Nat.lt_or_ge n k with hlt | hkn
      · -- twice the numerator would be at most three denominators above
        have hmul : (n + 1) * den ≤ k * den := Nat.mul_le_mul_right den hlt
        rw [Nat.succ_mul] at hmul
        have hzero : rest = 0 ∧ k * den = n * den + den := by omega
        omega
      · rcases Nat.lt_or_ge (k + 1) n with hlt | hle
        · have hmul : (k + 2) * den ≤ n * den := Nat.mul_le_mul_right den hlt
          rw [Nat.succ_mul, hsucc] at hmul
          omega
        · omega
    unfold Within at h
    dsimp only
    rcases hn with rfl | rfl
    · split_ifs with hup <;> omega
    · rw [hsucc] at h
      split_ifs with hup <;> omega

/-! ## The scale of a quotient -/

lemma bitLength_le_iff {n k : Nat} : bitLength n ≤ k ↔ n < 2 ^ k := by
  rw [bitLength]
  split_ifs with hn
  · simp [hn]
  · rw [Nat.succ_le_iff, Nat.log2_lt hn]

/-- The scale that leaves 53 bits of a quotient is the one at which it has at most these and, if the
scale is not least, at least these. -/
lemma scale_eq_iff (hden : 0 < den) {s : Nat} :
    bitLength (num / den) - 53 = s ↔
      num < bound * (den * Nat.pow 2 s) ∧ (s = 0 ∨ leastFull * (den * Nat.pow 2 s) ≤ num) := by
  have hlt (k : Nat) : num / den < 2 ^ (k + s) ↔ num < 2 ^ k * (den * Nat.pow 2 s) := by
    rw [Nat.div_lt_iff_lt_mul hden, Nat.pow_add, Nat.mul_right_comm, Nat.mul_assoc]
    rfl
  have hle := (@bitLength_le_iff (num / den) (53 + s)).trans (hlt 53)
  have hge := not_congr ((@bitLength_le_iff (num / den) (52 + s)).trans (hlt 52))
  rw [Nat.not_lt] at hge
  rw [show bound = 2 ^ 53 from rfl, show leastFull = 2 ^ 52 from rfl, ← hle, ← hge]
  omega

/-! ## Rounding quotients -/

lemma ofParts?_eq_some_iff {negative : Bool} {m s : Nat} :
    ofParts? negative m s = some y ↔ y.negative = negative ∧ y.significand = m ∧ y.scale = s := by
  unfold ofParts?
  split_ifs with h
  · constructor
    · intro h
      cases h
      exact ⟨rfl, rfl, rfl⟩
    · obtain ⟨negative, m, s, hm, hs, hc⟩ := y
      rintro ⟨rfl, rfl, rfl⟩
      rfl
  · refine ⟨fun h => (by cases h), ?_⟩
    rintro ⟨-, rfl, rfl⟩
    exact absurd ⟨y.significand_lt, y.scale_le, y.canonical⟩ h

/-- What a quotient is rounded to, at its scale. -/
lemma ofRatio_of_scale (hden : 0 < den) (negative : Bool) {s n : Nat}
    (hscale : num * Nat.pow 2 unitExponent < bound * (den * Nat.pow 2 s) ∧
      (s = 0 ∨ leastFull * (den * Nat.pow 2 s) ≤ num * Nat.pow 2 unitExponent))
    (hround : Within (n % 2 = 0) (2 * (n * (den * Nat.pow 2 s)))
      (2 * (n * (den * Nat.pow 2 s)) + 2 * (den * Nat.pow 2 s))
      (2 * (num * Nat.pow 2 unitExponent) + den * Nat.pow 2 s)) :
    ofRatio negative num den =
      if n = bound then ofParts? negative leastFull (s + 1) else ofParts? negative n s := by
  have hpos : 0 < den * Nat.pow 2 s := Nat.mul_pos hden (two_pow_pos _)
  rw [ofRatio, (scale_eq_iff hden).2 hscale, (roundHalfEven_eq_iff hpos).2 hround]

/-- The interval of a number, for a quotient at its scale. -/
lemma roundsTo_iff_at_scale (hden : 0 < den) :
    x.RoundsTo (num / den) ↔ Within (x.significand % 2 = 0)
      (4 * (x.significand * (den * Nat.pow 2 x.scale)) - x.below * (den * Nat.pow 2 x.scale))
      (4 * (x.significand * (den * Nat.pow 2 x.scale)) + 2 * (den * Nat.pow 2 x.scale))
      (4 * (num * Nat.pow 2 unitExponent)) := by
  rw [roundsTo_div_iff hden, lowerEnd, upperEnd, quartersOfOne, Nat.mul_left_comm num,
    Nat.mul_assoc, Nat.mul_assoc, Nat.mul_comm _ den, Nat.sub_mul, Nat.add_mul, Nat.mul_assoc 4]

lemma bound_mul (n : Nat) : bound * n = 2 * (leastFull * n) := by
  rw [show bound = 2 * leastFull from rfl, Nat.mul_assoc]

lemma leastFull_even : leastFull % 2 = 0 := rfl

lemma bound_even : bound % 2 = 0 := rfl

lemma le_leastFull_mul (n : Nat) : n ≤ leastFull * n := Nat.le_mul_of_pos_left n (by decide)

lemma mul_two_pow_succ (m s : Nat) : m * Nat.pow 2 (s + 1) = 2 * (m * Nat.pow 2 s) := by
  rw [Nat.pow_eq, Nat.pow_succ, Nat.mul_comm 2, Nat.mul_assoc]
  rfl

/-- What a quotient is rounded to has it in its interval. -/
lemma roundsTo_of_ofRatio (hden : 0 < den) {negative : Bool}
    (h : ofRatio negative num den = some y) : y.negative = negative ∧ y.RoundsTo (num / den) := by
  obtain ⟨s, hs⟩ : ∃ s, bitLength (num * Nat.pow 2 unitExponent / den) - 53 = s := ⟨_, rfl⟩
  have hscale := (scale_eq_iff hden).1 hs
  have hpos : 0 < den * Nat.pow 2 s := Nat.mul_pos hden (two_pow_pos _)
  obtain ⟨n, hn⟩ : ∃ n, roundHalfEven (num * Nat.pow 2 unitExponent) (den * Nat.pow 2 s) = n :=
    ⟨_, rfl⟩
  have hround := (roundHalfEven_eq_iff hpos).1 hn
  rw [ofRatio_of_scale hden negative hscale hround] at h
  rw [roundsTo_iff_at_scale hden]
  clear hs hn
  generalize num * Nat.pow 2 unitExponent = units at hscale hround ⊢
  split_ifs at h with hcarry
  · -- the significand was rounded up to a power of two
    obtain ⟨rfl, hm, hs'⟩ := ofParts?_eq_some_iff.1 h
    have hbelow : y.below = 1 := if_pos ⟨hm, by omega⟩
    refine ⟨rfl, ?_⟩
    rw [hm, hs', hbelow, mul_two_pow_succ, Nat.mul_left_comm leastFull]
    rw [hcarry, bound_mul, bound_even] at hround
    rw [bound_mul] at hscale
    rw [leastFull_even]
    generalize leastFull * (den * Nat.pow 2 s) = full at hscale hround ⊢
    unfold Within at hround ⊢
    omega
  · obtain ⟨rfl, rfl, rfl⟩ := ofParts?_eq_some_iff.1 h
    refine ⟨rfl, ?_⟩
    unfold below
    split_ifs with hpower
    · have hfull := le_leastFull_mul (den * Nat.pow 2 y.scale)
      rw [hpower.1] at hround ⊢
      generalize leastFull * (den * Nat.pow 2 y.scale) = full at hscale hround hfull ⊢
      unfold Within at hround ⊢
      omega
    · rcases Nat.eq_zero_or_pos y.significand with hzero | hm
      · rw [hzero] at hround ⊢
        unfold Within at hround ⊢
        omega
      · have hle := Nat.le_mul_of_pos_left (den * Nat.pow 2 y.scale) hm
        unfold Within at hround ⊢
        omega

/-- A quotient that has the scale of a number is rounded to it. -/
lemma ofRatio_of_same_scale (hden : 0 < den) (h : y.RoundsTo (num / den))
    (hscale : y.scale = 0 ∨
      leastFull * (den * Nat.pow 2 y.scale) ≤ num * Nat.pow 2 unitExponent) :
    ofRatio y.negative num den = some y := by
  have hrounded := @ofRatio_of_scale num den hden y.negative y.scale y.significand
  rw [roundsTo_iff_at_scale hden] at h
  generalize num * Nat.pow 2 unitExponent = units at h hscale hrounded
  have hpos : 0 < den * Nat.pow 2 y.scale := Nat.mul_pos hden (two_pow_pos _)
  have hle := h.le_high
  have hround : Within (y.significand % 2 = 0) (2 * (y.significand * (den * Nat.pow 2 y.scale)))
      (2 * (y.significand * (den * Nat.pow 2 y.scale)) + 2 * (den * Nat.pow 2 y.scale))
      (2 * units + den * Nat.pow 2 y.scale) := by
    unfold below at h
    split_ifs at h with hpower
    · rw [hpower.1] at h ⊢
      generalize leastFull * (den * Nat.pow 2 y.scale) = full at hscale h ⊢
      unfold Within at h ⊢
      omega
    · unfold Within at h ⊢
      omega
  have hlt : units < bound * (den * Nat.pow 2 y.scale) := by
    have hm := mul_add_le_of_lt y.significand_lt (den * Nat.pow 2 y.scale)
    generalize bound * (den * Nat.pow 2 y.scale) = full at hm ⊢
    omega
  rw [hrounded ⟨hlt, hscale⟩ hround, if_neg y.significand_lt.ne]
  exact ofParts?_eq_some_iff.2 ⟨rfl, rfl, rfl⟩

/-- A number that is rounded to from a lower scale is a power of two, beneath which the numbers are
twice as dense. -/
lemma significand_of_lower_scale (hden : 0 < den) (h : y.RoundsTo (num / den)) (hne : y.scale ≠ 0)
    (hbeneath : num * Nat.pow 2 unitExponent < leastFull * (den * Nat.pow 2 y.scale)) :
    y.significand = leastFull := by
  rw [roundsTo_iff_at_scale hden] at h
  generalize num * Nat.pow 2 unitExponent = units at h hbeneath
  have hpos : 0 < den * Nat.pow 2 y.scale := Nat.mul_pos hden (two_pow_pos _)
  by_contra hm
  have hfull := mul_add_le_of_lt
    (Nat.lt_of_le_of_ne (y.canonical.resolve_left hne) (Ne.symm hm)) (den * Nat.pow 2 y.scale)
  have hbelow : y.below = 2 := if_neg fun h => hm h.1
  have hge := h.low_le
  rw [hbelow] at hge
  generalize leastFull * (den * Nat.pow 2 y.scale) = full at hfull hbeneath
  omega

/-- A quotient that has a lower scale than a number is rounded up to it. -/
lemma ofRatio_of_lower_scale (hden : 0 < den) (h : y.RoundsTo (num / den)) (hne : y.scale ≠ 0)
    (hbeneath : num * Nat.pow 2 unitExponent < leastFull * (den * Nat.pow 2 y.scale)) :
    ofRatio y.negative num den = some y := by
  -- the number is the least of its scale, and the bound of the significands one scale below
  have hpower := significand_of_lower_scale hden h hne hbeneath
  have hrounded := @ofRatio_of_scale num den hden y.negative
  rw [roundsTo_iff_at_scale hden] at h
  generalize num * Nat.pow 2 unitExponent = units at h hbeneath hrounded
  obtain ⟨s, hs⟩ := Nat.exists_eq_succ_of_ne_zero hne
  have hpos : 0 < den * Nat.pow 2 s := Nat.mul_pos hden (two_pow_pos _)
  have hbelow : y.below = 1 := if_pos ⟨hpower, Nat.pos_of_ne_zero hne⟩
  rw [hbelow, hpower, hs, mul_two_pow_succ, Nat.mul_left_comm leastFull] at h
  rw [hs, mul_two_pow_succ, Nat.mul_left_comm leastFull] at hbeneath
  have hround : Within (bound % 2 = 0) (2 * (bound * (den * Nat.pow 2 s)))
      (2 * (bound * (den * Nat.pow 2 s)) + 2 * (den * Nat.pow 2 s))
      (2 * units + den * Nat.pow 2 s) := by
    rw [bound_mul, bound_even]
    rw [leastFull_even] at h
    generalize leastFull * (den * Nat.pow 2 s) = full at h hbeneath ⊢
    unfold Within at h ⊢
    omega
  have hscale : units < bound * (den * Nat.pow 2 s) ∧
      (s = 0 ∨ leastFull * (den * Nat.pow 2 s) ≤ units) := by
    have hge := h.low_le
    have hfull := le_leastFull_mul (den * Nat.pow 2 s)
    rw [bound_mul]
    generalize leastFull * (den * Nat.pow 2 s) = full at h hge hbeneath hfull ⊢
    omega
  rw [hrounded hscale hround, if_pos rfl]
  exact ofParts?_eq_some_iff.2 ⟨rfl, hpower, hs⟩

/-- A quotient is rounded to the number that has it in its interval. -/
lemma ofRatio_of_roundsTo (hden : 0 < den) (h : y.RoundsTo (num / den)) :
    ofRatio y.negative num den = some y := by
  by_cases hscale : y.scale = 0 ∨
      leastFull * (den * Nat.pow 2 y.scale) ≤ num * Nat.pow 2 unitExponent
  · exact ofRatio_of_same_scale hden h hscale
  · obtain ⟨hne, hbeneath⟩ := not_or.1 hscale
    exact ofRatio_of_lower_scale hden h hne (not_le.1 hbeneath)

/-- A quotient is rounded to `y` iff it is in the interval of `y`. -/
theorem ofRatio_eq_some_iff (hden : 0 < den) {negative : Bool} :
    ofRatio negative num den = some y ↔ y.negative = negative ∧ y.RoundsTo (num / den) := by
  refine ⟨roundsTo_of_ofRatio hden, ?_⟩
  rintro ⟨rfl, h⟩
  exact ofRatio_of_roundsTo hden h

/-! ## Zero -/

/-- What is less than a quarter of the unit is rounded to zero only. -/
lemma significand_of_roundsTo_lt (h : x.RoundsTo r) (hr : r * quartersOfOne < 1) :
    x.significand = 0 := by
  have hend : (x.lowerEnd : ℚ) < 1 := lt_of_le_of_lt h.low_le hr
  have hzero : x.lowerEnd = 0 := Nat.lt_one_iff.1 (by exact_mod_cast hend)
  have hsub := (Nat.mul_eq_zero.1 hzero).resolve_right (two_pow_pos _).ne'
  have hbelow : x.below ≤ 2 := by
    unfold below
    split_ifs <;> omega
  omega

lemma eq_zero_of_significand (h : x.significand = 0) : x = zero x.negative := by
  obtain ⟨negative, significand, scale, hlt, hle, hcanonical⟩ := x
  obtain rfl : significand = 0 := h
  obtain rfl : scale = 0 := hcanonical.resolve_right (by decide)
  rfl

lemma zero_roundsTo {negative : Bool} (hr : 0 ≤ r) (hlt : r * quartersOfOne < 1) :
    (zero negative).RoundsTo r := by
  have hlow : (zero negative).lowerEnd = 0 := rfl
  have hhigh : (zero negative).upperEnd = 2 := rfl
  have hpos : 0 ≤ r * quartersOfOne := mul_nonneg hr (Nat.cast_nonneg _)
  rw [RoundsTo, hlow, hhigh]
  refine ⟨?_, .inl (lt_trans hlt (by norm_num))⟩
  rw [Nat.cast_zero]
  exact (lt_or_eq_of_le hpos).imp_right fun h => ⟨rfl, h⟩

/-! ## Decimals -/

/-- A decimal is a quotient of natural numbers. -/
lemma decimal_eq_div (digits : Nat) (exponent : Int) :
    (digits : ℚ) * 10 ^ exponent =
      ((digits * Nat.pow 10 exponent.toNat : Nat) : ℚ) / (Nat.pow 10 (-exponent).toNat : Nat) := by
  rcases Int.eq_nat_or_neg exponent with ⟨n, rfl | rfl⟩
  · simp
  · simp [div_eq_mul_inv]

lemma ten_pow_pos (n : Nat) : 0 < Nat.pow 10 n := Nat.pow_pos (by decide)

/-- A decimal with its leading digit before a place. -/
lemma decimal_bounds {digits : Nat} (hd : digits ≠ 0) (exponent : Int) :
    (10 : ℚ) ^ (exponent + (Nat.toDigits 10 digits).length - 1) ≤ digits * 10 ^ exponent ∧
      digits * 10 ^ exponent < (10 : ℚ) ^ (exponent + (Nat.toDigits 10 digits).length) := by
  obtain ⟨n, hn⟩ : ∃ n, (Nat.toDigits 10 digits).length = n + 1 :=
    Nat.exists_eq_succ_of_ne_zero (by simp [Nat.toDigits_ne_nil])
  have hhigh : digits < 10 ^ (n + 1) :=
    (Nat.length_toDigits_le_iff (by decide) n.succ_pos).1 hn.le
  have hlow : 10 ^ n ≤ digits := by
    rcases Nat.eq_zero_or_pos n with rfl | hpos
    · exact Nat.pos_of_ne_zero hd
    · refine Nat.le_of_not_lt fun hlt => ?_
      have := (Nat.length_toDigits_le_iff (by decide) hpos).2 hlt
      omega
  have hten : (0 : ℚ) < 10 ^ exponent := zpow_pos (by norm_num) _
  have hplaces : exponent + ((n + 1 : Nat) : Int) - 1 = (n : Int) + exponent := by omega
  rw [hn, hplaces, add_comm exponent, zpow_add₀ (by norm_num), zpow_add₀ (by norm_num),
    zpow_natCast, zpow_natCast]
  constructor
  · exact mul_le_mul_of_nonneg_right (by exact_mod_cast hlow) hten.le
  · exact mul_lt_mul_of_pos_right (by exact_mod_cast hhigh) hten

lemma quartersOfOne_eq : (quartersOfOne : ℚ) = 2 ^ (unitExponent + 2) := by
  rw [quartersOfOne, Nat.pow_eq, Nat.cast_mul, Nat.cast_pow, pow_add, mul_comm]
  norm_num

/-- The upper end of the interval of the greatest number, in quarters of the unit. -/
def greatestEnd : Nat := (4 * bound - 2) * Nat.pow 2 maxScale

lemma upperEnd_le_greatestEnd (x : Binary64) : x.upperEnd ≤ greatestEnd := by
  have hfactor : 4 * x.significand + 2 ≤ 4 * bound - 2 := by
    have := x.significand_lt
    simp only [bound] at this ⊢
    omega
  have hpow : Nat.pow 2 x.scale ≤ Nat.pow 2 maxScale := two_pow_le x.scale_le
  exact Nat.mul_le_mul hfactor hpow

/-- The numbers go beyond the power 308 of ten. -/
lemma lt_greatestEnd (hr : r ≤ 10 ^ 308) : r * quartersOfOne < greatestEnd := by
  have hten : 10 ^ 308 * quartersOfOne < greatestEnd := by decide +kernel
  calc r * quartersOfOne
    _ ≤ 10 ^ 308 * quartersOfOne := mul_le_mul_of_nonneg_right hr (Nat.cast_nonneg _)
    _ = ((10 ^ 308 * quartersOfOne : Nat) : ℚ) := by
      rw [Nat.cast_mul, Nat.cast_pow, Nat.cast_ofNat]
    _ < greatestEnd := Nat.cast_lt.2 hten

/-- The numbers do not reach the power 309 of ten. -/
lemma not_roundsTo_of_large (hr : (10 : ℚ) ^ 309 ≤ r) : ¬ x.RoundsTo r := by
  intro h
  have hten : greatestEnd < 10 ^ 309 * quartersOfOne := by decide +kernel
  refine absurd (h.le_high.trans (Nat.cast_le.2 x.upperEnd_le_greatestEnd)) (not_le.2 ?_)
  calc (greatestEnd : ℚ)
    _ < ((10 ^ 309 * quartersOfOne : Nat) : ℚ) := Nat.cast_lt.2 hten
    _ = 10 ^ 309 * quartersOfOne := by rw [Nat.cast_mul, Nat.cast_pow, Nat.cast_ofNat]
    _ ≤ r * quartersOfOne := mul_le_mul_of_nonneg_right hr (Nat.cast_nonneg _)

/-- A decimal far below one is less than a quarter of the unit. -/
lemma lt_of_small (hr : r < 10 ^ (-400 : Int)) : r * quartersOfOne < 1 := by
  have htwo : (2 : ℚ) ^ (unitExponent + 2) ≤ 10 ^ 400 := by
    calc (2 : ℚ) ^ (unitExponent + 2)
      _ ≤ 2 ^ (3 * 400) := pow_le_pow_right₀ (by norm_num) (by decide)
      _ = 8 ^ 400 := by rw [pow_mul]; norm_num
      _ ≤ 10 ^ 400 := pow_le_pow_left₀ (by norm_num) (by norm_num) _
  have hpos : (0 : ℚ) < quartersOfOne := Nat.cast_pos.2 quartersOfOne_pos
  calc r * quartersOfOne
    _ < 10 ^ (-400 : Int) * quartersOfOne := mul_lt_mul_of_pos_right hr hpos
    _ ≤ 10 ^ (-400 : Int) * 10 ^ 400 := by
      rw [quartersOfOne_eq]
      exact mul_le_mul_of_nonneg_left htwo (by positivity)
    _ = 1 := by
      rw [← zpow_natCast, ← zpow_add₀ (by norm_num)]
      rfl

/-- A decimal is rounded to `y` iff it is in the interval of `y`. -/
theorem ofDecimal_eq_some_iff {negative : Bool} {digits : Nat} {exponent : Int} :
    ofDecimal negative digits exponent = some y ↔
      y.negative = negative ∧ y.RoundsTo (digits * 10 ^ exponent) := by
  have hzero {r : ℚ} (hr : 0 ≤ r) (hlt : r * quartersOfOne < 1) :
      some (zero negative) = some y ↔ y.negative = negative ∧ y.RoundsTo r := by
    constructor
    · intro h
      cases h
      exact ⟨rfl, zero_roundsTo hr hlt⟩
    · rintro ⟨rfl, h⟩
      rw [← eq_zero_of_significand (significand_of_roundsTo_lt h hlt)]
  unfold ofDecimal
  dsimp only
  split_ifs with hd hlarge hsmall
  · rw [hd, Nat.cast_zero, zero_mul]
    exact hzero le_rfl (by rw [zero_mul]; exact one_pos)
  · obtain ⟨hle, -⟩ := decimal_bounds hd exponent
    refine ⟨fun h => (by cases h), fun h => absurd h.2 (not_roundsTo_of_large (le_trans ?_ hle))⟩
    rw [← zpow_natCast]
    exact zpow_le_zpow_right₀ (by norm_num) (by push_cast; omega)
  · obtain ⟨-, hlt⟩ := decimal_bounds hd exponent
    refine hzero (by positivity) (lt_of_small (lt_of_lt_of_le hlt ?_))
    exact zpow_le_zpow_right₀ (by norm_num) hsmall.le
  · rw [ofRatio_eq_some_iff (ten_pow_pos _), ← decimal_eq_div]

/-! ## Quotients that are not too large -/

lemma two_mul_lt {unit last n : Nat} (h : num * (4 * unit) < (4 * n - 2) * last * den) :
    2 * (num * unit) < (2 * n - 1) * (den * last) := by
  have hend : 4 * n - 2 = 2 * (2 * n - 1) := by omega
  rw [hend] at h
  refine Nat.lt_of_mul_lt_mul_left (a := 2) ?_
  calc 2 * (2 * (num * unit))
    _ = num * (4 * unit) := by ring
    _ < 2 * (2 * n - 1) * last * den := h
    _ = 2 * ((2 * n - 1) * (den * last)) := by ring

/-- A quotient is rounded to a number if it is beneath the end of the last interval. -/
lemma isSome_ofRatio (negative : Bool) (hden : 0 < den)
    (h : (num / den : ℚ) * quartersOfOne < greatestEnd) : (ofRatio negative num den).isSome := by
  have hsmall : 2 * (num * Nat.pow 2 unitExponent) < (2 * bound - 1) * (den * Nat.pow 2 maxScale) := by
    have hpos : (0 : ℚ) < den := Nat.cast_pos.2 hden
    rw [div_mul_eq_mul_div, div_lt_iff₀ hpos, ← Nat.cast_mul, ← Nat.cast_mul, Nat.cast_lt,
      quartersOfOne, greatestEnd] at h
    exact two_mul_lt h
  obtain ⟨s, hs⟩ : ∃ s, bitLength (num * Nat.pow 2 unitExponent / den) - 53 = s := ⟨_, rfl⟩
  obtain ⟨n, hn⟩ : ∃ n, roundHalfEven (num * Nat.pow 2 unitExponent) (den * Nat.pow 2 s) = n :=
    ⟨_, rfl⟩
  have hpos : 0 < den * Nat.pow 2 s := Nat.mul_pos hden (two_pow_pos _)
  obtain ⟨hlt, hge⟩ := (scale_eq_iff hden).1 hs
  have hround := (roundHalfEven_eq_iff hpos).1 hn
  have hlow := hround.low_le
  have hhigh := hround.le_high
  rw [ofRatio_of_scale hden negative ⟨hlt, hge⟩ hround]
  clear hs hn hround h
  generalize num * Nat.pow 2 unitExponent = units at hsmall hlt hge hlow hhigh
  have hscale : s ≤ maxScale := by
    by_contra hgt
    have hle : 2 * (den * Nat.pow 2 maxScale) ≤ den * Nat.pow 2 s := by
      rw [Nat.mul_left_comm, Nat.pow_eq, Nat.pow_eq, ← Nat.pow_succ']
      exact Nat.mul_le_mul_left _ (Nat.pow_le_pow_right Nat.two_pos (not_le.1 hgt))
    have hfull := hge.resolve_left (by omega)
    generalize den * Nat.pow 2 maxScale = last at hsmall hle
    generalize den * Nat.pow 2 s = step at hfull hle
    simp only [bound, leastFull] at hsmall hfull
    omega
  split_ifs with hcarry
  · -- beneath the end of the last interval nothing is carried to a scale beyond the last
    have hnext : s + 1 ≤ maxScale := by
      refine Nat.lt_of_le_of_ne hscale ?_
      rintro rfl
      rw [hcarry] at hlow
      generalize den * Nat.pow 2 maxScale = last at hsmall hlow
      simp only [bound] at hsmall hlow
      omega
    rw [ofParts?, dif_pos ⟨by decide, hnext, .inr (Nat.le_refl _)⟩]
    rfl
  · have hle : n ≤ bound := by
      refine Nat.le_of_not_lt fun hgt => ?_
      have hmul := mul_add_le_of_lt hgt (den * Nat.pow 2 s)
      generalize bound * (den * Nat.pow 2 s) = full at hmul hlt
      omega
    have hcanonical : s = 0 ∨ leastFull ≤ n := by
      refine hge.imp_right fun hge => Nat.le_of_not_lt fun hgt => ?_
      have hmul := mul_add_le_of_lt hgt (den * Nat.pow 2 s)
      generalize leastFull * (den * Nat.pow 2 s) = full at hmul hge
      omega
    rw [ofParts?, dif_pos ⟨Nat.lt_of_le_of_ne hle hcarry, hscale, hcanonical⟩]
    rfl

/-- A 64-bit whole number is not too large. -/
lemma isSome_ofDecimal_whole (negative : Bool) {digits : Nat} (h : digits < 2 ^ 64) :
    (ofDecimal negative digits 0).isSome := by
  unfold ofDecimal
  dsimp only
  split_ifs with hd hlarge hsmall
  · rfl
  · -- so many digits would be those of a greater number
    exfalso
    have hlength : (Nat.toDigits 10 digits).length ≤ 20 :=
      (Nat.length_toDigits_le_iff (by decide) (by decide)).2 (h.trans (by decide))
    omega
  · rfl
  · refine isSome_ofRatio negative (ten_pow_pos _) (lt_greatestEnd ?_)
    have hlt : (digits : ℚ) < 2 ^ 64 := by exact_mod_cast h
    rw [← decimal_eq_div, zpow_zero, mul_one]
    calc (digits : ℚ)
      _ ≤ 2 ^ 64 := hlt.le
      _ ≤ 10 ^ 64 := pow_le_pow_left₀ (by norm_num) (by norm_num) _
      _ ≤ 10 ^ 308 := pow_le_pow_right₀ (by norm_num) (by decide)

/-! ## Values -/

/-- The exact magnitude of a number. -/
def value (x : Binary64) : ℚ := x.magnitude.1 / x.magnitude.2

lemma value_nonneg (x : Binary64) : 0 ≤ x.value :=
  div_nonneg (Nat.cast_nonneg _) (Nat.cast_nonneg _)

lemma value_eq_zero (h : x.significand = 0) : x.value = 0 := by
  rw [value, magnitude, h, Nat.zero_mul, Nat.cast_zero, zero_div]

lemma magnitude_fst_pos (h : x.significand ≠ 0) : 0 < x.magnitude.1 :=
  Nat.mul_pos (Nat.pos_of_ne_zero h) (two_pow_pos x.scale)

lemma magnitude_snd_pos (x : Binary64) : 0 < x.magnitude.2 := by
  rw [magnitude]
  dsimp only
  exact two_pow_pos unitExponent

lemma value_mul_quartersOfOne (x : Binary64) : x.value * quartersOfOne = x.quarters := by
  have hunit : (Nat.pow 2 unitExponent : ℚ) ≠ 0 := Nat.cast_ne_zero.2 (two_pow_pos _).ne'
  rw [value, magnitude, quartersOfOne, quarters, Nat.cast_mul 4, mul_left_comm, div_mul_cancel₀ _ hunit,
    Nat.mul_assoc, Nat.cast_mul 4]

/-- A number is in its own interval. -/
lemma within_quarters (x : Binary64) :
    Within (x.significand % 2 = 0) x.lowerEnd x.upperEnd x.quarters := by
  have hpos := two_pow_pos x.scale
  unfold lowerEnd upperEnd quarters below
  constructor
  · rcases Nat.eq_zero_or_pos x.significand with hzero | hm
    · rw [hzero]
      simp
    · exact .inl (Nat.mul_lt_mul_of_pos_right (by split_ifs <;> omega) hpos)
  · exact .inl (Nat.mul_lt_mul_of_pos_right (by omega) hpos)

lemma roundsTo_value (x : Binary64) : x.RoundsTo x.value := by
  rw [RoundsTo, value_mul_quartersOfOne]
  have h := x.within_quarters
  unfold Within at h ⊢
  exact_mod_cast h

/-! ## Operations -/

lemma ofNat?_eq_some_iff {n : Nat} :
    ofNat? n = some y ↔ y.negative = false ∧ y.RoundsTo n := by
  rw [ofNat?, ofRatio_eq_some_iff Nat.one_pos, Nat.cast_one, div_one]

/-- A product is rounded correctly. -/
lemma mul_eq_some_iff :
    x.mul y = some z ↔ z.negative = (x.negative != y.negative) ∧ z.RoundsTo (x.value * y.value) := by
  have hpos : 0 < x.magnitude.2 * y.magnitude.2 := Nat.mul_pos x.magnitude_snd_pos y.magnitude_snd_pos
  rw [mul, ofRatio_eq_some_iff hpos, Nat.cast_mul, Nat.cast_mul, ← div_mul_div_comm]
  rfl

/-- A quotient is rounded correctly. -/
lemma div_eq_some_iff (hy : y.significand ≠ 0) :
    x.div y = some z ↔ z.negative = (x.negative != y.negative) ∧ z.RoundsTo (x.value / y.value) := by
  have hpos : 0 < x.magnitude.2 * y.magnitude.1 :=
    Nat.mul_pos x.magnitude_snd_pos (magnitude_fst_pos hy)
  rw [div, ofRatio_eq_some_iff hpos, Nat.cast_mul, Nat.cast_mul, ← div_div_div_eq]
  rfl

lemma isSome_ofNat? {n : Nat} (h : (n : ℚ) ≤ 10 ^ 308) : (ofNat? n).isSome := by
  refine isSome_ofRatio false Nat.one_pos ?_
  rw [Nat.cast_one, div_one]
  exact lt_greatestEnd h

/-- A product is a number if it is beneath the end of the last interval. -/
lemma isSome_mul (h : x.value * y.value * quartersOfOne < greatestEnd) : (x.mul y).isSome := by
  refine isSome_ofRatio _ (Nat.mul_pos x.magnitude_snd_pos y.magnitude_snd_pos) ?_
  rw [Nat.cast_mul, Nat.cast_mul, ← div_mul_div_comm]
  exact h

/-! ## Whole numbers that are represented exactly -/

/-- A whole number of at most 53 bits, times a power of two, is a number. -/
lemma exists_value_eq {n k : Nat} (hn : n < bound) (hk : k ≤ 900) :
    ∃ y : Binary64, y.negative = false ∧ y.value = n * 2 ^ k := by
  rcases Nat.eq_zero_or_pos n with rfl | hpos
  · exact ⟨zero false, rfl, by rw [value_eq_zero rfl, Nat.cast_zero, zero_mul]⟩
  · obtain ⟨b, hb⟩ : ∃ b, bitLength n = b + 1 := ⟨n.log2, if_neg hpos.ne'⟩
    have hlt : n < 2 ^ (b + 1) := bitLength_le_iff.1 hb.le
    have hge : 2 ^ b ≤ n := Nat.le_of_not_lt fun h => by
      have := bitLength_le_iff.2 h
      omega
    have hb53 : b + 1 ≤ 53 := hb ▸ bitLength_le_iff.2 hn
    obtain ⟨c, hc⟩ := Nat.exists_eq_add_of_le hb53
    have hsignificand : n * 2 ^ c < bound := by
      calc n * 2 ^ c
        _ < 2 ^ (b + 1) * 2 ^ c := Nat.mul_lt_mul_of_pos_right hlt (Nat.pow_pos Nat.two_pos)
        _ = bound := by rw [← Nat.pow_add, ← hc]
    have hfull : leastFull ≤ n * 2 ^ c := by
      calc leastFull
        _ = 2 ^ b * 2 ^ c := by rw [← Nat.pow_add, show b + c = 52 by omega]
        _ ≤ n * 2 ^ c := Nat.mul_le_mul_right _ hge
    have hscale : unitExponent + k - c ≤ maxScale := by
      simp only [unitExponent, maxScale]
      omega
    refine ⟨⟨false, n * 2 ^ c, unitExponent + k - c, hsignificand, hscale, .inr hfull⟩, rfl, ?_⟩
    have hexponent : c + (unitExponent + k - c) = k + unitExponent := by
      have : c ≤ unitExponent := by
        simp only [unitExponent]
        omega
      omega
    have hunit : (2 : ℚ) ^ unitExponent ≠ 0 := by positivity
    rw [value, magnitude]
    dsimp only
    rw [Nat.pow_eq, Nat.pow_eq, Nat.mul_assoc, ← Nat.pow_add, hexponent, Nat.pow_add]
    push_cast
    field_simp

lemma ofNat?_exact {n k : Nat} (hn : n < bound) (hk : k ≤ 900) :
    ∃ y, ofNat? (n * 2 ^ k) = some y ∧ y.negative = false ∧ y.value = n * 2 ^ k := by
  obtain ⟨y, hnegative, hvalue⟩ := exists_value_eq hn hk
  refine ⟨y, ofNat?_eq_some_iff.2 ⟨hnegative, ?_⟩, hnegative, hvalue⟩
  have h := y.roundsTo_value
  rw [hvalue] at h
  exact_mod_cast h

end Binary64

end LayerChain
