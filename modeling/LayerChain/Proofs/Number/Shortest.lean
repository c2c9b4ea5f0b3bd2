import LayerChain.Number.Decimal
import LayerChain.Proofs.Number.Rounding
import Mathlib.Tactic.Linarith
import Mathlib.Tactic.Ring

/-!
# The shortest decimal

The decimal that is chosen for a number is rounded to it (`Binary64.roundsTo_shortest`): seventeen
digits always suffice, since such a grid is finer than the interval of the number is wide.

Conversely no two decimals of at most fifteen digits are rounded to the same number, if it has its
full 53 bits. So if a decimal of so few digits is rounded to a number, it is the one that is chosen
(`Binary64.shortest_eq_of_few_digits`).
-/

namespace LayerChain

/-- The exact value of a decimal. -/
def Decimal.value (d : Decimal) : ℚ := d.digits * 10 ^ d.exponent

namespace Binary64

variable {ties : TieRule} {x : Binary64} {exponent : Int} {digits : Nat} {d : Decimal}

/-! ## The leading digit -/

lemma pow_length_le {n : Nat} (hn : 0 < n) :
    (10 : ℚ) ^ (((Nat.toDigits 10 n).length : Int) - 1) ≤ n ∧
      (n : ℚ) < 10 ^ ((Nat.toDigits 10 n).length : Int) := by
  have h := decimal_bounds hn.ne' 0
  rw [zpow_zero, mul_one, zero_add] at h
  exact h

/-- A quotient lies between the power of ten of its leading digit and the next one. -/
lemma leadingExponent_bounds {num den : Nat} (hnum : 0 < num) (hden : 0 < den) :
    (10 : ℚ) ^ leadingExponent num den ≤ num / den ∧
      (num : ℚ) / den < 10 ^ (leadingExponent num den + 1) := by
  have hden' : (0 : ℚ) < den := Nat.cast_pos.2 hden
  have hnum' : (0 : ℚ) < num := Nat.cast_pos.2 hnum
  rw [le_div_iff₀ hden', div_lt_iff₀ hden']
  unfold leadingExponent
  split_ifs with hle
  · -- the whole part has as many digits
    obtain ⟨hlow, hhigh⟩ := pow_length_le (Nat.div_pos hle hden)
    have hfloor : ((num / den : Nat) : ℚ) * den ≤ num := by
      exact_mod_cast Nat.div_mul_le_self num den
    have hceil : (num : ℚ) < ((num / den : Nat) + 1) * den := by
      exact_mod_cast Nat.lt_mul_of_div_lt (Nat.lt_succ_self _) hden
    rw [sub_add_cancel]
    refine ⟨le_trans (mul_le_mul_of_nonneg_right hlow hden'.le) hfloor, lt_of_lt_of_le hceil ?_⟩
    refine mul_le_mul_of_nonneg_right ?_ hden'.le
    -- a power of ten above a whole number is a whole number
    rw [zpow_natCast] at hhigh ⊢
    exact_mod_cast hhigh
  · -- the greatest whole number below the inverse has as many digits as there are places
    obtain ⟨n, hn⟩ : ∃ n, (den + num - 1) / num = n + 2 := by
      have htwo : 2 ≤ (den + num - 1) / num := (Nat.le_div_iff_mul_le hnum).2 (by omega)
      exact ⟨_, (Nat.sub_add_cancel htwo).symm⟩
    have hlt : (n + 1) * num < den := by
      have := Nat.div_mul_le_self (den + num - 1) num
      rw [hn, Nat.succ_mul] at this
      omega
    have hge : den ≤ (n + 2) * num := by
      have := Nat.lt_mul_of_div_lt (Nat.lt_succ_self ((den + num - 1) / num)) hnum
      rw [hn, Nat.succ_mul] at this
      omega
    obtain ⟨hlow, hhigh⟩ := pow_length_le n.succ_pos
    rw [hn, show n + 2 - 1 = n.succ from rfl, Int.negOfNat_eq]
    generalize (Nat.toDigits 10 n.succ).length = places at hlow hhigh ⊢
    have hceil : (n : ℚ) + 2 ≤ 10 ^ places := by
      rw [zpow_natCast] at hhigh
      exact_mod_cast hhigh
    have hge' : (den : ℚ) ≤ (n + 2) * num := by exact_mod_cast hge
    rw [show Int.ofNat places = (places : Int) from rfl,
      show -(places : Int) + 1 = -(places - 1) by omega, zpow_neg, zpow_neg]
    constructor
    · rw [inv_mul_le_iff₀ (by positivity)]
      exact hge'.trans (mul_le_mul_of_nonneg_right hceil hnum'.le)
    · rw [lt_inv_mul_iff₀ (by positivity)]
      refine lt_of_le_of_lt (mul_le_mul_of_nonneg_right hlow hnum'.le) ?_
      exact_mod_cast hlt

/-! ## Grids -/

/-- The distance of neighbours on a grid, in the terms of `nearestOnGrid`. -/
def gridStep (exponent : Int) : Nat := 4 * Nat.pow 2 unitExponent * Nat.pow 10 exponent.toNat

/-- How many multiples of the distance are not beyond a number. -/
def gridFloor (x : Binary64) (exponent : Int) : Nat :=
  x.quarters * Nat.pow 10 (-exponent).toNat / gridStep exponent

/-- Whether a multiple of the distance is rounded to a number. -/
def Fits (x : Binary64) (exponent : Int) (n : Nat) : Prop :=
  Within (x.significand % 2 = 0) (x.lowerEnd * Nat.pow 10 (-exponent).toNat)
    (x.upperEnd * Nat.pow 10 (-exponent).toNat) (n * gridStep exponent)

lemma fits_iff {n : Nat} : x.Fits exponent n ↔ x.RoundsTo (n * 10 ^ exponent) := by
  rw [decimal_eq_div, roundsTo_div_iff (ten_pow_pos _), Fits, gridStep, quartersOfOne,
    Nat.mul_assoc n, Nat.mul_comm (Nat.pow 10 exponent.toNat)]

lemma gridStep_pos (exponent : Int) : 0 < gridStep exponent :=
  Nat.mul_pos quartersOfOne_pos (ten_pow_pos _)

/-- The number itself, between its neighbours on a grid. -/
lemma gridFloor_le (x : Binary64) (exponent : Int) :
    x.gridFloor exponent * gridStep exponent ≤ x.quarters * Nat.pow 10 (-exponent).toNat :=
  Nat.div_mul_le_self _ _

lemma lt_gridFloor_succ (x : Binary64) (exponent : Int) :
    x.quarters * Nat.pow 10 (-exponent).toNat < (x.gridFloor exponent + 1) * gridStep exponent :=
  Nat.lt_mul_of_div_lt (Nat.lt_succ_self _) (gridStep_pos _)

/-- The interval of a number on a grid. -/
lemma within_quarters_mul (x : Binary64) (n : Nat) (hn : 0 < n) :
    Within (x.significand % 2 = 0) (x.lowerEnd * n) (x.upperEnd * n) (x.quarters * n) := by
  obtain ⟨hlow, hhigh⟩ := x.within_quarters
  refine ⟨hlow.imp ?_ ?_, hhigh.imp ?_ ?_⟩
  · exact fun h => Nat.mul_lt_mul_of_pos_right h hn
  · exact fun h => ⟨h.1, by rw [h.2]⟩
  · exact fun h => Nat.mul_lt_mul_of_pos_right h hn
  · exact fun h => ⟨h.1, by rw [h.2]⟩

/-- The lower neighbour on a grid is rounded to the number if it is not below the interval. -/
lemma fits_gridFloor_iff : x.Fits exponent (x.gridFloor exponent) ↔
    x.lowerEnd * Nat.pow 10 (-exponent).toNat < x.gridFloor exponent * gridStep exponent ∨
      (x.significand % 2 = 0 ∧
        x.lowerEnd * Nat.pow 10 (-exponent).toNat = x.gridFloor exponent * gridStep exponent) := by
  have hupper : x.quarters * Nat.pow 10 (-exponent).toNat <
      x.upperEnd * Nat.pow 10 (-exponent).toNat :=
    Nat.mul_lt_mul_of_pos_right
      (Nat.mul_lt_mul_of_pos_right (Nat.lt_add_of_pos_right (by decide)) (two_pow_pos _))
      (ten_pow_pos _)
  exact and_iff_left (.inl (Nat.lt_of_le_of_lt (x.gridFloor_le exponent) hupper))

/-- The upper neighbour on a grid is rounded to the number if it is not above the interval. -/
lemma fits_gridFloor_succ_iff : x.Fits exponent (x.gridFloor exponent + 1) ↔
    (x.gridFloor exponent + 1) * gridStep exponent < x.upperEnd * Nat.pow 10 (-exponent).toNat ∨
      (x.significand % 2 = 0 ∧
        (x.gridFloor exponent + 1) * gridStep exponent =
          x.upperEnd * Nat.pow 10 (-exponent).toNat) := by
  have hlower := (x.within_quarters_mul _ (ten_pow_pos (-exponent).toNat)).low_le
  exact and_iff_right (.inl (Nat.lt_of_le_of_lt hlower (x.lt_gridFloor_succ exponent)))

/-- The search on a grid finds one of the neighbours that is rounded to the number, if there is
one. -/
lemma nearestOnGrid_cases (ties : TieRule) (x : Binary64) (exponent : Int) :
    (x.nearestOnGrid ties exponent = some ⟨x.gridFloor exponent, exponent⟩ ∧
        x.Fits exponent (x.gridFloor exponent)) ∨
      (x.nearestOnGrid ties exponent = some ⟨x.gridFloor exponent + 1, exponent⟩ ∧
        x.Fits exponent (x.gridFloor exponent + 1)) ∨
      (x.nearestOnGrid ties exponent = none ∧ ¬x.Fits exponent (x.gridFloor exponent) ∧
        ¬x.Fits exponent (x.gridFloor exponent + 1)) := by
  rw [fits_gridFloor_iff, fits_gridFloor_succ_iff]
  have hbelow : (if x.significand = leastFull ∧ 0 < x.scale then 1 else 2) = x.below := rfl
  unfold nearestOnGrid gridFloor gridStep lowerEnd upperEnd quarters
  simp only [Nat.mul_assoc, hbelow]
  split_ifs with hfloor hceiling
  · exact .inl ⟨rfl, hfloor.1⟩
  · exact .inr (.inl ⟨rfl, hceiling⟩)
  · refine .inr (.inr ⟨rfl, fun h => hfloor ⟨h, fun hup => hceiling hup.1⟩, hceiling⟩)

/-- What is found on a grid is rounded to the number. -/
lemma roundsTo_of_nearestOnGrid (h : x.nearestOnGrid ties exponent = some d) :
    d.exponent = exponent ∧ d.digits ≤ x.gridFloor exponent + 1 ∧
      x.RoundsTo (d.digits * 10 ^ exponent) := by
  rcases nearestOnGrid_cases ties x exponent with ⟨heq, hfits⟩ | ⟨heq, hfits⟩ | ⟨heq, -⟩
  · rw [heq] at h
    cases h
    exact ⟨rfl, Nat.le_succ _, fits_iff.1 hfits⟩
  · rw [heq] at h
    cases h
    exact ⟨rfl, Nat.le_refl _, fits_iff.1 hfits⟩
  · rw [heq] at h
    cases h

/-- Where some decimal of a grid is rounded to the number, one is found. -/
lemma isSome_nearestOnGrid (ties : TieRule) (h : x.RoundsTo (digits * 10 ^ exponent)) :
    (x.nearestOnGrid ties exponent).isSome := by
  have hfits := fits_iff.2 h
  have hself := x.within_quarters_mul _ (ten_pow_pos (-exponent).toNat)
  rcases nearestOnGrid_cases ties x exponent with ⟨heq, -⟩ | ⟨heq, -⟩ | ⟨heq, hfloor, hceiling⟩
  · rw [heq]
    rfl
  · rw [heq]
    rfl
  · exfalso
    rcases Nat.lt_or_ge (x.gridFloor exponent) digits with hlt | hge
    · refine hceiling (Within.between hself hfits (x.lt_gridFloor_succ exponent).le ?_)
      exact Nat.mul_le_mul_right _ hlt
    · refine hfloor (Within.between hfits hself ?_ (x.gridFloor_le exponent))
      exact Nat.mul_le_mul_right _ hge

/-! ## Seventeen digits -/

/-- The decimal exponent of the leading digit of a number. -/
def leading (x : Binary64) : Int := leadingExponent x.magnitude.1 x.magnitude.2

lemma leading_bounds (hx : x.significand ≠ 0) :
    (10 : ℚ) ^ x.leading ≤ x.value ∧ x.value < 10 ^ (x.leading + 1) :=
  leadingExponent_bounds (magnitude_fst_pos hx) x.magnitude_snd_pos

lemma gridStep_eq (exponent : Int) :
    (gridStep exponent : ℚ) =
      10 ^ exponent * quartersOfOne * (Nat.pow 10 (-exponent).toNat : Nat) := by
  have hten : ((Nat.pow 10 (-exponent).toNat : Nat) : ℚ) ≠ 0 :=
    Nat.cast_ne_zero.2 (ten_pow_pos _).ne'
  have h := decimal_eq_div 1 exponent
  rw [Nat.cast_one, one_mul, Nat.one_mul, eq_div_iff hten] at h
  rw [mul_right_comm, h, gridStep, ← quartersOfOne, Nat.cast_mul, mul_comm]

/-- How many digits a number has before a place. -/
lemma gridStep_mul_le {n : Nat} (h : (10 : ℚ) ^ (exponent + n) ≤ x.value) :
    gridStep exponent * 10 ^ n ≤ x.quarters * Nat.pow 10 (-exponent).toNat := by
  have hle := mul_le_mul_of_nonneg_right (mul_le_mul_of_nonneg_right h
    (Nat.cast_nonneg quartersOfOne)) (Nat.cast_nonneg (Nat.pow 10 (-exponent).toNat))
  rw [value_mul_quartersOfOne, zpow_add₀ (by norm_num), zpow_natCast, mul_right_comm (_ ^ exponent),
    mul_right_comm _ _ (Nat.cast _), ← gridStep_eq] at hle
  exact_mod_cast hle

lemma lt_gridStep_mul {n : Nat} (h : x.value < (10 : ℚ) ^ (exponent + n)) :
    x.quarters * Nat.pow 10 (-exponent).toNat < gridStep exponent * 10 ^ n := by
  have hlt := mul_lt_mul_of_pos_right (mul_lt_mul_of_pos_right h
    (Nat.cast_pos.2 quartersOfOne_pos)) (Nat.cast_pos.2 (ten_pow_pos (-exponent).toNat))
  rw [value_mul_quartersOfOne, zpow_add₀ (by norm_num), zpow_natCast, mul_right_comm (_ ^ exponent),
    mul_right_comm _ _ (Nat.cast _), ← gridStep_eq] at hlt
  exact_mod_cast hlt

lemma below_le (x : Binary64) : x.below ≤ 2 := by
  unfold below
  split_ifs <;> omega

/-- The width of the interval of a number. -/
lemma upperEnd_eq (hx : x.significand ≠ 0) :
    x.upperEnd = x.lowerEnd + (x.below + 2) * Nat.pow 2 x.scale := by
  have hbelow := x.below_le
  rw [upperEnd, lowerEnd, ← Nat.add_mul]
  congr 1
  omega

/-- The interval is wider than the distance of neighbours on a grid of seventeen digits. -/
lemma lt_width (x : Binary64) : 4 * x.significand < (x.below + 2) * 10 ^ 16 := by
  have hlt := x.significand_lt
  unfold below
  simp only [bound, leastFull] at hlt ⊢
  split_ifs <;> omega

/-- On the grid of seventeen digits a decimal is found. -/
lemma isSome_nearestOnGrid_seventeen (ties : TieRule) (hx : x.significand ≠ 0) :
    (x.nearestOnGrid ties (x.leading - 16)).isSome := by
  have hleading : (10 : ℚ) ^ (x.leading - 16 + (16 : Nat)) ≤ x.value := by
    rw [show x.leading - 16 + (16 : Nat) = x.leading by omega]
    exact (leading_bounds hx).1
  have hstep := gridStep_mul_le hleading
  rcases nearestOnGrid_cases ties x (x.leading - 16) with ⟨heq, -⟩ | ⟨heq, -⟩ | ⟨heq, hfloor, hceiling⟩
  · rw [heq]
    rfl
  · rw [heq]
    rfl
  · -- the interval would be between two neighbours of the grid
    exfalso
    rw [fits_gridFloor_iff] at hfloor
    rw [fits_gridFloor_succ_iff] at hceiling
    have hlow := Nat.le_of_not_lt (not_or.1 hfloor).1
    have hhigh := Nat.le_of_not_lt (not_or.1 hceiling).1
    rw [Nat.succ_mul] at hhigh
    have hpos : 0 < Nat.pow 2 x.scale * Nat.pow 10 (-(x.leading - 16)).toNat :=
      Nat.mul_pos (two_pow_pos _) (ten_pow_pos _)
    rw [upperEnd_eq hx, Nat.add_mul] at hhigh
    rw [quarters] at hstep
    have hwide := le_of_add_le_add_left (hhigh.trans (Nat.add_le_add_right hlow _))
    have hmul := (Nat.mul_le_mul_right (10 ^ 16) hwide).trans hstep
    rw [Nat.mul_right_comm, Nat.mul_right_comm _ _ (10 ^ 16), Nat.mul_assoc, Nat.mul_assoc (4 * _)]
      at hmul
    exact absurd (Nat.le_of_mul_le_mul_right hmul hpos) (Nat.not_le.2 x.lt_width)

/-! ## The chosen decimal -/

/-- The chosen decimal is found on the first grid on which there is one. -/
lemma exists_nearestOnGrid_shortest (ties : TieRule) (hx : x.significand ≠ 0) :
    ∃ n : Nat, n ≤ 16 ∧ x.nearestOnGrid ties (x.leading - n) = some (x.shortest ties) ∧
      ∀ k : Nat, k < n → x.nearestOnGrid ties (x.leading - k) = none := by
  cases hfound : (List.range 17).findSome? fun (n : Nat) => x.nearestOnGrid ties (x.leading - n) with
  | none =>
    have hnone := List.findSome?_eq_none_iff.1 hfound 16 (by simp)
    have hsome := isSome_nearestOnGrid_seventeen ties hx
    rw [show x.leading - 16 = x.leading - (16 : Nat) from rfl, hnone] at hsome
    cases hsome
  | some d =>
    obtain ⟨before, n, after, hrange, hd, hbefore⟩ := List.findSome?_eq_some_iff.1 hfound
    have hshortest : x.shortest ties = d := by
      rw [shortest, ← leading, hfound]
      rfl
    -- the members of the range before `n` are the numbers less than it
    have hget : ∀ k, (before ++ n :: after)[k]? = if k < 17 then some k else none := by
      intro k
      rw [← hrange]
      split_ifs with hk
      · exact List.getElem?_range hk
      · exact List.getElem?_eq_none (by simpa using hk)
    have hlength : before.length = n ∧ n < 17 := by
      have h := hget before.length
      rw [List.getElem?_append_right (Nat.le_refl _), Nat.sub_self, List.getElem?_cons_zero] at h
      split_ifs at h with hlt
      cases h
      exact ⟨rfl, hlt⟩
    obtain ⟨rfl, hlt⟩ := hlength
    refine ⟨before.length, Nat.le_of_lt_succ hlt, hshortest ▸ hd, fun k hk => hbefore k ?_⟩
    have h := hget k
    rw [List.getElem?_append_left hk, if_pos (hk.trans hlt)] at h
    exact List.mem_of_getElem? h

/-- The chosen decimal is rounded to the number. -/
theorem roundsTo_shortest (ties : TieRule) (hx : x.significand ≠ 0) :
    x.RoundsTo (x.shortest ties).value := by
  obtain ⟨n, -, hfound, -⟩ := exists_nearestOnGrid_shortest ties hx
  obtain ⟨hexponent, -, hrounds⟩ := roundsTo_of_nearestOnGrid hfound
  rwa [Decimal.value, hexponent]

/-- Only zero is rounded from zero. -/
lemma not_roundsTo_zero (hx : x.significand ≠ 0) : ¬ x.RoundsTo 0 := by
  intro h
  exact hx (significand_of_roundsTo_lt h (by rw [zero_mul]; exact one_pos))

lemma digits_shortest_ne_zero (ties : TieRule) (hx : x.significand ≠ 0) :
    (x.shortest ties).digits ≠ 0 := by
  intro hzero
  have h := roundsTo_shortest ties hx
  rw [Decimal.value, hzero, Nat.cast_zero, zero_mul] at h
  exact not_roundsTo_zero hx h

lemma digits_shortest_le (ties : TieRule) (hx : x.significand ≠ 0) :
    (x.shortest ties).digits ≤ 10 ^ 17 := by
  obtain ⟨n, hn, hfound, -⟩ := exists_nearestOnGrid_shortest ties hx
  obtain ⟨-, hdigits, -⟩ := roundsTo_of_nearestOnGrid hfound
  have hvalue : x.value < (10 : ℚ) ^ (x.leading - n + (n + 1 : Nat)) := by
    rw [show x.leading - n + (n + 1 : Nat) = x.leading + 1 by omega]
    exact (leading_bounds hx).2
  have hfloor : x.gridFloor (x.leading - n) < 10 ^ (n + 1) := by
    rw [gridFloor, Nat.div_lt_iff_lt_mul (gridStep_pos _), Nat.mul_comm (10 ^ (n + 1))]
    exact lt_gridStep_mul hvalue
  exact (hdigits.trans hfloor).trans (Nat.pow_le_pow_right (by decide) (by omega))

/-! ## Fifteen digits -/

/-- The interval of a number with its full 53 bits is narrow. -/
lemma sub_mul_le (hfull : leastFull ≤ x.significand) {a b c : ℚ} (ha : x.RoundsTo a)
    (hb : x.RoundsTo b) (hc : x.RoundsTo c) : (a - b) * 2 ^ 51 ≤ c := by
  have hQ : (0 : ℚ) < quartersOfOne := Nat.cast_pos.2 quartersOfOne_pos
  have hx : x.significand ≠ 0 := by
    simp only [leastFull] at hfull
    omega
  have hwidth : x.upperEnd ≤ x.lowerEnd + 4 * Nat.pow 2 x.scale := by
    rw [upperEnd_eq hx]
    exact Nat.add_le_add_left (Nat.mul_le_mul_right _ (Nat.add_le_add_right x.below_le 2)) _
  have hlower : 2 ^ 53 * Nat.pow 2 x.scale ≤ x.lowerEnd := by
    have hbelow := x.below_le
    refine Nat.mul_le_mul_right _ ?_
    simp only [leastFull] at hfull
    omega
  have hdistance : (a - b) * quartersOfOne ≤ 4 * (Nat.pow 2 x.scale : Nat) := by
    have hle : (x.upperEnd : ℚ) ≤ x.lowerEnd + 4 * (Nat.pow 2 x.scale : Nat) := by
      exact_mod_cast hwidth
    rw [sub_mul]
    linarith only [ha.le_high, hb.low_le, hle]
  have hsize : (2 : ℚ) ^ 53 * (Nat.pow 2 x.scale : Nat) ≤ c * quartersOfOne :=
    le_trans (by exact_mod_cast hlower) hc.low_le
  have hscaled : (a - b) * 2 ^ 51 * quartersOfOne ≤ c * quartersOfOne := by
    linarith only [hdistance, hsize]
  exact le_of_mul_le_mul_right hscaled hQ

/-- Of two multiples of a power of ten, one of them less than fifteen digits, only one is rounded to
a number. -/
lemma eq_of_roundsTo (hfull : leastFull ≤ x.significand) {m n : Nat} (hn : n < 10 ^ 15)
    (hm' : x.RoundsTo (m * 10 ^ exponent)) (hn' : x.RoundsTo (n * 10 ^ exponent)) : m = n := by
  have hten : (0 : ℚ) < 10 ^ exponent := zpow_pos (by norm_num) _
  have hfew : (n : ℚ) < 10 ^ 15 := by exact_mod_cast hn
  have hle {k l : Nat} (h : ((k : ℚ) * 10 ^ exponent - l * 10 ^ exponent) * 2 ^ 51 ≤
      n * 10 ^ exponent) : k ≤ l := by
    rw [← sub_mul, mul_right_comm] at h
    have h := le_of_mul_le_mul_right h hten
    have hlt : (k : ℚ) < l + 1 := by
      linarith only [h, hfew]
    exact Nat.lt_succ_iff.1 (by exact_mod_cast hlt)
  exact Nat.le_antisymm (hle (sub_mul_le hfull hm' hn' hn')) (hle (sub_mul_le hfull hn' hm' hn'))

lemma zpow_eq_mul {a b : Int} (h : a ≤ b) (n : Nat) :
    (n : ℚ) * 10 ^ b = ((n * 10 ^ (b - a).toNat : Nat) : ℚ) * 10 ^ a := by
  obtain ⟨k, rfl⟩ := Int.le.dest h
  rw [zpow_add₀ (by norm_num), zpow_natCast, show (a + k - a).toNat = k by omega]
  push_cast
  ring

/-- If a decimal of at most fifteen digits is rounded to a number with its full 53 bits, it is the
chosen one. -/
theorem shortest_eq_of_few_digits (ties : TieRule) (hfull : leastFull ≤ x.significand)
    (hfew : digits < 10 ^ 15) (h : x.RoundsTo (digits * 10 ^ exponent)) :
    (x.shortest ties).value = digits * 10 ^ exponent := by
  have hx : x.significand ≠ 0 := by
    simp only [leastFull] at hfull
    omega
  obtain ⟨n, -, hfound, hfirst⟩ := exists_nearestOnGrid_shortest ties hx
  obtain ⟨hexponent, -, hrounds⟩ := roundsTo_of_nearestOnGrid hfound
  rw [Decimal.value, hexponent]
  generalize (x.shortest ties).digits = found at hrounds ⊢
  -- nothing was found on the grids before, so the decimal is on none of them
  have hnot {k : Nat} {m : Nat} (hk : k < n) : ¬ x.RoundsTo (m * 10 ^ (x.leading - k)) := by
    intro hm
    have hsome := isSome_nearestOnGrid ties hm
    rw [hfirst k hk] at hsome
    cases hsome
  rcases le_or_gt exponent (x.leading - n) with hle | hgt
  · rw [zpow_eq_mul hle] at hrounds ⊢
    rw [eq_of_roundsTo hfull hfew hrounds h]
  · rcases le_or_gt exponent x.leading with hle | hbeyond
    · obtain ⟨k, hk⟩ := Int.le.dest hle
      have hplace : exponent = x.leading - k := eq_sub_of_add_eq hk
      rw [hplace] at h hgt
      exact absurd h (hnot (Int.ofNat_lt.1 ((sub_lt_sub_iff_left x.leading).1 hgt)))
    · -- the decimal is just above a power of ten, the number below it
      rw [zpow_eq_mul hbeyond.le] at h ⊢
      obtain rfl : n = 0 := by
        by_contra hn
        have hzero : x.RoundsTo ((digits * 10 ^ (exponent - x.leading).toNat : Nat) *
            10 ^ (x.leading - (0 : Nat))) := by
          rw [Nat.cast_zero, sub_zero]
          exact h
        exact hnot (Nat.pos_of_ne_zero hn) hzero
      rw [Nat.cast_zero, sub_zero] at hrounds ⊢
      have hten : (0 : ℚ) < 10 ^ x.leading := zpow_pos (by norm_num) _
      have hbounds := (leading_bounds hx).2
      have hnear := sub_mul_le hfull h x.roundsTo_value x.roundsTo_value
      rw [zpow_add₀ (by norm_num), zpow_one] at hbounds
      have hscaled : ((digits * 10 ^ (exponent - x.leading).toNat : Nat) : ℚ) * 10 ^ x.leading <
          20 * 10 ^ x.leading := by
        have hpos := x.value_nonneg
        linarith only [hbounds, hnear, hpos]
      have hsmall : digits * 10 ^ (exponent - x.leading).toNat < 20 := by
        exact_mod_cast lt_of_mul_lt_mul_right hscaled hten.le
      rw [eq_of_roundsTo hfull (hsmall.trans (by decide)) hrounds h]

end Binary64

end LayerChain
