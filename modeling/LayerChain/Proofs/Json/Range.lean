import LayerChain.Proofs.Json.ShortDecimals

/-!
# Written numbers are not too large to be read

The significand and the power of ten of a written number are each rounded by at most one part in two
to the power 53, and so their product stays in range, unless the number is one of the three greatest.
For these the product is computed. So every number that is written is read as some number
(`Binary64.exists_reread`).
-/

namespace LayerChain

namespace Binary64

variable {x y : Binary64} {r s : ℚ}

/-! ## Errors of rounding -/

/-- A number with its full 53 bits is above what is rounded to it by at most one part in two to the
power 53. -/
lemma value_mul_le (hfull : leastFull ≤ x.significand) (h : x.RoundsTo r) :
    x.value * (bound - 1 : Nat) ≤ r * bound := by
  have hends : x.quarters * (bound - 1) ≤ x.lowerEnd * bound := by
    have hfactor : 4 * x.significand * (bound - 1) ≤ (4 * x.significand - x.below) * bound := by
      have hbelow : x.below ≤ 2 := by
        unfold below
        split_ifs <;> decide
      generalize x.below = below at hbelow
      generalize x.significand = m at hfull
      simp only [bound, leastFull] at hfull ⊢
      omega
    calc x.quarters * (bound - 1)
      _ = 4 * x.significand * (bound - 1) * Nat.pow 2 x.scale := Nat.mul_right_comm _ _ _
      _ ≤ (4 * x.significand - x.below) * bound * Nat.pow 2 x.scale := Nat.mul_le_mul_right _ hfactor
      _ = x.lowerEnd * bound := Nat.mul_right_comm _ _ _
  have hpos : (0 : ℚ) < quartersOfOne := Nat.cast_pos.2 quartersOfOne_pos
  refine le_of_mul_le_mul_right ?_ hpos
  calc x.value * (bound - 1 : Nat) * quartersOfOne
    _ = ((x.quarters * (bound - 1) : Nat) : ℚ) := by
      rw [mul_right_comm, value_mul_quartersOfOne, Nat.cast_mul]
    _ ≤ ((x.lowerEnd * bound : Nat) : ℚ) := Nat.cast_le.2 hends
    _ = x.lowerEnd * (bound : Nat) := Nat.cast_mul _ _
    _ ≤ r * quartersOfOne * (bound : Nat) := mul_le_mul_of_nonneg_right h.low_le (Nat.cast_nonneg _)
    _ = r * (bound : Nat) * quartersOfOne := mul_right_comm _ _ _

/-- The intervals of all but the three greatest numbers end some steps before the last one. -/
lemma upperEnd_le (h : x.scale < maxScale ∨ x.significand + 4 ≤ bound) :
    x.upperEnd ≤ (4 * bound - 14) * Nat.pow 2 maxScale := by
  have hlt := x.significand_lt
  have hle := x.scale_le
  rw [upperEnd]
  generalize x.significand = m at h hlt ⊢
  generalize maxScale = last at h hle ⊢
  -- below the last scale everything is at most half as large
  rcases Nat.lt_or_ge x.scale last with hscale | hscale
  · have hpow : 2 * Nat.pow 2 x.scale ≤ Nat.pow 2 last := by
      rw [Nat.pow_eq, Nat.pow_eq, ← Nat.pow_succ']
      exact Nat.pow_le_pow_right Nat.two_pos hscale
    have hfactor : 4 * m + 2 ≤ (4 * bound - 14) * 2 := by
      simp only [bound] at hlt ⊢
      omega
    calc (4 * m + 2) * Nat.pow 2 x.scale
      _ ≤ (4 * bound - 14) * 2 * Nat.pow 2 x.scale := Nat.mul_le_mul_right _ hfactor
      _ = (4 * bound - 14) * (2 * Nat.pow 2 x.scale) := Nat.mul_assoc _ _ _
      _ ≤ (4 * bound - 14) * Nat.pow 2 last := Nat.mul_le_mul_left _ hpow
  · have hfactor : 4 * m + 2 ≤ 4 * bound - 14 := by
      have hm := h.resolve_left (Nat.not_lt.2 hscale)
      simp only [bound] at hm ⊢
      omega
    rw [Nat.le_antisymm hle hscale]
    exact Nat.mul_le_mul_right _ hfactor

/-- A product of rounded numbers is in range if the product of the exact ones is rounded to some
number, other than the three greatest. -/
lemma isSome_mul_of_roundsTo {a b : Binary64} (ha : leastFull ≤ a.significand)
    (hb : leastFull ≤ b.significand) (har : a.RoundsTo r) (hbs : b.RoundsTo s)
    (hx : x.RoundsTo (r * s)) (hlast : x.scale < maxScale ∨ x.significand + 4 ≤ bound) :
    (a.mul b).isSome := by
  refine isSome_mul (not_le.1 fun hgreat => ?_)
  have hend : r * s * quartersOfOne ≤ ((4 * bound - 14) * Nat.pow 2 maxScale : Nat) :=
    hx.le_high.trans (Nat.cast_le.2 (upperEnd_le hlast))
  have hproduct : a.value * (bound - 1 : Nat) * (b.value * (bound - 1 : Nat)) ≤
      r * bound * (s * bound) :=
    mul_le_mul (value_mul_le ha har) (value_mul_le hb hbs)
      (mul_nonneg b.value_nonneg (Nat.cast_nonneg _))
      ((mul_nonneg a.value_nonneg (Nat.cast_nonneg _)).trans (value_mul_le ha har))
  have hpos : (0 : ℚ) ≤ quartersOfOne := Nat.cast_nonneg _
  have hpow : (0 : ℚ) < (Nat.pow 2 maxScale : Nat) := Nat.cast_pos.2 (two_pow_pos _)
  rw [greatestEnd] at hgreat
  rw [Nat.cast_mul] at hgreat hend
  generalize ((Nat.pow 2 maxScale : Nat) : ℚ) = last at hgreat hend hpow
  generalize (quartersOfOne : ℚ) = quarters at hgreat hend hpos
  -- the errors of the two factors are less than the steps between the ends
  have hscaled := mul_le_mul_of_nonneg_right hproduct hpos
  have hsquare : a.value * b.value * quarters * ((bound - 1 : Nat) * (bound - 1 : Nat)) ≤
      ((4 * bound - 14 : Nat) * last) * (bound * bound) := by
    calc a.value * b.value * quarters * ((bound - 1 : Nat) * (bound - 1 : Nat))
      _ = a.value * (bound - 1 : Nat) * (b.value * (bound - 1 : Nat)) * quarters := by ring
      _ ≤ r * bound * (s * bound) * quarters := hscaled
      _ = r * s * quarters * (bound * bound) := by ring
      _ ≤ ((4 * bound - 14 : Nat) * last) * (bound * bound) :=
        mul_le_mul_of_nonneg_right hend (by positivity)
  have hgreat' := mul_le_mul_of_nonneg_right hgreat
    (show (0 : ℚ) ≤ (bound - 1 : Nat) * (bound - 1 : Nat) by positivity)
  have hall := hgreat'.trans hsquare
  norm_num [bound] at hall
  linarith

end Binary64

/-! ## Composing -/

namespace Json.Numeral

open Binary64

/-- Divisions by powers of ten never leave the range. -/
lemma exists_scaleBy_of_neg (x : Binary64) {exponent : Int} (h : exponent < 0) :
    ∃ y, scaleBy x exponent = .ok y := by
  -- each step takes the greatest power off the exponent
  induction hn : exponent.natAbs using Nat.strongRecOn generalizing x exponent with
  | _ n ih =>
    rw [scaleBy]
    split_ifs with hpower hnonneg hzero
    · exact absurd h (not_lt.2 hnonneg)
    · exact ⟨_, rfl⟩
    · exact ⟨_, rfl⟩
    · exact absurd h (not_lt.2 ‹_›)
    · have hbeyond : maxPower < exponent.natAbs := not_le.1 hpower
      simp only [maxPower] at hbeyond
      exact ih _ (by simp only [maxPower]; omega) _ (by simp only [maxPower]; omega) rfl

/-- A power of ten to which a number is rounded, or a multiple of it, can be multiplied by. -/
lemma le_maxPower_of_roundsTo {significand k : Nat} {x : Binary64} (hs : significand ≠ 0)
    (hx : x.RoundsTo (significand * (10 ^ k : Nat))) : k ≤ maxPower := by
  by_contra hgt
  have hgreat : 309 ≤ k := by
    simp only [maxPower] at hgt
    omega
  have hone : (1 : ℚ) ≤ significand := by exact_mod_cast Nat.pos_of_ne_zero hs
  refine not_roundsTo_of_large ?_ hx
  calc (10 : ℚ) ^ 309
    _ ≤ 10 ^ k := pow_le_pow_right₀ (by norm_num) hgreat
    _ ≤ significand * 10 ^ k := le_mul_of_one_le_left (by positivity) hone
    _ = significand * (10 ^ k : Nat) := by rw [Nat.cast_pow, Nat.cast_ofNat]

/-- A whole number that is not zero is rounded to a number with all its bits. -/
lemma leastFull_le_of_ofNat? {n : Nat} (hn : n ≠ 0) {a : Binary64} (h : ofNat? n = some a) :
    leastFull ≤ a.significand := by
  have hone : (1 : ℚ) ≤ n := by exact_mod_cast Nat.pos_of_ne_zero hn
  refine leastFull_le_of_roundsTo (ofNat?_eq_some_iff.1 h).2 ?_
  exact hone.trans (le_mul_of_one_le_right (zero_le_one.trans hone) (by norm_num))

/-- Multiplying by a power of ten stays in range if the exact product is rounded to some number,
other than the three greatest. -/
lemma exists_scaleBy_natCast {significand k : Nat} {x : Binary64} (hs : significand ≠ 0)
    (hle : significand ≤ 10 ^ 17) (hx : x.RoundsTo (significand * (10 ^ k : Nat)))
    (hlast : x.scale < maxScale ∨ x.significand + 4 ≤ bound) :
    ∃ y, scaleBy ((ofNat? significand).getD default) k = .ok y := by
  have hk := le_maxPower_of_roundsTo hs hx
  have hpower : ((10 ^ k : Nat) : ℚ) ≤ 10 ^ 308 := by
    simp only [maxPower] at hk
    rw [Nat.cast_pow, Nat.cast_ofNat]
    exact pow_le_pow_right₀ (by norm_num) hk
  have hdigits : (significand : ℚ) ≤ 10 ^ 308 := by
    calc (significand : ℚ)
      _ ≤ (10 ^ 17 : Nat) := Nat.cast_le.2 hle
      _ = 10 ^ 17 := by rw [Nat.cast_pow, Nat.cast_ofNat]
      _ ≤ 10 ^ 308 := pow_le_pow_right₀ (by norm_num) (by decide)
  obtain ⟨s, hsome⟩ := Option.isSome_iff_exists.1 (isSome_ofNat? hdigits)
  obtain ⟨p, hp⟩ := Option.isSome_iff_exists.1 (isSome_ofNat? hpower)
  obtain ⟨y, hmul⟩ := Option.isSome_iff_exists.1 (isSome_mul_of_roundsTo
    (leastFull_le_of_ofNat? hs hsome) (leastFull_le_of_ofNat? (by positivity) hp)
    (ofNat?_eq_some_iff.1 hsome).2 (ofNat?_eq_some_iff.1 hp).2 hx hlast)
  rw [← power_eq hp] at hmul
  rw [hsome, Option.getD_some]
  exact ⟨y, scaleBy_of_mul hk hmul⟩

/-- What is composed of the decimal of a number, other than the three greatest, is in range. -/
lemma exists_compose {significand : Nat} {exponent : Int} {x : Binary64} (hs : significand ≠ 0)
    (hle : significand ≤ 10 ^ 17) (hx : x.RoundsTo (Decimal.value ⟨significand, exponent⟩))
    (hlast : x.scale < maxScale ∨ x.significand + 4 ≤ bound) (negative : Bool) :
    ∃ y, compose negative significand exponent = .ok y := by
  obtain ⟨y, hy⟩ : ∃ y, scaleBy ((ofNat? significand).getD default) exponent = .ok y := by
    rcases lt_or_ge exponent 0 with hneg | hnonneg
    · exact exists_scaleBy_of_neg _ hneg
    · obtain ⟨k, rfl⟩ := Int.eq_ofNat_of_zero_le hnonneg
      refine exists_scaleBy_natCast hs hle ?_ hlast
      rw [← Layout.ten_zpow_natCast]
      exact hx
  rw [compose, hy]
  exact ⟨_, rfl⟩

end Json.Numeral

namespace Binary64

variable (x : Binary64)

/-- The three greatest numbers are read as some number. -/
lemma isOk_reread_of_greatest : ∀ negative, ∀ m ∈ [bound - 3, bound - 2, bound - 1],
    ∀ x ∈ ofParts? negative m maxScale, x.reread.isOk = true := by
  decide +kernel

/-- Every number that is written is read as some number. -/
theorem exists_reread : ∃ y, x.reread = .ok y := by
  by_cases hlast : x.scale < maxScale ∨ x.significand + 4 ≤ bound
  · by_cases hx : x.significand = 0
    · refine ⟨x, reread_of_exact ?_ ?_⟩ <;> rw [Layout.decimal_spelling_zero _ hx]
      · exact exact_of_lt (by decide)
      · decide
    · have hrounds := Layout.roundsTo_spelling Layout.document x
      have hdigits : (Layout.document.spelling x).decimal.digits ≠ 0 := by
        intro hzero
        rw [Decimal.value, hzero, Nat.cast_zero, zero_mul] at hrounds
        exact hx (significand_of_roundsTo_lt hrounds (by rw [zero_mul]; exact one_pos))
      exact Json.Numeral.exists_compose hdigits
        (Layout.digits_spelling_le Layout.document (by decide) x) hrounds hlast x.negative
  · obtain ⟨hscale, hgreat⟩ := not_or.1 hlast
    have hm : x.significand ∈ [bound - 3, bound - 2, bound - 1] := by
      have hlt := x.significand_lt
      simp only [List.mem_cons, List.not_mem_nil, or_false]
      omega
    have hmax : maxScale = x.scale := Nat.le_antisymm (not_lt.1 hscale) x.scale_le
    have hparts : x ∈ ofParts? x.negative x.significand maxScale := by
      rw [hmax, ofParts?, dif_pos ⟨x.significand_lt, x.scale_le, x.canonical⟩]
      rfl
    have hok := isOk_reread_of_greatest x.negative x.significand hm x hparts
    cases h : x.reread with
    | ok y => exact ⟨y, rfl⟩
    | error fault =>
      rw [h] at hok
      cases hok

end Binary64

end LayerChain
