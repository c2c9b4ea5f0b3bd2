import LayerChain.Proofs.Json.Floats

/-!
# Short decimals are read exactly

A numeral is rounded up to three times: its significand, the power of ten, and the product or the
quotient of the two. Significands of at most 53 bits and powers up to the twenty-second are exact, so
of their decimals only the last rounding counts (`Numeral.compose_of_exact`). A number that is nearest
to a decimal of at most fifteen digits, with at most twenty-two of them behind the point, is written
with such parts, and so it is read again as itself (`Binary64.reread_of_few_digits`).
-/

namespace LayerChain

namespace Binary64

variable {x y : Binary64}

/-! ## Exact whole numbers -/

/-- A whole number of at most 53 bits, perhaps with some zero bits behind them. -/
def Exact (n : Nat) : Prop := ∃ m k, m < bound ∧ k ≤ 900 ∧ n = m * 2 ^ k

lemma exact_of_lt {n : Nat} (h : n < bound) : Exact n := ⟨n, 0, h, Nat.zero_le _, by simp⟩

/-- The powers of ten up to the twenty-second are exact. -/
lemma exact_ten_pow {k : Nat} (hk : k ≤ 22) : Exact (10 ^ k) := by
  have hfive : 5 ^ k < bound := by
    calc 5 ^ k
      _ ≤ 5 ^ 22 := Nat.pow_le_pow_right (by decide) hk
      _ < bound := by decide
  exact ⟨5 ^ k, k, hfive, hk.trans (by decide), by rw [← Nat.mul_pow]⟩

lemma exists_ofNat?_of_exact {n : Nat} (h : Exact n) :
    ∃ y, ofNat? n = some y ∧ y.negative = false ∧ y.value = n := by
  obtain ⟨m, k, hm, hk, rfl⟩ := h
  obtain ⟨y, hy, hnegative, hvalue⟩ := ofNat?_exact hm hk
  exact ⟨y, hy, hnegative, by rw [hvalue]; push_cast; rfl⟩

lemma significand_ne_zero_of_value (h : x.value ≠ 0) : x.significand ≠ 0 := fun hzero =>
  h (value_eq_zero hzero)

end Binary64

namespace Json.Numeral

open Binary64

/-! ## Exact parts -/

lemma power_eq {k : Nat} {p : Binary64} (hp : ofNat? (10 ^ k) = some p) : power k = p := by
  rw [power, Nat.pow_eq, hp]
  rfl

lemma scaleBy_of_mul {s y : Binary64} {k : Nat} (hk : k ≤ maxPower)
    (hmul : s.mul (power k) = some y) : scaleBy s k = .ok y := by
  rw [scaleBy, Int.natAbs_natCast, if_pos hk, if_pos (Int.natCast_nonneg k), hmul]

/-- What is composed of an exact significand and an exact power is rounded correctly. -/
theorem compose_of_exact {significand : Nat} {exponent : Int} (hs : Exact significand)
    (he : exponent.natAbs ≤ 22) {x : Binary64}
    (h : x.RoundsTo (Decimal.value ⟨significand, exponent⟩)) :
    compose x.negative significand exponent = .ok x := by
  obtain ⟨s, hs, hsnegative, hsvalue⟩ := exists_ofNat?_of_exact hs
  obtain ⟨p, hp, hpnegative, hpvalue⟩ := exists_ofNat?_of_exact (exact_ten_pow he)
  have hpower := power_eq hp
  have hsign : false = (s.negative != p.negative) := by
    rw [hsnegative, hpnegative]
    rfl
  have hmax : exponent.natAbs ≤ maxPower := he.trans (by decide)
  -- both factors are exact, so the one operation rounds the decimal itself
  have hscale : scaleBy s exponent = .ok { x with negative := false } := by
    by_cases hnonneg : 0 ≤ exponent
    · obtain ⟨k, rfl⟩ := Int.eq_ofNat_of_zero_le hnonneg
      refine scaleBy_of_mul hmax (mul_eq_some_iff.2 ⟨hpower ▸ hsign, ?_⟩)
      rw [hsvalue, ← Int.natAbs_natCast k, hpower, hpvalue, Int.natAbs_natCast,
        ← Layout.ten_zpow_natCast]
      exact h
    · obtain ⟨k, hk⟩ := Int.exists_eq_neg_ofNat (not_le.1 hnonneg).le
      have hvalue : p.value ≠ 0 := by
        rw [hpvalue]
        positivity
      have hdiv : s.div p = some { x with negative := false } := by
        refine (div_eq_some_iff (significand_ne_zero_of_value hvalue)).2 ⟨hsign, ?_⟩
        rw [hk] at h
        rw [hsvalue, hpvalue, hk, Int.natAbs_neg, Int.natAbs_natCast, ← Layout.ten_zpow_natCast,
          div_eq_mul_inv, ← zpow_neg]
        exact h
      rw [scaleBy, if_pos hmax, hpower, if_neg hnonneg, hdiv, Option.getD_some]
  rw [compose, hs, Option.getD_some, hscale]
  obtain ⟨negative, m, k, hm, hk, hc⟩ := x
  cases negative <;> rfl

end Json.Numeral

namespace Binary64

variable {x : Binary64}

/-- A number that is written with an exact significand and an exact power is read again as
itself. -/
theorem reread_of_exact (hdigits : Exact (Layout.document.spelling x).decimal.digits)
    (hexponent : (Layout.document.spelling x).decimal.exponent.natAbs ≤ 22) :
    x.reread = .ok x :=
  Json.Numeral.compose_of_exact hdigits hexponent (Layout.roundsTo_spelling _ x)

/-! ## Few digits -/

/-- A number that is not too close to zero has its full 53 bits. -/
lemma leastFull_le_of_roundsTo {r : ℚ} (h : x.RoundsTo r) (hr : 1 ≤ r * 10 ^ 22) :
    leastFull ≤ x.significand := by
  by_contra hlt
  have hscale : x.scale = 0 := x.canonical.resolve_right hlt
  have hend : (x.upperEnd : ℚ) ≤ 2 ^ 54 := by
    have hnat : x.upperEnd ≤ 2 ^ 54 := by
      rw [upperEnd, hscale, Nat.pow_eq, pow_zero, Nat.mul_one]
      simp only [leastFull] at hlt
      omega
    exact_mod_cast hnat
  have hunit : (2 : ℚ) ^ 54 * 10 ^ 22 < quartersOfOne := by
    rw [quartersOfOne_eq]
    calc (2 : ℚ) ^ 54 * 10 ^ 22
      _ ≤ 2 ^ 54 * 16 ^ 22 := by gcongr; norm_num
      _ = 2 ^ (54 + 4 * 22) := by rw [pow_add, pow_mul]; norm_num
      _ < 2 ^ (unitExponent + 2) := pow_lt_pow_right₀ (by norm_num) (by decide)
  have hpos : (0 : ℚ) < quartersOfOne := Nat.cast_pos.2 quartersOfOne_pos
  have hhigh := h.le_high
  generalize (quartersOfOne : ℚ) = quarters at hunit hhigh hpos
  have hmul : quarters * 1 ≤ quarters * (r * 10 ^ 22) := mul_le_mul_of_nonneg_left hr hpos.le
  have hscaled : r * quarters * 10 ^ 22 ≤ 2 ^ 54 * 10 ^ 22 :=
    mul_le_mul_of_nonneg_right (hhigh.trans hend) (by positivity)
  linarith

/-- Two decimals of one value differ by zeros. -/
lemma mul_pow_eq_of_value {s n : Nat} {e : Int} {k : Nat}
    (h : (s : ℚ) * 10 ^ e = n * 10 ^ (-(k : Int))) :
    (0 ≤ e → s * 10 ^ (e.natAbs + k) = n) ∧ (e < 0 → s * 10 ^ k = n * 10 ^ e.natAbs) := by
  have hten : (10 : ℚ) ≠ 0 := by norm_num
  constructor
  · intro hnonneg
    obtain ⟨m, rfl⟩ := Int.eq_ofNat_of_zero_le hnonneg
    rw [zpow_natCast, zpow_neg, zpow_natCast, ← div_eq_mul_inv,
      eq_div_iff (pow_ne_zero _ hten), mul_assoc, ← pow_add] at h
    rw [Int.natAbs_natCast]
    exact_mod_cast h
  · intro hneg
    obtain ⟨m, rfl⟩ := Int.exists_eq_neg_ofNat hneg.le
    rw [zpow_neg, zpow_neg, zpow_natCast, zpow_natCast, ← div_eq_mul_inv, ← div_eq_mul_inv,
      div_eq_div_iff (pow_ne_zero _ hten) (pow_ne_zero _ hten)] at h
    rw [Int.natAbs_neg, Int.natAbs_natCast]
    exact_mod_cast h

/-- If few digits have the value of other ones without zeros behind them, alone or as a whole number,
these are an exact significand with an exact power. -/
lemma exact_of_few_digits {s n k : Nat} {e : Int} {decimal : Decimal} (hlast : s % 10 ≠ 0)
    (hn : n < 10 ^ 15) (hk : k ≤ 22)
    (hform : decimal = ⟨s, e⟩ ∨ ∃ places, decimal = ⟨s * 10 ^ places * 10, -1⟩)
    (hvalue : decimal.value = n * 10 ^ (-(k : Int))) :
    Exact decimal.digits ∧ decimal.exponent.natAbs ≤ 22 := by
  have hten (m : Nat) : 0 < 10 ^ m := Nat.pow_pos (by decide)
  have hbound : 10 ^ 15 < bound := by decide
  rcases hform with rfl | ⟨places, rfl⟩
  · have hvalue : (s : ℚ) * 10 ^ e = n * 10 ^ (-(k : Int)) := hvalue
    obtain ⟨hwhole, hfraction⟩ := mul_pow_eq_of_value hvalue
    rcases le_or_gt 0 e with hnonneg | hneg
    · have heq := hwhole hnonneg
      have hs : 0 < s := Nat.pos_of_ne_zero fun hzero => hlast (by rw [hzero])
      have hle : s ≤ n := heq ▸ Nat.le_mul_of_pos_right s (hten _)
      have hpow : 10 ^ (e.natAbs + k) < 10 ^ 15 :=
        lt_of_le_of_lt (heq ▸ Nat.le_mul_of_pos_left _ hs) hn
      have hplaces := (Nat.pow_lt_pow_iff_right (by decide)).1 hpow
      exact ⟨exact_of_lt (lt_of_le_of_lt hle (hn.trans hbound)), show e.natAbs ≤ 22 by omega⟩
    · have heq := hfraction hneg
      have hle : e.natAbs ≤ k := by
        by_contra hlt
        obtain ⟨d, hd⟩ := Nat.exists_eq_add_of_lt (not_le.1 hlt)
        rw [hd, Nat.pow_succ, Nat.pow_add, Nat.mul_comm (10 ^ k), Nat.mul_assoc, Nat.mul_comm (10 ^ k),
          ← Nat.mul_assoc, ← Nat.mul_assoc] at heq
        -- then there would be a zero behind the digits
        have hs := Nat.eq_of_mul_eq_mul_right (hten k) heq
        rw [hs, Nat.mul_mod_left] at hlast
        exact hlast rfl
      have hsn : s ≤ n := by
        refine Nat.le_of_mul_le_mul_right ?_ (hten k)
        rw [heq]
        exact Nat.mul_le_mul_left n (Nat.pow_le_pow_right (by decide) hle)
      exact ⟨exact_of_lt (lt_of_le_of_lt hsn (hn.trans hbound)), hle.trans hk⟩
  · have hvalue : ((s * 10 ^ places * 10 : Nat) : ℚ) * 10 ^ (-1 : Int) = n * 10 ^ (-(k : Int)) :=
      hvalue
    have heq : s * 10 ^ places * 10 * 10 ^ k = n * 10 := (mul_pow_eq_of_value hvalue).2 (by decide)
    have hle : s * 10 ^ places ≤ n := by
      refine Nat.le_of_mul_le_mul_right ?_ (show 0 < 10 by decide)
      calc s * 10 ^ places * 10
        _ ≤ s * 10 ^ places * 10 * 10 ^ k := Nat.le_mul_of_pos_right _ (hten k)
        _ = n * 10 := heq
    refine ⟨⟨s * 10 ^ places * 5, 1, ?_, by decide, by ring⟩, show (-1 : Int).natAbs ≤ 22 by decide⟩
    generalize s * 10 ^ places = m at hle
    simp only [bound]
    omega

/-- The number nearest to a decimal of at most fifteen digits, at most twenty-two of them behind the
point, is read again as itself. -/
theorem reread_of_few_digits {digits places : Nat} (hdigits : digits < 10 ^ 15)
    (hplaces : places ≤ 22) (h : x.RoundsTo (digits / 10 ^ places)) : x.reread = .ok x := by
  by_cases hx : x.significand = 0
  · refine reread_of_exact ?_ ?_ <;> rw [Layout.decimal_spelling_zero _ hx]
    · exact exact_of_lt (by decide)
    · decide
  · have hne : digits ≠ 0 := by
      rintro rfl
      refine hx (significand_of_roundsTo_lt h ?_)
      rw [Nat.cast_zero, zero_div, zero_mul]
      exact one_pos
    have hlarge : (1 : ℚ) ≤ digits / 10 ^ places * 10 ^ 22 := by
      have hone : (1 : ℚ) ≤ digits := by exact_mod_cast Nat.pos_of_ne_zero hne
      have hpow : (10 : ℚ) ^ places ≤ 10 ^ 22 := pow_le_pow_right₀ (by norm_num) hplaces
      rw [div_mul_eq_mul_div, one_le_div (by positivity)]
      nlinarith
    have hfull := leastFull_le_of_roundsTo h hlarge
    rw [div_eq_mul_inv, ← zpow_natCast, ← zpow_neg] at h
    have hvalue := Layout.value_spelling Layout.document hx
    rw [shortest_eq_of_few_digits _ hfull hdigits h, Decimal.value] at hvalue
    have hlast := Decimal.digitsValue_stripped_mod
      (Nat.pos_of_ne_zero (digits_shortest_ne_zero Layout.document.ties hx))
    have hform := (Layout.decimal_spelling Layout.document hx).imp_right
      fun h => h.imp fun places h => h.2
    obtain ⟨hexact, hexponent⟩ := exact_of_few_digits hlast hdigits hplaces hform hvalue
    exact reread_of_exact hexact hexponent

end Binary64

end LayerChain
