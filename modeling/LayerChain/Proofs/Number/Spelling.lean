import LayerChain.Number.Literal
import LayerChain.Proofs.Json.Numerals
import LayerChain.Proofs.Number.Shortest
import LayerChain.Proofs.Number.Texts
import Mathlib.Data.List.TakeWhile

/-!
# The decimals that texts spell

A `Spelling` is a text of a number without its sign: digits, a point and further digits, and an
exponent. Every layout writes the shortest decimal of a number as a spelling (`Layout.chars_eq`),
which spells that decimal, perhaps with some zeros behind it (`Layout.value_spelling`).

A literal is rounded correctly, so a number is read from its text as it is
(`Literal.readReal_chars`). Zeros behind the shortest decimal do not change its value, but they
count as digits for a reader that collects a significand; so the decimal of a spelling is not always
the shortest one.
-/

namespace LayerChain

/-- A number as it is written: digits, further digits behind a point, if there are any, and an
exponent. -/
structure Spelling where
  whole : List Char
  fraction : List Char
  exponent : Option Int

namespace Spelling

/-- The characters of an exponent, with the given sign if it is not negative. -/
def exponentChars (plus : List Char) : Option Int → List Char
  | none => []
  | some e => 'e' :: ((if e < 0 then ['-'] else plus) ++ Nat.toDigits 10 e.natAbs)

/-- The characters of a spelling, with the given sign before an exponent that is not negative. -/
def chars (plus : List Char) (s : Spelling) : List Char :=
  s.whole ++ ((if s.fraction = [] then [] else '.' :: s.fraction) ++ exponentChars plus s.exponent)

/-- All written digits, and the power of ten of the last one. -/
def decimal (s : Spelling) : Decimal :=
  ⟨Literal.digitsValue (s.whole ++ s.fraction), s.exponent.getD 0 - s.fraction.length⟩

/-- A spelling of digits that has a whole part, with no zero before other digits of it, and is not
that of a whole number. -/
structure WellFormed (s : Spelling) : Prop where
  whole_ne_nil : s.whole ≠ []
  isDigit : ∀ c ∈ s.whole ++ s.fraction, c.isDigit = true
  leading : s.whole = ['0'] ∨ s.whole.head? ≠ some '0'
  marked : s.fraction ≠ [] ∨ s.exponent ≠ none

end Spelling

/-! ## Values of digits -/

namespace Literal

lemma digitsValue_concat (cs : List Char) (c : Char) :
    digitsValue (cs ++ [c]) = 10 * digitsValue cs + (c.toNat - '0'.toNat) := by
  rw [digitsValue, List.foldl_append]
  rfl

lemma digitsValue_append (cs ds : List Char) :
    digitsValue (cs ++ ds) = digitsValue cs * 10 ^ ds.length + digitsValue ds := by
  induction ds using List.reverseRecOn with
  | nil => simp [digitsValue]
  | append_singleton ds d ih =>
    rw [← List.append_assoc, digitsValue_concat, digitsValue_concat, ih, List.length_append,
      List.length_singleton, pow_succ]
    ring

lemma digitsValue_zeros (n : Nat) : digitsValue (List.replicate n '0') = 0 := by
  induction n with
  | zero => rfl
  | succ n ih =>
    rw [List.replicate_succ', digitsValue_append, ih, Nat.zero_mul]
    rfl

lemma digitsValue_toDigits (n : Nat) : digitsValue (Nat.toDigits 10 n) = n := by
  have h := @Nat.ofDigitChars_ten_toDigits n
  rwa [Nat.ofDigitChars_eq_foldl] at h

lemma digit_lt {c : Char} (h : c.isDigit = true) : c.toNat - '0'.toNat < 10 := by
  rw [Char.isDigit, Bool.and_eq_true, decide_eq_true_eq, decide_eq_true_eq] at h
  have hle : c.toNat ≤ 57 := UInt32.le_iff_toNat_le.1 h.2
  have hzero : '0'.toNat = 48 := rfl
  omega

lemma digitsValue_lt {cs : List Char} (h : ∀ c ∈ cs, c.isDigit = true) :
    digitsValue cs < 10 ^ cs.length := by
  induction cs using List.reverseRecOn with
  | nil => exact Nat.one_pos
  | append_singleton cs c ih =>
    have hrest := ih fun d hd => h d (List.mem_append_left _ hd)
    have hc := digit_lt (h c (List.mem_append_right _ (List.mem_singleton_self c)))
    rw [digitsValue_concat, List.length_append, List.length_singleton, pow_succ]
    omega

end Literal

/-! ## Stripped digits -/

namespace Decimal

/-- The digits of a number are the stripped ones and the zeros that were stripped. -/
lemma toDigits_eq_stripped (n : Nat) :
    Nat.toDigits 10 n = (stripped n).1 ++ List.replicate (stripped n).2 '0' := by
  have hsplit := List.takeWhile_append_dropWhile (p := (· == '0')) (l := (Nat.toDigits 10 n).reverse)
  have hzeros : (Nat.toDigits 10 n).reverse.takeWhile (· == '0') =
      List.replicate (stripped n).2 '0' := by
    refine List.eq_replicate_iff.2 ⟨?_, ?_⟩
    · have hlength := congrArg List.length hsplit
      rw [List.length_append] at hlength
      rw [stripped]
      dsimp only
      omega
    · intro c hc
      simpa using List.mem_takeWhile_imp hc
  rw [hzeros] at hsplit
  have hreverse := congrArg List.reverse hsplit
  rw [List.reverse_append, List.reverse_reverse, List.reverse_replicate] at hreverse
  exact hreverse.symm

lemma digitsValue_stripped (n : Nat) :
    Literal.digitsValue (stripped n).1 * 10 ^ (stripped n).2 = n := by
  have h := Literal.digitsValue_toDigits n
  rwa [toDigits_eq_stripped, Literal.digitsValue_append, Literal.digitsValue_zeros, Nat.add_zero,
    List.length_replicate] at h

/-- The stripped digits of a positive number do not start with a zero. -/
lemma exists_stripped_eq {n : Nat} (hn : 0 < n) :
    ∃ c rest, (stripped n).1 = c :: rest ∧ c ≠ '0' := by
  have hhead := Json.Numeral.head_toDigits_pos hn
  rw [toDigits_eq_stripped] at hhead
  cases hstripped : (stripped n).1 with
  | nil =>
    have hvalue := digitsValue_stripped n
    rw [hstripped, show Literal.digitsValue [] = 0 from rfl, Nat.zero_mul] at hvalue
    omega
  | cons c rest =>
    refine ⟨c, rest, rfl, ?_⟩
    rintro rfl
    rw [hstripped] at hhead
    exact absurd (hhead '0' rfl) (by decide)

/-- The stripped digits of a positive number do not end with a zero. -/
lemma digitsValue_stripped_mod {n : Nat} (hn : 0 < n) :
    Literal.digitsValue (stripped n).1 % 10 ≠ 0 := by
  obtain ⟨c, rest, hne, -⟩ := exists_stripped_eq hn
  have hdigit : ∀ c ∈ (stripped n).1, c.isDigit = true := fun c hc => isDigit_of_mem_stripped hc
  have hlast := List.head?_dropWhile_not (· == '0') (Nat.toDigits 10 n).reverse
  rw [stripped] at hne hdigit ⊢
  dsimp only at hne hdigit ⊢
  generalize (Nat.toDigits 10 n).reverse.dropWhile (· == '0') = kept at hne hdigit hlast ⊢
  obtain _ | ⟨d, kept⟩ := kept
  · cases hne
  · have hd : d ≠ '0' := by simpa using hlast
    rw [List.reverse_cons] at hdigit ⊢
    have hisdigit := hdigit d (List.mem_append_right _ (List.mem_singleton_self d))
    have hlt := Literal.digit_lt hisdigit
    rw [Literal.digitsValue_concat, Nat.mul_add_mod, Nat.mod_eq_of_lt hlt]
    exact fun hzero => hd (Json.Numeral.eq_zero_of_isDigit hisdigit hzero)

end Decimal

namespace Layout

variable {digits : List Char} {leading : Int}

/-! ## The spellings of the layouts -/

/-- How a digit string is spelled positionally, its leading digit at a power of ten. -/
def positionalSpelling (digits : List Char) (leading : Int) : Spelling :=
  if leading < 0 then ⟨['0'], List.replicate ((-leading).toNat - 1) '0' ++ digits, none⟩
  else if digits.length ≤ leading.toNat + 1 then
    ⟨digits ++ List.replicate (leading.toNat + 1 - digits.length) '0', ['0'], none⟩
  else ⟨digits.take (leading.toNat + 1), digits.drop (leading.toNat + 1), none⟩

/-- How a digit string is spelled with an exponent. -/
def scientificSpelling (digits : List Char) (leading : Int) : Spelling :=
  ⟨digits.take 1, digits.drop 1, some leading⟩

/-- How a number is spelled in a layout. -/
def spelling (layout : Layout) (x : Binary64) : Spelling :=
  if x.isZero then ⟨['0'], ['0'], none⟩
  else
    let decimal := x.shortest layout.ties
    let (digits, zeros) := Decimal.stripped decimal.digits
    let leading := decimal.exponent + zeros + digits.length - 1
    if layout.least ≤ leading ∧ leading ≤ layout.greatest then positionalSpelling digits leading
    else scientificSpelling digits leading

lemma chars_positionalSpelling (plus : List Char) (hd : digits ≠ []) :
    (positionalSpelling digits leading).chars plus = positional digits leading := by
  unfold positionalSpelling positional
  dsimp only
  split_ifs with hneg hlength
  · simp [Spelling.chars, Spelling.exponentChars, hd]
  · simp [Spelling.chars, Spelling.exponentChars]
  · simp [Spelling.chars, Spelling.exponentChars, hlength]

lemma chars_scientificSpelling (layout : Layout) (hd : digits ≠ []) :
    (scientificSpelling digits leading).chars layout.exponentSign =
      layout.scientific digits leading := by
  obtain _ | ⟨d, rest⟩ := digits
  · exact absurd rfl hd
  · cases rest <;> simp [Spelling.chars, Spelling.exponentChars, scientificSpelling, scientific]

lemma stripped_ne_nil {n : Nat} (hn : n ≠ 0) : (Decimal.stripped n).1 ≠ [] := by
  obtain ⟨c, rest, hstripped, -⟩ := Decimal.exists_stripped_eq (Nat.pos_of_ne_zero hn)
  rw [hstripped]
  exact List.cons_ne_nil c rest

lemma significand_ne_zero {x : Binary64} (h : ¬ x.isZero = true) : x.significand ≠ 0 := by
  intro hzero
  exact h (beq_iff_eq.2 hzero)

/-- Every text is a sign and a spelling. -/
theorem chars_eq (layout : Layout) (x : Binary64) :
    layout.chars x =
      (if x.negative then ['-'] else []) ++ (layout.spelling x).chars layout.exponentSign := by
  unfold chars spelling
  by_cases hzero : x.isZero = true
  · rw [if_pos hzero, if_pos hzero]
    rfl
  · have hd := stripped_ne_nil (Binary64.digits_shortest_ne_zero layout.ties (significand_ne_zero hzero))
    rw [if_neg hzero, if_neg hzero]
    dsimp only
    split_ifs with hnegative hplace
    · rw [chars_positionalSpelling _ hd]
    · rw [chars_scientificSpelling _ hd]
    · rw [chars_positionalSpelling _ hd]
    · rw [chars_scientificSpelling _ hd]

/-! ## Their values -/

lemma ten_zpow_natCast (n : Nat) : (10 : ℚ) ^ (n : Int) = ((10 ^ n : Nat) : ℚ) := by
  rw [zpow_natCast, Nat.cast_pow, Nat.cast_ofNat]

/-- A whole number is spelled with all its zeros, and one more behind the point. -/
lemma decimal_positionalSpelling_whole (hleading : 0 ≤ leading)
    (hlength : digits.length ≤ leading.toNat + 1) :
    (positionalSpelling digits leading).decimal =
      ⟨Literal.digitsValue digits * 10 ^ (leading.toNat + 1 - digits.length) * 10, -1⟩ := by
  rw [positionalSpelling, if_neg (not_lt.2 hleading), if_pos hlength, Spelling.decimal,
    Literal.digitsValue_append, Literal.digitsValue_append, Literal.digitsValue_zeros,
    List.length_replicate]
  rfl

/-- Any other number is spelled with nothing but zeros before its digits. -/
lemma decimal_positionalSpelling_fraction (h : leading < 0 ∨ leading.toNat + 1 < digits.length) :
    (positionalSpelling digits leading).decimal =
      ⟨Literal.digitsValue digits, leading + 1 - digits.length⟩ := by
  unfold positionalSpelling
  split_ifs with hneg hlength
  · have hdigits : Literal.digitsValue
        (['0'] ++ (List.replicate ((-leading).toNat - 1) '0' ++ digits)) =
          Literal.digitsValue digits := by
      rw [← List.append_assoc, ← List.replicate_one, List.replicate_append_replicate,
        Literal.digitsValue_append, Literal.digitsValue_zeros, Nat.zero_mul, Nat.zero_add]
    rw [Spelling.decimal, hdigits]
    congr 1
    simp only [List.length_append, List.length_replicate, Option.getD_none]
    omega
  · exact absurd h (by omega)
  · have hdrop : (digits.drop (leading.toNat + 1)).length = digits.length - (leading.toNat + 1) :=
      List.length_drop
    rw [Spelling.decimal, List.take_append_drop, hdrop]
    congr 1
    simp only [Option.getD_none]
    omega

lemma decimal_scientificSpelling (hd : digits ≠ []) :
    (scientificSpelling digits leading).decimal =
      ⟨Literal.digitsValue digits, leading + 1 - digits.length⟩ := by
  have hlength : 0 < digits.length := List.length_pos_iff.2 hd
  have hdrop : (digits.drop 1).length = digits.length - 1 := List.length_drop
  rw [Spelling.decimal, scientificSpelling, List.take_append_drop, hdrop]
  congr 1
  simp only [Option.getD_some]
  omega

lemma decimal_spelling_zero (layout : Layout) {x : Binary64} (hx : x.significand = 0) :
    (layout.spelling x).decimal = ⟨0, -1⟩ := by
  have hzero : x.isZero = true := beq_iff_eq.2 hx
  rw [spelling, if_pos hzero]
  rfl

/-- The digits of a number are spelled alone, or as a whole number. -/
lemma decimal_spelling (layout : Layout) {x : Binary64} (hx : x.significand ≠ 0) :
    (layout.spelling x).decimal =
        ⟨Literal.digitsValue (Decimal.stripped (x.shortest layout.ties).digits).1,
          (x.shortest layout.ties).exponent + (Decimal.stripped (x.shortest layout.ties).digits).2⟩ ∨
      ∃ places : Nat, (places : Int) = (x.shortest layout.ties).exponent +
          (Decimal.stripped (x.shortest layout.ties).digits).2 ∧
        (layout.spelling x).decimal =
          ⟨Literal.digitsValue (Decimal.stripped (x.shortest layout.ties).digits).1 *
            10 ^ places * 10, -1⟩ := by
  have hzero : ¬ x.isZero = true := fun h => hx (beq_iff_eq.1 h)
  have hd := stripped_ne_nil (Binary64.digits_shortest_ne_zero layout.ties hx)
  rw [spelling, if_neg hzero]
  dsimp only
  generalize x.shortest layout.ties = decimal at hd ⊢
  generalize Decimal.stripped decimal.digits = stripped at hd ⊢
  obtain ⟨digits, zeros⟩ := stripped
  obtain ⟨leading, hleading⟩ : ∃ leading : Int,
      decimal.exponent + zeros + digits.length - 1 = leading := ⟨_, rfl⟩
  have hplace : leading + 1 - digits.length = decimal.exponent + zeros := by omega
  dsimp only at hd ⊢
  rw [hleading]
  split_ifs
  · by_cases hwhole : 0 ≤ leading ∧ digits.length ≤ leading.toNat + 1
    · refine .inr ⟨leading.toNat + 1 - digits.length, by omega, ?_⟩
      exact decimal_positionalSpelling_whole hwhole.1 hwhole.2
    · refine .inl ?_
      rw [decimal_positionalSpelling_fraction (by omega), hplace]
  · refine .inl ?_
    rw [decimal_scientificSpelling hd, hplace]

/-- Every layout spells the value of the shortest decimal. -/
theorem value_spelling (layout : Layout) {x : Binary64} (hx : x.significand ≠ 0) :
    (layout.spelling x).decimal.value = (x.shortest layout.ties).value := by
  have hdecimal := layout.decimal_spelling hx
  have hvalue := Decimal.digitsValue_stripped (x.shortest layout.ties).digits
  generalize x.shortest layout.ties = decimal at hdecimal hvalue ⊢
  have hshortest : (Literal.digitsValue (Decimal.stripped decimal.digits).1 : ℚ) *
      10 ^ (decimal.exponent + (Decimal.stripped decimal.digits).2) = decimal.value := by
    rw [add_comm decimal.exponent, zpow_add₀ (by norm_num), ten_zpow_natCast, ← mul_assoc,
      ← Nat.cast_mul, hvalue, Decimal.value]
  rcases hdecimal with h | ⟨places, hplaces, h⟩
  · rw [h, Decimal.value, hshortest]
  · rw [h, ← hshortest, ← hplaces, Decimal.value, ten_zpow_natCast, zpow_neg_one]
    push_cast
    ring

/-- The decimal that is spelled is rounded to the number. -/
theorem roundsTo_spelling (layout : Layout) (x : Binary64) :
    x.RoundsTo (layout.spelling x).decimal.value := by
  by_cases hx : x.significand = 0
  · have hvalue : (layout.spelling x).decimal.value = 0 := by
      rw [layout.decimal_spelling_zero hx, Decimal.value, Nat.cast_zero, zero_mul]
    rw [hvalue, Binary64.eq_zero_of_significand hx]
    exact Binary64.zero_roundsTo le_rfl (by rw [zero_mul]; exact one_pos)
  · rw [value_spelling layout hx]
    exact Binary64.roundsTo_shortest layout.ties hx

/-! ## Their form -/

lemma isDigit_of_mem_replicate {n : Nat} {c : Char} (h : c ∈ List.replicate n '0') :
    c.isDigit = true := by
  rw [List.eq_of_mem_replicate h]
  decide

lemma wellFormed_positionalSpelling {d : Char} {rest : List Char} (hd : d ≠ '0')
    (hdigit : ∀ c ∈ d :: rest, c.isDigit = true) (leading : Int) :
    (positionalSpelling (d :: rest) leading).WellFormed := by
  unfold positionalSpelling
  split_ifs with hneg hlength
  · refine ⟨by simp, ?_, .inl rfl, .inl (by simp)⟩
    simp only [List.forall_mem_append]
    exact ⟨List.forall_mem_singleton.2 (by decide), fun c => isDigit_of_mem_replicate, hdigit⟩
  · refine ⟨by simp, ?_, .inr (by simpa using hd), .inl (by simp)⟩
    simp only [List.forall_mem_append]
    exact ⟨⟨hdigit, fun c => isDigit_of_mem_replicate⟩, List.forall_mem_singleton.2 (by decide)⟩
  · refine ⟨by simp, ?_, .inr (by simpa using hd), .inl (by simpa using hlength)⟩
    dsimp only
    rwa [List.take_append_drop]

lemma wellFormed_scientificSpelling {d : Char} {rest : List Char} (hd : d ≠ '0')
    (hdigit : ∀ c ∈ d :: rest, c.isDigit = true) (leading : Int) :
    (scientificSpelling (d :: rest) leading).WellFormed :=
  ⟨by simp [scientificSpelling], by simpa [scientificSpelling] using hdigit,
    .inr (by simpa [scientificSpelling] using hd), .inr (by simp [scientificSpelling])⟩

/-- What a layout writes is well-formed. -/
theorem wellFormed_spelling (layout : Layout) (x : Binary64) : (layout.spelling x).WellFormed := by
  unfold spelling
  split_ifs with hzero
  · have hdigit : ('0').isDigit = true := by decide
    exact ⟨by simp, List.forall_mem_cons.2 ⟨hdigit, List.forall_mem_singleton.2 hdigit⟩, .inl rfl,
      .inl (by simp)⟩
  · have hpos := Nat.pos_of_ne_zero
      (Binary64.digits_shortest_ne_zero layout.ties (significand_ne_zero hzero))
    obtain ⟨d, rest, hstripped, hd⟩ := Decimal.exists_stripped_eq hpos
    have hdigit : ∀ c ∈ d :: rest, c.isDigit = true := by
      rw [← hstripped]
      exact fun c hc => Decimal.isDigit_of_mem_stripped hc
    dsimp only
    rw [hstripped]
    split_ifs
    · exact wellFormed_positionalSpelling hd hdigit _
    · exact wellFormed_scientificSpelling hd hdigit _

/-! ## Their size -/

lemma digits_positionalSpelling_le (hdigit : ∀ c ∈ digits, c.isDigit = true)
    (hvalue : Literal.digitsValue digits ≤ 10 ^ 17) (hleading : leading ≤ 15) :
    (positionalSpelling digits leading).decimal.digits ≤ 10 ^ 17 := by
  by_cases hwhole : 0 ≤ leading ∧ digits.length ≤ leading.toNat + 1
  · -- the zeros fill the places before the point, and one stands behind it
    have hlt := Literal.digitsValue_lt hdigit
    rw [decimal_positionalSpelling_whole hwhole.1 hwhole.2]
    calc Literal.digitsValue digits * 10 ^ (leading.toNat + 1 - digits.length) * 10
      _ ≤ 10 ^ digits.length * 10 ^ (leading.toNat + 1 - digits.length) * 10 := by gcongr
      _ = 10 ^ (leading.toNat + 2) := by
        rw [← pow_add, ← pow_succ]
        congr 1
        omega
      _ ≤ 10 ^ 17 := Nat.pow_le_pow_right (by decide) (by omega)
  · rw [decimal_positionalSpelling_fraction (by omega)]
    exact hvalue

/-- The written digits are as few as those of the shortest decimal can be. -/
lemma digits_spelling_le (layout : Layout) (hgreatest : layout.greatest ≤ 15) (x : Binary64) :
    (layout.spelling x).decimal.digits ≤ 10 ^ 17 := by
  unfold spelling
  split_ifs with hzero
  · exact Nat.zero_le _
  · have hle := Binary64.digits_shortest_le layout.ties (significand_ne_zero hzero)
    have hvalue := Decimal.digitsValue_stripped (x.shortest layout.ties).digits
    have hstripped : Literal.digitsValue (Decimal.stripped (x.shortest layout.ties).digits).1 ≤
        10 ^ 17 :=
      (Nat.le_mul_of_pos_right _ (Nat.pow_pos (Nat.succ_pos 9))).trans (hvalue.trans_le hle)
    dsimp only
    split_ifs with hplace
    · exact digits_positionalSpelling_le (fun c hc => Decimal.isDigit_of_mem_stripped hc) hstripped
        (hplace.2.trans hgreatest)
    · rw [scientificSpelling, Spelling.decimal, List.take_append_drop]
      exact hstripped

/-- A number that rounds to a float and does not vanish has its leading place within four hundred of
the point. -/
lemma natAbs_place_le {x : Binary64} (hx : x.significand ≠ 0) {r : ℚ} (hrounds : x.RoundsTo r)
    {place : Int} (hlow : (10 : ℚ) ^ (place - 1) ≤ r) (hhigh : r < (10 : ℚ) ^ place) :
    (place - 1).natAbs ≤ 400 := by
  have hupper : place - 1 < 400 := by
    by_contra h
    refine Binary64.not_roundsTo_of_large (le_trans ?_ hlow) hrounds
    rw [← zpow_natCast]
    exact zpow_le_zpow_right₀ (by norm_num) (by push_cast; omega)
  have hlower : -400 < place := by
    by_contra h
    refine hx (Binary64.significand_of_roundsTo_lt hrounds (Binary64.lt_of_small ?_))
    exact lt_of_lt_of_le hhigh (zpow_le_zpow_right₀ (by norm_num) (not_lt.1 h))
  clear hrounds hlow hhigh hx
  omega

/-- No number has so many places. -/
lemma exponent_spelling_le (layout : Layout) (x : Binary64) :
    ∀ e ∈ (layout.spelling x).exponent, e.natAbs ≤ 400 := by
  unfold spelling
  split_ifs with hzero
  · intro e he
    cases he
  · have hx := significand_ne_zero hzero
    have hrounds := Binary64.roundsTo_shortest layout.ties hx
    have hplace := Binary64.decimal_bounds
      (Binary64.digits_shortest_ne_zero layout.ties hx) (x.shortest layout.ties).exponent
    rw [← Decimal.value, Decimal.toDigits_eq_stripped, List.length_append,
      List.length_replicate, add_comm (List.length _), Nat.cast_add, ← add_assoc] at hplace
    have hle := natAbs_place_le hx hrounds hplace.1 hplace.2
    dsimp only
    split_ifs
    · intro e he
      unfold positionalSpelling at he
      split_ifs at he <;> cases he
    · intro e he
      rw [scientificSpelling, Option.mem_some_iff] at he
      rwa [← he]

end Layout

/-! ## Reading spellings as literals -/

namespace Literal

/-- A text starts with no digit. -/
def StartsOtherwise (cs : List Char) : Prop := ∀ c ∈ cs.head?, c.isDigit = false

lemma takeWhile_append {cs rest : List Char} (hcs : ∀ c ∈ cs, c.isDigit = true)
    (hrest : StartsOtherwise rest) : (cs ++ rest).takeWhile Char.isDigit = cs ∧
      (cs ++ rest).dropWhile Char.isDigit = rest := by
  have hnone : rest.takeWhile Char.isDigit = [] ∧ rest.dropWhile Char.isDigit = rest := by
    cases rest with
    | nil => exact ⟨rfl, rfl⟩
    | cons c rest =>
      have hc : ¬ c.isDigit = true := by simp [hrest c rfl]
      exact ⟨List.takeWhile_cons_of_neg hc, List.dropWhile_cons_of_neg hc⟩
  rw [List.takeWhile_append_of_pos hcs, List.dropWhile_append_of_pos hcs, hnone.1, hnone.2,
    List.append_nil]
  exact ⟨rfl, rfl⟩

lemma splitSign_of_isDigit {cs : List Char} (hne : cs ≠ []) (hcs : ∀ c ∈ cs, c.isDigit = true)
    (rest : List Char) : splitSign (cs ++ rest) = (false, cs ++ rest) := by
  obtain _ | ⟨c, cs⟩ := cs
  · exact absurd rfl hne
  · have hc := hcs c List.mem_cons_self
    rw [List.cons_append]
    unfold splitSign
    split
    · rename_i h
      obtain rfl := (List.cons.inj h).1
      exact absurd hc (by decide)
    · rename_i h
      obtain rfl := (List.cons.inj h).1
      exact absurd hc (by decide)
    · rfl

/-- The exponent of a spelling is read as it is, and a missing one as zero. -/
lemma exponent?_exponentChars {plus : List Char} (hplus : plus = [] ∨ plus = ['+'])
    (e : Option Int) : exponent? (Spelling.exponentChars plus e) = some (e.getD 0) := by
  cases e with
  | none => rfl
  | some e =>
    have hdigit : ∀ c ∈ Nat.toDigits 10 e.natAbs, c.isDigit = true := fun _ => isDigit_of_mem_toDigits
    have hsplit : splitSign ((if e < 0 then ['-'] else plus) ++ Nat.toDigits 10 e.natAbs) =
        (decide (e < 0), Nat.toDigits 10 e.natAbs) := by
      split_ifs with hneg
      · rw [decide_eq_true hneg]
        rfl
      · rw [decide_eq_false hneg]
        rcases hplus with rfl | rfl
        · simpa using splitSign_of_isDigit Nat.toDigits_ne_nil hdigit []
        · rfl
    rw [Spelling.exponentChars, exponent?, hsplit]
    dsimp only
    rw [if_pos ⟨.inl rfl, Nat.toDigits_ne_nil, List.all_eq_true.2 hdigit⟩, digitsValue_toDigits,
      Option.getD_some]
    congr 1
    by_cases hneg : e < 0
    · rw [if_pos (decide_eq_true hneg)]
      omega
    · rw [if_neg (by simpa using hneg)]
      omega

lemma startsOtherwise_exponentChars (plus : List Char) (e : Option Int) :
    StartsOtherwise (Spelling.exponentChars plus e) := by
  cases e <;> simp [StartsOtherwise, Spelling.exponentChars]

/-- Digits and a rest without a point are read as a whole number and an exponent. -/
lemma real?_of_whole {literal whole tail : List Char} {negative : Bool}
    (hsign : splitSign literal = (negative, whole ++ tail)) (hne : whole ≠ [])
    (hwhole : ∀ c ∈ whole, c.isDigit = true) (htail : StartsOtherwise tail)
    (hpoint : tail.head? ≠ some '.') :
    real? literal = (exponent? tail).map fun e => ⟨negative, digitsValue whole, e⟩ := by
  obtain ⟨htake, hdrop⟩ := takeWhile_append hwhole htail
  rw [real?, hsign]
  dsimp only
  rw [htake, hdrop]
  split
  case h_1 rest => exact absurd rfl hpoint
  case h_2 =>
    rw [if_neg fun h => hne h.1, List.append_nil, List.length_nil]
    simp only [Nat.cast_zero, Int.sub_zero]

/-- The digits behind a point are read together with those before it. -/
lemma real?_of_fraction {literal whole fraction tail : List Char} {negative : Bool}
    (hsign : splitSign literal = (negative, whole ++ '.' :: (fraction ++ tail))) (hne : whole ≠ [])
    (hwhole : ∀ c ∈ whole, c.isDigit = true) (hfraction : ∀ c ∈ fraction, c.isDigit = true)
    (htail : StartsOtherwise tail) :
    real? literal = (exponent? tail).map fun e =>
      ⟨negative, digitsValue (whole ++ fraction), e - fraction.length⟩ := by
  have hpoint : StartsOtherwise ('.' :: (fraction ++ tail)) := by
    intro c hc
    cases hc
    decide
  obtain ⟨htake, hdrop⟩ := takeWhile_append hwhole hpoint
  obtain ⟨htake', hdrop'⟩ := takeWhile_append hfraction htail
  rw [real?, hsign]
  dsimp only
  rw [htake, hdrop]
  simp only [htake', hdrop']
  rw [if_neg fun h => hne h.1]

/-- A spelling is read as its decimal. -/
theorem real?_spelling {s : Spelling} (h : s.WellFormed) (negative : Bool) {plus : List Char}
    (hplus : plus = [] ∨ plus = ['+']) :
    real? ((if negative then ['-'] else []) ++ s.chars plus) =
      some ⟨negative, s.decimal.digits, s.decimal.exponent⟩ := by
  obtain ⟨hne, hdigit, -, -⟩ := h
  obtain ⟨hwhole, hfraction⟩ := List.forall_mem_append.1 hdigit
  have hexponent := exponent?_exponentChars hplus s.exponent
  have htail := startsOtherwise_exponentChars plus s.exponent
  have hsign (rest : List Char) : splitSign ((if negative then ['-'] else []) ++ (s.whole ++ rest)) =
      (negative, s.whole ++ rest) := by
    cases negative
    · exact splitSign_of_isDigit hne hwhole rest
    · rfl
  rw [Spelling.chars, Spelling.decimal]
  -- a point stands only before further digits
  cases hcases : s.fraction with
  | nil =>
    have hpoint : (Spelling.exponentChars plus s.exponent).head? ≠ some '.' := by
      cases s.exponent <;> simp [Spelling.exponentChars]
    rw [if_pos rfl, List.nil_append, real?_of_whole (hsign _) hne hwhole htail hpoint, hexponent,
      List.append_nil, List.length_nil]
    simp
  | cons d rest =>
    rw [hcases] at hfraction
    rw [if_neg (List.cons_ne_nil d rest), List.cons_append,
      real?_of_fraction (hsign _) hne hwhole hfraction htail, hexponent]
    rfl

/-- What a layout writes for a number is read as this number. -/
theorem readReal_chars {layout : Layout}
    (hplus : layout.exponentSign = [] ∨ layout.exponentSign = ['+']) (x : Binary64) :
    readReal (layout.chars x) = .finite x := by
  have hdecimal : Binary64.ofDecimal x.negative (layout.spelling x).decimal.digits
      (layout.spelling x).decimal.exponent = some x :=
    Binary64.ofDecimal_eq_some_iff.2 ⟨rfl, layout.roundsTo_spelling x⟩
  rw [readReal, Layout.chars_eq, real?_spelling (layout.wellFormed_spelling x) x.negative hplus]
  dsimp only
  rw [hdecimal]

end Literal

end LayerChain
