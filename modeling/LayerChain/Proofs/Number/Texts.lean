import LayerChain.Json.Printer
import LayerChain.Proofs.Text.Apart

/-!
# Texts of numbers

The text of a number consists of digits, signs, points and the letter of an exponent
(`isNumeric`). A floating-point number always has a point or an exponent in its text
(`Layout.point_or_exponent_mem`) and a whole number has neither, so the texts of the two sorts are
never the same.
-/

namespace LayerChain

/-- Whether a character may stand in the text of a number. -/
def isNumeric (c : Char) : Bool := c.isDigit || c == '-' || c == '+' || c == '.' || c == 'e'

lemma isNumeric_of_isDigit {c : Char} (h : c.isDigit = true) : isNumeric c = true := by
  rw [isNumeric, h]
  rfl

lemma isDigit_of_mem_toDigits {n : Nat} {c : Char} (h : c ∈ Nat.toDigits 10 n) :
    c.isDigit = true :=
  Nat.isDigit_of_mem_toDigits (by decide) (by decide) h

lemma toDigits_injective : Function.Injective (Nat.toDigits 10) := by
  intro m n h
  rw [← Nat.ofDigitChars_ten_toDigits (n := m), h, Nat.ofDigitChars_ten_toDigits]

/-! ## Whole numbers -/

namespace Json

lemma mem_wholeChars {n : Int} {c : Char} (h : c ∈ wholeChars n) : c = '-' ∨ c.isDigit = true := by
  unfold wholeChars at h
  split_ifs at h
  · rcases List.mem_cons.1 h with rfl | h
    · exact .inl rfl
    · exact .inr (isDigit_of_mem_toDigits h)
  · exact .inr (isDigit_of_mem_toDigits h)

lemma isNumeric_of_mem_wholeChars {n : Int} {c : Char} (h : c ∈ wholeChars n) :
    isNumeric c = true := by
  rcases mem_wholeChars h with rfl | hd
  · decide
  · exact isNumeric_of_isDigit hd

lemma wholeChars_ne_nil (n : Int) : wholeChars n ≠ [] := by
  unfold wholeChars
  split_ifs
  · simp
  · exact Nat.toDigits_ne_nil

/-- A whole number is written as in any other text. -/
lemma wholeChars_eq_toString (n : Int) : wholeChars n = (toString n).toList := by
  cases n with
  | ofNat n =>
    have hn : ¬ Int.ofNat n < 0 := by simp
    rw [wholeChars, if_neg hn]
    show Nat.toDigits 10 n = n.repr.toList
    rw [Nat.toList_repr]
  | negSucc n =>
    have hn : Int.negSucc n < 0 := Int.negSucc_lt_zero n
    rw [wholeChars, if_pos hn]
    show '-' :: Nat.toDigits 10 (n + 1) = ("-" ++ (n + 1).repr).toList
    rw [String.toList_append, Nat.toList_repr]
    rfl

lemma wholeChars_injective : Function.Injective wholeChars := by
  have hminus : ∀ m n : Nat, '-' :: Nat.toDigits 10 m ≠ Nat.toDigits 10 n := by
    intro m n h
    have hdigit := isDigit_of_mem_toDigits (h ▸ List.mem_cons_self)
    exact absurd hdigit (by decide)
  intro m n h
  unfold wholeChars at h
  split_ifs at h with hm hn hn
  · have habs := toDigits_injective (List.cons.inj h).2
    omega
  · exact absurd h (hminus _ _)
  · exact absurd h.symm (hminus _ _)
  · have habs := toDigits_injective h
    omega

end Json

/-! ## Floating-point numbers -/

/-- Stripping leaves some of the digits. -/
lemma Decimal.isDigit_of_mem_stripped {digits : Nat} {c : Char} (h : c ∈ (stripped digits).1) :
    c.isDigit = true := by
  have hkept : c ∈ (Nat.toDigits 10 digits).reverse.dropWhile (· == '0') := List.mem_reverse.1 h
  have hall := (List.dropWhile_suffix _).subset hkept
  exact isDigit_of_mem_toDigits (List.mem_reverse.1 hall)

namespace Layout

lemma isNumeric_of_mem_positional {digits : List Char} {leading : Int}
    (hd : ∀ c ∈ digits, c.isDigit = true) :
    ∀ c ∈ positional digits leading, isNumeric c = true := by
  have hzeros : ∀ n, ∀ c ∈ List.replicate n '0', isNumeric c = true := by
    intro n c hc
    rw [List.eq_of_mem_replicate hc]
    decide
  have hdigits : ∀ c ∈ digits, isNumeric c = true := fun c hc => isNumeric_of_isDigit (hd c hc)
  intro c hc
  unfold positional at hc
  dsimp only at hc
  split_ifs at hc
  · simp only [List.mem_cons, List.mem_append] at hc
    rcases hc with rfl | rfl | hc | hc
    · decide
    · decide
    · exact hzeros _ c hc
    · exact hdigits c hc
  · simp only [List.mem_cons, List.mem_append, List.not_mem_nil, or_false] at hc
    rcases hc with (hc | hc) | rfl | rfl
    · exact hdigits c hc
    · exact hzeros _ c hc
    · decide
    · decide
  · simp only [List.mem_cons, List.mem_append] at hc
    rcases hc with hc | rfl | hc
    · exact hdigits c (List.mem_of_mem_take hc)
    · decide
    · exact hdigits c (List.mem_of_mem_drop hc)

lemma isNumeric_of_mem_scientific {layout : Layout}
    (hsign : ∀ c ∈ layout.exponentSign, isNumeric c = true) {digits : List Char} {leading : Int}
    (hd : ∀ c ∈ digits, c.isDigit = true) :
    ∀ c ∈ layout.scientific digits leading, isNumeric c = true := by
  have hexponent : ∀ c ∈ 'e' :: ((if leading < 0 then ['-'] else layout.exponentSign) ++
      Nat.toDigits 10 leading.natAbs), isNumeric c = true := by
    refine List.forall_mem_cons.2 ⟨by decide, List.forall_mem_append.2 ⟨?_, ?_⟩⟩
    · split_ifs
      · exact forall_mem_of_all (by decide)
      · exact hsign
    · exact fun c hc => isNumeric_of_isDigit (isDigit_of_mem_toDigits hc)
  have hdigits : ∀ c ∈ digits, isNumeric c = true := fun c hc => isNumeric_of_isDigit (hd c hc)
  cases digits with
  | nil => exact hexponent
  | cons d rest =>
    obtain ⟨hfirst, hrest⟩ := List.forall_mem_cons.1 hdigits
    cases rest with
    | nil => exact List.forall_mem_cons.2 ⟨hfirst, hexponent⟩
    | cons d' rest =>
      have hpoint : ∀ c ∈ '.' :: d' :: rest, isNumeric c = true :=
        List.forall_mem_cons.2 ⟨by decide, hrest⟩
      exact List.forall_mem_append.2 ⟨List.forall_mem_cons.2 ⟨hfirst, hpoint⟩, hexponent⟩

/-- The text of a floating-point number is a zero, or digits in one of the two notations, behind a
minus if there is one. -/
lemma exists_chars_eq (layout : Layout) (x : Binary64) :
    ∃ sign body, layout.chars x = sign ++ body ∧ (∀ c ∈ sign, c = '-') ∧
      (body = ['0', '.', '0'] ∨ ∃ digits leading, (∀ c ∈ digits, c.isDigit = true) ∧
        (body = positional digits leading ∨ body = layout.scientific digits leading)) := by
  have hsign : ∀ c ∈ (if x.negative then ['-'] else []), c = '-' := by
    intro c hc
    split_ifs at hc
    · exact List.mem_singleton.1 hc
    · cases hc
  generalize hdecimal : x.shortest layout.ties = decimal
  have hdigits : ∀ c ∈ (Decimal.stripped decimal.digits).1, c.isDigit = true :=
    fun c hc => Decimal.isDigit_of_mem_stripped hc
  unfold chars
  rw [hdecimal]
  dsimp only
  generalize decimal.exponent + (Decimal.stripped decimal.digits).2 +
    (Decimal.stripped decimal.digits).1.length - 1 = leading
  by_cases hzero : x.isZero = true
  · rw [if_pos hzero]
    exact ⟨_, _, rfl, hsign, .inl rfl⟩
  · rw [if_neg hzero]
    refine ⟨_, _, rfl, hsign, .inr ⟨_, leading, hdigits, ?_⟩⟩
    split_ifs
    · exact .inl rfl
    · exact .inr rfl

/-- The text of a floating-point number is numeric. -/
lemma isNumeric_of_mem_chars {layout : Layout}
    (hsign : ∀ c ∈ layout.exponentSign, isNumeric c = true) (x : Binary64) :
    ∀ c ∈ layout.chars x, isNumeric c = true := by
  obtain ⟨sign, body, hchars, hminus, hbody⟩ := layout.exists_chars_eq x
  rw [hchars]
  intro c hc
  rcases List.mem_append.1 hc with hc | hc
  · rw [hminus c hc]
    decide
  · rcases hbody with rfl | ⟨digits, leading, hdigits, rfl | rfl⟩
    · have hzero : ∀ c ∈ ['0', '.', '0'], isNumeric c = true := forall_mem_of_all (by decide)
      exact hzero c hc
    · exact isNumeric_of_mem_positional hdigits c hc
    · exact isNumeric_of_mem_scientific hsign hdigits c hc

/-- The text of a floating-point number has a point or an exponent. -/
lemma point_or_exponent_mem (layout : Layout) (x : Binary64) :
    '.' ∈ layout.chars x ∨ 'e' ∈ layout.chars x := by
  obtain ⟨sign, body, hchars, -, hbody⟩ := layout.exists_chars_eq x
  rw [hchars]
  rcases hbody with rfl | ⟨digits, leading, -, rfl | rfl⟩
  · exact .inl (List.mem_append_right _ (by decide))
  · refine .inl (List.mem_append_right _ ?_)
    unfold positional
    dsimp only
    split_ifs <;> simp
  · exact .inr (List.mem_append_right _ (by simp [scientific]))

/-- No floating-point number is written like a whole number. -/
lemma chars_ne_wholeChars (layout : Layout) (x : Binary64) (n : Int) :
    layout.chars x ≠ Json.wholeChars n := by
  intro h
  rcases layout.point_or_exponent_mem x with hm | hm
  all_goals
    rw [h] at hm
    rcases Json.mem_wholeChars hm with hc | hc <;> exact absurd hc (by decide)

end Layout

/-- The texts of some floating-point numbers are different. -/
def TextsDiffer (layout : Layout) (floats : List Binary64) : Prop :=
  ∀ x ∈ floats, ∀ y ∈ floats, layout.text x = layout.text y → x = y

end LayerChain
