import LayerChain.Proofs.Json.Strings
import LayerChain.Json.Decoder

/-!
# Written numbers read back

A number ends where the text goes on with something that no number has: what is scanned of a text
that ends with a number is scanned of any text that goes on so (`Numeral.scanUnsigned_append`). So
it is enough to know how a number by itself is scanned. A whole number of at most 64 bits is
scanned as its digits and has its value (`Numeral.value_ofWhole`). A floating-point number may
come out one step beside itself; `Binary64.ReadsBack` says that it does not.
-/

namespace LayerChain

/-- Whether a floating-point number comes back from its text in a document. -/
def Binary64.ReadsBack (x : Binary64) : Prop :=
  Json.decodeString Json.Decoder.any (Layout.document.text x) = .ok (.float x)

namespace Json

namespace Numeral

/-! ## Texts that go on -/

/-- A text at whose front no number goes on. -/
def Stops (rest : Content) : Prop :=
  ∀ s ∈ rest.head?, digit? s = none ∧ s ≠ .char '.' ∧ s ≠ .char 'e' ∧ s ≠ .char 'E'

lemma stops_nil : Stops [] := by
  intro s hs
  cases hs

variable {cs rest after : Content} {ds : List Nat}

lemma digits_of_stops (hs : Stops rest) : digits rest = ([], rest) := by
  cases rest with
  | nil => rfl
  | cons s tail => rw [digits, (hs s rfl).1]

lemma digits_append (hs : Stops rest) (cs : Content) :
    digits (cs ++ rest) = ((digits cs).1, (digits cs).2 ++ rest) := by
  induction cs with
  | nil => exact digits_of_stops hs
  | cons s tail ih =>
    rw [List.cons_append, digits, digits]
    cases digit? s with
    | none => rfl
    | some d => rw [ih]

lemma someDigits_append (hs : Stops rest) (h : someDigits cs = .ok (ds, after)) :
    someDigits (cs ++ rest) = .ok (ds, after ++ rest) := by
  rw [someDigits, digits_append hs]
  rw [someDigits] at h
  generalize digits cs = found at h ⊢
  obtain ⟨ds', after'⟩ := found
  cases ds' with
  | nil => cases h
  | cons d ds' =>
    cases h
    rfl

lemma scanWhole_append (hs : Stops rest) (h : scanWhole cs = .ok (ds, after)) :
    scanWhole (cs ++ rest) = .ok (ds, after ++ rest) := by
  rw [scanWhole] at h
  cases hd : someDigits cs with
  | error e =>
    rw [hd] at h
    cases h
  | ok found =>
    obtain ⟨ds', after'⟩ := found
    rw [hd] at h
    rw [scanWhole, someDigits_append hs hd]
    split at h
    · cases h
    -- a zero with a digit behind it has them both before the text goes on
    · rename_i hne
      cases h
      split
      · rename_i h'
        cases h'
        exact absurd rfl (hne _ _ _)
      · rfl

lemma scanFraction_append (hs : Stops rest) (h : scanFraction cs = .ok (ds, after)) :
    scanFraction (cs ++ rest) = .ok (ds, after ++ rest) := by
  cases cs with
  | nil =>
    cases h
    cases rest with
    | nil => rfl
    | cons s tail =>
      -- the number ends here, and what goes on is no point
      rw [List.nil_append, scanFraction]
      intro tail' he
      cases he
      exact (hs _ rfl).2.1 rfl
  | cons s tail =>
    by_cases hp : s = .char '.'
    · subst hp
      exact someDigits_append hs h
    · rw [scanFraction] at h
      · cases h
        rw [List.cons_append, scanFraction]
        intro tail' he
        cases he
        exact hp rfl
      · intro tail' he
        cases he
        exact hp rfl

lemma scanSign_append (hne : cs ≠ []) (rest : Content) :
    scanSign (cs ++ rest) = ((scanSign cs).1, (scanSign cs).2 ++ rest) := by
  cases cs with
  | nil => exact absurd rfl hne
  | cons s tail =>
    rw [List.cons_append]
    unfold scanSign
    split
    · rename_i he
      cases he
      rfl
    · rename_i he
      cases he
      rfl
    · rename_i hminus hplus
      split
      · rename_i he
        cases he
        exact absurd rfl (hminus _)
      · rename_i he
        cases he
        exact absurd rfl (hplus _)
      · rfl

lemma scanExponent_append {exponent : Option (Bool × List Nat)} (hs : Stops rest)
    (h : scanExponent cs = .ok (exponent, after)) :
    scanExponent (cs ++ rest) = .ok (exponent, after ++ rest) := by
  cases cs with
  | nil =>
    cases h
    cases rest with
    | nil => rfl
    | cons s tail =>
      -- the number ends here, and what goes on is no exponent
      obtain ⟨-, -, he, hE⟩ := hs s rfl
      rw [List.nil_append, scanExponent, if_neg (by tauto)]
  | cons s tail =>
    rw [scanExponent] at h
    rw [List.cons_append, scanExponent]
    split_ifs at h ⊢ with he
    · have hne : tail ≠ [] := by
        rintro rfl
        cases h
      rw [scanSign_append hne]
      cases hd : someDigits (scanSign tail).2 with
      | error e =>
        rw [hd] at h
        cases h
      | ok found =>
        rw [hd] at h
        cases h
        rw [someDigits_append hs hd]
        rfl
    · cases h
      rfl

/-- An unsigned numeral is scanned in the same way where the text goes on. -/
theorem scanUnsigned_append {negative : Bool} {numeral : Numeral} (hs : Stops rest)
    (h : scanUnsigned negative cs = .ok (numeral, after)) :
    scanUnsigned negative (cs ++ rest) = .ok (numeral, after ++ rest) := by
  simp only [scanUnsigned, bind, Except.bind, pure, Except.pure] at h ⊢
  cases hw : scanWhole cs with
  | error e => simp [hw] at h
  | ok whole =>
    cases hf : scanFraction whole.2 with
    | error e => simp [hw, hf] at h
    | ok fraction =>
      cases he : scanExponent fraction.2 with
      | error e => simp [hw, hf, he] at h
      | ok exponent =>
        simp only [hw, hf, he, Except.ok.injEq, Prod.mk.injEq] at h
        simp only [scanWhole_append hs hw, scanFraction_append hs hf, scanExponent_append hs he]
        rw [h.1, h.2]

/-! ## Digits -/

/-- The values of digits. -/
def digitValues (cs : List Char) : List Nat := cs.map fun c => c.toNat - '0'.toNat

/-- Digits are taken off the front of a text up to something else. -/
lemma digits_chars_append {cs : List Char} (h : ∀ c ∈ cs, c.isDigit) {rest : Content}
    (hrest : digits rest = ([], rest)) : digits (chars cs ++ rest) = (digitValues cs, rest) := by
  induction cs with
  | nil => exact hrest
  | cons c cs ih =>
    have hc : digit? (.char c) = some (c.toNat - '0'.toNat) := by
      rw [digit?, if_pos (h c List.mem_cons_self)]
    have hcs := ih fun c' hc' => h c' (List.mem_cons_of_mem _ hc')
    rw [chars, List.map_cons, List.cons_append, digits, hc]
    dsimp only
    rw [show List.map Symbol.char cs = chars cs from rfl, hcs]
    rfl

lemma digits_nil : digits [] = ([], []) := rfl

lemma someDigits_chars_append {cs : List Char} (hne : cs ≠ []) (h : ∀ c ∈ cs, c.isDigit)
    {rest : Content} (hrest : digits rest = ([], rest)) :
    someDigits (chars cs ++ rest) = .ok (digitValues cs, rest) := by
  obtain _ | ⟨c, cs⟩ := cs
  · exact absurd rfl hne
  · rw [someDigits, digits_chars_append h hrest]
    rfl

/-- Only the digit zero has the value zero. -/
lemma eq_zero_of_isDigit {c : Char} (h : c.isDigit) (hzero : c.toNat - '0'.toNat = 0) :
    c = '0' := by
  rw [Char.isDigit, Bool.and_eq_true, decide_eq_true_eq, decide_eq_true_eq] at h
  have hle : 48 ≤ c.toNat := UInt32.le_iff_toNat_le.1 h.1
  have hcode : c.toNat = '0'.toNat := by
    rw [show '0'.toNat = 48 from rfl] at hzero ⊢
    omega
  exact Char.toNat_inj.1 hcode

/-- Digits are scanned as a whole part, unless a zero stands before others. -/
lemma scanWhole_chars_append {cs : List Char} (hne : cs ≠ []) (h : ∀ c ∈ cs, c.isDigit)
    (hlead : cs = ['0'] ∨ cs.head? ≠ some '0') {rest : Content}
    (hrest : digits rest = ([], rest)) :
    scanWhole (chars cs ++ rest) = .ok (digitValues cs, rest) := by
  rw [scanWhole, someDigits_chars_append hne h hrest]
  split
  · rename_i d ds after heq
    rw [Except.ok.injEq, Prod.mk.injEq] at heq
    obtain ⟨heq, -⟩ := heq
    rcases hlead with rfl | hlead
    · cases heq
    · obtain _ | ⟨c, cs⟩ := cs
      · cases heq
      · rw [eq_zero_of_isDigit (h c List.mem_cons_self) (List.cons.inj heq).1] at hlead
        exact absurd rfl hlead
  · rfl

/-! ## Whole numbers -/

/-- The decimal digits of a natural number. -/
def digitsOf (n : Nat) : List Nat := (Nat.toDigits 10 n).map fun c => c.toNat - '0'.toNat

lemma foldl_digitsOf (n : Nat) : (digitsOf n).foldl (fun m d => m * 10 + d) 0 = n := by
  rw [digitsOf, List.foldl_map]
  have hdigits := @Nat.ofDigitChars_ten_toDigits n
  rw [Nat.ofDigitChars_eq_foldl] at hdigits
  simpa only [Nat.mul_comm 10] using hdigits

/-- How a whole number is spelled when it is written. -/
def ofWhole (n : Int) : Numeral := ⟨n < 0, digitsOf n.natAbs, [], none⟩

/-- The digits of a positive number do not start with a zero. -/
lemma head_toDigits_pos {n : Nat} (hn : 0 < n) :
    ∀ c ∈ (Nat.toDigits 10 n).head?, 0 < c.toNat - '0'.toNat := by
  induction n using Nat.strongRecOn with
  | _ n ih =>
    rw [Nat.toDigits_eq_if (by decide)]
    split_ifs with hlt
    · intro c hc
      obtain rfl : n.digitChar = c := by simpa using hc
      rw [show '0'.toNat = 48 from rfl, Nat.toNat_digitChar_sub_48_of_lt_ten hlt]
      exact hn
    -- the leading digit of a longer number is that of its tenth
    · rw [List.head?_append, Option.or_of_isSome (by simp [Nat.toDigits_ne_nil])]
      exact ih (n / 10) (by omega) (by omega)

/-- The digits of a natural number are scanned as a whole part. -/
lemma scanWhole_toDigits (n : Nat) :
    scanWhole (chars (Nat.toDigits 10 n)) = .ok (digitsOf n, []) := by
  have hdigit : ∀ c ∈ Nat.toDigits 10 n, c.isDigit := fun c hc =>
    Nat.isDigit_of_mem_toDigits (by decide) (by decide) hc
  have hlead : Nat.toDigits 10 n = ['0'] ∨ (Nat.toDigits 10 n).head? ≠ some '0' := by
    rcases Nat.eq_zero_or_pos n with rfl | hn
    · exact .inl rfl
    · exact .inr fun hzero => absurd (head_toDigits_pos hn '0' hzero) (by decide)
  have hscan := scanWhole_chars_append Nat.toDigits_ne_nil hdigit hlead digits_nil
  rwa [List.append_nil] at hscan

/-- A whole number is scanned as it was written. -/
lemma scanUnsigned_toDigits (negative : Bool) (n : Nat) :
    scanUnsigned negative (chars (Nat.toDigits 10 n)) =
      .ok (⟨negative, digitsOf n, [], none⟩, []) := by
  simp only [scanUnsigned, bind, Except.bind, pure, Except.pure, scanWhole_toDigits]
  rfl

/-- Digits are collected completely if their number is in range. -/
lemma collect_of_le {ds : List Nat} {a : Nat}
    (h : ds.foldl (fun m d => m * 10 + d) a ≤ maxSignificand) :
    collect a ds = (ds.foldl (fun m d => m * 10 + d) a, []) := by
  have hmono : ∀ (ds : List Nat) (a : Nat), a ≤ ds.foldl (fun m d => m * 10 + d) a := by
    intro ds
    induction ds with
    | nil => exact fun a => Nat.le_refl a
    | cons d ds ih =>
      intro a
      exact Nat.le_trans (by omega) (ih (a * 10 + d))
  induction ds generalizing a with
  | nil => rfl
  | cons d ds ih =>
    rw [List.foldl_cons] at h ⊢
    rw [collect, if_pos (Nat.le_trans (hmono ds _) h), ih h]

/-- The whole numbers that a document can hold: those of 64 bits, signed or unsigned. -/
def InRange (n : Int) : Prop := -maxNegative ≤ n ∧ n ≤ maxSignificand

/-- A whole number in range is the value of its spelling. -/
theorem value_ofWhole {n : Int} (h : InRange n) : (ofWhole n).value = .ok (.whole n) := by
  have hfold := foldl_digitsOf n.natAbs
  have hle : n.natAbs ≤ maxSignificand := by
    obtain ⟨hlow, hhigh⟩ := h
    have : maxNegative ≤ maxSignificand := by decide
    omega
  have hcollect := collect_of_le (Nat.le_trans (Nat.le_of_eq hfold) hle)
  rw [hfold] at hcollect
  rw [value, ofWhole]
  dsimp only
  rw [hcollect]
  dsimp only
  rw [if_pos ⟨rfl, rfl, rfl⟩]
  by_cases hneg : n < 0
  -- minus zero, and what is below all 64-bit integers, would be floating-point numbers
  · have hlarge : ¬(n.natAbs = 0 ∨ maxNegative < n.natAbs) := by
      have := h.1
      omega
    rw [if_neg (by simp [hneg]), if_neg hlarge]
    congr 2
    omega
  · rw [if_pos (by simp [hneg])]
    congr 2
    omega

end Numeral

end Json

end LayerChain
