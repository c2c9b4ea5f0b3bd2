import LayerChain.Proofs.Json.Numerals
import LayerChain.Proofs.Number.Spelling

/-!
# Written floating-point numbers

A spelling is scanned as the numeral of its digits (`Numeral.scanUnsigned_spelling`). What a document
spells for a floating-point number fits the significand of a numeral, and its exponent fits an
integer, so nothing of it is dropped: the numeral has the value that is composed of the written
decimal (`Binary64.value_numeral`). This is the number that comes back, `Binary64.reread`.
-/

namespace LayerChain

namespace Json

namespace Numeral

/-! ## Scanning a spelling -/

/-- How a spelling is scanned. -/
def ofSpelling (negative : Bool) (s : Spelling) : Numeral :=
  ⟨negative, digitValues s.whole, digitValues s.fraction,
    s.exponent.map fun e => (decide (e < 0), digitsOf e.natAbs)⟩

/-- An exponent starts with no digit. -/
lemma digits_exponentChars (plus : List Char) (e : Option Int) :
    digits (chars (Spelling.exponentChars plus e)) =
      ([], chars (Spelling.exponentChars plus e)) := by
  cases e <;> rfl

lemma scanFraction_spelling {fraction : List Char} (h : ∀ c ∈ fraction, c.isDigit)
    (plus : List Char) (e : Option Int) :
    scanFraction (chars ((if fraction = [] then [] else '.' :: fraction) ++
      Spelling.exponentChars plus e)) =
        .ok (digitValues fraction, chars (Spelling.exponentChars plus e)) := by
  -- a point stands only before further digits
  by_cases hne : fraction = []
  · rw [if_pos hne, hne, List.nil_append]
    cases e <;> rfl
  · rw [if_neg hne, List.cons_append, chars, List.map_cons, List.map_append, scanFraction]
    exact someDigits_chars_append hne h (digits_exponentChars plus e)

lemma scanSign_of_isDigit {cs : List Char} (h : ∀ c ∈ cs, c.isDigit) :
    scanSign (chars cs) = (false, chars cs) := by
  obtain _ | ⟨c, cs⟩ := cs
  · rfl
  · have hc := h c List.mem_cons_self
    rw [chars, List.map_cons]
    unfold scanSign
    split
    · rename_i he
      obtain rfl := Symbol.char.inj (List.cons.inj he).1
      exact absurd hc (by decide)
    · rename_i he
      obtain rfl := Symbol.char.inj (List.cons.inj he).1
      exact absurd hc (by decide)
    · rfl

lemma scanExponent_exponentChars {plus : List Char} (hplus : plus = [] ∨ plus = ['+'])
    (e : Option Int) :
    scanExponent (chars (Spelling.exponentChars plus e)) =
      .ok (e.map fun e => (decide (e < 0), digitsOf e.natAbs), []) := by
  cases e with
  | none => rfl
  | some e =>
    have hdigit : ∀ c ∈ Nat.toDigits 10 e.natAbs, c.isDigit := fun c hc =>
      Nat.isDigit_of_mem_toDigits (by decide) (by decide) hc
    have hsign : scanSign (chars ((if e < 0 then ['-'] else plus) ++ Nat.toDigits 10 e.natAbs)) =
        (decide (e < 0), chars (Nat.toDigits 10 e.natAbs)) := by
      split_ifs with hneg
      · rw [decide_eq_true hneg]
        rfl
      · rw [decide_eq_false hneg]
        rcases hplus with rfl | rfl
        · exact scanSign_of_isDigit hdigit
        · rfl
    have hdigits := someDigits_chars_append Nat.toDigits_ne_nil hdigit digits_nil
    rw [List.append_nil] at hdigits
    rw [Spelling.exponentChars, chars, List.map_cons, scanExponent, if_pos (.inl rfl)]
    rw [show List.map Symbol.char _ = chars _ from rfl, hsign]
    dsimp only
    rw [hdigits]
    rfl

/-- A spelling is scanned as its digits. -/
theorem scanUnsigned_spelling {s : Spelling} (h : s.WellFormed) (negative : Bool)
    {plus : List Char} (hplus : plus = [] ∨ plus = ['+']) :
    scanUnsigned negative (chars (s.chars plus)) = .ok (ofSpelling negative s, []) := by
  obtain ⟨hwhole, hfraction⟩ := List.forall_mem_append.1 h.isDigit
  have hrest : digits (chars ((if s.fraction = [] then [] else '.' :: s.fraction) ++
      Spelling.exponentChars plus s.exponent)) = ([], chars ((if s.fraction = [] then [] else
        '.' :: s.fraction) ++ Spelling.exponentChars plus s.exponent)) := by
    split_ifs
    · exact digits_exponentChars plus s.exponent
    · rfl
  have hscan := scanWhole_chars_append h.whole_ne_nil hwhole h.leading hrest
  rw [← List.map_append] at hscan
  rw [Spelling.chars, scanUnsigned, hscan]
  simp only [bind, Except.bind, pure, Except.pure, scanFraction_spelling hfraction,
    scanExponent_exponentChars hplus]
  rfl

/-! ## Its value -/

lemma collect_digitValues {cs : List Char} {a : Nat}
    (h : cs.foldl (fun n c => 10 * n + (c.toNat - '0'.toNat)) a ≤ maxSignificand) :
    collect a (digitValues cs) = (cs.foldl (fun n c => 10 * n + (c.toNat - '0'.toNat)) a, []) := by
  have hfold : (digitValues cs).foldl (fun m d => m * 10 + d) a =
      cs.foldl (fun n c => 10 * n + (c.toNat - '0'.toNat)) a := by
    rw [digitValues, List.foldl_map]
    simp only [Nat.mul_comm 10]
  rw [collect_of_le (by rwa [hfold]), hfold]

lemma exponentValue_digitsOf {e : Int} (h : e.natAbs ≤ maxExponent) :
    exponentValue (decide (e < 0)) (digitsOf e.natAbs) = some e := by
  rw [exponentValue, foldl_digitsOf, if_pos h]
  by_cases hneg : e < 0
  · rw [if_pos (decide_eq_true hneg)]
    congr 1
    omega
  · rw [if_neg (by simpa using hneg)]
    congr 1
    omega

/-- A spelling that is not too long has the value that is composed of its decimal. -/
theorem value_ofSpelling {s : Spelling} (h : s.WellFormed) (negative : Bool)
    (hdigits : s.decimal.digits ≤ maxSignificand)
    (hexponent : ∀ e ∈ s.exponent, e.natAbs ≤ maxExponent) :
    (ofSpelling negative s).value =
      (compose negative s.decimal.digits s.decimal.exponent).map .float := by
  have hfull : s.fraction.foldl (fun n c => 10 * n + (c.toNat - '0'.toNat))
      (Literal.digitsValue s.whole) = s.decimal.digits := List.foldl_append.symm
  have hmono : Literal.digitsValue s.whole ≤ s.decimal.digits := by
    rw [Spelling.decimal, Literal.digitsValue_append]
    exact (Nat.le_mul_of_pos_right _ (Nat.pow_pos (Nat.succ_pos 9))).trans (Nat.le_add_right _ _)
  -- no digit is cut off, neither before the point nor behind it
  have hwhole : collect 0 (digitValues s.whole) = (Literal.digitsValue s.whole, []) :=
    collect_digitValues (hmono.trans hdigits)
  have hfraction := collect_digitValues (hfull.trans_le hdigits)
  rw [hfull] at hfraction
  have hmarked : ¬ (([] : List Nat) = [] ∧ digitValues s.fraction = [] ∧
      (s.exponent.map fun e => (decide (e < 0), digitsOf e.natAbs)) = none) := by
    rintro ⟨-, hnil, hnone⟩
    exact h.marked.elim (fun hne => hne (List.map_eq_nil_iff.1 hnil))
      fun hne => hne (Option.map_eq_none_iff.1 hnone)
  -- so the digits behind the point are all that the exponent has to make up for
  have hdue : (([] : List Nat).length : Int) -
      (((digitValues s.fraction).length - ([] : List Nat).length : Nat) : Int) =
        -(s.fraction.length : Int) := by
    rw [digitValues, List.length_map, List.length_nil]
    omega
  rw [value, ofSpelling]
  dsimp only
  rw [hwhole]
  dsimp only
  rw [if_neg hmarked, hfraction]
  dsimp only
  rw [hdue]
  congr 1
  cases hcases : s.exponent with
  | none =>
    rw [Spelling.decimal, hcases, Option.getD_none, Option.map_none, valueFrom, Int.zero_sub]
  | some e =>
    rw [Spelling.decimal, hcases, Option.getD_some, Option.map_some, valueFrom,
      exponentValue_digitsOf (hexponent e hcases)]
    dsimp only
    rw [neg_add_eq_sub]

end Numeral

end Json

namespace Binary64

/-! ## Numbers in documents -/

/-- The numeral that a floating-point number is written as. -/
def numeral (x : Binary64) : Json.Numeral := .ofSpelling x.negative (Layout.document.spelling x)

/-- The number that is read where a floating-point number was written: its written digits as one
rounded significand, times or divided by a rounded power of ten. -/
def reread (x : Binary64) : Except Json.Fault Binary64 :=
  let decimal := (Layout.document.spelling x).decimal
  Json.Numeral.compose x.negative decimal.digits decimal.exponent

/-- The numeral of a number stands for the number that is read. -/
theorem value_numeral (x : Binary64) : x.numeral.value = x.reread.map .float := by
  have hdigits := Layout.digits_spelling_le Layout.document (by decide) x
  refine Json.Numeral.value_ofSpelling (Layout.wellFormed_spelling _ x) _
    (hdigits.trans (by decide)) fun e he => ?_
  exact (Layout.exponent_spelling_le Layout.document x e he).trans (by decide)

end Binary64

end LayerChain
