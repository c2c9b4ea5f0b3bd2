import LayerChain.Json.Lexeme
import LayerChain.Json.Printer
import Mathlib.Tactic.Common

/-!
# Written strings read back

`Lexeme.ofString` says how the printer spells a string, piece by piece. Scanning the written text
finds these pieces (`Lexeme.scan_quoted`), and they stand for the string
(`Lexeme.text_ofString`), whatever characters it has.
-/

namespace LayerChain.Json

/-- The content of a list of characters. -/
abbrev chars (cs : List Char) : Content := cs.map .char

/-- How a character is spelled in a written string. -/
def Piece.ofChar (c : Char) : Piece :=
  if c ∈ ['"', '\\', '\x08', '\x0c', '\n', '\r', '\t'] then .escaped c
  else if c.toNat < 0x20 then .unit c.toNat
  else .plain (.char c)

/-- How a string is spelled when it is written. -/
def Lexeme.ofString (s : String) : Lexeme := ⟨s.toList.map Piece.ofChar, none⟩

namespace Lexeme

/-! ## Scanning -/

/-- Scanning goes on behind an escape. -/
lemma scanPieces_escape {cs rest : Content} {piece : Piece} (h : scanEscape cs = .ok (piece, rest)) :
    scanPieces (.char '\\' :: cs) = (piece :: (scanPieces rest).1, (scanPieces rest).2) := by
  rw [scanPieces, if_neg (by decide), if_pos rfl]
  split
  · rename_i hflaw
    rw [h] at hflaw
    cases hflaw
  · rename_i found rest' hfound
    rw [h] at hfound
    cases hfound
    rfl

/-- Scanning goes on behind a symbol that stands for itself. -/
lemma scanPieces_plain {s : Symbol} (hq : s ≠ .char '"') (hb : s ≠ .char '\\')
    (hc : isControl s = false) (rest : Content) :
    scanPieces (s :: rest) = (.plain s :: (scanPieces rest).1, (scanPieces rest).2) := by
  rw [scanPieces, if_neg hq, if_neg hb, hc]
  rfl

lemma hexDigit?_hexDigit {n : Nat} (h : n < 16) : hexDigit? (.char (hexDigit n)) = some n := by
  have hall : ∀ n < 16, hexDigit? (.char (hexDigit n)) = some n := by decide
  exact hall n h

/-- An escape by a letter is read as the character it stands for. -/
lemma scanPieces_letter {letter c : Char} (hl : letter? (.char letter) = some c) (hu : letter ≠ 'u')
    (rest : Content) :
    scanPieces (chars ['\\', letter] ++ rest) =
      (.escaped c :: (scanPieces rest).1, (scanPieces rest).2) := by
  refine scanPieces_escape ?_
  show scanEscape (.char letter :: rest) = _
  unfold scanEscape
  split
  · rename_i h
    cases h
  · rename_i h
    cases h
    exact absurd rfl hu
  · rename_i h
    cases h
    rw [hl]

/-- What is written for a character is scanned as its piece. -/
lemma scanPieces_escaped (c : Char) (rest : Content) :
    scanPieces (chars (escape c) ++ rest) =
      (Piece.ofChar c :: (scanPieces rest).1, (scanPieces rest).2) := by
  by_cases hc : c ∈ ['"', '\\', '\x08', '\x0c', '\n', '\r', '\t']
  · rw [Piece.ofChar, if_pos hc]
    simp only [List.mem_cons, List.not_mem_nil, or_false] at hc
    rcases hc with rfl | rfl | rfl | rfl | rfl | rfl | rfl <;>
      exact scanPieces_letter rfl (by decide) rest
  · rw [Piece.ofChar, if_neg hc]
    simp only [List.mem_cons, List.not_mem_nil, or_false, not_or] at hc
    obtain ⟨hq, hb, hbs, hff, hlf, hcr, htab⟩ := hc
    simp only [escape, hq, hb, hbs, hff, hlf, hcr, htab, if_false]
    split_ifs with hlow
    · refine scanPieces_escape ?_
      have hhigh := hexDigit?_hexDigit (show c.toNat / 16 < 16 by omega)
      have hunit := hexDigit?_hexDigit (show c.toNat % 16 < 16 by omega)
      have hzero : hexDigit? (.char '0') = some 0 := by decide
      have hquad : hexQuad? (chars ['0', '0', hexDigit (c.toNat / 16), hexDigit (c.toNat % 16)] ++
          rest) = some (c.toNat, rest) := by
        simp only [hexQuad?, chars, List.map_cons, List.map_nil, List.cons_append, List.nil_append,
          hzero, hhigh, hunit, bind, Option.bind, pure]
        rw [show ((0 * 16 + 0) * 16 + c.toNat / 16) * 16 + c.toNat % 16 = c.toNat by omega]
      show scanEscape (.char 'u' :: (chars ['0', '0', _, _] ++ rest)) = _
      rw [scanEscape, hquad]
    · refine scanPieces_plain ?_ ?_ ?_ rest
      · simpa using hq
      · simpa using hb
      · simpa [isControl] using hlow

/-- A written string is scanned as its pieces, up to the closing quote. -/
lemma scanPieces_quoted (cs : List Char) (rest : Content) :
    scanPieces (chars (cs.flatMap escape) ++ .char '"' :: rest) =
      (cs.map Piece.ofChar, none, rest) := by
  induction cs with
  | nil => simp [scanPieces]
  | cons c cs ih =>
    rw [List.flatMap_cons, chars, List.map_append, List.append_assoc, scanPieces_escaped, ih]
    rfl

/-- The text after an opening quote is scanned as the string that was written. -/
theorem scan_quoted (s : String) (rest : Content) :
    scan (chars (s.toList.flatMap escape ++ ['"']) ++ rest) = (ofString s, rest) := by
  have hcs : chars (s.toList.flatMap escape ++ ['"']) ++ rest =
      chars (s.toList.flatMap escape) ++ .char '"' :: rest := by simp
  rw [scan, hcs, scanPieces_quoted]
  rfl

/-! ## Meaning -/

lemma symbols_ofChar (cs : List Char) : symbols none (cs.map Piece.ofChar) = .ok (chars cs) := by
  induction cs with
  | nil => rfl
  | cons c cs ih =>
    rw [List.map_cons, Piece.ofChar]
    split_ifs with hc hlow
    · rw [symbols, ih]
      rfl
    · have hlower : isLowHalf c.toNat = false := by
        simp only [isLowHalf, Bool.and_eq_false_iff, decide_eq_false_iff_not]
        omega
      have hupper : isHighHalf c.toNat = false := by
        simp only [isHighHalf, Bool.and_eq_false_iff, decide_eq_false_iff_not]
        omega
      rw [symbols.eq_def]
      dsimp only
      rw [hlower, hupper, ih, Char.ofNat_toNat]
      rfl
    · rw [symbols, ih]
      rfl

/-- The written string stands for the string. -/
@[simp] theorem text_ofString (s : String) : (ofString s).text = .ok s := by
  have ht : Content.text? (chars s.toList) = some s := Content.text?_ofString s
  have hs : symbols (ofString s).flaw (ofString s).pieces = .ok (chars s.toList) :=
    symbols_ofChar s.toList
  simp only [text, hs, bind, Except.bind, ht]
  rfl

end Lexeme

end LayerChain.Json
