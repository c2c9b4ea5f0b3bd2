import LayerChain.Json.Fault
import LayerChain.Text.Symbol

/-!
# JSON strings

A `Lexeme` is a string as it is spelled: its pieces up to the closing quote, or up to the flaw at
which the string cannot go on. `Lexeme.scan` splits it off the front of a text, and `Lexeme.text`
is the text it stands for.

Where a value is skipped only the flaw counts (`Lexeme.skip`). Where it is read, surrogate escapes
must come in pairs and the bytes must spell characters, too, and of several faults the first in
the text is reported.
-/

namespace LayerChain.Json

/-- A piece of a string. -/
inductive Piece where
  /-- A symbol that stands for itself. -/
  | plain (s : Symbol)
  /-- A character named by a letter after a backslash. -/
  | escaped (c : Char)
  /-- A number of four hexadecimal digits: a character, or one half of a surrogate pair. -/
  | unit (n : Nat)
deriving DecidableEq

/-- Why a string is not complete. -/
inductive Flaw where
  /-- The text ends. -/
  | ends
  /-- A control character. -/
  | control
  /-- A backslash before something that has no escape. -/
  | letter
  /-- Something else where four hexadecimal digits are due. -/
  | hex
deriving DecidableEq

/-- A string as it is spelled. -/
structure Lexeme where
  pieces : List Piece
  flaw : Option Flaw
deriving DecidableEq

namespace Flaw

/-- The fault that a flaw is by itself. -/
def fault : Flaw → Fault
  | ends => .endInString
  | control => .controlCharacter
  | letter => .badEscape
  | hex => .badEscape

end Flaw

namespace Lexeme

/-! ## Spelling -/

/-- The character that a letter after a backslash stands for. -/
def letter? : Symbol → Option Char
  | .char '"' => some '"'
  | .char '\\' => some '\\'
  | .char '/' => some '/'
  | .char 'b' => some '\x08'
  | .char 'f' => some '\x0c'
  | .char 'n' => some '\n'
  | .char 'r' => some '\r'
  | .char 't' => some '\t'
  | _ => none

/-- The value of a hexadecimal digit. -/
def hexDigit? : Symbol → Option Nat
  | .char c =>
    if c.isDigit then some (c.toNat - '0'.toNat)
    else if 'a' ≤ c ∧ c ≤ 'f' then some (c.toNat - 'a'.toNat + 10)
    else if 'A' ≤ c ∧ c ≤ 'F' then some (c.toNat - 'A'.toNat + 10)
    else none
  | .stray _ => none

/-- The number that four hexadecimal digits spell. -/
def hexQuad? : Content → Option (Nat × Content)
  | a :: b :: c :: d :: rest => do
    let a ← hexDigit? a
    let b ← hexDigit? b
    let c ← hexDigit? c
    let d ← hexDigit? d
    return (((a * 16 + b) * 16 + c) * 16 + d, rest)
  | _ => none

/-- What a backslash and the text after it stand for. A text with fewer than four bytes left
cannot hold the four digits of a number. -/
def scanEscape : Content → Except Flaw (Piece × Content)
  | [] => .error .ends
  | .char 'u' :: rest =>
    match hexQuad? rest with
    | some (n, rest') => .ok (.unit n, rest')
    | none => .error (if rest.foldl (fun n s => n + s.byteCount) 0 < 4 then .ends else .hex)
  | s :: rest =>
    match letter? s with
    | some c => .ok (.escaped c, rest)
    | none => .error .letter

theorem length_of_hexQuad? {cs rest : Content} {n : Nat} (h : hexQuad? cs = some (n, rest)) :
    rest.length < cs.length := by
  match cs with
  | [] | [_] | [_, _] | [_, _, _] => simp [hexQuad?] at h
  | a :: b :: c :: d :: tail =>
    simp only [hexQuad?, bind, Option.bind_eq_some_iff, pure, Option.some.injEq,
      Prod.mk.injEq] at h
    obtain ⟨_, _, _, _, _, _, _, _, _, rfl⟩ := h
    simp only [List.length_cons]
    omega

theorem length_of_scanEscape {cs rest : Content} {p : Piece}
    (h : scanEscape cs = .ok (p, rest)) : rest.length < cs.length := by
  unfold scanEscape at h
  split at h
  · simp at h
  · split at h
    · rename_i hq
      simp only [Except.ok.injEq, Prod.mk.injEq] at h
      obtain ⟨_, rfl⟩ := h
      have := length_of_hexQuad? hq
      simp only [List.length_cons]
      omega
    · simp at h
  · split at h
    · simp only [Except.ok.injEq, Prod.mk.injEq] at h
      obtain ⟨_, rfl⟩ := h
      simp
    · simp at h

/-- Whether a symbol is a control character, which a string holds only escaped. -/
def isControl : Symbol → Bool
  | .char c => c.toNat < 0x20
  | .stray _ => false

/-- The pieces of a string whose opening quote has been read, its flaw, and the rest of the
text. -/
def scanPieces : Content → List Piece × Option Flaw × Content
  | [] => ([], some .ends, [])
  | s :: rest =>
    if s = .char '"' then ([], none, rest)
    else if s = .char '\\' then
      match _h : scanEscape rest with
      | .error flaw => ([], some flaw, [])
      | .ok (piece, rest') =>
        let after := scanPieces rest'
        (piece :: after.1, after.2)
    else if isControl s then ([], some .control, [])
    else
      let after := scanPieces rest
      (.plain s :: after.1, after.2)
termination_by cs => cs.length
decreasing_by
  · have := length_of_scanEscape _h
    simp only [List.length_cons]
    omega
  · simp

theorem length_scanPieces_le (cs : Content) : (scanPieces cs).2.2.length ≤ cs.length := by
  fun_induction scanPieces cs with
  | case1 | case2 | case3 | case5 => simp
  | case4 _ _ _ h after _ ih =>
    have := length_of_scanEscape h
    simp only [List.length_cons, after]
    omega
  | case6 _ _ _ _ _ after ih =>
    simp only [List.length_cons, after]
    omega

/-- Splits a string, whose opening quote has been read, off the front of a text. -/
def scan (cs : Content) : Lexeme × Content :=
  let (pieces, flaw, rest) := scanPieces cs
  (⟨pieces, flaw⟩, rest)

theorem length_scan_le (cs : Content) : (scan cs).2.length ≤ cs.length :=
  length_scanPieces_le cs

/-! ## Meaning -/

/-- Whether a number is the first half of a surrogate pair. -/
def isHighHalf (n : Nat) : Bool := 0xD800 ≤ n && n ≤ 0xDBFF

/-- Whether a number is the second half of a surrogate pair. -/
def isLowHalf (n : Nat) : Bool := 0xDC00 ≤ n && n ≤ 0xDFFF

/-- The character that a surrogate pair stands for. -/
def pairChar (high low : Nat) : Char :=
  Char.ofNat (0x10000 + (high - 0xD800) * 0x400 + (low - 0xDC00))

/-- The fault of a string that stops after the first half of a surrogate pair. -/
def unpairedFault : Option Flaw → Fault
  | some .ends => .endInString
  | some .hex => .badEscape
  | _ => .pairUnfinished

/-- The symbols that the pieces of a string stand for. -/
def symbols (flaw : Option Flaw) : List Piece → Except Fault Content
  | [] =>
    match flaw with
    | none => .ok []
    | some f => .error f.fault
  | .plain s :: rest => (symbols flaw rest).map (s :: ·)
  | .escaped c :: rest => (symbols flaw rest).map (.char c :: ·)
  | .unit n :: rest =>
    if isLowHalf n then .error .loneSurrogate
    else if isHighHalf n then
      match rest with
      -- what ends the string also stands where the second half is due
      | [] => .error (unpairedFault flaw)
      | .unit m :: rest' =>
        if isLowHalf m then (symbols flaw rest').map (.char (pairChar n m) :: ·)
        else .error .loneSurrogate
      | _ :: _ => .error .pairUnfinished
    else (symbols flaw rest).map (.char (Char.ofNat n) :: ·)

/-- The text that a string stands for. -/
def text (lexeme : Lexeme) : Except Fault String := do
  let content ← symbols lexeme.flaw lexeme.pieces
  match Content.text? content with
  | some text => return text
  | none => throw .badCodePoint

/-- Passes over a string. -/
def skip (lexeme : Lexeme) : Except Fault Unit :=
  match lexeme.flaw with
  | none => .ok ()
  | some f => .error f.fault

end Lexeme

end LayerChain.Json
