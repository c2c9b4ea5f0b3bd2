import LayerChain.Json.Lexeme
import LayerChain.Json.Numeral

/-!
# JSON tokens

`Token.scan` cuts a text into tokens and drops the space between them. A token that is malformed
is the last one: it keeps its cause, which counts only for a reader that gets as far as that
token. So a fault of the spelling never hides a fault that comes before it in the text.
-/

namespace LayerChain.Json

/-- A literal word. -/
inductive Word where
  | null
  | bool (b : Bool)
deriving DecidableEq

/-- A token of a JSON text. -/
inductive Token where
  | openList
  | closeList
  | openObject
  | closeObject
  | comma
  | colon
  | word (w : Word)
  /-- A word that starts like a literal word; its fault. -/
  | brokenWord (fault : Fault)
  | number (n : Numeral)
  /-- A malformed number: whether the text ends where a digit is missing. -/
  | brokenNumber (atEnd : Bool)
  | string (lexeme : Lexeme)
  /-- Anything else. -/
  | junk
deriving DecidableEq

namespace Token

/-- Whether a symbol is space between tokens. -/
def isSpace (s : Symbol) : Bool :=
  s == .char ' ' || s == .char '\n' || s == .char '\t' || s == .char '\r'

/-- The token that a single character is. -/
def mark? : Symbol → Option Token
  | .char '[' => some openList
  | .char ']' => some closeList
  | .char '{' => some openObject
  | .char '}' => some closeObject
  | .char ',' => some comma
  | .char ':' => some colon
  | _ => none

/-- The literal word that starts with a character, and its further characters. -/
def wordAt? : Symbol → Option (Word × List Char)
  | .char 'n' => some (.null, ['u', 'l', 'l'])
  | .char 't' => some (.bool true, ['r', 'u', 'e'])
  | .char 'f' => some (.bool false, ['a', 'l', 's', 'e'])
  | _ => none

/-- The rest of a text after the given characters, or the fault where it differs from them. -/
def expect : List Char → Content → Except Fault Content
  | [], cs => .ok cs
  | _ :: _, [] => .error .endInValue
  | c :: cs, s :: rest => if s = .char c then expect cs rest else .error .expectedWord

theorem length_of_expect {word : List Char} {cs rest : Content}
    (h : expect word cs = .ok rest) : rest.length ≤ cs.length := by
  induction word generalizing cs with
  | nil =>
    simp only [expect, Except.ok.injEq] at h
    simp [h]
  | cons c word ih =>
    cases cs with
    | nil => simp [expect] at h
    | cons s tail =>
      simp only [expect] at h
      split at h
      · have := ih h
        simp only [List.length_cons]
        omega
      · simp at h

/-- A number, given its first symbol: the token and the rest of the text. -/
def scanNumber (s : Symbol) (rest : Content) : Token × Content :=
  let scanned :=
    if s = .char '-' then Numeral.scanUnsigned true rest
    else Numeral.scanUnsigned false (s :: rest)
  match scanned with
  | .ok (numeral, after) => (number numeral, after)
  | .error atEnd => (brokenNumber atEnd, [])

/-- The token that starts with a symbol, and the rest of the text. -/
def scanOne (s : Symbol) (rest : Content) : Token × Content :=
  match mark? s with
  | some token => (token, rest)
  | none =>
    match wordAt? s with
    | some (w, letters) =>
      match expect letters rest with
      | .ok after => (word w, after)
      | .error fault => (brokenWord fault, [])
    | none =>
      if s = .char '"' then
        let scanned := Lexeme.scan rest
        (string scanned.1, scanned.2)
      else if s = .char '-' ∨ (Numeral.digit? s).isSome then scanNumber s rest
      else (junk, [])

theorem length_scanNumber_le (s : Symbol) (rest : Content) :
    (scanNumber s rest).2.length ≤ rest.length := by
  unfold scanNumber
  split <;> dsimp only <;> split
  · exact Nat.le_of_lt (Numeral.length_of_scanUnsigned ‹_›)
  · simp
  · exact Nat.le_of_lt_succ (Numeral.length_of_scanUnsigned ‹_›)
  · simp

theorem length_scanOne_le (s : Symbol) (rest : Content) :
    (scanOne s rest).2.length ≤ rest.length := by
  unfold scanOne
  split
  · simp
  · split
    · split
      · exact length_of_expect ‹_›
      · simp
    · split
      · exact Lexeme.length_scan_le rest
      · split
        · exact length_scanNumber_le s rest
        · simp

/-- The tokens of a text. -/
def scan : Content → List Token
  | [] => []
  | s :: rest =>
    if isSpace s then scan rest
    else
      -- after a malformed token the rest is empty, and the scan ends
      let next := scanOne s rest
      next.1 :: scan next.2
termination_by cs => cs.length
decreasing_by
  · simp
  · have := length_scanOne_le s rest
    simp only [List.length_cons]
    omega

end Token

end LayerChain.Json
