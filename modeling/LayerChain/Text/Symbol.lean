/-!
# File contents as symbols

A file is a sequence of bytes. It is read here as a sequence of symbols: the characters that its
bytes spell in UTF-8, and, where they spell none, the stray bytes one by one. A content without
stray bytes is a text.
-/

namespace LayerChain

/-- A character, or a byte that belongs to no character. -/
inductive Symbol where
  | char (c : Char)
  | stray (byte : UInt8)
deriving DecidableEq

/-- The content of a file. -/
abbrev Content := List Symbol

namespace Symbol

/-- How many bytes a symbol takes. -/
def byteCount : Symbol → Nat
  | char c => c.utf8Size
  | stray _ => 1

/-- The bytes of a symbol. -/
def bytes : Symbol → List UInt8
  | char c => String.utf8EncodeChar c
  | stray b => [b]

/-- Whether a byte continues a character whose lead byte came before. -/
def isTail (b : UInt8) : Bool := 0x80 ≤ b && b ≤ 0xBF

/-- The value of a lead byte's low bits followed by the low six bits of each tail byte. -/
def codePoint (lead : Nat) (tail : List UInt8) : Nat :=
  tail.foldl (fun n b => n * 64 + (b.toNat - 0x80)) lead

/-- The character that starts a sequence of bytes, with the number of bytes after the first that
belong to it. The ranges of the second byte exclude overlong forms, surrogates and values beyond
the last code point. -/
def leadingChar? (first : UInt8) (rest : List UInt8) : Option (Char × Nat) :=
  let secondIn (low high : UInt8) : Bool := rest.head?.any fun b => low ≤ b && b ≤ high
  let tail (n : Nat) : Bool := (rest.take n).length == n && (rest.take n).all isTail
  let char (low n : Nat) : Option (Char × Nat) :=
    some (Char.ofNat (codePoint (first.toNat - low) (rest.take n)), n)
  if first ≤ 0x7F then char 0 0
  else if 0xC2 ≤ first && first ≤ 0xDF && tail 1 then char 0xC0 1
  else if 0xE0 ≤ first && first ≤ 0xEF && tail 2 &&
      (first != 0xE0 || secondIn 0xA0 0xBF) && (first != 0xED || secondIn 0x80 0x9F) then
    char 0xE0 2
  else if 0xF0 ≤ first && first ≤ 0xF4 && tail 3 &&
      (first != 0xF0 || secondIn 0x90 0xBF) && (first != 0xF4 || secondIn 0x80 0x8F) then
    char 0xF0 3
  else none

/-- The symbols that a sequence of bytes spells. -/
def ofBytes : List UInt8 → Content
  | [] => []
  | first :: rest =>
    match leadingChar? first rest with
    | some (c, n) => char c :: ofBytes (rest.drop n)
    | none => stray first :: ofBytes rest
termination_by bytes => bytes.length
decreasing_by
  · simp only [List.length_drop, List.length_cons]; omega
  · simp

end Symbol

namespace Content

/-- The content that spells a text. -/
def ofString (text : String) : Content := text.toList.map .char

/-- The characters of a content, if it has no stray bytes. -/
def chars? : Content → Option (List Char)
  | [] => some []
  | .char c :: rest => (chars? rest).map (c :: ·)
  | .stray _ :: _ => none

/-- The text that a content spells, if it has no stray bytes. -/
def text? (content : Content) : Option String := (chars? content).map String.ofList

theorem chars?_map_char (cs : List Char) : chars? (cs.map .char) = some cs := by
  induction cs with
  | nil => rfl
  | cons c cs ih => simp [chars?, ih]

/-- A written text reads back. -/
@[simp] theorem text?_ofString (text : String) : text? (ofString text) = some text := by
  simp [text?, ofString, chars?_map_char]

end Content

end LayerChain
