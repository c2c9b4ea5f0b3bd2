import LayerChain.Json.Basic
import LayerChain.Number.Decimal

/-!
# Writing JSON

A value is written on one line without any space (`Json.compact`), or with each item and member
on a line of its own, indented by two spaces for each level (`Json.pretty`). Members keep their
order. Neither form ends with a line break.
-/

namespace LayerChain.Json

/-! ## Strings and numbers -/

/-- A hexadecimal digit, in lower case. -/
def hexDigit (n : Nat) : Char := Nat.digitChar n

/-- How one character is written in a string. -/
def escape (c : Char) : List Char :=
  if c = '"' then ['\\', '"']
  else if c = '\\' then ['\\', '\\']
  else if c = '\x08' then ['\\', 'b']
  else if c = '\x0c' then ['\\', 'f']
  else if c = '\n' then ['\\', 'n']
  else if c = '\r' then ['\\', 'r']
  else if c = '\t' then ['\\', 't']
  else if c.toNat < 0x20 then
    ['\\', 'u', '0', '0', hexDigit (c.toNat / 16), hexDigit (c.toNat % 16)]
  else [c]

/-- A string in quotes. -/
def quoted (s : String) : List Char := '"' :: (s.toList.flatMap escape ++ ['"'])

/-- A whole number. -/
def wholeChars (n : Int) : List Char :=
  if n < 0 then '-' :: Nat.toDigits 10 n.natAbs else Nat.toDigits 10 n.natAbs

/-! ## One line -/

mutual

/-- The characters of a value on one line. -/
def compactChars : Json → List Char
  | null => ['n', 'u', 'l', 'l']
  | bool true => ['t', 'r', 'u', 'e']
  | bool false => ['f', 'a', 'l', 's', 'e']
  | whole n => wholeChars n
  | float x => Layout.document.chars x
  | text s => quoted s
  | list items => '[' :: (compactItems items ++ [']'])
  | object members => '\x7b' :: (compactMembers members ++ ['\x7d'])

/-- Items with commas between them. -/
def compactItems : List Json → List Char
  | [] => []
  | [v] => compactChars v
  | v :: rest => compactChars v ++ ',' :: compactItems rest

/-- Members with commas between them. -/
def compactMembers : List (String × Json) → List Char
  | [] => []
  | [(name, v)] => quoted name ++ ':' :: compactChars v
  | (name, v) :: rest => quoted name ++ ':' :: (compactChars v ++ ',' :: compactMembers rest)

end

/-- The text of a value on one line. -/
def compact (v : Json) : String := String.ofList v.compactChars

/-! ## Indented -/

/-- A line break and the indentation of a level. -/
def newline (level : Nat) : List Char := '\n' :: List.replicate (2 * level) ' '

mutual

/-- The characters of a value whose lines are indented for a level. -/
def prettyChars (level : Nat) : Json → List Char
  | list [] => ['[', ']']
  | list (v :: rest) =>
    '[' :: (newline (level + 1) ++ prettyItems (level + 1) (v :: rest) ++ newline level ++ [']'])
  | object [] => ['\x7b', '\x7d']
  | object (m :: rest) =>
    '\x7b' ::
      (newline (level + 1) ++ prettyMembers (level + 1) (m :: rest) ++ newline level ++ ['\x7d'])
  | v => compactChars v

/-- Items on lines of their own. -/
def prettyItems (level : Nat) : List Json → List Char
  | [] => []
  | [v] => prettyChars level v
  | v :: rest => prettyChars level v ++ ',' :: (newline level ++ prettyItems level rest)

/-- Members on lines of their own. -/
def prettyMembers (level : Nat) : List (String × Json) → List Char
  | [] => []
  | [(name, v)] => quoted name ++ ':' :: ' ' :: prettyChars level v
  | (name, v) :: rest =>
    quoted name ++ ':' :: ' ' ::
      (prettyChars level v ++ ',' :: (newline level ++ prettyMembers level rest))

end

/-- The indented text of a value. -/
def pretty (v : Json) : String := String.ofList (v.prettyChars 0)

end LayerChain.Json
