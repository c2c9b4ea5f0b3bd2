import LayerChain.Error
import LayerChain.Json.Decoder
import LayerChain.Json.Printer
import LayerChain.Number.Literal
import LayerChain.Text.Blank

/-!
# Setting values

The value of a layer's setting: a truth value, a 64-bit integer, a floating-point number, a choice
out of alternatives that the program does not know, or `auto`, which leaves the value open.

* `ofLiteral` reads a value as a user types it, `display` writes it so;
* `toJson` and `decoder` are its form in documents, where `auto` is `null`.
-/

namespace LayerChain

/-- The value of a setting. -/
inductive SettingValue where
  | bool (b : Bool)
  | int (n : Int64)
  | float (x : Binary64)
  | choice (s : String)
  | auto
deriving DecidableEq

namespace SettingValue

/-- Equality of values; floating-point numbers are compared numerically, and an integer never
equals a floating-point number. -/
def equal : SettingValue → SettingValue → Bool
  | float x, float y => x.equal y
  | v, w => v == w

/-- The integer, if the value is one. -/
def int? : SettingValue → Option Int64
  | int n => some n
  | _ => none

/-- The choice, if the value is one. -/
def choice? : SettingValue → Option String
  | choice s => some s
  | _ => none

/-- Whether the value is left open. -/
def isAuto : SettingValue → Bool
  | auto => true
  | _ => false

/-! ## As typed by a user -/

/-- Reads a value as typed. Blanks at the ends do not count; what is neither a word with a
meaning nor a number is a choice. An empty literal and a number that is not finite are no
values. -/
def ofLiteral (literal : String) : Except Error SettingValue :=
  let chars := trimBlanks literal.toList
  let word := String.ofList chars
  if chars = [] then .error (.invalidLiteral literal)
  else if word = "true" then .ok (bool true)
  else if word = "false" then .ok (bool false)
  else if word = "auto" ∨ word = "null" then .ok auto
  else
    match Literal.int64? chars with
    | some n => .ok (int n)
    | none =>
      match Literal.readReal chars with
      | .finite x => .ok (float x)
      | .nonfinite => .error (.invalidLiteral literal)
      | .notANumber => .ok (choice word)

/-- Writes a value the way a user types it. -/
def display : SettingValue → String
  | bool b => if b then "true" else "false"
  | int n => toString n.toInt
  | float x => Layout.literal.text x
  | choice s => s
  | auto => "auto"

/-- Reads an assignment `key=value`. The first `=` ends the key, which must not be blank. -/
def ofAssignment (assignment : String) : Except Error (String × SettingValue) :=
  let chars := assignment.toList
  let key := trimBlanks (chars.takeWhile (· != '='))
  match chars.dropWhile (· != '=') with
  | '=' :: value =>
    if key = [] then .error (.invalidLiteral assignment)
    else (ofLiteral (String.ofList value)).map fun v => (String.ofList key, v)
  | _ => .error (.invalidLiteral assignment)

/-! ## In documents -/

/-- The form of a value in documents. -/
def toJson : SettingValue → Json
  | bool b => .bool b
  | int n => .whole n.toInt
  | float x => .float x
  | choice s => .text s
  | auto => .null

/-- The value with a form in documents. A whole number that is no 64-bit integer is a
floating-point number; lists and objects are no values. -/
def ofJson? : Json → Option SettingValue
  | .null => some auto
  | .bool b => some (bool b)
  | .whole n =>
    if Int64.minValue.toInt ≤ n ∧ n ≤ Int64.maxValue.toInt then some (int (Int64.ofInt n))
    else (Binary64.ofRatio (n < 0) n.natAbs 1).map float
  | .float x => some (float x)
  | .text s => some (choice s)
  | .list _ | .object _ => none

/-- Reads a value from a document. -/
def decoder : Json.Decoder SettingValue := fun depth d => do
  match ofJson? (← Json.Decoder.any depth d) with
  | some v => return v
  | none => throw (.noVariant "SettingValue")

end SettingValue

end LayerChain
