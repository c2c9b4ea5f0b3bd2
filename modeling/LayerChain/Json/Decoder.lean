import LayerChain.Json.Basic
import LayerChain.Json.Document

/-!
# Reading values from JSON documents

A `Decoder α` reads a value of type `α` from the tree of a text, or answers the first fault in
the order of the text. It is told how many more lists and objects may be nested here.

* `Decoder.any` reads any value, `Document.skip` passes over one, with fewer checks;
* `Decoder.nat`, `string`, `bool`, `list`, `entries` and `variant` read the common types;
* `Decoder.record` reads a structure from an object of its fields or from a list of them in order;
* `decode` reads a whole text.
-/

namespace LayerChain.Json

/-- Reads a value from a tree, given how many levels may be nested in this place. -/
abbrev Decoder (α : Type) := Nat → Document → Except Fault α

/-- How many levels of lists and objects a text may nest. -/
def maxDepth : Nat := 127

/-! ## What stands in a place -/

namespace Token

/-- What a token is as a value, or the start of one. -/
def found : Token → Except Fault Found
  | openList => .ok .sequence
  | openObject => .ok .map
  | word .null => .ok .null
  | word (.bool b) => .ok (.bool b)
  | brokenWord fault => .error fault
  | number numeral => numeral.value.map fun n =>
    match n with
    | .whole n => .whole n
    | .float x => .float x
  | brokenNumber atEnd => .error (if atEnd then .endInValue else .badNumber)
  | string lexeme => lexeme.text.map .text
  | closeList | closeObject | comma | colon | junk => .error .expectedValue

/-- Passes over a token in the place of a value. -/
def skip : Token → Except Fault Unit
  | openList | openObject | word _ | number _ => .ok ()
  | brokenWord fault => .error fault
  | brokenNumber _ => .error .badNumber
  | string lexeme => lexeme.skip
  | closeList | closeObject | comma | colon | junk => .error .expectedValue

end Token

namespace Document

/-- What stands in the place of a value, judged by its first token. -/
def found (d : Document) : Except Fault Found :=
  match d.head with
  | none => .error .endInValue
  | some token => token.found

/-- The fault of a value that is not of the expected type. -/
def mismatch {α : Type} (d : Document) (expected : String) : Except Fault α := do
  throw (.wrongType (← d.found) expected)

mutual

/-- Passes over a value. Nesting, the range of numbers and the meaning of strings do not count. -/
def skip : Document → Except Fault Unit
  | leaf none => .error .endInValue
  | leaf (some token) => token.skip
  | list items stop => do
    skipItems items
    stop.skipFault
  | object members stop => do
    skipMembers members
    stop.skipFault

/-- Passes over the items of a list. -/
def skipItems : List Document → Except Fault Unit
  | [] => .ok ()
  | d :: rest => do
    skip d
    skipItems rest

/-- Passes over the members of an object. -/
def skipMembers : List (Lexeme × Document) → Except Fault Unit
  | [] => .ok ()
  | (name, d) :: rest => do
    name.skip
    skip d
    skipMembers rest

end

end Document

namespace Decoder

/-- One level deeper, if that is allowed. -/
def enter {α : Type} (depth : Nat) (inside : Nat → Except Fault α) : Except Fault α :=
  match depth with
  | 0 => .error .tooDeep
  | n + 1 => inside n

/-! ## Values of the common types -/

/-- A value that is one token. -/
def scalar : Found → Json
  | .null => .null
  | .bool b => .bool b
  | .whole n => .whole n
  | .float x => .float x
  | .text s => .text s
  | .sequence => .list []
  | .map => .object []

mutual

/-- Any value. The members of objects are sorted by name, and of each name the last one counts. -/
def any (depth : Nat) : Document → Except Fault Json
  | .leaf token => (Document.leaf token).found.map scalar
  | .list items stop => enter depth fun depth => do
    let values ← anyItems depth items
    stop.fault
    return .list values
  | .object members stop => enter depth fun depth => do
    let values ← anyMembers depth members
    stop.fault
    return .object (sortMembers values)

/-- The items of a list of any values. -/
def anyItems (depth : Nat) : List Document → Except Fault (List Json)
  | [] => .ok []
  | d :: rest => do
    let value ← any depth d
    let values ← anyItems depth rest
    return value :: values

/-- The members of an object of any values, in order. -/
def anyMembers (depth : Nat) : List (Lexeme × Document) → Except Fault (List (String × Json))
  | [] => .ok []
  | (name, d) :: rest => do
    let name ← name.text
    let value ← any depth d
    let values ← anyMembers depth rest
    return (name, value) :: values

end

/-- A whole number below a bound, which the message calls by the name of its type. -/
def nat (bound : Nat) (type : String) : Decoder Nat := fun _ d => do
  match ← d.found with
  | .whole n => if 0 ≤ n ∧ n < bound then return n.toNat else throw (.wrongValue (.whole n) type)
  | other => throw (.wrongType other type)

/-- A string. -/
def string : Decoder String := fun _ d => do
  match ← d.found with
  | .text s => return s
  | other => throw (.wrongType other "a string")

/-- A truth value. -/
def bool : Decoder Bool := fun _ d => do
  match ← d.found with
  | .bool b => return b
  | other => throw (.wrongType other "a boolean")

/-- The value `null`. -/
def unit : Decoder Unit := fun _ d => do
  match ← d.found with
  | .null => return ()
  | other => throw (.wrongType other "unit")

/-- A list of values of one type. -/
def list {α : Type} (item : Decoder α) : Decoder (List α) := fun depth d =>
  match d with
  | .list items stop => enter depth fun depth => do
    let values ← items.mapM (item depth)
    stop.fault
    return values
  | d => d.mismatch "a sequence"

/-- The members of an object in order, with values of one type. -/
def entries {α : Type} (value : Decoder α) (expected : String) : Decoder (List (String × α)) :=
  fun depth d =>
    match d with
    | .object members stop => enter depth fun depth => do
      let values ← members.mapM fun (name, d) => do
        let name ← name.text
        return (name, ← value depth d)
      stop.fault
      return values
    | d => d.mismatch expected

/-- One of several names: a string, or an object with that name and the value `null`. -/
def variant {α : Type} (ofName? : String → Option α) (alternatives : List String) : Decoder α :=
  let choose (name : Lexeme) : Except Fault α := do
    let name ← name.text
    match ofName? name with
    | some a => return a
    | none => throw (.unknownVariant name alternatives)
  fun depth d =>
    match d with
    | .leaf none => .error .endInValue
    | .leaf (some (.string name)) => choose name
    | .leaf (some _) | .list _ _ => .error .expectedValue
    | .object ((name, d) :: rest) stop => enter depth fun depth => do
      let a ← choose name
      unit depth d
      match rest, stop with
      | [], .closed => return a
      | [], .textEnds => throw .endInObject
      | _, _ => throw .expectedValue
    | .object [] stop => enter depth fun _ => do
      match stop with
      | .noColon name atEnd =>
        let _ ← choose name
        throw (ObjectStop.colonFault atEnd)
      | .noName _ none => throw .endInObject
      | .noName _ (some _) => throw .nameNotString
      | _ => throw .expectedValue

/-! ## Structures -/

/-- A field of a structure that is read into a draft of type `σ`. -/
structure Field (σ : Type) where
  name : String
  /-- Whether the draft has this field. -/
  isFilled : σ → Bool
  /-- The draft with this field as read. -/
  read : σ → Decoder σ

/-- A field of type `α`, given where the draft keeps it. -/
def Field.slot {σ α : Type} (name : String) (get : σ → Option α) (set : σ → α → σ)
    (value : Decoder α) : Field σ where
  name := name
  isFilled draft := (get draft).isSome
  read draft := fun depth d => (value depth d).map (set draft)

/-- The field of a name, unless the draft has it already. -/
def fieldFor {σ : Type} (fields : List (Field σ)) (draft : σ) (name : String) :
    Except Fault (Option (Field σ)) :=
  match fields.find? fun f => f.name == name with
  | some f => if f.isFilled draft then .error (.duplicateField name) else .ok (some f)
  | none => .ok none

/-- Reads the members of an object into a draft. Members of other names are passed over. -/
def readMembers {σ : Type} (fields : List (Field σ)) (depth : Nat) (draft : σ) :
    List (Lexeme × Document) → Except Fault σ
  | [] => .ok draft
  | (name, d) :: rest => do
    match ← fieldFor fields draft (← name.text) with
    | some f => readMembers fields depth (← f.read draft depth d) rest
    | none =>
      d.skip
      readMembers fields depth draft rest

/-- The fault of an object's stop for a reader of fields. -/
def fieldStop {σ : Type} (fields : List (Field σ)) (draft : σ) (stop : ObjectStop) :
    Except Fault Unit :=
  match stop with
  | .noColon name _ => do
    let _ ← fieldFor fields draft (← name.text)
    stop.fault
  | _ => stop.fault

/-- Reads the items of a list into a draft, one for each field in order. Fields without an item
stay open. -/
def readItems {σ : Type} (depth : Nat) (stop : ListStop) (draft : σ) :
    List (Field σ) → List Document → Except Fault σ
  | [], [] => stop.closeFault.map fun _ => draft
  | [], _ :: _ => .error .trailingCharacters
  | _ :: _, [] => stop.fault.map fun _ => draft
  | f :: fields, d :: items => do
    readItems depth stop (← f.read draft depth d) fields items

/-- A structure. The finish makes it from the draft, or names a missing field through its first
argument. -/
def record {σ α : Type} (name : String) (fields : List (Field σ)) (empty : σ)
    (finish : (String → Fault) → σ → Except Fault α) : Decoder α := fun depth d =>
  let expected := "struct " ++ name
  match d with
  | .object members stop => enter depth fun depth => do
    let draft ← readMembers fields depth empty members
    fieldStop fields draft stop
    finish .missingField draft
  | .list items stop => enter depth fun depth => do
    let draft ← readItems depth stop empty fields items
    finish (fun _ => .wrongLength items.length s!"{expected} with {fields.length} elements") draft
  | d => d.mismatch expected

end Decoder

/-- The value of a draft's field, or the fault for its absence. -/
def required {α : Type} (missing : String → Fault) (name : String) : Option α → Except Fault α
  | some a => .ok a
  | none => .error (missing name)

/-- Reads a whole text. -/
def decode {α : Type} (decoder : Decoder α) (content : Content) : Except Fault α := do
  let (document, rest) := Document.ofTokens (Token.scan content)
  -- a fault in the value comes before any text that is left over
  let value ← decoder maxDepth document
  if rest.isEmpty then return value else throw .trailingCharacters

/-- Reads a whole text that is given as a string. -/
def decodeString {α : Type} (decoder : Decoder α) (text : String) : Except Fault α :=
  decode decoder (Content.ofString text)

end LayerChain.Json
