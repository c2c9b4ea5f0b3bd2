import LayerChain.Json.Token

/-!
# JSON documents

A `Document` is the tree of a JSON text as far as the text makes sense. Where it stops doing so
the tree has a break: a leaf that is no value, or a list or an object with a stop other than
`closed`. Breaks are no faults yet: what is wrong depends on who reads the tree, and a reader
that finds a value of the wrong kind before the break never gets to it.

* `Document.ofTokens` builds the tree in one pass over the tokens; after a break it reads no
  further;
* `ListStop.fault` and `ObjectStop.fault` say what a break is for a reader of values, and
  `ListStop.skipFault` and `ObjectStop.skipFault` what it is where a value is only passed over.
-/

namespace LayerChain.Json

/-- How a list ends. -/
inductive ListStop where
  | closed
  /-- The text ends after an item. -/
  | textEnds
  /-- Something else than a comma or the end follows an item. -/
  | noComma
  /-- The end of the list follows a comma. -/
  | trailingComma
deriving DecidableEq

/-- How an object ends. -/
inductive ObjectStop where
  | closed
  /-- The text ends after a member. -/
  | textEnds
  /-- Something else than a comma or the end follows a member. -/
  | noComma
  /-- The end of the object follows a comma. -/
  | trailingComma
  /-- In the place of a name, the first or a later one, stands another token or none. -/
  | noName (first : Bool) (found : Option Token)
  /-- After a name stands no colon, and perhaps nothing at all. -/
  | noColon (name : Lexeme) (atEnd : Bool)
deriving DecidableEq

/-- The tree of a JSON text. -/
inductive Document where
  /-- A value that is one token; any other token, or none, is a break. -/
  | leaf (token : Option Token)
  | list (items : List Document) (stop : ListStop)
  | object (members : List (Lexeme × Document)) (stop : ObjectStop)

namespace ListStop

/-- The fault of a stop for a reader that goes through all items. -/
def fault : ListStop → Except Fault Unit
  | closed => .ok ()
  | textEnds => .error .endInList
  | noComma => .error .expectedListEnd
  | trailingComma => .error .trailingComma

/-- The fault of a stop where the list is passed over. -/
def skipFault : ListStop → Except Fault Unit
  | closed => .ok ()
  | textEnds => .error .endInList
  | noComma => .error .expectedListEnd
  | trailingComma => .error .expectedValue

/-- The fault of a stop for a reader that wants no further item. -/
def closeFault : ListStop → Except Fault Unit
  | closed => .ok ()
  | textEnds => .error .endInList
  | noComma => .error .trailingCharacters
  | trailingComma => .error .trailingComma

end ListStop

namespace ObjectStop

/-- The fault of a missing colon. -/
def colonFault (atEnd : Bool) : Fault := if atEnd then .endInObject else .expectedColon

/-- The fault of a stop for a reader of members. -/
def fault : ObjectStop → Except Fault Unit
  | closed => .ok ()
  | textEnds => .error .endInObject
  | noComma => .error .expectedObjectEnd
  | trailingComma => .error .trailingComma
  | noName first none => .error (if first then .endInObject else .endInValue)
  | noName _ (some _) => .error .nameNotString
  | noColon name atEnd => name.text.bind fun _ => .error (colonFault atEnd)

/-- The fault of a stop where the object is passed over. -/
def skipFault : ObjectStop → Except Fault Unit
  | closed => .ok ()
  | textEnds => .error .endInObject
  | noComma => .error .expectedObjectEnd
  | trailingComma => .error .nameNotString
  | noName _ none => .error .endInObject
  | noName _ (some _) => .error .nameNotString
  | noColon name atEnd => name.skip.bind fun _ => .error (colonFault atEnd)

end ObjectStop

namespace Document

/-! ## Building the tree -/

mutual

/-- The value that starts with a token, and the tokens after it. -/
def value (token : Token) (rest : List Token) :
    Document × { after : List Token // after.length ≤ rest.length } :=
  match token with
  | .openList =>
    match items rest with
    | (ds, stop, after) => (.list ds stop, after)
  | .openObject =>
    match members rest with
    | (ms, stop, after) => (.object ms stop, after)
  | .word _ | .number _ | .string _ => (.leaf (some token), ⟨rest, Nat.le_refl _⟩)
  | _ => (.leaf (some token), ⟨[], Nat.zero_le _⟩)
termination_by (rest.length, 1)

/-- The items of a list whose opening bracket has been read. -/
def items (tokens : List Token) :
    List Document × ListStop × { after : List Token // after.length ≤ tokens.length } :=
  match tokens with
  | [] => ([], .textEnds, ⟨[], Nat.le_refl _⟩)
  | .closeList :: rest => ([], .closed, ⟨rest, Nat.le_succ _⟩)
  | token :: rest =>
    match value token rest with
    | (d, ⟨after, h⟩) =>
      match moreItems after with
      | (ds, stop, ⟨after', h'⟩) =>
        (d :: ds, stop, ⟨after', Nat.le_succ_of_le (Nat.le_trans h' h)⟩)
termination_by (tokens.length, 0)

/-- The further items of a list after one of them. -/
def moreItems (tokens : List Token) :
    List Document × ListStop × { after : List Token // after.length ≤ tokens.length } :=
  match tokens with
  | [] => ([], .textEnds, ⟨[], Nat.le_refl _⟩)
  | .closeList :: rest => ([], .closed, ⟨rest, Nat.le_succ _⟩)
  | [.comma] => ([.leaf none], .textEnds, ⟨[], Nat.zero_le _⟩)
  | .comma :: .closeList :: _ => ([], .trailingComma, ⟨[], Nat.zero_le _⟩)
  | .comma :: token :: rest =>
    match value token rest with
    | (d, ⟨after, h⟩) =>
      match moreItems after with
      | (ds, stop, ⟨after', h'⟩) =>
        (d :: ds, stop,
          ⟨after', Nat.le_succ_of_le (Nat.le_succ_of_le (Nat.le_trans h' h))⟩)
  | _ :: _ => ([], .noComma, ⟨[], Nat.zero_le _⟩)
termination_by (tokens.length, 0)

/-- The members of an object whose opening brace has been read. -/
def members (tokens : List Token) : List (Lexeme × Document) × ObjectStop ×
    { after : List Token // after.length ≤ tokens.length } :=
  match tokens with
  | [] => ([], .noName true none, ⟨[], Nat.le_refl _⟩)
  | .closeObject :: rest => ([], .closed, ⟨rest, Nat.le_succ _⟩)
  | .string name :: rest =>
    match member name rest with
    | (ms, stop, ⟨after, h⟩) => (ms, stop, ⟨after, Nat.le_succ_of_le h⟩)
  | token :: _ => ([], .noName true (some token), ⟨[], Nat.zero_le _⟩)
termination_by (tokens.length, 0)

/-- The member whose name has been read, and the members after it. -/
def member (name : Lexeme) (tokens : List Token) : List (Lexeme × Document) × ObjectStop ×
    { after : List Token // after.length ≤ tokens.length } :=
  match tokens with
  | [] => ([], .noColon name true, ⟨[], Nat.le_refl _⟩)
  | [.colon] => ([(name, .leaf none)], .textEnds, ⟨[], Nat.zero_le _⟩)
  | .colon :: token :: rest =>
    match value token rest with
    | (d, ⟨after, h⟩) =>
      match moreMembers after with
      | (ms, stop, ⟨after', h'⟩) =>
        ((name, d) :: ms, stop,
          ⟨after', Nat.le_succ_of_le (Nat.le_succ_of_le (Nat.le_trans h' h))⟩)
  | _ :: _ => ([], .noColon name false, ⟨[], Nat.zero_le _⟩)
termination_by (tokens.length, 0)

/-- The further members of an object after one of them. -/
def moreMembers (tokens : List Token) : List (Lexeme × Document) × ObjectStop ×
    { after : List Token // after.length ≤ tokens.length } :=
  match tokens with
  | [] => ([], .textEnds, ⟨[], Nat.le_refl _⟩)
  | .closeObject :: rest => ([], .closed, ⟨rest, Nat.le_succ _⟩)
  | [.comma] => ([], .noName false none, ⟨[], Nat.zero_le _⟩)
  | .comma :: .closeObject :: _ => ([], .trailingComma, ⟨[], Nat.zero_le _⟩)
  | .comma :: .string name :: rest =>
    match member name rest with
    | (ms, stop, ⟨after, h⟩) =>
      (ms, stop, ⟨after, Nat.le_succ_of_le (Nat.le_succ_of_le h)⟩)
  | .comma :: token :: _ => ([], .noName false (some token), ⟨[], Nat.zero_le _⟩)
  | _ :: _ => ([], .noComma, ⟨[], Nat.zero_le _⟩)
termination_by (tokens.length, 0)

end

/-- The tree that starts a sequence of tokens, and the tokens after it. -/
def ofTokens : List Token → Document × List Token
  | [] => (.leaf none, [])
  | token :: rest =>
    let built := value token rest
    (built.1, built.2.val)

/-- The token that a tree starts with. -/
def head : Document → Option Token
  | leaf token => token
  | list _ _ => some .openList
  | object _ _ => some .openObject

end Document

end LayerChain.Json
