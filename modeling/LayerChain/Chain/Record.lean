import LayerChain.Chain.Basic

/-!
# Chains in documents

A chain is written with its ids, its counter and its placements. What is read back is a `Record`
first: whether it is a chain is decided by the ids and the counter alone (`Chain.ofRecord`). The
counter may be missing or too low; it is raised above every id.
-/

namespace LayerChain

/-- A chain as it is written. -/
structure Chain.Record where
  inputDimension : UInt64
  layers : List Layer
  nextId : Nat

/-- Why a record is no chain. -/
inductive Chain.Refusal where
  /-- A layer has the id of an earlier one. -/
  | duplicateId (id : Nat)
  /-- The greatest id is too great. -/
  | outsideIdSpace (id : Nat)
  /-- There is no id left for a further layer. -/
  | exhausted (nextId : Nat)
deriving DecidableEq, Repr

/-- The wording of a refusal. -/
def Chain.Refusal.message : Chain.Refusal → String
  | duplicateId id => "duplicate layer id " ++ toString id
  | outsideIdSpace id =>
    "layer id " ++ toString id ++ " is outside the id space (max " ++ toString Layer.maxId ++ ")"
  | exhausted nextId =>
    "layer id space exhausted (next id " ++ toString nextId ++ ")"

namespace Chain

/-! ## Reading -/

/-- The first member of a list that occurs among the members before it. -/
def firstRepeated? (seen : List Nat) : List Nat → Option Nat
  | [] => none
  | id :: rest => if id ∈ seen then some id else firstRepeated? (id :: seen) rest

/-- The greatest of the ids; zero if there are none. -/
def greatestId (layers : List Layer) : Nat := (layers.map Layer.id).foldl max 0

/-- The chain that a record stands for. -/
def ofRecord (record : Record) : Except Refusal Chain :=
  match firstRepeated? [] (record.layers.map Layer.id) with
  | some id => .error (.duplicateId id)
  | none =>
    -- a counter that is missing or too low is made up for by the ids
    let greatest := greatestId record.layers
    let nextId := max record.nextId (greatest + 1)
    if Layer.maxId < greatest then .error (.outsideIdSpace greatest)
    else if Layer.maxId < nextId then .error (.exhausted nextId)
    else .ok ⟨record.inputDimension, record.layers, nextId⟩

/-- A record while it is read. -/
structure Draft where
  inputDimension : Option UInt64 := none
  layers : Option (List Layer) := none
  nextId : Option Nat := none

/-- Reads a record from a document. A missing counter is zero. -/
def recordDecoder : Json.Decoder Record :=
  .record "GraphRecord" [
      .slot "inputDimension" Draft.inputDimension
        (fun d n => { d with inputDimension := some n }) sizeDecoder,
      .slot "layers" Draft.layers (fun d ls => { d with layers := some ls })
        (.list Layer.decoder),
      .slot "nextId" Draft.nextId (fun d n => { d with nextId := some n })
        (.nat UInt64.size "u64")]
    {} fun missing (draft : Draft) => do
      let inputDimension ← Json.required missing "inputDimension" draft.inputDimension
      let layers ← Json.required missing "layers" draft.layers
      return ⟨inputDimension, layers, draft.nextId.getD 0⟩

/-- Reads a chain from a document. -/
def decoder : Json.Decoder Chain := fun depth d => do
  let record ← recordDecoder depth d
  (ofRecord record).mapError fun refusal => .refused refusal.message

/-- Reads a chain from a text. -/
def ofText (text : String) : Except Error Chain :=
  Json.Fault.lift (Json.decodeString decoder text)

/-! ## Writing -/

/-- The form of a chain in documents. -/
def toJson (chain : Chain) : Json :=
  .object [
    ("inputDimension", .whole chain.inputDimension.toNat),
    ("layers", .list (chain.layers.map Layer.toJson)),
    ("nextId", .whole chain.nextId)]

/-- The text of a chain. -/
def text (chain : Chain) : String := chain.toJson.compact

end Chain

end LayerChain
