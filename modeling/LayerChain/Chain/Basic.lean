import LayerChain.Chain.Shape

/-!
# Chains of layers

A chain is the feature count that enters a network and its layers in order. Every edit of a chain
gives a new chain. The automatic setting of a layer is inferred once, when the layer is appended;
later edits do not touch it, and only `repropagate` infers all of them anew.

Ids are handed out by a counter and are never used again.
-/

namespace LayerChain

/-- The feature count of an empty chain that nothing else is known of: an image of 28 by 28. -/
def defaultInputDimension : UInt64 := 784

/-- The greatest value of an id counter. -/
def maxCounter : Nat := UInt64.size - 1

/-- A chain of layers. -/
structure Chain where
  inputDimension : UInt64
  layers : List Layer
  /-- The id of the next layer to be appended. -/
  nextId : Nat

namespace Chain

/-- A chain without layers. -/
def new (inputDimension : UInt64) : Chain := ⟨inputDimension, [], 1⟩

instance : Inhabited Chain := ⟨new defaultInputDimension⟩

/-! ## Looking at a chain -/

/-- How many layers a chain has. -/
def size (chain : Chain) : Nat := chain.layers.length

/-- Whether a chain has no layers. -/
def isEmpty (chain : Chain) : Bool := chain.layers.isEmpty

/-- The layer of an id. -/
def get? (chain : Chain) (id : Nat) : Option Layer := chain.layers.find? fun l => l.id == id

/-- The layer at a position. -/
def at? (chain : Chain) (position : Nat) : Option Layer := chain.layers[position]?

/-- The position of the layer of an id. -/
def position? (chain : Chain) (id : Nat) : Option Nat :=
  chain.layers.findIdx? fun l => l.id == id

/-- The shape that enters the first layer. -/
def inputShape (chain : Chain) : Shape := .scalar chain.inputDimension

/-- The shapes that leave the layers, in order. -/
def shapes (chain : Chain) : List Shape := shapesAfter chain.inputShape chain.layers

/-- The shape that leaves the chain. -/
def outputShape (chain : Chain) : Shape := chain.shapes.getLastD chain.inputShape

/-- Equality of lists of layers, with values compared numerically. -/
def equalLayers : List Layer → List Layer → Bool
  | [], [] => true
  | l :: ls, m :: ms => l.equal m && equalLayers ls ms
  | _, _ => false

/-- Equality of chains, with values compared numerically. -/
def equal (c d : Chain) : Bool :=
  c.inputDimension == d.inputDimension && equalLayers c.layers d.layers && c.nextId == d.nextId

/-! ## Edits -/

/-- The layer that appending a kind adds. -/
def newLayer (chain : Chain) (kind : Kind) : Layer :=
  ⟨chain.nextId, kind,
    (Catalog.describe kind).defaults.merge (kind.inferred chain.outputShape), none⟩

/-- Appends a layer of a kind, with default settings and its automatic setting inferred. The
counter stays where it is once it has reached its greatest value. -/
def append (chain : Chain) (kind : Kind) : Chain :=
  { chain with
    layers := chain.layers ++ [chain.newLayer kind]
    nextId := min (chain.nextId + 1) maxCounter }

/-- Changes the first layer of an id. -/
def modify (id : Nat) (change : Layer → Layer) : List Layer → List Layer
  | [] => []
  | l :: rest => if l.id = id then change l :: rest else l :: modify id change rest

/-- The layer of an id that an edit is about. -/
def find (chain : Chain) (id : Nat) : Except Error Layer :=
  match chain.get? id with
  | some layer => .ok layer
  | none => .error (.layerNotFound id)

/-- Merges a patch into the settings of a layer. -/
def update (chain : Chain) (id : Nat) (patch : Settings) : Except Error Chain := do
  let _ ← chain.find id
  let change (l : Layer) : Layer := { l with settings := l.settings.merge patch }
  return { chain with layers := modify id change chain.layers }

/-- Merges a patch into the settings of a layer, if the layer's kind declares all its keys. -/
def updateStrict (chain : Chain) (id : Nat) (patch : Settings) : Except Error Chain := do
  let layer ← chain.find id
  match patch.keys.find? fun key => !layer.descriptor.declares key with
  | some key => throw (.unknownSetting key layer.kind.name)
  | none => chain.update id patch

/-- Removes a layer. The layers after it keep what was inferred for them. -/
def remove (chain : Chain) (id : Nat) : Except Error Chain := do
  let _ ← chain.find id
  return { chain with layers := chain.layers.eraseP fun l => l.id == id }

/-- Changes the feature count that enters the chain. -/
def setInputDimension (chain : Chain) (inputDimension : UInt64) : Chain :=
  { chain with inputDimension }

/-- Places a layer. -/
def place (chain : Chain) (id : Nat) (placement : Json) : Except Error Chain := do
  let _ ← chain.find id
  let change (l : Layer) : Layer := { l with placement := some placement }
  return { chain with layers := modify id change chain.layers }

/-- Infers the automatic settings of a list of layers, from the first to the last. -/
def refreshFrom (incoming : Shape) : List Layer → List Layer
  | [] => []
  | layer :: rest =>
    let fresh := layer.refresh incoming
    fresh :: refreshFrom (fresh.outputShape incoming) rest

/-- Infers all automatic settings anew. -/
def repropagate (chain : Chain) : Chain :=
  { chain with layers := refreshFrom chain.inputShape chain.layers }

/-- The chain with its id counter raised to at least a value. -/
def raiseCounter (chain : Chain) (nextId : Nat) : Chain :=
  { chain with nextId := max chain.nextId nextId }

end Chain

end LayerChain
