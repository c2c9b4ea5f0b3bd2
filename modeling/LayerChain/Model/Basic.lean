import LayerChain.Chain.Basic
import LayerChain.Digest.Sha256

/-!
# Models

A model is what a chain says about a network: the feature count that enters it, and the kind and
the settings of each layer. Ids and placements are left out. Kinds are names, so that a model that
names an unknown kind can still be read.

Equal models have equal texts, since the order of members and settings is fixed; `Model.hash` is
the digest of that text.
-/

namespace LayerChain

/-- What a model says about a layer. -/
structure ModelLayer where
  kind : String
  settings : Settings
deriving DecidableEq

/-- What a chain says about a network. -/
structure Model where
  inputDimension : UInt64
  layers : List ModelLayer
deriving DecidableEq

/-- What a layer of a chain says about a network. -/
def ModelLayer.ofLayer (layer : Layer) : ModelLayer := ⟨layer.kind.name, layer.settings⟩

namespace Model

/-- What a chain says about a network. -/
def ofChain (chain : Chain) : Model :=
  ⟨chain.inputDimension, chain.layers.map ModelLayer.ofLayer⟩

/-- Equality of lists of layers, with values compared numerically. -/
def equalLayers : List ModelLayer → List ModelLayer → Bool
  | [], [] => true
  | l :: ls, m :: ms => l.kind == m.kind && l.settings.equal m.settings && equalLayers ls ms
  | _, _ => false

/-- Equality of models, with values compared numerically. -/
def equal (m n : Model) : Bool :=
  m.inputDimension == n.inputDimension && equalLayers m.layers n.layers

/-! ## Writing -/

/-- The form of a model in documents. -/
def toJson (model : Model) : Json :=
  .object [
    ("inputDimension", .whole model.inputDimension.toNat),
    ("layers", .list (model.layers.map fun layer =>
      .object [("kind", .text layer.kind), ("settings", layer.settings.toJson)]))]

/-- The text of a model on one line. -/
def text (model : Model) : String := model.toJson.compact

/-- The indented text of a model. -/
def prettyText (model : Model) : String := model.toJson.pretty

/-- The digest of a model's text. -/
def hash (model : Model) : String := Sha256.hexOfString model.text

/-! ## Reading -/

/-- A layer while it is read. -/
structure LayerDraft where
  kind : Option String := none
  settings : Option Settings := none

/-- Reads what a model says about a layer from a document. -/
def layerDecoder : Json.Decoder ModelLayer :=
  .record "LayerIr" [
      .slot "kind" LayerDraft.kind (fun d kind => { d with kind := some kind }) .string,
      .slot "settings" LayerDraft.settings (fun d s => { d with settings := some s })
        Settings.decoder]
    {} fun missing (draft : LayerDraft) => do
      let kind ← Json.required missing "kind" draft.kind
      let settings ← Json.required missing "settings" draft.settings
      return ⟨kind, settings⟩

/-- A model while it is read. -/
structure Draft where
  inputDimension : Option UInt64 := none
  layers : Option (List ModelLayer) := none

/-- Reads a model from a document. -/
def decoder : Json.Decoder Model :=
  .record "ModelIr" [
      .slot "inputDimension" Draft.inputDimension
        (fun d n => { d with inputDimension := some n }) sizeDecoder,
      .slot "layers" Draft.layers (fun d ls => { d with layers := some ls })
        (.list layerDecoder)]
    {} fun missing (draft : Draft) => do
      let inputDimension ← Json.required missing "inputDimension" draft.inputDimension
      let layers ← Json.required missing "layers" draft.layers
      return ⟨inputDimension, layers⟩

/-- Reads a model from a text. -/
def ofText (text : String) : Except Error Model :=
  Json.Fault.lift (Json.decodeString decoder text)

end Model

end LayerChain
