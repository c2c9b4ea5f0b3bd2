import LayerChain.Catalog.Descriptor

/-!
# Layers

A layer of a chain: its id, which it keeps for life, its kind, its settings, and where a front end
has placed it. The placement is opaque data that influences nothing.
-/

namespace LayerChain

/-- A layer of a chain. -/
structure Layer where
  id : Nat
  kind : Kind
  settings : Settings
  placement : Option Json

namespace Layer

/-- The greatest id: beyond it, not every whole number is exact as a floating-point one. -/
def maxId : Nat := 9007199254740991

/-- The catalog entry of the layer's kind. -/
def descriptor (layer : Layer) : Descriptor := Catalog.describe layer.kind

/-- What the layer's components are called at a position in generated source. -/
def stem (layer : Layer) : String := layer.descriptor.stem

/-- Equality of placements, with numbers compared numerically. -/
def equalPlacement : Option Json → Option Json → Bool
  | none, none => true
  | some p, some q => p.equal q
  | _, _ => false

/-- Equality of layers, with values compared numerically. -/
def equal (l m : Layer) : Bool :=
  l.id == m.id && l.kind == m.kind && l.settings.equal m.settings &&
    equalPlacement l.placement m.placement

/-! ## In documents -/

/-- The form of a layer in documents. A layer without a placement has no such member. -/
def toJson (layer : Layer) : Json :=
  let placement := match layer.placement with
    | none => []
    | some p => [("placement", p)]
  .object ([
    ("id", .whole layer.id),
    ("kind", .text layer.kind.name),
    ("settings", layer.settings.toJson)] ++ placement)

/-- A layer while it is read. -/
structure Draft where
  id : Option Nat := none
  kind : Option Kind := none
  settings : Option Settings := none
  placement : Option (Option Json) := none

/-- Reads a placement; `null` is none. -/
def placementDecoder : Json.Decoder (Option Json) := fun depth d => do
  match ← Json.Decoder.any depth d with
  | .null => return none
  | p => return some p

/-- Reads a layer from a document. -/
def decoder : Json.Decoder Layer :=
  Json.Decoder.record "LayerInstance" [
      .slot "id" Draft.id (fun d id => { d with id := some id }) (.nat UInt64.size "u64"),
      .slot "kind" Draft.kind (fun d kind => { d with kind := some kind }) Kind.decoder,
      .slot "settings" Draft.settings (fun d s => { d with settings := some s })
        Settings.decoder,
      .slot "placement" Draft.placement (fun d p => { d with placement := some p })
        placementDecoder]
    {} fun missing (draft : Draft) => do
      let id ← Json.required missing "id" draft.id
      let kind ← Json.required missing "kind" draft.kind
      let settings ← Json.required missing "settings" draft.settings
      return ⟨id, kind, settings, draft.placement.getD none⟩

end Layer

end LayerChain
