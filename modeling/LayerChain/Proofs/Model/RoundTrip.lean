import LayerChain.Proofs.Chain.Persistence
import LayerChain.Proofs.Model.Texts

/-!
# Models that come back from their texts

A model nests no deeper than the reader allows, whatever it says, so all that its texts depend on is
that its floating-point numbers come back. Then both of them, the one on one line and the indented
one, are read as this very model (`Model.ofText_text`, `Model.ofText_prettyText`): the kinds are
names that need not be known, and the settings keep their order and the sorts of their values.
-/

namespace LayerChain

open Json (document)
open Json.Decoder

namespace Json.Decoder

lemma string_document (s : String) (depth : Nat) : string depth (document (.text s)) = .ok s := by
  rw [string, found_text]
  rfl

end Json.Decoder

namespace ModelLayer

variable {layer : ModelLayer}

/-- A layer of a model comes back from its form in documents. -/
lemma layerDecoder_document (h : layer.settings.FloatsReadBack) (depth : Nat) :
    Model.layerDecoder (depth + 2) (document layer.toJson) = .ok layer := by
  have hkind := string_document layer.kind (depth + 1)
  have hsettings := Settings.decoder_document h depth
  apply record_document
  · refine (readMembers_field rfl (slot_read hkind) _).trans ?_
    refine (readMembers_field rfl (slot_read hsettings) _).trans ?_
    rfl
  · rfl

end ModelLayer

namespace Model

/-- Every floating-point number in a model comes back from its text. -/
def FloatsReadBack (model : Model) : Prop := ∀ l ∈ model.layers, l.settings.FloatsReadBack

variable {model : Model}

/-- A model comes back from its form in documents. -/
theorem decoder_document (h : model.FloatsReadBack) (depth : Nat) :
    decoder (depth + 4) (document model.toJson) = .ok model := by
  have hlayers : Json.Decoder.list layerDecoder (depth + 3)
      (document (.list (model.layers.map ModelLayer.toJson))) = .ok (model.layers.map id) :=
    list_document fun l hl => ModelLayer.layerDecoder_document (h l hl) depth
  rw [List.map_id] at hlayers
  apply record_document
  · refine (readMembers_field rfl (slot_read (sizeDecoder_document _ _)) _).trans ?_
    refine (readMembers_field rfl (slot_read hlayers) _).trans ?_
    rfl
  · rfl

/-- A model comes back from its text on one line. -/
theorem ofText_text (h : model.FloatsReadBack) : ofText model.text = .ok model := by
  have hdecode : Json.decodeString decoder model.text = .ok model :=
    (Json.decode_compact model.toJson decoder).trans (decoder_document h _)
  rw [ofText, hdecode]
  rfl

/-- A model comes back from its indented text. -/
theorem ofText_prettyText (h : model.FloatsReadBack) : ofText model.prettyText = .ok model := by
  have hdecode : Json.decodeString decoder model.prettyText = .ok model :=
    (Json.decode_pretty model.toJson decoder).trans (decoder_document h _)
  rw [ofText, hdecode]
  rfl

end Model

end LayerChain
