import LayerChain.Config
import LayerChain.Proofs.Model.RoundTrip

/-!
# Configurations that come back from their texts

A configuration comes back from its text, whatever its class name is (`Config.ofText_text`): a file
can hold every class name.
-/

namespace LayerChain

open Json (document)
open Json.Decoder

lemma Json.Decoder.bool_document (b : Bool) (depth : Nat) :
    bool depth (document (.bool b)) = .ok b := by
  cases b <;> rfl

namespace Config

/-- The text of a configuration on one line. -/
def text (config : Config) : String := config.toJson.compact

/-- The numbers of a configuration are within the words that they are read as. -/
structure Sized (config : Config) : Prop where
  undoLevels : config.maxUndoLevels < UInt64.size
  cacheEntries : config.sourceCacheEntries < UInt64.size

variable {config : Config}

lemma decoder_document (h : config.Sized) (depth : Nat) :
    decoder (depth + 1) (document config.toJson) = .ok config := by
  have hundo := nat_document (Nat.le_refl _) "usize" depth h.undoLevels
  have hcache := nat_document (Nat.le_refl _) "usize" depth h.cacheEntries
  apply record_document
  · refine (readMembers_field rfl (slot_read (sizeDecoder_document _ _)) _).trans ?_
    refine (readMembers_field rfl (slot_read (string_document _ _)) _).trans ?_
    refine (readMembers_field rfl (slot_read (bool_document _ _)) _).trans ?_
    refine (readMembers_field rfl (slot_read hundo) _).trans ?_
    refine (readMembers_field rfl (slot_read hcache) _).trans ?_
    rfl
  · rfl

/-- A configuration comes back from its text. -/
theorem ofText_text (h : config.Sized) : ofText config.text = .ok config := by
  have hdecode : Json.decodeString decoder config.text = .ok config :=
    (Json.decode_compact config.toJson decoder).trans (decoder_document h _)
  rw [ofText, hdecode]
  rfl

end Config

end LayerChain
