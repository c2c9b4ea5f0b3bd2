import LayerChain.Project
import LayerChain.Proofs.Catalog.Documents
import LayerChain.Proofs.Chain.Numbering

/-!
# Chains that come back from their files

From where a chain was written a record is read that differs in two things: every floating-point
number is read again, and a placement that is `null` is no placement any more
(`Chain.recordDecoder_document_eq`). A chain is legible if its floating-point numbers come back from
their texts and its placements are values that come back. So whether a legible chain comes back is
decided by its ids and its counter alone.

A chain can be stored if it is legible, none of its placements is `null`, and it is numbered within
the id space. Then its project file is read as this very chain, with its counter, the order of its
settings and its placements (`Project.ofContent_text`).
-/

namespace LayerChain

open Json (Normal document memberDocuments)
open Json.Decoder

/-! ## Layers -/

namespace Layer

/-- A layer that is read again where so many levels may be nested in its members. -/
structure Legible (depth : Nat) (layer : Layer) : Prop where
  settings : layer.settings.FloatsReadBack
  placement : ∀ p ∈ layer.placement, Normal depth p

/-- A layer that comes back where so many levels may be nested in its members. -/
structure Storable (depth : Nat) (layer : Layer) : Prop where
  settings : layer.settings.FloatsReadBack
  placement : ∀ p ∈ layer.placement, p ≠ .null ∧ Normal depth p

/-- What a placement is read as: `null` is none. -/
def placementRead : Option Json → Option Json
  | some .null => none
  | placement => placement

/-- The layer without a placement that is `null`. -/
def withoutNull (layer : Layer) : Layer :=
  { layer with placement := placementRead layer.placement }

variable {depth : Nat} {layer : Layer}

/-- The placement that is read where a placement was written. -/
def rereadPlacement : Option Json → Except Json.Fault (Option Json)
  | none => .ok none
  | some p => p.reread.map fun p => placementRead (some p)

/-- The layer that is read where a layer was written. -/
def reread (layer : Layer) : Except Json.Fault Layer := do
  let settings ← layer.settings.reread
  let placement ← rereadPlacement layer.placement
  return { layer with settings, placement }

lemma Storable.legible (h : layer.Storable depth) : layer.Legible depth :=
  ⟨h.settings, fun p hp => (h.placement p hp).2⟩

lemma placementRead_of_ne_null {placement : Option Json} (h : ∀ p ∈ placement, p ≠ .null) :
    placementRead placement = placement := by
  cases placement with
  | none => rfl
  | some p =>
    cases p with
    | null => exact absurd rfl (h .null rfl)
    | _ => rfl

lemma Storable.withoutNull_eq (h : layer.Storable depth) : layer.withoutNull = layer := by
  rw [withoutNull, placementRead_of_ne_null fun p hp => (h.placement p hp).1]

lemma Legible.reread_eq (h : layer.Legible depth) : layer.reread = .ok layer.withoutNull := by
  have hplacement : rereadPlacement layer.placement = .ok (placementRead layer.placement) := by
    have hp := h.placement
    cases hcases : layer.placement with
    | none => rfl
    | some p =>
      rw [rereadPlacement, Json.reread_of_floatsReadBack (hp p hcases).floatsReadBack]
      rfl
  rw [reread, h.settings.reread_eq, hplacement]
  rfl

lemma placementDecoder_document {p : Json} (h : Json.Readable depth p) :
    placementDecoder depth (document p) = rereadPlacement (some p) := by
  rw [placementDecoder, Json.any_document_eq_reread h, rereadPlacement]
  cases p.reread with
  | error fault => rfl
  | ok p => cases p <;> rfl

/-- From where a layer was written it is read with its floating-point numbers read again. -/
theorem decoder_document_eq (h : ∀ p ∈ layer.placement, Json.Readable (depth + 1) p)
    (hid : layer.id < UInt64.size) :
    decoder (depth + 2) (document layer.toJson) = layer.reread := by
  have hid := nat_document (Nat.le_refl _) "u64" (depth + 1) hid
  have hkind : Kind.decoder (depth + 1) (document (.text layer.kind.name)) = .ok layer.kind :=
    variant_document (Kind.ofName?_name layer.kind) _ _
  have hsettings := Settings.decoder_document_eq depth layer.settings
  obtain ⟨id, kind, settings, placement⟩ := layer
  rw [decoder, toJson, record_document_eq, List.cons_append, readMembers_field rfl (slot_read hid),
    List.cons_append, readMembers_field rfl (slot_read hkind), List.cons_append,
    readMembers_slot rfl, hsettings, reread]
  dsimp only
  cases settings.reread with
  | error fault => rfl
  | ok settings =>
    -- a layer without a placement has one member less
    cases placement with
    | none => rfl
    | some p =>
      simp only [bind, Except.bind, List.nil_append]
      rw [readMembers_slot rfl, placementDecoder_document (h p rfl)]
      cases rereadPlacement (some p) <;> rfl

end Layer

/-! ## Chains -/

lemma sizeDecoder_document (n : UInt64) (depth : Nat) :
    sizeDecoder depth (document (.whole n.toNat)) = .ok n := by
  rw [sizeDecoder, nat_document (Nat.le_refl _) "usize" depth n.toNat_lt, Except.map,
    UInt64.ofNat_toNat]

namespace Chain

/-- The record that is written for a chain. -/
def record (chain : Chain) : Record := ⟨chain.inputDimension, chain.layers, chain.nextId⟩

/-- The chain as it is read where it was written: without the placements that are `null`. -/
def withoutNulls (chain : Chain) : Chain :=
  { chain with layers := chain.layers.map Layer.withoutNull }

/-- A chain that is read again where so many levels may be nested in the members of its layers. -/
structure Legible (depth : Nat) (chain : Chain) : Prop where
  layers : ∀ l ∈ chain.layers, l.Legible depth
  id_lt : ∀ id ∈ chain.ids, id < UInt64.size
  nextId_lt : chain.nextId < UInt64.size

/-- A chain that is read again, if its floating-point numbers are, where so many levels may be nested
in the members of its layers. -/
structure Readable (depth : Nat) (chain : Chain) : Prop where
  placement : ∀ l ∈ chain.layers, ∀ p ∈ l.placement, Json.Readable depth p
  id_lt : ∀ id ∈ chain.ids, id < UInt64.size
  nextId_lt : chain.nextId < UInt64.size

/-- A chain that comes back, but for its floating-point numbers, where so many levels may be nested in
the members of its layers. -/
structure Loadable (depth : Nat) (chain : Chain) : Prop where
  numbered : chain.Numbered
  nextId_le : chain.nextId ≤ Layer.maxId
  placement : ∀ l ∈ chain.layers, ∀ p ∈ l.placement, Json.Readable depth p

/-- A chain that comes back where so many levels may be nested in the members of its layers. -/
structure Storable (depth : Nat) (chain : Chain) : Prop where
  numbered : chain.Numbered
  nextId_le : chain.nextId ≤ Layer.maxId
  layers : ∀ l ∈ chain.layers, l.Storable depth

variable {depth : Nat} {chain : Chain}

@[simp] lemma ids_withoutNulls (chain : Chain) : chain.withoutNulls.ids = chain.ids := by
  rw [ids, withoutNulls, List.map_map]
  rfl

lemma Loadable.readable (h : chain.Loadable depth) : chain.Readable depth := by
  have hmax : Layer.maxId < UInt64.size := by decide
  refine ⟨h.placement, ?_, Nat.lt_of_le_of_lt h.nextId_le hmax⟩
  intro id hid
  have hlt := h.numbered.lt_nextId id hid
  have hle := h.nextId_le
  omega

lemma Storable.loadable (h : chain.Storable depth) : chain.Loadable depth :=
  ⟨h.numbered, h.nextId_le, fun l hl p hp => ((h.layers l hl).placement p hp).2.readable⟩

lemma Storable.legible (h : chain.Storable depth) : chain.Legible depth :=
  ⟨fun l hl => (h.layers l hl).legible, h.loadable.readable.id_lt, h.loadable.readable.nextId_lt⟩

lemma Storable.withoutNulls_eq (h : chain.Storable depth) : chain.withoutNulls = chain := by
  have hlayers : chain.layers.map Layer.withoutNull = chain.layers.map id :=
    List.map_congr_left fun l hl => (h.layers l hl).withoutNull_eq
  rw [withoutNulls, hlayers, List.map_id]

/-- The chain that is read where a chain was written, unless it is refused. -/
def reread (chain : Chain) : Except Json.Fault Chain := do
  let layers ← chain.layers.mapM Layer.reread
  return { chain with layers }

/-- From where a chain was written its record is read with the floating-point numbers read again. -/
theorem recordDecoder_document_eq (h : chain.Readable (depth + 1)) :
    recordDecoder (depth + 4) (document chain.toJson) = chain.reread.map record := by
  have hlayers : Json.Decoder.list Layer.decoder (depth + 3)
      (document (.list (chain.layers.map Layer.toJson))) = chain.layers.mapM Layer.reread :=
    list_document_eq fun l hl =>
      Layer.decoder_document_eq (h.placement l hl) (h.id_lt l.id (List.mem_map_of_mem hl))
  have hcounter := nat_document (Nat.le_refl _) "u64" (depth + 3) h.nextId_lt
  rw [recordDecoder, toJson, record_document_eq,
    readMembers_field rfl (slot_read (sizeDecoder_document _ _)), readMembers_slot rfl, hlayers,
    reread]
  cases chain.layers.mapM Layer.reread with
  | error fault => rfl
  | ok layers =>
    simp only [bind, Except.bind]
    rw [readMembers_field rfl (slot_read hcounter)]
    rfl

/-- Whether a chain comes back is decided by its floating-point numbers, its ids and its counter. -/
theorem decoder_document_eq (h : chain.Readable (depth + 1)) :
    decoder (depth + 4) (document chain.toJson) = chain.reread >>= fun read =>
      (ofRecord read.record).mapError fun refusal => .refused refusal.message := by
  rw [decoder, recordDecoder_document_eq h]
  cases chain.reread <;> rfl

lemma Legible.readable (h : chain.Legible depth) : chain.Readable depth :=
  ⟨fun l hl p hp => ((h.layers l hl).placement p hp).readable, h.id_lt, h.nextId_lt⟩

lemma Legible.reread_eq (h : chain.Legible depth) : chain.reread = .ok chain.withoutNulls := by
  have hlayers : chain.layers.mapM Layer.reread = .ok (chain.layers.map Layer.withoutNull) :=
    mapM_eq_ok_iff.2 (List.forall₂_map_right_iff.2 (List.forall₂_same.2 fun l hl =>
      (h.layers l hl).reread_eq))
  rw [reread, hlayers]
  rfl

/-- Whether a legible chain comes back is decided by its ids and its counter alone. -/
theorem decoder_document (h : chain.Legible (depth + 1)) :
    decoder (depth + 4) (document chain.toJson) =
      (ofRecord chain.withoutNulls.record).mapError fun refusal => .refused refusal.message := by
  rw [decoder_document_eq h.readable, h.reread_eq]
  rfl

lemma Storable.ofRecord_withoutNulls (h : chain.Storable depth) :
    ofRecord chain.withoutNulls.record = .ok chain := by
  rw [h.withoutNulls_eq, record, ofRecord_of_numbered h.numbered h.nextId_le]

end Chain

/-! ## Projects -/

namespace Project

/-- How many levels a placement may nest in a project file. -/
def placementDepth : Nat := 123

/-- The file of a chain is read as the chain with its floating-point numbers read again, or it is
refused for one of them, for its ids or for its counter. -/
theorem ofContent_text_eq {chain : Chain} (h : chain.Readable placementDepth) :
    ofContent (Content.ofString (ofChain chain).text) =
      ((chain.reread >>= fun read => (Chain.ofRecord read.record).mapError fun refusal =>
        .refused refusal.message).mapError .malformed).map ofChain := by
  have hversion : Json.Decoder.nat UInt32.size "u32" 126 (document (.whole currentVersion)) =
      .ok currentVersion :=
    nat_document (by decide) "u32" 126 (by decide)
  have hchain := Chain.decoder_document_eq h
  have hdecoder : decoder Json.maxDepth (document (ofChain chain).toJson) =
      (Chain.decoder 126 (document chain.toJson)).map ofChain := by
    show decoder (126 + 1) _ = _
    rw [decoder, toJson, record_document_eq, ofChain, readMembers_field rfl (slot_read hversion),
      readMembers_slot rfl]
    cases Chain.decoder 126 (document chain.toJson) <;> rfl
  rw [ofContent, text, Json.decode_pretty, hdecoder, hchain]
  generalize (chain.reread >>= fun read => (Chain.ofRecord read.record).mapError fun refusal =>
    Json.Fault.refused refusal.message) = found
  cases found <;> rfl

/-- The file of a legible chain is read as the chain, or it is refused for its ids or its counter. -/
theorem ofContent_text_of_legible {chain : Chain} (h : chain.Legible placementDepth) :
    ofContent (Content.ofString (ofChain chain).text) =
      ((Chain.ofRecord chain.withoutNulls.record).mapError fun refusal =>
        .malformed (.refused refusal.message)).map ofChain := by
  rw [ofContent_text_eq h.readable, h.reread_eq]
  show (((Chain.ofRecord chain.withoutNulls.record).mapError _).mapError _).map _ = _
  cases Chain.ofRecord chain.withoutNulls.record <;> rfl

/-- The file of a chain that can be stored is read as the chain. -/
theorem ofContent_text {chain : Chain} (h : chain.Storable placementDepth) :
    ofContent (Content.ofString (ofChain chain).text) = .ok (ofChain chain) := by
  rw [ofContent_text_of_legible h.legible, h.ofRecord_withoutNulls]
  rfl

end Project

end LayerChain
