import LayerChain.Proofs.Source.Caching
import LayerChain.Proofs.Source.Failures

/-!
# Models of the same text

Floating-point numbers play no part in whether generation fails. So where two models have the same
text, generation fails for both or for neither, even if the texts of some floating-point numbers were
the same (`Generator.error_iff_of_text`): put in the place of every number a fixed one with its text
(`Model.mapFloats`), and the models are the same.

So a sound cache fails a request exactly where generating fails, as far as the digests of texts
differ (`SourceCache.Sound.fetch_eq_error_iff`).
-/

namespace LayerChain

open Json (compactChars compactItems_eq compactMembers_eq)

/-! ## Other floating-point numbers -/

/-- The value with another number in its place, if it is a floating-point number. -/
def SettingValue.mapFloat (f : Binary64 → Binary64) : SettingValue → SettingValue
  | .float x => .float (f x)
  | v => v

/-- The settings with other floating-point numbers. -/
def Settings.mapFloats (f : Binary64 → Binary64) (settings : Settings) : Settings where
  entries := settings.entries.map fun e => (e.1, e.2.mapFloat f)
  nodup := by
    rw [List.map_map]
    exact settings.nodup

/-- The layer with other floating-point numbers. -/
def ModelLayer.mapFloats (f : Binary64 → Binary64) (layer : ModelLayer) : ModelLayer :=
  ⟨layer.kind, layer.settings.mapFloats f⟩

/-- The model with other floating-point numbers. -/
def Model.mapFloats (f : Binary64 → Binary64) (model : Model) : Model :=
  ⟨model.inputDimension, model.layers.map (ModelLayer.mapFloats f)⟩

variable {f : Binary64 → Binary64}

/-! ### What stays -/

lemma SettingValue.mapFloat_eq_choice_iff {v : SettingValue} {name : String} :
    v.mapFloat f = .choice name ↔ v = .choice name := by
  cases v <;> simp [mapFloat]

lemma Settings.get?_mapFloats (f : Binary64 → Binary64) (settings : Settings) (key : String) :
    (settings.mapFloats f).get? key = (settings.get? key).map (SettingValue.mapFloat f) := by
  rw [get?, get?, mapFloats, List.find?_map, Option.map_map, Option.map_map]
  rfl

/-- Layers that are the same but for their floating-point numbers choose alike. -/
lemma ModelLayer.choosesAlike_of_mapFloats {l m : ModelLayer}
    (h : l.mapFloats f = m.mapFloats f) : l.ChoosesAlike m := by
  obtain ⟨hkind, hsettings⟩ := ModelLayer.mk.inj h
  have hchoice : ∀ (s : Settings) name, s.get? "activation" = some (.choice name) ↔
      (s.mapFloats f).get? "activation" = some (.choice name) := by
    intro s name
    rw [Settings.get?_mapFloats, Option.map_eq_some_iff]
    simp only [SettingValue.mapFloat_eq_choice_iff, exists_eq_right]
  exact ⟨hkind, fun name => by rw [hchoice, hsettings, ← hchoice]⟩

lemma Settings.floats_mapFloats (f : Binary64 → Binary64) (settings : Settings) :
    (settings.mapFloats f).floats = settings.floats.map f := by
  rw [floats, floats, mapFloats, List.filterMap_map, List.map_filterMap]
  congr 1
  funext e
  obtain ⟨key, v⟩ := e
  cases v <;> rfl

lemma Model.floats_mapFloats (f : Binary64 → Binary64) (model : Model) :
    (model.mapFloats f).floats = model.floats.map f := by
  rw [floats, floats, mapFloats, List.flatMap_map, List.map_flatMap]
  congr 1
  funext layer
  exact layer.settings.floats_mapFloats f

/-! ### The text -/

section

variable (hf : ∀ x, Layout.document.text (f x) = Layout.document.text x)
include hf

lemma SettingValue.compactChars_mapFloat (v : SettingValue) :
    compactChars (v.mapFloat f).toJson = compactChars v.toJson := by
  cases v with
  | float x => exact String.ofList_injective (hf x)
  | _ => rfl

lemma Settings.compactChars_mapFloats (settings : Settings) :
    compactChars (settings.mapFloats f).toJson = compactChars settings.toJson := by
  simp only [toJson, mapFloats, compactChars, compactMembers_eq, List.map_map, Function.comp_def,
    SettingValue.compactChars_mapFloat hf]

lemma ModelLayer.compactChars_mapFloats (layer : ModelLayer) :
    compactChars (layer.mapFloats f).toJson = compactChars layer.toJson := by
  simp only [toJson, mapFloats, compactChars, compactMembers_eq, List.map_cons, List.map_nil,
    Settings.compactChars_mapFloats hf]

/-- A model keeps its text if the numbers do. -/
lemma Model.text_mapFloats (model : Model) : (model.mapFloats f).text = model.text := by
  have hlayers : (model.layers.map (ModelLayer.mapFloats f)).map
      (fun l => compactChars l.toJson) = model.layers.map fun l => compactChars l.toJson := by
    rw [List.map_map]
    exact List.map_congr_left fun l _ => l.compactChars_mapFloats hf
  have hjson : ∀ m : Model, m.toJson = .object [("inputDimension", .whole m.inputDimension.toNat),
      ("layers", .list (m.layers.map ModelLayer.toJson))] := fun _ => rfl
  rw [text, text, Json.compact, Json.compact, hjson, hjson]
  simp only [mapFloats, compactChars, compactMembers_eq, compactItems_eq, List.map_cons,
    List.map_nil, List.map_map, Function.comp_def] at hlayers ⊢
  rw [hlayers]

end

/-! ## Failures -/

/-- For every text that some number has there is a fixed number with this text. -/
lemma Layout.exists_representatives (layout : Layout) : ∃ f : Binary64 → Binary64,
    (∀ x, layout.text (f x) = layout.text x) ∧
      ∀ x y, layout.text x = layout.text y → f x = f y :=
  ⟨fun x => Function.invFun layout.text (layout.text x), fun x => Function.invFun_eq ⟨x, rfl⟩,
    fun _ _ h => congrArg (Function.invFun layout.text) h⟩

/-- Models of the same text choose alike, layer by layer. -/
theorem Model.choosesAlike_of_text {m n : Model} (h : m.text = n.text) :
    List.Forall₂ ModelLayer.ChoosesAlike m.layers n.layers := by
  obtain ⟨f, hf, hunique⟩ := Layout.document.exists_representatives
  -- representatives of the same text are the same number, so texts tell such models apart
  have hdiffer : TextsDiffer .document ((m.floats ++ n.floats).map f) := by
    intro x hx y hy hxy
    obtain ⟨a, -, rfl⟩ := List.mem_map.1 hx
    obtain ⟨b, -, rfl⟩ := List.mem_map.1 hy
    rw [hf, hf] at hxy
    exact hunique a b hxy
  have hsame : m.mapFloats f = n.mapFloats f := by
    refine text_unique hdiffer ?_ ?_ ?_
    · rw [floats_mapFloats, List.map_append]
      exact List.subset_append_left _ _
    · rw [floats_mapFloats, List.map_append]
      exact List.subset_append_right _ _
    · rw [text_mapFloats hf, text_mapFloats hf, h]
  have hlayers : m.layers.map (ModelLayer.mapFloats f) = n.layers.map (ModelLayer.mapFloats f) :=
    congrArg Model.layers hsame
  rw [← List.forall₂_eq_eq_eq, List.forall₂_map_left_iff, List.forall₂_map_right_iff] at hlayers
  exact hlayers.imp fun _ _ => ModelLayer.choosesAlike_of_mapFloats

/-- Generation fails alike for models of the same text. -/
theorem Generator.error_iff_of_text {generator : Generator} {m n : Model} (h : m.text = n.text)
    {e : Error} : generator.generate m = .error e ↔ generator.generate n = .error e :=
  error_iff_of_choosesAlike (Model.choosesAlike_of_text h)

/-- Of some models, different texts have different digests. -/
def DigestsDiffer (models : List Model) : Prop :=
  ∀ m ∈ models, ∀ n ∈ models, m.hash = n.hash → m.text = n.text

namespace SourceCache

/-- A sound cache fails a request iff generating fails, if no digests collide. -/
theorem Sound.fetch_eq_error_iff {models : List Model} {cache : SourceCache} {g : Generator}
    {m : Model} (h : Sound models cache) (hdigests : DigestsDiffer models) (hm : m ∈ models)
    {e : Error} : cache.fetch g m = .error e ↔ g.generate m = .error e := by
  rw [SourceCache.fetch, supply]
  cases hfound : cache.get? (key g m) with
  | none => exact map_eq_error
  | some s =>
    -- what is kept was generated, from a model of the same text
    obtain ⟨entry, hentry, -⟩ := Option.map_eq_some_iff.1 hfound
    have hkey := List.find?_some hentry
    obtain ⟨g', m', hm', hkey', hgenerate⟩ := h entry (List.mem_of_find?_eq_some hentry)
    obtain ⟨rfl, hhash⟩ := key_unique (hkey'.symm.trans (beq_iff_eq.1 hkey))
    constructor
    · rintro ⟨⟩
    · intro hfails
      rw [← Generator.error_iff_of_text (hdigests m' hm' m hm hhash), hgenerate] at hfails
      cases hfails

end SourceCache

end LayerChain
