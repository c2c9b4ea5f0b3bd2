import LayerChain.Model.Basic
import LayerChain.Proofs.Catalog.Documents
import LayerChain.Proofs.Json.Unambiguous

/-!
# Texts that tell models apart

The form of a model in documents keeps everything that the model says: the order of the settings,
and of each setting what kind of value it is. So two models with the same text on one line are the
same model, as far as the texts of their floating-point numbers differ (`Model.text_unique`).
-/

namespace LayerChain

open Json (FloatsIn)

/-! ## The floating-point numbers of a model -/

/-- The floating-point number, if the value is one. -/
def SettingValue.float? : SettingValue → Option Binary64
  | .float x => some x
  | _ => none

/-- The floating-point numbers in some settings. -/
def Settings.floats (settings : Settings) : List Binary64 :=
  settings.entries.filterMap fun e => e.2.float?

/-- The floating-point numbers in a model. -/
def Model.floats (model : Model) : List Binary64 := model.layers.flatMap fun l => l.settings.floats

lemma Settings.mem_floats_of_entry {settings : Settings} {e : String × SettingValue} {x : Binary64}
    (he : e ∈ settings.entries) (hx : e.2 = .float x) : x ∈ settings.floats :=
  List.mem_filterMap.2 ⟨e, he, by rw [hx]; rfl⟩

lemma Settings.mem_floats {settings : Settings} {key : String} {x : Binary64}
    (h : settings.get? key = some (.float x)) : x ∈ settings.floats := by
  obtain ⟨e, he, hx⟩ := Option.map_eq_some_iff.1 h
  exact mem_floats_of_entry (List.mem_of_find?_eq_some he) hx

lemma Model.floats_subset {model : Model} {layer : ModelLayer} (h : layer ∈ model.layers) :
    layer.settings.floats ⊆ model.floats :=
  fun _ hx => List.mem_flatMap.2 ⟨layer, h, hx⟩

/-! ## Forms in documents -/

lemma SettingValue.toJson_injective : Function.Injective toJson := by
  intro v w h
  have hv := ofJson?_toJson v
  rw [h, ofJson?_toJson] at hv
  exact (Option.some.inj hv).symm

lemma Settings.toJson_injective : Function.Injective toJson := by
  intro s t h
  have hentry : Function.Injective fun e : String × SettingValue => (e.1, e.2.toJson) := by
    intro e e' he
    obtain ⟨hkey, hvalue⟩ := Prod.mk.inj he
    exact Prod.ext hkey (SettingValue.toJson_injective hvalue)
  exact Settings.ext_entries (List.map_injective_iff.2 hentry (Json.object.inj h))

lemma Settings.floatsIn_toJson {floats : List Binary64} {settings : Settings}
    (h : settings.floats ⊆ floats) : FloatsIn floats settings.toJson := by
  refine .object fun m hm => ?_
  obtain ⟨⟨key, v⟩, he, rfl⟩ := List.mem_map.1 hm
  dsimp only
  cases hv : v with
  | bool b => exact .bool b
  | int n => exact .whole n.toInt
  | float x => exact .float (h (mem_floats_of_entry he hv))
  | choice s => exact .text s
  | auto => exact .null

/-- The form of a layer of a model in documents. -/
def ModelLayer.toJson (layer : ModelLayer) : Json :=
  .object [("kind", .text layer.kind), ("settings", layer.settings.toJson)]

lemma ModelLayer.toJson_injective : Function.Injective toJson := by
  rintro ⟨kind, settings⟩ ⟨kind', settings'⟩ h
  obtain ⟨hfirst, hrest⟩ := List.cons.inj (Json.object.inj h)
  have hkind : kind = kind' := Json.text.inj (Prod.mk.inj hfirst).2
  have hsettings : settings = settings' :=
    Settings.toJson_injective (Prod.mk.inj (List.cons.inj hrest).1).2
  rw [hkind, hsettings]

namespace Model

lemma toJson_injective : Function.Injective toJson := by
  rintro ⟨dimension, layers⟩ ⟨dimension', layers'⟩ h
  obtain ⟨hfirst, hrest⟩ := List.cons.inj (Json.object.inj h)
  have hnat : dimension.toNat = dimension'.toNat :=
    Int.ofNat.inj (Json.whole.inj (Prod.mk.inj hfirst).2)
  have hforms : layers.map ModelLayer.toJson = layers'.map ModelLayer.toJson :=
    Json.list.inj (Prod.mk.inj (List.cons.inj hrest).1).2
  have hlayers : layers = layers' := List.map_injective_iff.2 ModelLayer.toJson_injective hforms
  rw [UInt64.toNat_inj.1 hnat, hlayers]

lemma floatsIn_toJson {floats : List Binary64} {model : Model} (h : model.floats ⊆ floats) :
    FloatsIn floats model.toJson := by
  refine .object fun m hm => ?_
  simp only [List.mem_cons, List.not_mem_nil, or_false] at hm
  rcases hm with rfl | rfl
  · exact .whole _
  · refine .list fun v hv => ?_
    obtain ⟨layer, hlayer, rfl⟩ := List.mem_map.1 hv
    refine .object fun m hm => ?_
    simp only [List.mem_cons, List.not_mem_nil, or_false] at hm
    rcases hm with rfl | rfl
    · exact .text _
    · exact Settings.floatsIn_toJson fun x hx => h (floats_subset hlayer hx)

/-- Two models with the same text are the same. -/
theorem text_unique {floats : List Binary64} (hdiffer : TextsDiffer .document floats) {m n : Model}
    (hm : m.floats ⊆ floats) (hn : n.floats ⊆ floats) (h : m.text = n.text) : m = n :=
  toJson_injective (Json.compact_unique hdiffer (floatsIn_toJson hm) (floatsIn_toJson hn) h)

end Model

end LayerChain
