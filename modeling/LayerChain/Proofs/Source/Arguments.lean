import LayerChain.Proofs.Chain.Keys
import LayerChain.Proofs.Source.Faithful

/-!
# The arguments in declarations

The component of a layer in which all declared settings are set has every argument of its
constructor once, in canonical order (`Component.keywords_ofLayer`). The components of a model are
those of its layers and of their activations (`Model.mem_componentsFrom`,
`Model.ofLayer_mem_componentsFrom`).
-/

namespace LayerChain

/-- The keywords of a constructor's arguments in canonical order: those of the declared settings,
without the activation. -/
def Descriptor.keywords (descriptor : Descriptor) : List String :=
  (descriptor.fields.filter fun f => f.role ≠ .activation).map Field.argument

lemma Catalog.nodup_keywords (kind : Kind) : (describe kind).keywords.Nodup := by
  cases kind <;> decide

lemma Settings.exists_get?_of_mem_keys {settings : Settings} {key : String}
    (h : key ∈ settings.keys) : ∃ v, settings.get? key = some v := by
  obtain ⟨e, he, rfl⟩ := List.mem_map.1 h
  cases hget : settings.get? e.1 with
  | some v => exact ⟨v, rfl⟩
  | none =>
    have hnone := List.find?_eq_none.1 (Option.map_eq_none_iff.1 hget) e he
    exact absurd (beq_self_eq_true e.1) hnone

namespace Component

/-- Where all declared settings are set, none of the arguments is missing. -/
lemma keywords_layerArguments {descriptor : Descriptor} {settings : Settings}
    (h : ∀ key ∈ descriptor.fieldNames, key ∈ settings.keys) :
    (layerArguments descriptor settings).map Prod.fst = descriptor.keywords := by
  have hset : ∀ f ∈ descriptor.fields, ∃ v, settings.get? f.name = some v :=
    fun f hf => Settings.exists_get?_of_mem_keys (h _ (List.mem_map_of_mem hf))
  rw [layerArguments, Descriptor.keywords]
  generalize descriptor.fields = fields at hset
  induction fields with
  | nil => rfl
  | cons f fields ih =>
    obtain ⟨⟨v, hv⟩, hset⟩ := List.forall_mem_cons.1 hset
    by_cases hrole : f.role = .activation
    · simp [hrole, ih hset]
    · simp [hrole, hv, ih hset]

/-- The component of a layer with all declared settings has all arguments of its constructor. -/
theorem keywords_ofLayer {layer : Layer} {log : List String} (h : layer.Keyed log)
    (position : Nat) :
    (ofLayer position layer.kind layer.settings).arguments.map Prod.fst =
      layer.descriptor.keywords :=
  keywords_layerArguments fun _ hkey => h.mem_keys hkey

lemma nodup_activationArguments (name : String) :
    ((activationArguments name).map Prod.fst).Nodup := by
  unfold activationArguments
  split_ifs
  · exact List.nodup_singleton _
  · exact List.nodup_nil

end Component

namespace Model

/-- A component of a list of layers stands for one of the layers or for its activation. -/
lemma mem_componentsFrom {position : Nat} {layers : List ModelLayer} {cs : List Component}
    (h : componentsFrom position layers = .ok cs) {c : Component} (hc : c ∈ cs) :
    ∃ i l kind, layers[i]? = some l ∧ Kind.ofName? l.kind = some kind ∧
      (c = .ofLayer (position + i) kind l.settings ∨
        ∃ name, Component.activation? kind l.settings = some name ∧
          c = .ofActivation (position + i) name) := by
  induction layers generalizing position cs with
  | nil =>
    cases h
    cases hc
  | cons first layers ih =>
    obtain ⟨kind, others, hkind, -, hothers, rfl⟩ := exists_components h
    rcases List.mem_cons.1 hc with rfl | hc
    · exact ⟨0, first, kind, rfl, hkind, .inl rfl⟩
    · rcases List.mem_append.1 hc with hc | hc
      · obtain ⟨name, hname, rfl⟩ := Option.map_eq_some_iff.1 (Option.mem_toList.1 hc)
        exact ⟨0, first, kind, rfl, hkind, .inr ⟨name, hname, rfl⟩⟩
      · obtain ⟨i, l, kind', hl, hkind', hor⟩ := ih hothers hc
        rw [Nat.add_right_comm] at hor
        exact ⟨i + 1, l, kind', hl, hkind', hor⟩

/-- The components of a layer are a block among those of its list. -/
lemma exists_block_at {position i : Nat} {layers : List ModelLayer} {layer : ModelLayer}
    {cs : List Component} (h : componentsFrom position layers = .ok cs)
    (hat : layers[i]? = some layer) :
    ∃ before block behind, layer.components (position + i) = .ok block ∧
      cs = before ++ (block ++ behind) := by
  induction layers generalizing position i cs with
  | nil => cases hat
  | cons first layers ih =>
    obtain ⟨block, hblock, h⟩ := bind_eq_ok.1 h
    obtain ⟨others, hothers, h⟩ := bind_eq_ok.1 h
    cases h
    cases i with
    | zero =>
      cases hat
      exact ⟨[], block, others, hblock, rfl⟩
    | succ i =>
      obtain ⟨before, block', behind, hblock', rfl⟩ := ih hothers hat
      rw [Nat.add_right_comm] at hblock'
      exact ⟨block ++ before, block', behind, hblock', (List.append_assoc _ _ _).symm⟩

/-- Every layer of a list has its component. -/
lemma ofLayer_mem_componentsFrom {position i : Nat} {layers : List ModelLayer}
    {cs : List Component} (h : componentsFrom position layers = .ok cs) {l : ModelLayer}
    {kind : Kind} (hl : layers[i]? = some l) (hkind : Kind.ofName? l.kind = some kind) :
    .ofLayer (position + i) kind l.settings ∈ cs := by
  obtain ⟨before, block, behind, hblock, rfl⟩ := exists_block_at h hl
  obtain ⟨kind', hkind', -, rfl⟩ := ModelLayer.components_eq_ok hblock
  obtain rfl := Option.some.inj (hkind'.symm.trans hkind)
  exact List.mem_append_right _ (List.mem_append_left _ List.mem_cons_self)

end Model

/-! ## The components of a chain -/

namespace Chain

/-- The components of a chain: each layer has its own, with all arguments of its constructor, and
all others stand for activations. None has an argument twice. -/
structure DeclaredBy (chain : Chain) (cs : List Component) : Prop where
  layer_mem : ∀ position layer, chain.at? position = some layer →
    .ofLayer position layer.kind layer.settings ∈ cs
  arguments : ∀ c ∈ cs, ∃ position layer, chain.at? position = some layer ∧
    (c = .ofLayer position layer.kind layer.settings ∧
        c.arguments.map Prod.fst = layer.descriptor.keywords ∨
      ∃ name, Component.activation? layer.kind layer.settings = some name ∧
        c = .ofActivation position name)
  nodup : ∀ c ∈ cs, (c.arguments.map Prod.fst).Nodup

variable {chain : Chain} {cs : List Component}

/-- A chain whose layers have all declared settings is declared by the components of its model. -/
theorem declaredBy_components (hkeyed : ∀ layer ∈ chain.layers, ∃ log, layer.Keyed log)
    (h : (Model.ofChain chain).components = .ok cs) : chain.DeclaredBy cs := by
  have hmodel : ∀ i, ((Model.ofChain chain).layers)[i]? =
      (chain.at? i).map ModelLayer.ofLayer := fun i => List.getElem?_map
  have harguments : ∀ c ∈ cs, ∃ position layer, chain.at? position = some layer ∧
      (c = .ofLayer position layer.kind layer.settings ∧
          c.arguments.map Prod.fst = layer.descriptor.keywords ∨
        ∃ name, Component.activation? layer.kind layer.settings = some name ∧
          c = .ofActivation position name) := by
    intro c hc
    obtain ⟨i, l, kind, hl, hkind, hor⟩ := Model.mem_componentsFrom h hc
    rw [hmodel] at hl
    obtain ⟨layer, hat, rfl⟩ := Option.map_eq_some_iff.1 hl
    obtain rfl : layer.kind = kind := Option.some.inj ((Kind.ofName?_name _).symm.trans hkind)
    rw [Nat.zero_add] at hor
    refine ⟨i, layer, hat, hor.imp (fun hown => ⟨hown, ?_⟩) id⟩
    obtain ⟨log, hlog⟩ := hkeyed layer (List.mem_of_getElem? hat)
    rw [hown]
    exact Component.keywords_ofLayer hlog i
  refine ⟨?_, harguments, ?_⟩
  · intro position layer hat
    have hl : ((Model.ofChain chain).layers)[position]? = some (ModelLayer.ofLayer layer) := by
      rw [hmodel, hat]
      rfl
    have hmem := Model.ofLayer_mem_componentsFrom h hl (Kind.ofName?_name layer.kind)
    rwa [Nat.zero_add] at hmem
  · intro c hc
    obtain ⟨position, layer, -, ⟨-, hkeywords⟩ | ⟨name, -, rfl⟩⟩ := harguments c hc
    · rw [hkeywords]
      exact Catalog.nodup_keywords layer.kind
    · exact Component.nodup_activationArguments name

end Chain

end LayerChain
