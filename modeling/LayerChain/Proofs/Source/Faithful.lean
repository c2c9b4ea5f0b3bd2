import LayerChain.Proofs.Model.Texts
import LayerChain.Proofs.Results
import LayerChain.Proofs.Source.Declarations

/-!
# Faithful source

The source of a model shows the kind of each layer, its declared settings and its activation, and
nothing else: two models for which source is generated have the same source iff their layers are
alike one by one (`Generator.generate_faithful`). In one direction, alike layers have the same
components. In the other, the declarations of a module are read from the first to the last: the
name of a component says whether it stands for a layer, and of which kind, or for an activation, and
the arguments of a layer's component say which of the declared settings are present.
-/

namespace LayerChain

/-- A kind is found by its own name only. -/
lemma Kind.eq_name_of_ofName? {name : String} {kind : Kind} (h : ofName? name = some kind) :
    name = kind.name := by
  have hfound := List.find?_some h
  exact (beq_iff_eq.1 hfound).symm

namespace ModelLayer

/-- An activation of a layer takes effect: it is chosen, it is another one than `None`, and the layer
is dense or a convolution. -/
def Activates (layer : ModelLayer) (name : String) : Prop :=
  (layer.kind = "Dense" ∨ layer.kind = "SpatialConv") ∧
    layer.settings.get? "activation" = some (.choice name) ∧ name ≠ "None"

/-- Two layers say the same as far as source shows it: they are of one kind, each setting that the
kind declares is absent in both or the same in both, and the same activation, if any, takes effect
in both. -/
structure Alike (l l' : ModelLayer) : Prop where
  kind : l.kind = l'.kind
  settings : ∀ kind, Kind.ofName? l.kind = some kind → ∀ f ∈ (Catalog.describe kind).fields,
    f.role ≠ .activation → l.settings.get? f.name = l'.settings.get? f.name
  activation : ∀ name, l.Activates name ↔ l'.Activates name

lemma Alike.refl (layer : ModelLayer) : layer.Alike layer :=
  ⟨rfl, fun _ _ _ _ _ => rfl, fun _ => .rfl⟩

/-- The activation that the generator finds is the one that takes effect. -/
lemma activation?_eq_some_iff {layer : ModelLayer} {kind : Kind}
    (h : Kind.ofName? layer.kind = some kind) {name : String} :
    Component.activation? kind layer.settings = some name ↔ layer.Activates name := by
  have hkind : (Catalog.describe kind).hasActivation = true ↔
      layer.kind = "Dense" ∨ layer.kind = "SpatialConv" := by
    rw [Kind.eq_name_of_ofName? h]
    cases kind <;> decide
  rw [Activates, ← hkind, Component.activation?]
  cases (Catalog.describe kind).hasActivation with
  | false => simp
  | true =>
    have hkey : Catalog.activationKey = "activation" := rfl
    have hnone : Catalog.noActivation = "None" := rfl
    rw [hkey, hnone]
    cases layer.settings.get? "activation" with
    | none => simp
    | some v =>
      cases v with
      | choice chosen =>
        show (if chosen = "None" then none else some chosen) = some name ↔ _
        split_ifs with hchosen
        · constructor
          · rintro ⟨⟩
          · rintro ⟨-, ⟨⟩, hname⟩
            exact absurd hchosen hname
        · constructor
          · rintro ⟨⟩
            exact ⟨rfl, rfl, hchosen⟩
          · rintro ⟨-, ⟨⟩, -⟩
            rfl
      | bool b => simp [SettingValue.choice?]
      | int n => simp [SettingValue.choice?]
      | float x => simp [SettingValue.choice?]
      | auto => simp [SettingValue.choice?]

end ModelLayer

/-! ## The components of a layer -/

namespace Component

variable {floats : List Binary64} {kind kind' : Kind} {settings settings' : Settings}
  {position : Nat}

lemma mem_layerArguments {descriptor : Descriptor} {a : String × String}
    (h : a ∈ layerArguments descriptor settings) : ∃ f ∈ descriptor.fields,
      ∃ v, settings.get? f.name = some v ∧ a = (f.argument, PythonLiteral.ofValue v) := by
  obtain ⟨f, hf, ha⟩ := List.mem_filterMap.1 h
  split_ifs at ha
  obtain ⟨v, hv, rfl⟩ := Option.map_eq_some_iff.1 ha
  exact ⟨f, hf, v, hv, rfl⟩

/-- The component of a layer has plain names, and its literals are those of settings. -/
lemma plain_ofLayer (position : Nat) (kind : Kind) (h : settings.floats ⊆ floats) :
    (ofLayer position kind settings).Plain floats := by
  have hstem : IdentifierText (Catalog.describe kind).stem := by
    cases kind <;> exact forall_mem_of_all (by decide)
  have hclass : IdentifierText kind.className := by
    cases kind <;> exact forall_mem_of_all (by decide)
  have hkeywords : ∀ f ∈ (Catalog.describe kind).fields,
      f.argument.toList.all Component.continuesIdentifier = true := by
    cases kind <;> decide
  refine ⟨hstem.append (identifierText_position position), hclass, ?_, ?_⟩
  · intro a ha
    obtain ⟨f, hf, v, -, rfl⟩ := mem_layerArguments ha
    exact List.all_eq_true.1 (hkeywords f hf)
  · intro a ha
    obtain ⟨f, -, v, hv, rfl⟩ := mem_layerArguments ha
    refine ⟨v, rfl, ?_⟩
    rintro x rfl
    exact h (Settings.mem_floats hv)

lemma plain_ofActivation (position : Nat) {name : String} (h : isIdentifier name = true) :
    (ofActivation position name).Plain floats := by
  have hstem : IdentifierText "act" := forall_mem_of_all (by decide)
  have hdim : ∀ a ∈ activationArguments name, a = ("dim", "1") := by
    intro a ha
    unfold activationArguments at ha
    split_ifs at ha
    · exact List.mem_singleton.1 ha
    · cases ha
  refine ⟨hstem.append (identifierText_position position), identifierText_of_isIdentifier h, ?_, ?_⟩
  · intro a ha
    rw [hdim a ha]
    exact forall_mem_of_all (by decide)
  · intro a ha
    rw [hdim a ha]
    refine ⟨.int 1, by decide, ?_⟩
    rintro x ⟨⟩

/-! ### Names -/

/-- The stems of all component names are without digits, so that the position is told from them. -/
lemma stem_unique {stem stem' : String} (hs : ∀ c ∈ stem.toList, c.isDigit = false)
    (hs' : ∀ c ∈ stem'.toList, c.isDigit = false) {position position' : Nat}
    (h : stem ++ toString position = stem' ++ toString position') : stem = stem' := by
  have hchars := congrArg String.toList h
  rw [String.toList_append, String.toList_append] at hchars
  have hletters : ∀ cs : List Char, (∀ c ∈ cs, c.isDigit = false) → ∀ c ∈ cs, (!c.isDigit) = true :=
    fun cs hcs c hc => by rw [hcs c hc]; rfl
  have hposition : ∀ n : Nat, ∀ c ∈ (toString n).toList.head?, (!c.isDigit) = false := by
    intro n c hc
    rw [isDigit_of_mem_position (List.mem_of_mem_head? hc)]
    rfl
  exact String.toList_injective
    (span_unique (hletters _ hs) (hletters _ hs') (hposition _) (hposition _) hchars).1

lemma stem_not_digit (kind : Kind) :
    ∀ c ∈ (Catalog.describe kind).stem.toList, c.isDigit = false := by
  cases kind <;> exact forall_mem_of_all (by decide)

lemma kind_eq_of_name {position' : Nat}
    (h : (ofLayer position kind settings).name = (ofLayer position' kind' settings').name) :
    kind = kind' := by
  have hstem := stem_unique (stem_not_digit kind) (stem_not_digit kind') h
  revert hstem
  cases kind <;> cases kind' <;> decide

lemma name_ne_activation {position' : Nat} {name : String} :
    (ofLayer position kind settings).name ≠ (ofActivation position' name).name := by
  intro h
  have hstem := stem_unique (stem_not_digit kind) (forall_mem_of_all (by decide)) h
  revert hstem
  cases kind <;> decide

/-! ### Arguments -/

/-- Values under distinct keys, some of which are missing, are told from the list of those that are
present. -/
lemma eq_of_present_eq {α κ ν : Type} {key : α → κ} {f g : α → Option ν} {as : List α}
    (hnodup : (as.map key).Nodup)
    (h : (as.filterMap fun a => (f a).map (key a, ·)) =
      as.filterMap fun a => (g a).map (key a, ·)) :
    ∀ a ∈ as, f a = g a := by
  have hkey : ∀ (f : α → Option ν) (as : List α) (k : κ) (v : ν),
      (k, v) ∈ (as.filterMap fun a => (f a).map (key a, ·)) → k ∈ as.map key := by
    intro f as k v hm
    obtain ⟨a, ha, hv⟩ := List.mem_filterMap.1 hm
    obtain ⟨w, -, hw⟩ := Option.map_eq_some_iff.1 hv
    rw [← (Prod.mk.inj hw).1]
    exact List.mem_map_of_mem ha
  induction as with
  | nil => simp
  | cons a as ih =>
    obtain ⟨ha, hnodup⟩ := List.nodup_cons.1 hnodup
    rw [List.filterMap_cons, List.filterMap_cons] at h
    -- a value that is present on one side only would be found again behind
    cases hf : f a with
    | none =>
      cases hg : g a with
      | none =>
        rw [hf, hg] at h
        exact List.forall_mem_cons.2 ⟨hf.trans hg.symm, ih hnodup h⟩
      | some w =>
        simp only [hf, hg, Option.map_none, Option.map_some] at h
        exact absurd (hkey f as (key a) w (h ▸ List.mem_cons_self)) ha
    | some v =>
      cases hg : g a with
      | none =>
        simp only [hf, hg, Option.map_none, Option.map_some] at h
        exact absurd (hkey g as (key a) v (h ▸ List.mem_cons_self)) ha
      | some w =>
        rw [hf, hg] at h
        obtain ⟨hhead, hrest⟩ := List.cons.inj h
        have hvw : v = w := (Prod.mk.inj hhead).2
        exact List.forall_mem_cons.2 ⟨by rw [hf, hg, hvw], ih hnodup hrest⟩

/-- The literal of a declared setting that is no activation. -/
def literal? (settings : Settings) (f : Field) : Option String :=
  if f.role = .activation then none else (settings.get? f.name).map PythonLiteral.ofValue

lemma layerArguments_eq (descriptor : Descriptor) (settings : Settings) :
    layerArguments descriptor settings =
      descriptor.fields.filterMap fun f => (literal? settings f).map (f.argument, ·) := by
  refine List.filterMap_congr fun f hf => ?_
  rw [literal?]
  split_ifs
  · rfl
  · rw [Option.map_map]
    rfl

/-- The arguments of a layer's component say which declared settings are present, and their
values. -/
lemma get?_eq_of_layerArguments_eq (hfloats : TextsDiffer .literal floats)
    (hs : settings.floats ⊆ floats) (hs' : settings'.floats ⊆ floats)
    (h : layerArguments (Catalog.describe kind) settings =
      layerArguments (Catalog.describe kind) settings') :
    ∀ f ∈ (Catalog.describe kind).fields, f.role ≠ .activation →
      settings.get? f.name = settings'.get? f.name := by
  have hnodup : ((Catalog.describe kind).fields.map Field.argument).Nodup := by
    cases kind <;> decide
  rw [layerArguments_eq, layerArguments_eq] at h
  intro f hf hrole
  have hliteral := eq_of_present_eq hnodup h f hf
  rw [literal?, literal?, if_neg hrole, if_neg hrole] at hliteral
  cases hv : settings.get? f.name with
  | none =>
    rw [hv] at hliteral
    exact (Option.map_eq_none_iff.1 hliteral.symm).symm
  | some v =>
    rw [hv] at hliteral
    obtain ⟨w, hw, hvw⟩ := Option.map_eq_some_iff.1 hliteral.symm
    have hdiffer : ∀ x y, v = .float x → w = .float y →
        Layout.literal.text x = Layout.literal.text y → x = y := by
      rintro x y rfl rfl
      exact hfloats x (hs (Settings.mem_floats hv)) y (hs' (Settings.mem_floats hw))
    rw [hw, PythonLiteral.eq_of_ofValue_eq hdiffer hvw.symm]

end Component

/-! ## The components of a list of layers -/

namespace ModelLayer

/-- The component of a layer's activation, if it has one. -/
def activationComponents (position : Nat) (kind : Kind) (settings : Settings) : List Component :=
  ((Component.activation? kind settings).map (Component.ofActivation position)).toList

lemma components_eq_ok {layer : ModelLayer} {position : Nat} {cs : List Component}
    (h : layer.components position = .ok cs) : ∃ kind, Kind.ofName? layer.kind = some kind ∧
      (∀ name, Component.activation? kind layer.settings = some name →
        Component.isIdentifier name = true) ∧
      cs = Component.ofLayer position kind layer.settings ::
        activationComponents position kind layer.settings := by
  unfold components at h
  cases hk : Kind.ofName? layer.kind with
  | none =>
    rw [hk] at h
    cases h
  | some kind =>
    rw [hk] at h
    refine ⟨kind, rfl, ?_⟩
    dsimp only at h
    rw [activationComponents]
    cases ha : Component.activation? kind layer.settings with
    | none =>
      rw [ha] at h
      cases h
      exact ⟨by simp, rfl⟩
    | some name =>
      rw [ha] at h
      dsimp only at h
      split_ifs at h with hidentifier
      cases h
      refine ⟨?_, rfl⟩
      rintro name' ⟨⟩
      exact hidentifier

/-- Alike layers have the same components at the same position. -/
lemma Alike.components_eq {l l' : ModelLayer} (h : l.Alike l') (position : Nat) :
    l.components position = l'.components position := by
  unfold components
  rw [← h.kind]
  cases hk : Kind.ofName? l.kind with
  | none => rfl
  | some kind =>
    have harguments : Component.layerArguments (Catalog.describe kind) l.settings =
        Component.layerArguments (Catalog.describe kind) l'.settings := by
      refine List.filterMap_congr fun f hf => ?_
      split_ifs with hrole
      · rfl
      · rw [h.settings kind hk f hf hrole]
    have hown : Component.ofLayer position kind l.settings =
        Component.ofLayer position kind l'.settings := by
      rw [Component.ofLayer, harguments]
      rfl
    have hactivation : Component.activation? kind l.settings =
        Component.activation? kind l'.settings := by
      refine Option.ext fun name => ?_
      rw [activation?_eq_some_iff hk, activation?_eq_some_iff (h.kind ▸ hk)]
      exact h.activation name
    dsimp only
    rw [hown, hactivation]

end ModelLayer

namespace Model

/-- The components of a list of layers start with those of its first layer. -/
lemma exists_components {position : Nat} {l : ModelLayer} {layers : List ModelLayer}
    {cs : List Component} (h : componentsFrom position (l :: layers) = .ok cs) :
    ∃ kind others, Kind.ofName? l.kind = some kind ∧
      (∀ name, Component.activation? kind l.settings = some name →
        Component.isIdentifier name = true) ∧
      componentsFrom (position + 1) layers = .ok others ∧
      cs = Component.ofLayer position kind l.settings ::
        (ModelLayer.activationComponents position kind l.settings ++ others) := by
  obtain ⟨first, hfirst, h⟩ := bind_eq_ok.1 h
  obtain ⟨others, hothers, h⟩ := bind_eq_ok.1 h
  obtain ⟨kind, hkind, hidentifier, rfl⟩ := ModelLayer.components_eq_ok hfirst
  cases h
  exact ⟨kind, others, hkind, hidentifier, hothers, rfl⟩

/-- All components of a list of layers are plain, and their literals are those of the settings. -/
lemma plain_of_componentsFrom {floats : List Binary64} {position : Nat} {layers : List ModelLayer}
    {cs : List Component} (hfloats : ∀ l ∈ layers, l.settings.floats ⊆ floats)
    (h : componentsFrom position layers = .ok cs) : ∀ c ∈ cs, c.Plain floats := by
  induction layers generalizing position cs with
  | nil =>
    cases h
    simp
  | cons l layers ih =>
    obtain ⟨hl, hlayers⟩ := List.forall_mem_cons.1 hfloats
    obtain ⟨kind, others, -, hidentifier, hothers, rfl⟩ := exists_components h
    refine List.forall_mem_cons.2 ⟨Component.plain_ofLayer position kind hl, ?_⟩
    refine List.forall_mem_append.2 ⟨?_, ih hlayers hothers⟩
    intro c hc
    obtain ⟨name, hname, rfl⟩ := Option.map_eq_some_iff.1 (Option.mem_toList.1 hc)
    exact Component.plain_ofActivation position (hidentifier name hname)

/-- The components of a list of layers do not start with one that stands for an activation. -/
lemma declared_ne_activation {position position' : Nat} {layers : List ModelLayer}
    {cs : List Component} (h : componentsFrom position layers = .ok cs) (name : String)
    (rest : List (String × String × List (String × String))) :
    cs.map Component.declared ≠ (Component.ofActivation position' name).declared :: rest := by
  cases layers with
  | nil =>
    cases h
    simp
  | cons l layers =>
    obtain ⟨kind, others, -, -, -, rfl⟩ := exists_components h
    intro hdeclared
    have hname := (Prod.mk.inj (List.cons.inj hdeclared).1).1
    exact Component.name_ne_activation hname

/-- What is declared between a layer and the layers behind it says what its activation is. -/
lemma activation_unique {position next : Nat} {kind kind' : Kind} {settings settings' : Settings}
    {layers layers' : List ModelLayer} {cs ds : List Component}
    (hcs : componentsFrom next layers = .ok cs) (hds : componentsFrom next layers' = .ok ds)
    (h : (ModelLayer.activationComponents position kind settings ++ cs).map Component.declared =
      (ModelLayer.activationComponents position kind' settings' ++ ds).map Component.declared) :
    Component.activation? kind settings = Component.activation? kind' settings' ∧
      cs.map Component.declared = ds.map Component.declared := by
  rw [ModelLayer.activationComponents, ModelLayer.activationComponents] at h
  cases ha : Component.activation? kind settings with
  | none =>
    cases ha' : Component.activation? kind' settings' with
    | none =>
      rw [ha, ha'] at h
      exact ⟨rfl, h⟩
    | some name =>
      rw [ha, ha'] at h
      exact absurd h (declared_ne_activation hcs name _)
  | some name =>
    cases ha' : Component.activation? kind' settings' with
    | none =>
      rw [ha, ha'] at h
      exact absurd h.symm (declared_ne_activation hds name _)
    | some name' =>
      rw [ha, ha'] at h
      obtain ⟨hhead, hrest⟩ := List.cons.inj h
      have hclass := (Prod.mk.inj (Prod.mk.inj hhead).2).1
      exact ⟨congrArg some hclass, hrest⟩

/-- Where two lists of layers have components that declare the same, the layers are alike. -/
theorem alike_of_declared_eq {floats : List Binary64} (hdiffer : TextsDiffer .literal floats)
    {position : Nat} {layers layers' : List ModelLayer} {cs ds : List Component}
    (hfloats : ∀ l ∈ layers, l.settings.floats ⊆ floats)
    (hfloats' : ∀ l ∈ layers', l.settings.floats ⊆ floats)
    (hcs : componentsFrom position layers = .ok cs) (hds : componentsFrom position layers' = .ok ds)
    (h : cs.map Component.declared = ds.map Component.declared) :
    List.Forall₂ ModelLayer.Alike layers layers' := by
  induction layers generalizing position layers' cs ds with
  | nil =>
    cases hcs
    cases layers' with
    | nil => exact .nil
    | cons l' layers' =>
      obtain ⟨kind', others', -, -, -, rfl⟩ := exists_components hds
      cases h
  | cons l layers ih =>
    obtain ⟨kind, others, hkind, -, hothers, rfl⟩ := exists_components hcs
    cases layers' with
    | nil =>
      cases hds
      cases h
    | cons l' layers' =>
      obtain ⟨kind', others', hkind', -, hothers', rfl⟩ := exists_components hds
      obtain ⟨hl, hlayers⟩ := List.forall_mem_cons.1 hfloats
      obtain ⟨hl', hlayers'⟩ := List.forall_mem_cons.1 hfloats'
      -- the name says the kind, the arguments the settings, and what follows the activation
      obtain ⟨hown, hrest⟩ := List.cons.inj h
      obtain ⟨hname, hdeclared⟩ := Prod.mk.inj hown
      obtain rfl := Component.kind_eq_of_name hname
      have harguments := (Prod.mk.inj hdeclared).2
      have hsettings := Component.get?_eq_of_layerArguments_eq hdiffer hl hl' harguments
      obtain ⟨hactivation, hothers_eq⟩ := activation_unique hothers hothers' hrest
      refine .cons ⟨?_, ?_, ?_⟩ (ih hlayers hlayers' hothers hothers' hothers_eq)
      · rw [Kind.eq_name_of_ofName? hkind, Kind.eq_name_of_ofName? hkind']
      · intro k hk
        obtain rfl := Option.some.inj (hkind.symm.trans hk)
        exact hsettings
      · intro name
        rw [← ModelLayer.activation?_eq_some_iff hkind, ← ModelLayer.activation?_eq_some_iff hkind',
          hactivation]

/-- Alike layers have the same components. -/
theorem componentsFrom_eq_of_alike {layers layers' : List ModelLayer}
    (h : List.Forall₂ ModelLayer.Alike layers layers') (position : Nat) :
    componentsFrom position layers = componentsFrom position layers' := by
  induction h generalizing position with
  | nil => rfl
  | cons hl _ ih => rw [componentsFrom, componentsFrom, hl.components_eq, ih]

end Model

/-! ## The source of a model -/

/-- Generated source is faithful: where one generator succeeds on two models, the sources are the
same iff the layers of the models are alike one by one. The floating-point numbers of the models
have different texts. -/
theorem Generator.generate_faithful (generator : Generator) {m n : Model} {s t : String}
    (hm : generator.generate m = .ok s) (hn : generator.generate n = .ok t)
    (hdiffer : TextsDiffer .literal (m.floats ++ n.floats)) :
    s = t ↔ List.Forall₂ ModelLayer.Alike m.layers n.layers := by
  obtain ⟨cs, hcs, rfl⟩ := map_eq_ok.1 hm
  obtain ⟨ds, hds, rfl⟩ := map_eq_ok.1 hn
  have hfloats : ∀ l ∈ m.layers, l.settings.floats ⊆ m.floats ++ n.floats :=
    fun l hl x hx => List.mem_append_left _ (Model.floats_subset hl hx)
  have hfloats' : ∀ l ∈ n.layers, l.settings.floats ⊆ m.floats ++ n.floats :=
    fun l hl x hx => List.mem_append_right _ (Model.floats_subset hl hx)
  constructor
  · intro h
    have hplain := Model.plain_of_componentsFrom hfloats hcs
    have hplain' := Model.plain_of_componentsFrom hfloats' hds
    have hdeclared := moduleLines_declared_unique hdiffer hplain hplain' h
    exact Model.alike_of_declared_eq hdiffer hfloats hfloats' hcs hds hdeclared
  · intro h
    have hcomponents : m.components = n.components := Model.componentsFrom_eq_of_alike h 0
    rw [hcs, hds] at hcomponents
    rw [Except.ok.inj hcomponents]

/-- A model of a dense layer and of a dropout layer behind it. -/
def quotingModel (inputDimension : UInt64) (entries : List (String × SettingValue)) : Model :=
  ⟨inputDimension,
    [⟨"Dense", .ofList entries⟩, ⟨"Dropout", .ofList [("p", Catalog.real 5 (-1))]⟩]⟩

/-- The source is the same for settings in another order and with one that is not declared. It is
another one where a choice that reads like two arguments is split into two, and where another
activation is chosen. -/
theorem generate_faithful_on_quotes :
    let first := quotingModel 4
      [("outFeatures", .choice "1\", bias=\"x"), ("activation", .choice "ReLU")]
    let reordered := quotingModel 784 [("activation", .choice "ReLU"), ("note", .choice "\"), x"),
      ("outFeatures", .choice "1\", bias=\"x")]
    let split := quotingModel 4
      [("outFeatures", .choice "1"), ("bias", .choice "x"), ("activation", .choice "ReLU")]
    let other := quotingModel 4
      [("outFeatures", .choice "1\", bias=\"x"), ("activation", .choice "Tanh")]
    ∃ s t u v, (default : Generator).generate first = .ok s ∧
      (default : Generator).generate reordered = .ok t ∧
      (default : Generator).generate split = .ok u ∧
      (default : Generator).generate other = .ok v ∧ s = t ∧ s ≠ u ∧ s ≠ v := by
  intro first reordered split other
  obtain ⟨hreordered, hsplit, hother⟩ : TextsDiffer .literal (first.floats ++ reordered.floats) ∧
      TextsDiffer .literal (first.floats ++ split.floats) ∧
      TextsDiffer .literal (first.floats ++ other.floats) := by
    unfold TextsDiffer
    decide +kernel
  refine ⟨_, _, _, _, rfl, rfl, rfl, rfl, ?_, ?_, ?_⟩
  · refine (Generator.generate_faithful default rfl rfl hreordered).2
      (.cons ⟨rfl, ?_, fun name => .rfl⟩ (.cons (.refl _) .nil))
    intro kind hk
    obtain rfl : Kind.dense = kind := Option.some.inj hk
    decide +kernel
  · intro h
    have halike := (Generator.generate_faithful default rfl rfl hsplit).1 h
    obtain ⟨hdense, -⟩ := List.forall₂_cons.1 halike
    have hbias := hdense.settings .dense rfl (Catalog.userField "bias" "bias" (.bool true))
      (by decide) (by decide)
    exact absurd hbias (by decide +kernel)
  · intro h
    have halike := (Generator.generate_faithful default rfl rfl hother).1 h
    obtain ⟨hdense, -⟩ := List.forall₂_cons.1 halike
    obtain ⟨-, hactivation, -⟩ := (hdense.activation "ReLU").1 ⟨.inl rfl, rfl, by decide⟩
    exact absurd hactivation (by decide +kernel)

end LayerChain
