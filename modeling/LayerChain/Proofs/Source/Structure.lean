import LayerChain.Proofs.Source.Arguments
import LayerChain.Proofs.Source.Lines

/-!
# The structure of a generated module

A module consists of blocks of components, one block for each layer: the component of the layer and,
if the layer has an activation that takes effect, the component of that (`ModelLayer.IsBlock`). A
block depends on its layer and on the position alone. Since the names of components end with the
position and begin with a stem without digits, all names are different
(`Model.nodup_names_componentsFrom`).

`Generator.structure_of_generate` says so of the source as a text: the constructor has one line for
each component, forward has one line for each of them in the same order, and there is nothing else.
How the components of the seven kinds look is written out in a table (`appearances`), apart from the
catalog.
-/

namespace LayerChain

/-! ## What a component shows -/

/-- How the components of a layer kind look. -/
structure Appearance where
  /-- The name of the kind. -/
  kind : String
  /-- What the names of the components begin with. -/
  stem : String
  /-- Their class, in the module `nn`. -/
  className : String
  /-- The settings that are arguments of the constructor, each with its keyword, in canonical
  order. -/
  arguments : List (String × String)
deriving DecidableEq

/-- The seven kinds of layers. -/
def appearances : List Appearance := [
  ⟨"Dense", "fc", "Linear",
    [("inFeatures", "in_features"), ("outFeatures", "out_features"), ("bias", "bias")]⟩,
  ⟨"SpatialConv", "conv", "Conv2d",
    [("inChannels", "in_channels"), ("outChannels", "out_channels"),
      ("kernelSize", "kernel_size"), ("stride", "stride"), ("padding", "padding")]⟩,
  ⟨"SpatialBatchNorm", "bn", "BatchNorm2d",
    [("numFeatures", "num_features"), ("eps", "eps"), ("momentum", "momentum"),
      ("affine", "affine")]⟩,
  ⟨"Dropout", "dropout", "Dropout",
    [("p", "p"), ("inplace", "inplace")]⟩,
  ⟨"MultiHeadAttention", "attn", "MultiheadAttention",
    [("embedDim", "embed_dim"), ("numHeads", "num_heads"), ("dropout", "dropout"),
      ("batchFirst", "batch_first")]⟩,
  ⟨"SpatialMaxPool", "pool", "MaxPool2d",
    [("kernelSize", "kernel_size"), ("stride", "stride"), ("padding", "padding")]⟩,
  ⟨"Flatten", "flatten", "Flatten",
    [("startDim", "start_dim"), ("endDim", "end_dim")]⟩]

namespace Component

/-- A component is the one of a layer at a position, of a kind that looks so. It is named after the
kind and the position, and its class is the one of the kind. Its arguments are the settings of the
kind that are present, without the activation, each once and in canonical order. Forward calls it,
but for an attention the call is a comment. -/
structure ShowsLayer (c : Component) (layer : ModelLayer) (position : Nat) (look : Appearance) :
    Prop where
  look_mem : look ∈ appearances
  kind_eq : layer.kind = look.kind
  name_eq : c.name = look.stem ++ toString position
  className_eq : c.className = look.className
  present : ∀ a ∈ look.arguments, ∀ literal, (a.2, literal) ∈ c.arguments ↔
    ∃ v, layer.settings.get? a.1 = some v ∧ literal = PythonLiteral.ofValue v
  order : (c.arguments.map Prod.fst).Sublist (look.arguments.map Prod.snd)
  once : (c.arguments.map Prod.fst).Nodup
  application_eq : c.application =
    if look.kind = "MultiHeadAttention" then "# x, _ = self." ++ c.name ++ "(x, x, x)"
    else "x = self." ++ c.name ++ "(x)"

/-- A component is the one of an activation that takes effect at a position. -/
structure ShowsActivation (c : Component) (layer : ModelLayer) (position : Nat)
    (activation : String) : Prop where
  activates : layer.Activates activation
  name_eq : c.name = "act" ++ toString position
  className_eq : c.className = activation
  arguments_eq : c.arguments =
    if activation = "Softmax" ∨ activation = "LogSoftmax" then [("dim", "1")] else []
  application_eq : c.application = "x = self." ++ c.name ++ "(x)"

end Component

/-- Some components are those of a layer at a position: the one of the layer itself, and behind it
the one of its activation iff an activation takes effect. -/
inductive ModelLayer.IsBlock (layer : ModelLayer) (position : Nat) : List Component → Prop where
  | plain {look : Appearance} {own : Component} (shown : own.ShowsLayer layer position look)
    (inactive : ∀ name, ¬layer.Activates name) : IsBlock layer position [own]
  | activated {look : Appearance} {own act : Component} {name : String}
    (shown : own.ShowsLayer layer position look)
    (activation : act.ShowsActivation layer position name) : IsBlock layer position [own, act]

/-! ## Blocks -/

/-- How the components of a kind look by its entry in the catalog. -/
def Kind.appearance (kind : Kind) : Appearance where
  kind := kind.name
  stem := (Catalog.describe kind).stem
  className := kind.className
  arguments := ((Catalog.describe kind).fields.filter fun f => f.role ≠ .activation).map
    fun f => (f.name, f.argument)

/-- The table is that of the catalog. -/
lemma Kind.map_appearance_all : all.map appearance = appearances := by decide

lemma Kind.appearance_mem (kind : Kind) : kind.appearance ∈ appearances := by
  rw [← map_appearance_all]
  exact List.mem_map_of_mem (mem_all kind)

namespace Component

variable {kind : Kind} {settings : Settings}

/-- The keywords of a layer's arguments stand in canonical order. -/
lemma keywords_layerArguments_sublist (descriptor : Descriptor) (settings : Settings) :
    ((layerArguments descriptor settings).map Prod.fst).Sublist descriptor.keywords := by
  rw [layerArguments, Descriptor.keywords]
  induction descriptor.fields with
  | nil => exact .slnil
  | cons f fields ih =>
    by_cases hrole : f.role = .activation
    · simpa [hrole] using ih
    · cases hget : settings.get? f.name with
      | none => simpa [hrole, hget] using ih.cons f.argument
      | some v => simpa [hrole, hget] using ih.cons_cons f.argument

/-- The arguments of a layer are the declared settings that are present. -/
lemma mem_layerArguments_iff {f : Field} (hf : f ∈ (Catalog.describe kind).fields)
    (hrole : f.role ≠ .activation) {literal : String} :
    (f.argument, literal) ∈ layerArguments (Catalog.describe kind) settings ↔
      ∃ v, settings.get? f.name = some v ∧ literal = PythonLiteral.ofValue v := by
  have hnodup : ((Catalog.describe kind).fields.map Field.argument).Nodup := by
    cases kind <;> decide
  constructor
  · intro h
    obtain ⟨f', hf', v, hv, he⟩ := mem_layerArguments h
    obtain ⟨hargument, hliteral⟩ := Prod.mk.inj he
    obtain rfl := List.inj_on_of_nodup_map hnodup hf hf' hargument
    exact ⟨v, hv, hliteral⟩
  · rintro ⟨v, hv, rfl⟩
    refine List.mem_filterMap.2 ⟨f, hf, ?_⟩
    rw [if_neg hrole, hv]
    rfl

lemma showsLayer_ofLayer {layer : ModelLayer} (h : Kind.ofName? layer.kind = some kind)
    (position : Nat) :
    (ofLayer position kind layer.settings).ShowsLayer layer position kind.appearance where
  look_mem := kind.appearance_mem
  kind_eq := Kind.eq_name_of_ofName? h
  name_eq := rfl
  className_eq := rfl
  present := by
    intro a ha literal
    obtain ⟨f, hf, rfl⟩ := List.mem_map.1 ha
    obtain ⟨hf, hrole⟩ := List.mem_filter.1 hf
    exact mem_layerArguments_iff hf (of_decide_eq_true hrole)
  order := by
    rw [Kind.appearance, List.map_map]
    exact keywords_layerArguments_sublist _ _
  once := (Catalog.nodup_keywords kind).sublist (keywords_layerArguments_sublist _ _)
  application_eq := by cases kind <;> rfl

lemma showsActivation_ofActivation {layer : ModelLayer} {name : String} (h : layer.Activates name)
    (position : Nat) : (ofActivation position name).ShowsActivation layer position name where
  activates := h
  name_eq := rfl
  className_eq := rfl
  arguments_eq := rfl
  application_eq := rfl

end Component

/-- The components that the generator makes of a layer are its block. -/
lemma ModelLayer.isBlock_of_components {layer : ModelLayer} {position : Nat} {cs : List Component}
    (h : layer.components position = .ok cs) : layer.IsBlock position cs := by
  obtain ⟨kind, hkind, -, rfl⟩ := components_eq_ok h
  have hown := Component.showsLayer_ofLayer hkind position
  rw [activationComponents]
  cases hactivation : Component.activation? kind layer.settings with
  | none =>
    refine .plain hown fun name hname => ?_
    rw [(activation?_eq_some_iff hkind).2 hname] at hactivation
    cases hactivation
  | some name =>
    have hname := (activation?_eq_some_iff hkind).1 hactivation
    exact .activated hown (Component.showsActivation_ofActivation hname position)

/-! ## Names -/

namespace Component

/-- A component is named after a position: its name is a stem without digits, and then the
position. -/
def NamedAt (c : Component) (position : Nat) : Prop :=
  ∃ stem : String, (∀ char ∈ stem.toList, char.isDigit = false) ∧
    c.name = stem ++ toString position

variable {c d : Component} {position position' : Nat}

lemma namedAt_ofLayer (position : Nat) (kind : Kind) (settings : Settings) :
    (ofLayer position kind settings).NamedAt position :=
  ⟨(Catalog.describe kind).stem, stem_not_digit kind, rfl⟩

lemma namedAt_ofActivation (position : Nat) (name : String) :
    (ofActivation position name).NamedAt position :=
  ⟨"act", forall_mem_of_all (by decide), rfl⟩

/-- A name says its position. -/
lemma NamedAt.position_unique (hc : c.NamedAt position) (hd : d.NamedAt position')
    (h : c.name = d.name) : position = position' := by
  obtain ⟨stem, hstem, hname⟩ := hc
  obtain ⟨stem', hstem', hname'⟩ := hd
  rw [hname, hname'] at h
  obtain rfl := stem_unique hstem hstem' h
  have hchars := congrArg String.toList h
  rw [String.toList_append, String.toList_append] at hchars
  have hdigits : ∀ n : Nat, (toString n).toList = Nat.toDigits 10 n := fun n => Nat.toList_repr
  have hsame := List.append_cancel_left hchars
  rw [hdigits, hdigits] at hsame
  exact toDigits_injective hsame

end Component

namespace Model

variable {position : Nat} {layers : List ModelLayer} {cs : List Component}

/-- The components of a list of layers are named after their positions. -/
lemma namedAt_of_componentsFrom (h : componentsFrom position layers = .ok cs) :
    ∀ c ∈ cs, ∃ i, position ≤ i ∧ c.NamedAt i := by
  intro c hc
  obtain ⟨i, l, kind, -, -, rfl | ⟨name, -, rfl⟩⟩ := mem_componentsFrom h hc
  · exact ⟨position + i, Nat.le_add_right _ _, Component.namedAt_ofLayer _ _ _⟩
  · exact ⟨position + i, Nat.le_add_right _ _, Component.namedAt_ofActivation _ _⟩

/-- All components of a list of layers have different names. -/
theorem nodup_names_componentsFrom (h : componentsFrom position layers = .ok cs) :
    (cs.map Component.name).Nodup := by
  induction layers generalizing position cs with
  | nil =>
    cases h
    exact List.nodup_nil
  | cons l layers ih =>
    obtain ⟨kind, others, -, -, hothers, rfl⟩ := exists_components h
    -- a component at this position has another name than all that come behind it
    have hbehind : ∀ c : Component, c.NamedAt position → ∀ d ∈ others, c.name ≠ d.name := by
      intro c hc d hd hname
      obtain ⟨i, hi, hdi⟩ := namedAt_of_componentsFrom hothers d hd
      have hposition := hc.position_unique hdi hname
      omega
    have hactivations : ∀ c ∈ ModelLayer.activationComponents position kind l.settings,
        ∃ name, c = .ofActivation position name := by
      intro c hc
      obtain ⟨name, -, rfl⟩ := Option.map_eq_some_iff.1 (Option.mem_toList.1 hc)
      exact ⟨name, rfl⟩
    have hsingle : ((ModelLayer.activationComponents position kind l.settings).map
        Component.name).Nodup := by
      rw [ModelLayer.activationComponents]
      cases Component.activation? kind l.settings with
      | none => exact List.nodup_nil
      | some name => exact List.nodup_singleton _
    rw [List.map_cons, List.nodup_cons, List.map_append, List.nodup_append]
    refine ⟨?_, hsingle, ih hothers, ?_⟩
    · intro hmem
      rcases List.mem_append.1 hmem with hmem | hmem
      · obtain ⟨c, hc, hname⟩ := List.mem_map.1 hmem
        obtain ⟨name, rfl⟩ := hactivations c hc
        exact Component.name_ne_activation hname.symm
      · obtain ⟨c, hc, hname⟩ := List.mem_map.1 hmem
        exact hbehind _ (Component.namedAt_ofLayer position kind l.settings) c hc hname.symm
    · intro first hfirst second hsecond
      obtain ⟨c, hc, rfl⟩ := List.mem_map.1 hfirst
      obtain ⟨d, hd, rfl⟩ := List.mem_map.1 hsecond
      obtain ⟨name, rfl⟩ := hactivations c hc
      exact hbehind _ (Component.namedAt_ofActivation position name) d hd

/-- The components of a list of layers are those of its layers one by one. -/
lemma exists_blocks (h : componentsFrom position layers = .ok cs) :
    ∃ blocks : List (List Component),
      List.Forall₂ (fun layer block => layer.1.components layer.2 = .ok block)
        (layers.zipIdx position) blocks ∧ cs = blocks.flatten := by
  induction layers generalizing position cs with
  | nil =>
    cases h
    exact ⟨[], .nil, rfl⟩
  | cons first layers ih =>
    obtain ⟨block, hblock, h⟩ := bind_eq_ok.1 h
    obtain ⟨others, hothers, h⟩ := bind_eq_ok.1 h
    cases h
    obtain ⟨blocks, hblocks, rfl⟩ := ih hothers
    exact ⟨block :: blocks, .cons hblock hblocks, rfl⟩

/-- Some blocks that are those of the layers one by one make up the components. -/
lemma componentsFrom_of_blocks {blocks : List (List Component)}
    (h : List.Forall₂ (fun layer block => layer.1.components layer.2 = .ok block)
      (layers.zipIdx position) blocks) : componentsFrom position layers = .ok blocks.flatten := by
  induction layers generalizing position blocks with
  | nil =>
    cases h
    rfl
  | cons first layers ih =>
    obtain ⟨block, others, hblock, hothers, rfl⟩ := List.forall₂_cons_left_iff.1 h
    rw [componentsFrom, show first.components position = .ok block from hblock, ih hothers]
    rfl

end Model

/-! ## The source of a model -/

/-- The structure of a generated module. There is a block of components for each layer in order,
which depends on the layer and its position alone. The constructor declares all components, whose
names are different, and forward has one line for each of them in the same order, and then returns.
All these lines are single lines, whatever the settings are. -/
theorem Generator.structure_of_generate (generator : Generator) {model : Model} {source : String}
    (h : generator.generate model = .ok source) :
    ∃ blocks : List (List Component),
      List.Forall₂ (fun layer block =>
          layer.1.components layer.2 = .ok block ∧ layer.1.IsBlock layer.2 block)
        model.layers.zipIdx blocks ∧
      (blocks.flatten.map Component.name).Nodup ∧
      (∀ c ∈ blocks.flatten, OneLine c.declaration.toList ∧ OneLine c.application.toList) ∧
      source = textOfLines (writtenLines generator.className blocks.flatten) := by
  rw [generate_eq] at h
  obtain ⟨cs, hcs, rfl⟩ := map_eq_ok.1 h
  have hplain := Model.plain_of_componentsFrom (fun l hl => Model.floats_subset hl) hcs
  obtain ⟨blocks, hblocks, rfl⟩ := Model.exists_blocks hcs
  refine ⟨blocks, hblocks.imp fun _ _ hblock => ⟨hblock, ModelLayer.isBlock_of_components hblock⟩,
    Model.nodup_names_componentsFrom hcs, fun c hc => ?_, rfl⟩
  exact ⟨Component.oneLine_declaration (hplain c hc), Component.oneLine_application (hplain c hc)⟩

/-- One layer of each kind. The activation of the pooling layer takes no effect there, the one of the
convolution means none, and dropout declares no rate. -/
def mixedModel : Model := ⟨4, [
  ⟨"Dense", .ofList [("activation", .choice "Softmax"), ("bias", .bool false)]⟩,
  ⟨"SpatialMaxPool", .ofList [("activation", .choice "ReLU"), ("stride", .auto)]⟩,
  ⟨"MultiHeadAttention", .empty⟩,
  ⟨"SpatialConv", .ofList [("activation", .choice "None"), ("padding", .choice "same"),
    ("stride", .int 2)]⟩,
  ⟨"SpatialBatchNorm", .ofList [("affine", .bool true), ("numFeatures", .int 32)]⟩,
  ⟨"Dropout", .ofList [("rate", .int 1), ("inplace", .bool true)]⟩,
  ⟨"Flatten", .ofList [("endDim", .int (-1))]⟩]⟩

/-- The components of the mixed model are those of its layers and of one activation. -/
theorem structure_of_mixed_model : ∃ source blocks,
    (Generator.mk "Net").generate mixedModel = .ok source ∧
    List.Forall₂ (fun layer block => layer.1.components layer.2 = .ok block ∧
      layer.1.IsBlock layer.2 block) mixedModel.layers.zipIdx blocks ∧
    blocks.flatten.map (fun c => (c.name, c.className, c.arguments)) = [
      ("fc0", "Linear", [("bias", "False")]),
      ("act0", "Softmax", [("dim", "1")]),
      ("pool1", "MaxPool2d", [("stride", "None")]),
      ("attn2", "MultiheadAttention", []),
      ("conv3", "Conv2d", [("stride", "2"), ("padding", "\"same\"")]),
      ("bn4", "BatchNorm2d", [("num_features", "32"), ("affine", "True")]),
      ("dropout5", "Dropout", [("inplace", "True")]),
      ("flatten6", "Flatten", [("end_dim", "-1")])] ∧
    (blocks.flatten.map Component.name).Nodup := by
  obtain ⟨source, hsource⟩ : ∃ source, (Generator.mk "Net").generate mixedModel = .ok source :=
    ⟨_, rfl⟩
  obtain ⟨blocks, hblocks, hnodup, -, -⟩ := Generator.structure_of_generate ⟨"Net"⟩ hsource
  have hcomponents : mixedModel.components = .ok blocks.flatten :=
    Model.componentsFrom_of_blocks (hblocks.imp fun _ _ hblock => hblock.1)
  have hshown : mixedModel.components.map
      (fun cs => cs.map fun c => (c.name, c.className, c.arguments)) = .ok [
        ("fc0", "Linear", [("bias", "False")]),
        ("act0", "Softmax", [("dim", "1")]),
        ("pool1", "MaxPool2d", [("stride", "None")]),
        ("attn2", "MultiheadAttention", []),
        ("conv3", "Conv2d", [("stride", "2"), ("padding", "\"same\"")]),
        ("bn4", "BatchNorm2d", [("num_features", "32"), ("affine", "True")]),
        ("dropout5", "Dropout", [("inplace", "True")]),
        ("flatten6", "Flatten", [("end_dim", "-1")])] := by decide +kernel
  rw [hcomponents] at hshown
  exact ⟨source, blocks, hsource, hblocks, Except.ok.inj hshown, hnodup⟩

end LayerChain
